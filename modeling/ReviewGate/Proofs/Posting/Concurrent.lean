import ReviewGate.Proofs.Posting.Knowledge

/-! Two posters at once. Each of them replaces the summaries that it finds, and does not know of the other
one. Of two posters that find the same summary only one can delete it, and the other one fails. If a poster
finds none since the other one has just deleted the last of them, or since there never was one, then both
of them succeed and both summaries stay. If a poster is held back between its requests, since the budget is
low, then it may have deleted the summary of the other one and leave none. -/
namespace ReviewGate.Poster

open Forge Forge.Comment

/-- Whether neither side asks for a page of comments once the other side has added one. -/
def Unaware (hist : History) : Prop :=
  hist.Pairwise fun e f => e.1 ≠ f.1 → e.2.method = "POST" → f.2.method ≠ "GET"

instance : DecidablePred Unaware := fun hist =>
  inferInstanceAs (Decidable (hist.Pairwise _))

variable {σ : Type} {h : Host σ} {p : Poster} {pull : Value} {marker body : String} {who w : Bool}
  {hist : History} {x : σ} {q : Request} {phase a b : Phase} {outcome : Option Bool}

/-! ### The last poster -/

theorem follows_ended {ok : Bool}
    (hfollows : p.Follows h pull marker body who hist x (.ended ok) outcome) :
    outcome = some ok ∧ ∀ e ∈ hist, e.1 = !who := by
  induction hist generalizing x with
  | nil =>
    cases hfollows
    exact ⟨rfl, by simp⟩
  | cons e hist ih =>
    obtain ⟨w, q⟩ := e
    by_cases hw : w = who
    · subst hw
      obtain ⟨hrequest, -⟩ := follows_self.mp hfollows
      cases hrequest
    · obtain rfl : w = !who := Bool.eq_not.mpr hw
      obtain ⟨houtcome, hall⟩ := ih ((follows_other hw).mp hfollows)
      exact ⟨houtcome, List.forall_mem_cons.mpr ⟨rfl, hall⟩⟩

/-- A poster that has still to read comments and comes to its end asks for a page. -/
theorem Follows.listing {page : Nat} {seen : List Comment} {ok : Bool}
    (hfollows : p.Follows h pull marker body who hist x (.listing page seen) (some ok)) :
    ∃ e ∈ hist, e.1 = who ∧ e.2.method = "GET" := by
  induction hist generalizing x with
  | nil => cases hfollows
  | cons e hist ih =>
    obtain ⟨w, q⟩ := e
    by_cases hw : w = who
    · subst hw
      obtain ⟨hrequest, -⟩ := follows_self.mp hfollows
      obtain rfl := Option.some.inj hrequest
      exact ⟨_, List.mem_cons_self, rfl, by simp⟩
    · obtain rfl : w = !who := Bool.eq_not.mpr hw
      obtain ⟨e, he, hmethod⟩ := ih ((follows_other hw).mp hfollows)
      exact ⟨e, List.mem_cons_of_mem _ he, hmethod⟩

/-- A poster that has read all comments asks for no page any more. -/
theorem Follows.deleting {left : List Comment}
    (hfollows : p.Follows h pull marker body who hist x (.deleting left) outcome) :
    ∀ e ∈ hist, e.1 = who → e.2.method ≠ "GET" := by
  induction hist generalizing x left with
  | nil => simp
  | cons e hist ih =>
    obtain ⟨w, q⟩ := e
    by_cases hw : w = who
    · subst hw
      obtain ⟨hrequest, hfollows⟩ := follows_self.mp hfollows
      have hended : ∀ ok, p.Follows h pull marker body w hist (h.next x q) (.ended ok) outcome →
          ∀ e ∈ hist, e.1 = w → e.2.method ≠ "GET" := by
        intro ok hended e he hself
        have hother := (follows_ended hended).2 e he
        rw [hself] at hother
        cases w <;> cases hother
      refine List.forall_mem_cons.mpr ⟨fun _ => ?_, ?_⟩
      · cases left <;> obtain rfl := Option.some.inj hrequest <;> simp
      · cases left with
        | nil => exact hended true hfollows
        | cons c left =>
          by_cases hheld : c.id ∈ (h.comments x).map Comment.id
          · rw [Phase.next_deleting_of_mem hheld] at hfollows
            exact ih hfollows
          · rw [Phase.next_deleting_of_not_mem hheld] at hfollows
            exact hended false hfollows
    · obtain rfl : w = !who := Bool.eq_not.mpr hw
      refine List.forall_mem_cons.mpr ⟨fun hself => ?_, ih ((follows_other hw).mp hfollows)⟩
      cases who <;> cases hself

/-- Where no comment has the marker, an addition leaves one that has it. -/
theorem addition_leaves (hgrants : h.GrantsIn p.client p.repository pull x) (hmarker : p.marker = .str marker)
    (hrequest : (Phase.deleting []).request p pull body = some q)
    (hnone : (h.comments x).filter (fun c => c.IsMarked marker) = []) :
    q.method = "POST" ∧ marks marker (h.comments (h.next x q)) = 1 ∧
      ∃ c, h.comments (h.next x q) = h.comments x ++ [c] := by
  obtain rfl := Option.some.inj hrequest
  obtain ⟨id, hadded⟩ := held_after_addition hgrants body
  refine ⟨rfl, ?_, _, hadded⟩
  rw [hadded, marks_append, marks_cons (isMarked_of_text (marker_infix_marked hmarker body) id),
    marks_eq_zero (by simpa using List.filter_eq_nil_iff.mp hnone)]
  rfl

section Two

variable {p : Bool → Poster} {bodies : Bool → String}

/-- A poster that is bound to fail leaves the comments as they are. -/
theorem late_stale (hshares : h.Shares (fun w => (p w).client) (fun w => (p w).repository) pull hist x)
    (honly : ∀ e ∈ hist, e.1 = w)
    (hfollows : (p w).Follows h pull marker (bodies w) w hist x phase outcome)
    (hstale : phase.IsStale h marker hist x) :
    outcome ≠ some true ∧ h.comments (h.after x hist.requests) = h.comments x := by
  induction hist generalizing x phase with
  | nil =>
    obtain rfl : phase.outcome = outcome := hfollows
    exact ⟨hstale.outcome_ne, rfl⟩
  | cons e hist ih =>
    obtain ⟨w', q⟩ := e
    obtain ⟨(rfl : w' = w), honly⟩ := List.forall_mem_cons.mp honly
    obtain ⟨hgrants, hmisses, -, hshares⟩ := hshares
    obtain ⟨hrequest, hfollows⟩ := follows_self.mp hfollows
    obtain ⟨hnext, hsame, -⟩ := hstale.next hgrants hmisses hrequest
    obtain ⟨houtcome, hheld⟩ := ih hshares honly hfollows hnext
    exact ⟨houtcome, hheld.trans hsame⟩

/-- A poster that has nothing to delete adds its summary, unless it is held back. -/
theorem late_adding (hmarker : ∀ w, (p w).marker = .str marker)
    (hshares : h.Shares (fun w => (p w).client) (fun w => (p w).repository) pull hist x)
    (honly : ∀ e ∈ hist, e.1 = w)
    (hfollows : (p w).Follows h pull marker (bodies w) w hist x (.deleting []) outcome) :
    (outcome = some true ∧
        marks marker (h.comments (h.after x hist.requests)) = marks marker (h.comments x) + 1) ∨
      (outcome = none ∧ h.comments (h.after x hist.requests) = h.comments x) := by
  cases hist with
  | nil =>
    obtain rfl : none = outcome := hfollows
    exact Or.inr ⟨rfl, rfl⟩
  | cons e hist =>
    obtain ⟨w', q⟩ := e
    obtain ⟨(rfl : w' = w), hmore⟩ := List.forall_mem_cons.mp honly
    obtain ⟨hgrants, -, -, -⟩ := hshares
    obtain ⟨hrequest, hfollows⟩ := follows_self.mp hfollows
    obtain rfl := Option.some.inj hrequest
    obtain ⟨houtcome, hothers⟩ := follows_ended hfollows
    obtain rfl : hist = [] := by
      refine List.eq_nil_iff_forall_not_mem.mpr fun e he => ?_
      have hself := hmore e he
      rw [hothers e he] at hself
      cases w' <;> cases hself
    obtain ⟨id, hadded⟩ := held_after_addition hgrants (bodies w')
    refine Or.inl ⟨houtcome, ?_⟩
    show marks marker (h.comments (h.next x _)) = _
    rw [hadded, marks_append, marks_cons (isMarked_of_text (marker_infix_marked (hmarker w') _) id)]
    rfl

/-- A poster that knows of all comments with the marker puts its summary in the place of them, unless it is
held back. -/
theorem late_current (hmarker : ∀ w, (p w).marker = .str marker)
    (hshares : h.Shares (fun w => (p w).client) (fun w => (p w).repository) pull hist x)
    (honly : ∀ e ∈ hist, e.1 = w)
    (hfollows : (p w).Follows h pull marker (bodies w) w hist x phase outcome)
    (hcurrent : phase.IsCurrent marker (h.comments x)) :
    (outcome = some true ∧ marks marker (h.comments (h.after x hist.requests)) = 1) ∨
      (outcome = none ∧
        marks marker (h.comments (h.after x hist.requests)) ≤ marks marker (h.comments x)) := by
  induction hist generalizing x phase with
  | nil =>
    obtain rfl : phase.outcome = outcome := hfollows
    exact Or.inr ⟨hcurrent.outcome_eq, Nat.le_refl _⟩
  | cons e hist ih =>
    by_cases hadds : phase = .deleting []
    · subst hadds
      have hnone : marks marker (h.comments x) = 0 :=
        marks_eq_zero (by simpa using List.filter_eq_nil_iff.mp hcurrent.symm)
      rcases late_adding hmarker hshares honly hfollows with ⟨houtcome, hmarks⟩ | ⟨houtcome, hsame⟩
      · exact Or.inl ⟨houtcome, by rw [hmarks, hnone]⟩
      · exact Or.inr ⟨houtcome, Nat.le_of_eq (congrArg (marks marker) hsame)⟩
    · obtain ⟨w', q⟩ := e
      obtain ⟨(rfl : w' = w), honly⟩ := List.forall_mem_cons.mp honly
      obtain ⟨hgrants, -, -, hshares⟩ := hshares
      obtain ⟨hrequest, hfollows⟩ := follows_self.mp hfollows
      have hfewer := marks_next_le hgrants hrequest hadds hcurrent
      have hnext := hcurrent.next hgrants hrequest hadds
      rcases ih hshares honly hfollows hnext with hadded | ⟨houtcome, hmarks⟩
      · exact Or.inl hadded
      · exact Or.inr ⟨houtcome, Nat.le_trans hmarks hfewer⟩

/-! ### Both posters -/

variable {one other : Option Bool}

/-- Whether both posters have succeeded, and neither knew of the other one. -/
def PassBy (hist : History) (one other : Option Bool) : Prop :=
  (one = some true ∧ other = some true) ∧ Unaware hist

theorem PassBy.swap (h : PassBy hist one other) : PassBy hist other one :=
  ⟨h.1.symm, h.2⟩

theorem passBy_cons (hpost : q.method ≠ "POST") : PassBy ((w, q) :: hist) one other ↔ PassBy hist one other := by
  have hunaware : Unaware ((w, q) :: hist) ↔ Unaware hist := by simp [Unaware, hpost]
  exact and_congr_right' hunaware

/-- What is left when two posters have stopped with these outcomes. If neither has been held back, one of
them has succeeded. If one has succeeded, two comments with the marker are left if both have passed by each
other, and otherwise one, which may be missing only if a poster has been held back. -/
structure IsSettled (marker : String) (hist : History) (cs : List Comment) (one other : Option Bool) :
    Prop where
  succeeds : one ≠ none → other ≠ none → one = some true ∨ other = some true
  two : PassBy hist one other → marks marker cs = 2
  atMost : one = some true ∨ other = some true → ¬ PassBy hist one other → marks marker cs ≤ 1
  single : one ≠ none → other ≠ none → ¬ PassBy hist one other → marks marker cs = 1

namespace IsSettled

variable {cs : List Comment}

theorem swap (hsettled : IsSettled marker hist cs one other) : IsSettled marker hist cs other one where
  succeeds hone hother := (hsettled.succeeds hother hone).symm
  two hpass := hsettled.two hpass.swap
  atMost hsome hnot := hsettled.atMost hsome.symm fun hpass => hnot hpass.swap
  single hone hother hnot := hsettled.single hother hone fun hpass => hnot hpass.swap

theorem cons (hpost : q.method ≠ "POST") (hsettled : IsSettled marker hist cs one other) :
    IsSettled marker ((w, q) :: hist) cs one other where
  succeeds := hsettled.succeeds
  two hpass := hsettled.two ((passBy_cons hpost).mp hpass)
  atMost hsome hnot := hsettled.atMost hsome fun hpass => hnot ((passBy_cons hpost).mpr hpass)
  single hone hother hnot := hsettled.single hone hother fun hpass => hnot ((passBy_cons hpost).mpr hpass)

theorem of_passBy (hpass : PassBy hist one other) (htwo : marks marker cs = 2) :
    IsSettled marker hist cs one other where
  succeeds _ _ := Or.inl hpass.1.1
  two _ := htwo
  atMost _ hnot := absurd hpass hnot
  single _ _ hnot := absurd hpass hnot

theorem of_not_passBy (hnot : ¬ PassBy hist (some true) other) (hone : marks marker cs = 1) :
    IsSettled marker hist cs (some true) other where
  succeeds _ _ := Or.inl rfl
  two hpass := absurd hpass hnot
  atMost _ _ := Nat.le_of_eq hone
  single _ _ _ := hone

theorem of_heldBack (hmost : marks marker cs ≤ 1) : IsSettled marker hist cs (some true) none where
  succeeds _ _ := Or.inl rfl
  two := by simp [PassBy]
  atMost _ _ := hmost
  single _ hother := absurd rfl hother

end IsSettled

/-- The other poster has not read all comments, so it finds the new summary and deletes it. -/
theorem settled_of_listing {page : Nat} {seen : List Comment} (hmarker : ∀ w, (p w).marker = .str marker)
    (hshares : h.Shares (fun w => (p w).client) (fun w => (p w).repository) pull hist x)
    (honly : ∀ e ∈ hist, e.1 = w) (hw : who ≠ w) (hpost : q.method = "POST")
    (hb : (p w).Follows h pull marker (bodies w) w hist x (.listing page seen) other)
    (hcurrent : (Phase.listing page seen).IsCurrent marker (h.comments x))
    (hone : marks marker (h.comments x) = 1) :
    IsSettled marker ((who, q) :: hist) (h.comments (h.after x hist.requests)) (some true) other := by
  rcases late_current hmarker hshares honly hb hcurrent with ⟨rfl, hmarks⟩ | ⟨rfl, hmarks⟩
  · refine .of_not_passBy ?_ hmarks
    rintro ⟨-, hunaware⟩
    obtain ⟨e, he, hself, hget⟩ := hb.listing
    exact (List.pairwise_cons.mp hunaware).1 e he (hself ▸ hw) hpost hget
  · exact .of_heldBack (hone ▸ hmarks)

/-- The other poster has read all comments before, so both summaries stay. -/
theorem settled_of_deleting (hmarker : ∀ w, (p w).marker = .str marker)
    (hshares : h.Shares (fun w => (p w).client) (fun w => (p w).repository) pull hist x)
    (honly : ∀ e ∈ hist, e.1 = w)
    (hb : (p w).Follows h pull marker (bodies w) w hist x (.deleting []) other)
    (hone : marks marker (h.comments x) = 1) :
    IsSettled marker ((who, q) :: hist) (h.comments (h.after x hist.requests)) (some true) other := by
  rcases late_adding hmarker hshares honly hb with ⟨rfl, hmarks⟩ | ⟨rfl, hsame⟩
  · refine .of_passBy ⟨⟨rfl, rfl⟩, List.pairwise_cons.mpr ⟨?_, ?_⟩⟩ (by rw [hmarks, hone])
    · exact fun e he _ _ => hb.deleting e he (honly e he)
    · refine List.pairwise_of_forall_mem_list fun e he f hf hne => ?_
      exact absurd ((honly e he).trans (honly f hf).symm) hne
  · exact .of_heldBack (Nat.le_of_eq (by rw [hsame, hone]))

/-- Once one poster has added its summary, the other one goes on alone. -/
theorem settled_of_addition (hmarker : ∀ w, (p w).marker = .str marker)
    (hshares : h.Shares (fun w => (p w).client) (fun w => (p w).repository) pull ((who, q) :: hist) x)
    (ha : (p who).Follows h pull marker (bodies who) who ((who, q) :: hist) x (.deleting []) one)
    (hb : (p !who).Follows h pull marker (bodies !who) (!who) ((who, q) :: hist) x b other)
    (hcurrent : (Phase.deleting []).IsCurrent marker (h.comments x))
    (hother : b.IsCurrent marker (h.comments x) ∨ b.IsStale h marker ((who, q) :: hist) x) :
    IsSettled marker ((who, q) :: hist) (h.comments (h.after x (History.requests ((who, q) :: hist))))
      one other := by
  obtain ⟨hgrants, -, -, hshares⟩ := hshares
  obtain ⟨hrequest, ha⟩ := follows_self.mp ha
  have hw : who ≠ !who := by simp
  replace hb := (follows_other hw).mp hb
  obtain ⟨rfl, honly⟩ := follows_ended ha
  have hnone : (h.comments x).filter (fun c => c.IsMarked marker) = [] := hcurrent.symm
  obtain ⟨hpost, hone, c, hadded⟩ := addition_leaves hgrants (hmarker who) hrequest hnone
  show IsSettled marker _ (h.comments (h.after (h.next x q) hist.requests)) (some true) other
  rcases hother with hb' | hstale
  · cases b with
    | listing page seen =>
      exact settled_of_listing hmarker hshares honly hw hpost hb (hadded ▸ hb'.append c) hone
    | deleting left =>
      obtain rfl : left = [] := hb'.trans hnone
      exact settled_of_deleting hmarker hshares honly hb hone
    | ended ok => exact hb'.elim
  · obtain ⟨houtcome, hsame⟩ := late_stale hshares honly hb hstale.later
    exact .of_not_passBy (fun hpass => houtcome hpass.1.2) (hsame ▸ hone)

/-- However the requests of two posters follow one another, one of which knows what the forge holds. -/
theorem settled_of_follows (hmarker : ∀ w, (p w).marker = .str marker)
    (hshares : h.Shares (fun w => (p w).client) (fun w => (p w).repository) pull hist x)
    (ha : (p who).Follows h pull marker (bodies who) who hist x a one)
    (hb : (p !who).Follows h pull marker (bodies !who) (!who) hist x b other)
    (hcurrent : a.IsCurrent marker (h.comments x))
    (hother : b.IsCurrent marker (h.comments x) ∨ b.IsStale h marker hist x) :
    IsSettled marker hist (h.comments (h.after x hist.requests)) one other := by
  -- As long as nothing is added, one poster knows what the forge holds, and the other one knows it as well or
  -- is bound to fail.
  induction hist generalizing who x a b one other with
  | nil =>
    obtain rfl : a.outcome = one := ha
    obtain rfl : b.outcome = other := hb
    have hheld := hcurrent.outcome_eq
    have hnot : b.outcome ≠ some true := by
      rcases hother with hb' | hstale
      · simp [hb'.outcome_eq]
      · exact hstale.outcome_ne
    exact ⟨fun h => absurd hheld h, fun hpass => absurd hpass.1.2 hnot, by simp [hheld, hnot],
      fun h => absurd hheld h⟩
  | cons e hist ih =>
    obtain ⟨w, q⟩ := e
    have hturn : ∀ {a b : Phase} {one other : Option Bool},
        (p w).Follows h pull marker (bodies w) w ((w, q) :: hist) x a one →
        (p !w).Follows h pull marker (bodies !w) (!w) ((w, q) :: hist) x b other →
        a.IsCurrent marker (h.comments x) →
        (b.IsCurrent marker (h.comments x) ∨ b.IsStale h marker ((w, q) :: hist) x) →
        IsSettled marker ((w, q) :: hist) (h.comments (h.after x (History.requests ((w, q) :: hist)))) one
          other := by
      intro a b one other ha hb hcurrent hother
      by_cases hadds : a = .deleting []
      · subst hadds
        exact settled_of_addition hmarker hshares ha hb hcurrent hother
      · obtain ⟨hgrants, -, hgone, hshares⟩ := hshares
        obtain ⟨hrequest, ha⟩ := follows_self.mp ha
        replace hb := (follows_other (by simp)).mp hb
        refine .cons (request_ne_post hrequest hadds)
          (ih hshares ha hb (hcurrent.next hgrants hrequest hadds) ?_)
        rcases hother with hb' | hstale
        · exact hcurrent.other hgrants hgone hrequest hadds hb'
        · exact Or.inr hstale.later
    by_cases hw : w = who
    · subst hw
      exact hturn ha hb hcurrent hother
    · obtain rfl : w = !who := Bool.eq_not.mpr hw
      rcases hother with hb' | hstale
      -- The other poster knows as much, so that both have changed places.
      · have ha' : (p !!who).Follows h pull marker (bodies !!who) (!!who) ((!who, q) :: hist) x a one := by
          rwa [Bool.not_not]
        exact (hturn hb ha' hb' (Or.inl hcurrent)).swap
      · obtain ⟨hgrants, hmisses, -, hshares⟩ := hshares
        obtain ⟨hrequest, hb⟩ := follows_self.mp hb
        replace ha := (follows_other hw).mp ha
        obtain ⟨hnext, hsame, hpost⟩ := hstale.next hgrants hmisses hrequest
        exact .cons hpost (ih hshares ha hb (hsame.symm ▸ hcurrent) (Or.inr hnext))

/-- Whether a poster that is answered as a history says has sent the requests of its side when it ends. -/
structure Attends (h : Host σ) (p : Poster) (pull : Value) (body : String) (who : Bool) (hist : History)
    (x : σ) (s : Runner) (result : Except Fault Value) (t : Runner) : Prop where
  faces : h.Faces who hist x s
  run : p.postSummary pull body s = (result, t)
  sent : t.requests = s.requests ++ hist.own who

theorem StopsWith.isOk_iff {result : Except Fault Value} (hstops : StopsWith result outcome) :
    result.isOk = true ↔ outcome = some true := by
  cases outcome with
  | none =>
    obtain ⟨reset, rfl⟩ := hstops
    simp [Except.isOk, Except.toBool]
  | some ok =>
    obtain rfl : result.isOk = ok := hstops
    simp

/-- Two posters replace the summaries on one pull request, and their requests follow one another in any
way. Unless a poster is held back since its budget is low, at least one of them succeeds. If one of them
has succeeded, then two comments with the marker are left if both have succeeded and neither has asked for a
page of comments after the other one had added its summary. Otherwise there is one such comment, which may
be missing only if a poster has been held back. -/
theorem postSummary_concurrently {s t : Bool → Runner} {result : Bool → Except Fault Value}
    (hmarker : ∀ w, (p w).marker = .str marker) (hrecreate : ∀ w, (p w).recreate = true)
    (hshares : h.Shares (fun w => (p w).client) (fun w => (p w).repository) pull hist x)
    (hruns : ∀ w, Attends h (p w) pull (bodies w) w hist x (s w) (result w) (t w)) :
    ((∀ w, ¬ IsHeldBack (result w)) → ∃ w, (result w).isOk = true) ∧
      ((∃ w, (result w).isOk = true) →
        if ((result false).isOk = true ∧ (result true).isOk = true) ∧ Unaware hist then
          marks marker (h.comments (h.after x hist.requests)) = 2
        else
          marks marker (h.comments (h.after x hist.requests)) ≤ 1 ∧
            ((∀ w, ¬ IsHeldBack (result w)) →
              marks marker (h.comments (h.after x hist.requests)) = 1)) := by
  have hfollows : ∀ w, ∃ outcome, StopsWith (result w) outcome ∧
      (p w).Follows h pull marker (bodies w) w hist x .start outcome := fun w =>
    (Resumes.start (hruns w).run).follows (hmarker w) (hrecreate w) rfl rfl hshares
      (fun _ => (hruns w).faces) (hruns w).sent
  choose outcome hstops hfollows using hfollows
  have hstart : Phase.start.IsCurrent marker (h.comments x) := ⟨by simp, by simp⟩
  have hsettled :=
    settled_of_follows hmarker hshares (hfollows false) (hfollows true) hstart (Or.inl hstart)
  have hok : ∀ w, (result w).isOk = true ↔ outcome w = some true := fun w => (hstops w).isOk_iff
  have hfree : ∀ w, ¬ IsHeldBack (result w) → outcome w ≠ none := by
    intro w hnot houtcome
    have hheld := hstops w
    rw [houtcome] at hheld
    exact hnot hheld
  simp only [hok, Bool.exists_bool]
  refine ⟨fun h => hsettled.succeeds (hfree _ (h false)) (hfree _ (h true)), fun hsome => ?_⟩
  split_ifs with hboth
  · exact hsettled.two hboth
  · exact ⟨hsettled.atMost hsome hboth, fun h =>
      hsettled.single (hfree _ (h false)) (hfree _ (h true)) hboth⟩

end Two

/-! ### Three histories -/

/-- The forge that both sides ask in memory, which says something about the budget after a deletion. -/
def bothSides (said : List (String × String)) : Host Shelf :=
  Host.strict replacingPoster.client replacingPoster.repository said

/-- The headers that say that the budget is used up. -/
def usedUp : List (String × String) :=
  [(remainingHeader, "0"), (resetHeader, "100")]

theorem hasBudget_nil (status : Int) : (Reply.of status [] "").HasBudget :=
  ⟨⟨none, rfl⟩, ⟨none, rfl, by simp⟩⟩

theorem hasBudget_usedUp (status : Int) : (Reply.of status usedUp "").HasBudget := by
  refine ⟨⟨some 0, rfl⟩, ⟨some 100, rfl, ?_⟩⟩
  rintro time ⟨⟩
  exact ⟨100, rfl⟩

def sideSummary (who : Bool) : String :=
  if who then "Second" else "First"

def asksForPage : Request :=
  replacingPoster.client.listing replacingPoster.repository (.int 7) 1 100

def asksToAdd (who : Bool) : Request :=
  replacingPoster.client.addition replacingPoster.repository (.int 7) (replacingPoster.marked (sideSummary who))

def asksToDelete (id : Int) : Request :=
  replacingPoster.client.deletion replacingPoster.repository id

def oneSummary : Shelf :=
  ⟨[⟨2, some (replacingPoster.marked "Old")⟩], 3⟩

/-- Both posters find the same summary, and the first one is too late to delete it. -/
def colliding : History :=
  [(false, asksForPage), (true, asksForPage), (true, asksToDelete 2), (false, asksToDelete 2),
    (true, asksToAdd true)]

/-- Both posters read all comments before either of them adds its own. -/
def crossing : History :=
  [(false, asksForPage), (true, asksForPage), (false, asksToAdd false), (true, asksToAdd true)]

/-- The second poster deletes the summary of the first one and does not get any further. -/
def interrupted : History :=
  [(false, asksForPage), (false, asksToAdd false), (true, asksForPage), (true, asksToDelete 1)]

theorem isMarked_marked (id : Int) (body : String) :
    (Comment.mk id (some (replacingPoster.marked body))).IsMarked "<!-- review -->" :=
  isMarked_of_text (marker_infix_marked rfl body) id

/-- One summary is found at once. -/
theorem next_start (id : Int) (body : String) :
    Phase.next "<!-- review -->" [⟨id, some (replacingPoster.marked body)⟩] .start =
      .deleting [⟨id, some (replacingPoster.marked body)⟩] := by
  rw [Phase.start, Phase.next_listing_of_short (by simp)]
  simp [isMarked_marked]

section Follow

variable (said : List (String × String))

theorem colliding_follows (who : Bool) : replacingPoster.Follows (bothSides said) (.int 7) "<!-- review -->"
    (sideSummary who) who colliding oneSummary .start (some who) := by
  cases who
  · refine follows_self.mpr ⟨rfl, ?_⟩
    show replacingPoster.Follows _ _ _ _ _ _ _ (Phase.next "<!-- review -->" oneSummary.comments .start) _
    rw [oneSummary, next_start]
    refine (follows_other (by decide)).mpr ((follows_other (by decide)).mpr (follows_self.mpr ⟨rfl, ?_⟩))
    exact (follows_other (by decide)).mpr rfl
  · refine (follows_other (by decide)).mpr (follows_self.mpr ⟨rfl, ?_⟩)
    show replacingPoster.Follows _ _ _ _ _ _ _ (Phase.next "<!-- review -->" oneSummary.comments .start) _
    rw [oneSummary, next_start]
    exact follows_self.mpr ⟨rfl, (follows_other (by decide)).mpr (follows_self.mpr ⟨rfl, rfl⟩)⟩

theorem crossing_follows (who : Bool) : replacingPoster.Follows (bothSides said) (.int 7) "<!-- review -->"
    (sideSummary who) who crossing ⟨[], 1⟩ .start (some true) := by
  cases who
  · exact follows_self.mpr ⟨rfl, (follows_other (by decide)).mpr
      (follows_self.mpr ⟨rfl, (follows_other (by decide)).mpr rfl⟩)⟩
  · exact (follows_other (by decide)).mpr (follows_self.mpr ⟨rfl, (follows_other (by decide)).mpr
      (follows_self.mpr ⟨rfl, rfl⟩)⟩)

theorem interrupted_follows (who : Bool) : replacingPoster.Follows (bothSides said) (.int 7)
    "<!-- review -->" (sideSummary who) who interrupted ⟨[], 1⟩ .start (if who then none else some true) := by
  cases who
  · exact follows_self.mpr ⟨rfl, follows_self.mpr ⟨rfl, (follows_other (by decide)).mpr
      ((follows_other (by decide)).mpr rfl)⟩⟩
  · refine (follows_other (by decide)).mpr ((follows_other (by decide)).mpr (follows_self.mpr ⟨rfl, ?_⟩))
    show replacingPoster.Follows _ _ _ _ _ _ _
      (Phase.next "<!-- review -->" [⟨1, some (replacingPoster.marked "First")⟩] .start) _
    rw [next_start]
    exact follows_self.mpr ⟨rfl, rfl⟩

end Follow

/-- One side before it starts, and its run. -/
def sideMachine (said : List (String × String)) (who : Bool) (hist : History) (x : Shelf) : Runner :=
  { Runner.fresh 0 with network := (bothSides said).view who hist x }

def sideRun (said : List (String × String)) (who : Bool) (hist : History) (x : Shelf) :
    Except Fault Value × Runner :=
  replacingPoster.postSummary (.int 7) (sideSummary who) (sideMachine said who hist x)

/-- Whether both sides share the forge in memory along a history, and their runs have these results. -/
def BothEnd (said : List (String × String)) (hist : History) (x : Shelf)
    (result : Bool → Except Fault Value) : Prop :=
  (bothSides said).Shares (fun _ => replacingPoster.client) (fun _ => replacingPoster.repository) (.int 7)
      hist x ∧
    ∃ s t : Bool → Runner, ∀ w,
      Attends (bothSides said) replacingPoster (.int 7) (sideSummary w) w hist x (s w) (result w) (t w)

/-- How many comments with the marker are left after a history. -/
def left (said : List (String × String)) (hist : History) (x : Shelf) : Nat :=
  marks "<!-- review -->" ((bothSides said).comments ((bothSides said).after x hist.requests))

/-- A history in memory that goes by the phases on both sides, and is as long as two runs, comes of them. -/
theorem exists_bothEnd {said : List (String × String)} (hsaid : ∀ status, (Reply.of status said "").HasBudget)
    {x : Shelf} (hx : x.IsSound hist.length) {outcome : Bool → Option Bool}
    (hfollows : ∀ w, replacingPoster.Follows (bothSides said) (.int 7) "<!-- review -->" (sideSummary w) w
      hist x .start (outcome w))
    (hlength : ∀ w, (sideRun said w hist x).2.requests.length = (hist.own w).length) :
    ∃ result, BothEnd said hist x result ∧ (∀ w, StopsWith (result w) (outcome w)) ∧
      ∀ w, result w = (sideRun said w hist x).1 := by
  have hshares : (bothSides said).Shares (fun _ => replacingPoster.client)
      (fun _ => replacingPoster.repository) (.int 7) hist x := hx.shares hsaid
  have hruns : ∀ w, Attends (bothSides said) replacingPoster (.int 7) (sideSummary w) w hist x
      (sideMachine said w hist x) (sideRun said w hist x).1 (sideRun said w hist x).2 ∧
        StopsWith (sideRun said w hist x).1 (outcome w) := by
    intro w
    have hfaces : (bothSides said).Faces w hist x (sideMachine said w hist x) := Eq.refl _
    have hrun : replacingPoster.postSummary (.int 7) (sideSummary w) (sideMachine said w hist x) =
        ((sideRun said w hist x).1, (sideRun said w hist x).2) := rfl
    obtain ⟨hsent, hstops⟩ := (Resumes.start hrun).of_follows rfl rfl rfl rfl hshares (fun _ => hfaces)
      ((hlength w).trans (Nat.zero_add _).symm) (hfollows w)
    exact ⟨⟨hfaces, hrun, hsent⟩, hstops⟩
  exact ⟨fun w => (sideRun said w hist x).1, ⟨hshares, _, _, fun w => (hruns w).1⟩, fun w => (hruns w).2,
    fun _ => rfl⟩

/-- Whether a result says that a request has been held back. -/
def saysHeldBack : Except Fault Value → Bool
  | .error (.rateLimited _) => true
  | _ => false

theorem not_isHeldBack {result : Except Fault Value} (h : saysHeldBack result = false) :
    ¬ IsHeldBack result := by
  rintro ⟨reset, rfl⟩
  cases h

theorem postSummary_concurrently_collides :
    ∃ result, BothEnd [] colliding oneSummary result ∧ (result false).isOk = false ∧
      (result true).isOk = true ∧ left [] colliding oneSummary = 1 := by
  have hsound : oneSummary.IsSound colliding.length := ⟨by decide, by decide, by decide, by decide⟩
  have hsides : ∀ w, (sideRun [] w colliding oneSummary).2.requests.length = (colliding.own w).length ∧
      saysHeldBack (sideRun [] w colliding oneSummary).1 = false := by
    decide +kernel
  obtain ⟨result, hends, hstops, hresult⟩ :=
    exists_bothEnd hasBudget_nil hsound (colliding_follows []) fun w => (hsides w).1
  obtain ⟨hshares, s, t, hruns⟩ := id hends
  obtain ⟨-, hmarks⟩ := postSummary_concurrently (p := fun _ => replacingPoster) (fun _ => rfl)
    (fun _ => rfl) hshares hruns
  have hfailed : (result false).isOk = false := hstops false
  have hone := hmarks ⟨true, hstops true⟩
  rw [if_neg (by simp [hfailed])] at hone
  refine ⟨result, hends, hfailed, hstops true, hone.2 fun w => not_isHeldBack ?_⟩
  rw [hresult w, (hsides w).2]

/-- Where there is no summary two posters may succeed and leave two of them. -/
theorem crossing_leaves_two : ∃ result, BothEnd [] crossing ⟨[], 1⟩ result ∧
    (∀ w, (result w).isOk = true) ∧ left [] crossing ⟨[], 1⟩ = 2 := by
  have hsound : (Forge.Shelf.mk [] 1).IsSound crossing.length :=
    ⟨by decide, by decide, by decide, by decide⟩
  have hlength : ∀ w, (sideRun [] w crossing ⟨[], 1⟩).2.requests.length = (crossing.own w).length := by
    decide +kernel
  obtain ⟨result, hends, hstops, -⟩ := exists_bothEnd hasBudget_nil hsound (crossing_follows []) hlength
  refine ⟨result, hends, hstops, ?_⟩
  have hheld : (bothSides []).comments ((bothSides []).after ⟨[], 1⟩ crossing.requests) =
      [⟨1, some (replacingPoster.marked "First")⟩, ⟨2, some (replacingPoster.marked "Second")⟩] := rfl
  rw [left, hheld, marks_cons (isMarked_marked 1 _), marks_cons (isMarked_marked 2 _)]
  rfl

/-- A poster that is held back once it has deleted the summary of the other one leaves none. -/
theorem interrupted_leaves_none : ∃ result, BothEnd usedUp interrupted ⟨[], 1⟩ result ∧
    (result false).isOk = true ∧ IsHeldBack (result true) ∧ left usedUp interrupted ⟨[], 1⟩ = 0 := by
  have hsound : (Forge.Shelf.mk [] 1).IsSound interrupted.length :=
    ⟨by decide, by decide, by decide, by decide⟩
  have hlength : ∀ w, (sideRun usedUp w interrupted ⟨[], 1⟩).2.requests.length =
      (interrupted.own w).length := by
    decide +kernel
  obtain ⟨result, hends, hstops, -⟩ :=
    exists_bothEnd hasBudget_usedUp hsound (interrupted_follows usedUp) hlength
  exact ⟨result, hends, hstops false, hstops true, by decide⟩

/-- There may be two summaries in the end or none, although a poster has succeeded. -/
theorem postSummary_concurrently_leaves_two_or_none :
    (∃ result, BothEnd [] crossing ⟨[], 1⟩ result ∧ (∀ w, (result w).isOk = true) ∧
      left [] crossing ⟨[], 1⟩ = 2) ∧
    ∃ result, BothEnd usedUp interrupted ⟨[], 1⟩ result ∧ (result false).isOk = true ∧
      IsHeldBack (result true) ∧ left usedUp interrupted ⟨[], 1⟩ = 0 :=
  ⟨crossing_leaves_two, interrupted_leaves_none⟩

end ReviewGate.Poster
