import ReviewGate.Proofs.Forge.Unreliable
import ReviewGate.Proofs.Posting.OneSummary

/-! A summary that cannot be posted. At whichever request it fails, there still is a summary if there was
one before, with one exception: where old summaries are deleted first, nothing is left of them if the new
one cannot be added. -/
namespace ReviewGate.Poster

open Forge Forge.Comment

variable {σ : Type} {h : Host σ} {p : Poster} {pull : Value} {n : Nat} {x : σ} {s t : Runner}
  {marker body : String}

/-- What remains of the comments if a summary could not take the place of those that are there. -/
inductive Remains (p : Poster) (pull : Value) (marker body : String) (old : List Comment) :
    List Request → List Comment → Prop
  | all (qs : List Request) : Remains p pull marker body old qs old
  | some (recreate : p.recreate = true) (qs : List Request) (left : List Comment) (c : Comment)
    (held : c ∈ left) (marked : c.IsMarked marker) : Remains p pull marker body old qs left
  | others (recreate : p.recreate = true) (reads creation : List Request)
    (gets : ∀ q ∈ reads, q.method = "GET")
    (last : creation <+: [p.client.addition p.repository pull (p.marked body)]) :
    Remains p pull marker body old
      (reads ++ ((old.filter fun c => c.IsMarked marker).map fun c =>
        p.client.deletion p.repository c.id) ++ creation)
      (old.filter fun c => ¬ c.IsMarked marker)

theorem Remains.after_reads {old left : List Comment} {reads qs : List Request}
    (hleft : Remains p pull marker body old qs left) (hreads : ∀ q ∈ reads, q.method = "GET") :
    Remains p pull marker body old (reads ++ qs) left := by
  cases hleft with
  | all => exact .all _
  | some hrecreate _ _ c hheld hmarked => exact .some hrecreate _ _ c hheld hmarked
  | others hrecreate more creation hgets hlast =>
    rw [← List.append_assoc, ← List.append_assoc]
    exact .others hrecreate (reads ++ more) creation
      (fun q hq => (List.mem_append.mp hq).elim (hreads q) (hgets q)) hlast

/-- All comments are read, and those with the marker are found among them. -/
theorem summaries_ends (hmarker : p.marker = .str marker) (hs : h.Stands p.client p.repository pull n x s) :
    h.Ends p.client p.repository pull n x s
      (fun olds qs cs => List.Forall₂ IsShownBy ((h.comments x).filter fun c => c.IsMarked marker) olds ∧
        Host.Reads (h.comments x) qs cs)
      (Host.Reads (h.comments x)) (p.summaries pull s) := by
  refine hs.comments.bind ?_ fun _ _ => id
  rintro items qs t hstands ⟨hitems, hreads⟩
  obtain ⟨olds, holds, hshown⟩ := summariesIn_shown hitems
  rw [hmarker, Job.use_run, holds]
  exact .pure hstands ⟨hshown, (List.append_nil qs).symm ▸ hreads⟩

/-- Comments are deleted one after the other. If a request fails, the comment that it is about is still
there. -/
theorem deleteComments_ends {doomed : List Comment} {olds : List Value}
    (hshown : List.Forall₂ IsShownBy doomed olds) (hs : h.Stands p.client p.repository pull n x s)
    (hheld : ∀ c ∈ doomed, c ∈ h.comments x) (hunique : (doomed.map Comment.id).Nodup) :
    h.Ends p.client p.repository pull n x s
      (fun _ qs cs => qs = (doomed.map fun c => p.client.deletion p.repository c.id) ∧
        cs = (h.comments x).filter fun c => c.id ∉ doomed.map Comment.id)
      (fun _ cs => ∃ c ∈ doomed, c ∈ cs) (p.deleteComments olds s) := by
  induction hshown generalizing n x s with
  | nil => exact .pure hs ⟨rfl, by simp⟩
  | @cons c v doomed olds hv hmore ih =>
    rw [List.map_cons, List.nodup_cons] at hunique
    have hfirst : c ∈ h.comments x := hheld c List.mem_cons_self
    rw [deleteComments, Action.bind_run, Job.use_run, hv.id]
    refine (hs.deleteComment hfirst).bind ?_ fun qs cs hkept =>
      ⟨c, List.mem_cons_self, hkept.symm ▸ hfirst⟩
    rintro - _ t hstands ⟨rfl, hleft⟩
    have hheld' : ∀ d ∈ doomed, d ∈ h.comments (h.next x (p.client.deletion p.repository c.id)) :=
      hleft.symm ▸ still_held hheld hunique.1
    refine (ih hstands hheld' hunique.2).mono ?_ ?_
    · rintro - qs cs - ⟨rfl, rfl⟩
      refine ⟨rfl, ?_⟩
      rw [← filter_undoomed, ← hleft]
    · rintro qs cs ⟨d, hd, hkept⟩
      exact ⟨d, List.mem_cons_of_mem c hd, hkept⟩

/-- All summaries are deleted, and a new one is added. -/
theorem replaceSummaries_recreating (hrecreate : p.recreate = true)
    (body : String) {olds : List Value} (hs : h.Stands p.client p.repository pull n x s)
    (holds : List.Forall₂ IsShownBy ((h.comments x).filter fun c => c.IsMarked marker) olds) :
    h.Ends p.client p.repository pull n x s
      (fun _ _ cs => Recreated marker (p.marked body) (h.comments x) cs)
      (Remains p pull marker body (h.comments x)) (p.replaceSummaries pull body olds s) := by
  have hdelete := deleteComments_ends holds hs (fun c hc => (List.mem_filter.mp hc).1)
    (hs.unique.sublist (List.filter_sublist.map Comment.id))
  rw [filter_undeleted _ hs.unique] at hdelete
  have hrun : p.replaceSummaries pull body olds = p.deleteComments olds >>= fun _ =>
      p.client.addComment p.repository pull (p.marked body) := by
    unfold replaceSummaries
    rw [hrecreate]
  rw [hrun]
  refine hdelete.bind ?_ ?_
  · rintro - _ t hstands ⟨rfl, hleft⟩
    refine (hstands.addComment (p.marked body)).mono ?_ ?_
    · rintro v qs cs - ⟨id, hadded⟩
      rw [hleft] at hadded
      exact ⟨id, hadded⟩
    · rintro qs cs ⟨hlast, hkept⟩
      rw [hkept, hleft]
      exact .others hrecreate [] qs (by simp) hlast
  · rintro qs cs ⟨c, hc, hkept⟩
    exact .some hrecreate qs cs c hkept (by simpa using (List.mem_filter.mp hc).2)

/-- The first summary is changed, or one is added if there is none. -/
theorem replaceSummaries_updating (hrecreate : p.recreate = false)
    (body : String) {olds : List Value} (hs : h.Stands p.client p.repository pull n x s)
    (holds : List.Forall₂ IsShownBy ((h.comments x).filter fun c => c.IsMarked marker) olds) :
    h.Ends p.client p.repository pull n x s
      (fun _ _ cs => Updated marker (p.marked body) (h.comments x) cs)
      (Remains p pull marker body (h.comments x)) (p.replaceSummaries pull body olds s) := by
  unfold replaceSummaries
  rw [hrecreate]
  generalize hmarked : ((h.comments x).filter fun c => c.IsMarked marker) = summaries at holds
  cases holds with
  | nil =>
    refine (hs.addComment (p.marked body)).mono ?_ fun qs cs hkept => hkept.2 ▸ .all qs
    rintro v qs cs - ⟨id, rfl⟩
    exact .added id (by simpa using List.filter_eq_nil_iff.mp hmarked)
  | @cons c old _ _ hold hmore =>
    obtain ⟨before, after, hheld, hbefore, hc, -⟩ := List.filter_eq_cons_iff.mp hmarked
    have hmem : c ∈ h.comments x := hheld ▸ by simp
    dsimp only
    rw [Action.bind_run, Job.use_run, hold.id]
    refine (hs.changeComment hmem (p.marked body)).mono ?_ fun qs cs hkept => hkept ▸ .all qs
    rintro v qs cs - rfl
    have hunique := hs.unique
    rw [Host.ids, hheld] at hunique
    rw [hheld, map_edit hunique]
    exact .changed before after c rfl (by simpa using hbefore) (by simpa using hc)

/-- A summary is posted, or something remains of the comments. -/
theorem postSummary_ends (hmarker : p.marker = .str marker) (body : String)
    (hs : h.Stands p.client p.repository pull n x s) :
    h.Ends p.client p.repository pull n x s
      (fun _ _ cs => Replaced p.recreate marker (p.marked body) (h.comments x) cs)
      (Remains p pull marker body (h.comments x)) (p.postSummary pull body s) := by
  rw [postSummary_eq]
  refine (summaries_ends hmarker hs).bind ?_ fun qs cs hreads => hreads.kept ▸ .all qs
  rintro olds qs t hstands ⟨hshown, hreads⟩
  rw [← hreads.kept] at hshown
  have hreplace : h.Ends p.client p.repository pull (n - qs.length) (h.after x qs) t
      (fun _ _ cs => Replaced p.recreate marker (p.marked body) (h.comments x) cs)
      (Remains p pull marker body (h.comments x)) (p.replaceSummaries pull body olds t) := by
    rw [← hreads.kept]
    cases hrecreate : p.recreate with
    | true => exact replaceSummaries_recreating hrecreate body hstands hshown
    | false => exact replaceSummaries_updating hrecreate body hstands hshown
  exact hreplace.mono (fun _ _ _ _ => id) fun more cs hleft => hleft.after_reads hreads.gets

/-- If a summary cannot be posted where there was one, there still is one, unless all of them have been
deleted and no more than the addition of the new one is missing. Nothing happens to the other comments then,
and to no comment at all where summaries are not deleted first. -/
theorem postSummary_failure_keeps {e : Fault} (hmarker : p.marker = .str marker)
    (hnetwork : s.network = h.network n x) (htries : h.Tries p.client p.repository pull n x)
    (hmarked : ∃ c ∈ h.comments x, c.IsMarked marker) (hrun : p.postSummary pull body s = (.error e, t)) :
    ∃ qs left, s.Sends qs t ∧ left = h.comments (h.after x (qs.take n)) ∧
      (p.recreate = false → left = h.comments x) ∧
      ((∃ c ∈ left, c.IsMarked marker) ∨
        p.recreate = true ∧ (left = (h.comments x).filter fun c => ¬ c.IsMarked marker) ∧
          ∃ reads creation,
            qs = reads ++ ((h.comments x).filter fun c => c.IsMarked marker).map
              (fun c => p.client.deletion p.repository c.id) ++ creation ∧
            (∀ q ∈ reads, q.method = "GET") ∧
            creation <+: [p.client.addition p.repository pull (p.marked body)]) := by
  have hends := postSummary_ends hmarker body (h := h) (x := x) ⟨hnetwork, htries⟩
  rw [hrun] at hends
  cases hends with
  | broken _ qs _ hsent hleft =>
    refine ⟨qs, _, hsent, rfl, ?_⟩
    generalize h.comments (h.after x (qs.take n)) = left at hleft
    cases hleft with
    | all => exact ⟨fun _ => rfl, Or.inl hmarked⟩
    | some hrecreate _ _ c hheld hc => exact ⟨by simp [hrecreate], Or.inl ⟨c, hheld, hc⟩⟩
    | others hrecreate reads creation hgets hlast =>
      exact ⟨by simp [hrecreate], Or.inr ⟨hrecreate, rfl, reads, creation, rfl, hgets, hlast⟩⟩

/-- A summary, and no other comment. -/
def lastSummary : Shelf :=
  ⟨[⟨1, some "<!-- review -->"⟩], 2⟩

/-- A forge in memory that refuses the requests with a method. -/
def refusing (method : String) : Host Shelf :=
  .refusing replacingPoster.client replacingPoster.repository fun q => q.method = method

def refusedRunner (method : String) : Runner :=
  { Runner.fresh 0 with network := (refusing method).network 10 lastSummary }

/-- What comes of a new summary. -/
def refusedRun (method : String) : Except Fault Value × Runner :=
  replacingPoster.postSummary (.int 7) "New" (refusedRunner method)

/-- The comments afterwards. -/
def leftBy (method : String) : List Comment :=
  (refusing method).comments ((refusing method).after lastSummary (refusedRun method).2.requests)

theorem refusing_tries (method : String) :
    (refusing method).Tries replacingPoster.client replacingPoster.repository (.int 7) 10 lastSummary := by
  have hsound : lastSummary.IsSound 10 := ⟨by decide, by decide, by decide, by decide⟩
  exact hsound.refusing_tries

theorem isMarked_lastSummary : (Comment.mk 1 (some "<!-- review -->")).IsMarked "<!-- review -->" :=
  List.infix_rfl

theorem postSummary_failure_keeps_undeleted :
    ∃ e, (refusedRun "DELETE").1 = .error e ∧ ∃ c ∈ leftBy "DELETE", c.IsMarked "<!-- review -->" := by
  have hrefused : (refusedRun "DELETE").1.isOk = false ∧ (refusedRun "DELETE").2.requests.length ≤ 10 ∧
      leftBy "DELETE" ≠ [] := by
    decide +kernel
  obtain ⟨hfails, hfew, hnot⟩ := hrefused
  rcases hrun : refusedRun "DELETE" with ⟨e | v, t⟩
  · obtain ⟨qs, left, hsent, hleft, -, hkept⟩ := postSummary_failure_keeps rfl rfl (refusing_tries "DELETE")
      ⟨_, List.mem_cons_self, isMarked_lastSummary⟩ hrun
    obtain rfl : qs = t.requests := hsent.eq_requests rfl
    have hheld : left = leftBy "DELETE" := by
      rw [hrun] at hfew
      rw [hleft, List.take_of_length_le hfew, leftBy, hrun]
    have hothers : lastSummary.comments.filter (fun c => ¬ c.IsMarked "<!-- review -->") = [] := by
      simp [lastSummary, isMarked_lastSummary]
    refine ⟨e, rfl, ?_⟩
    rcases hkept with hkept | ⟨-, hnone, -⟩
    · exact hheld ▸ hkept
    · exact absurd (hheld.symm.trans (hnone.trans hothers)) hnot
  · rw [hrun] at hfails
    cases hfails

/-- A new summary that is refused once the old one has been deleted leaves none. -/
theorem postSummary_failure_leaves_none :
    (refusing "POST").Tries replacingPoster.client replacingPoster.repository (.int 7) 10 lastSummary ∧
      (refusedRunner "POST").network = (refusing "POST").network 10 lastSummary ∧
      (∃ c ∈ lastSummary.comments, c.IsMarked "<!-- review -->") ∧
      (replacingPoster.postSummary (.int 7) "New" (refusedRunner "POST")).1.isOk = false ∧
      leftBy "POST" = [] := by
  have hrefused : (refusedRun "POST").1.isOk = false ∧ leftBy "POST" = [] := by
    decide +kernel
  exact ⟨refusing_tries "POST", rfl, ⟨_, List.mem_cons_self, isMarked_lastSummary⟩, hrefused⟩

end ReviewGate.Poster
