import Mathlib.Data.List.Nodup
import ReviewGate.Proofs.Forge.Memory
import ReviewGate.Proofs.Forge.Served
import ReviewGate.Proofs.Posting.Marked
import ReviewGate.Proofs.Posting.Summary
import ReviewGate.Proofs.Text.Lines

/-! There is one summary. On a forge that does what it is asked to do, a summary takes the place of those
that are there, however many comments there are and however often summaries are posted, and nothing else
happens to the comments. -/
namespace ReviewGate.Poster

open Forge Forge.Comment

variable {σ : Type} {h : Host σ} {p : Poster} {pull : Value} {n : Nat} {x : σ} {s t : Runner}
  {marker body : String}

theorem marked_eq (hmarker : p.marker = .str marker) (body : String) :
    p.marked body = Text.stripEnd body ++ "\n" ++ marker ++ "\n" := by
  rw [marked, hmarker]
  rfl

theorem marker_infix_marked (hmarker : p.marker = .str marker) (body : String) :
    marker.toList <:+: (p.marked body).toList := by
  rw [marked_eq hmarker, String.toList_append, String.toList_append]
  exact List.infix_append _ _ _

/-! ### The summaries among the comments -/

theorem hasMarker_shown {c : Comment} {v : Value} (hv : c.IsShownBy v) :
    hasMarker (.str marker) v = .ok (decide (c.IsMarked marker)) := by
  have htext : (if (Value.ofOption Value.str c.body).isGiven then Value.ofOption Value.str c.body
      else .str "") = .str (c.body.getD "") := by
    cases c.body with
    | none => rfl
    | some text =>
      by_cases hempty : text = ""
      · rw [hempty]
        rfl
      · have hgiven : (Value.str text).isGiven = true := bne_iff_ne.mpr hempty
        exact if_pos hgiven
  have hfound : Text.contains (c.body.getD "") marker = decide (c.IsMarked marker) := by
    rw [Bool.eq_iff_iff, Text.contains_iff, decide_eq_true_iff, IsMarked]
  rw [hasMarker, hv.body]
  show Value.isIn (.str marker) (if (Value.ofOption Value.str c.body).isGiven then
    Value.ofOption Value.str c.body else .str "") = _
  rw [htext]
  exact congrArg Except.ok hfound

theorem summariesIn_shown {cs : List Comment} {items : List Value}
    (hitems : List.Forall₂ IsShownBy cs items) :
    ∃ olds, summariesIn (.str marker) items = .ok olds ∧
      List.Forall₂ IsShownBy (cs.filter fun c => c.IsMarked marker) olds := by
  induction hitems with
  | nil => exact ⟨[], rfl, .nil⟩
  | @cons c v cs items hv hmore ih =>
    obtain ⟨olds, holds, hshown⟩ := ih
    rw [summariesIn, hasMarker_shown hv, holds]
    by_cases hmarked : c.IsMarked marker
    · refine ⟨v :: olds, ?_, ?_⟩
      · simp [hmarked, bind, Except.bind, pure, Except.pure]
      · rw [List.filter_cons_of_pos (by simpa using hmarked)]
        exact .cons hv hshown
    · refine ⟨olds, ?_, ?_⟩
      · simp [hmarked, bind, Except.bind, pure, Except.pure]
      · rw [List.filter_cons_of_neg (by simpa using hmarked)]
        exact hshown

/-- All comments are read, and those with the marker are found among them. -/
theorem summaries_runs (hmarker : p.marker = .str marker)
    (hs : h.Backs p.client p.repository pull n x s) (hn : (h.comments x).length < n) :
    ∃ olds qs t, h.Runs p.client p.repository pull n x s (p.summaries pull) olds qs t ∧
      qs.length ≤ (h.comments x).length + 1 ∧
      List.Forall₂ IsShownBy ((h.comments x).filter fun c => c.IsMarked marker) olds ∧
      h.Always (· = h.comments x) x qs := by
  obtain ⟨items, qs, t, hlist, hfew, hitems, hsame⟩ := hs.comments hn
  obtain ⟨olds, holds, hshown⟩ := summariesIn_shown hitems
  refine ⟨olds, qs, t, { hlist with run := ?_ }, hfew, hshown, hsame⟩
  rw [summaries, Action.bind_run_ok hlist.run, hmarker, Job.use_run, holds]
  rfl

/-! ### A summary in the place of others -/

/-- The comments that are to be deleted next are still there after one with another number is gone. -/
theorem still_held {c : Comment} {doomed cs : List Comment} (hheld : ∀ d ∈ c :: doomed, d ∈ cs)
    (hother : c.id ∉ doomed.map Comment.id) : ∀ d ∈ doomed, d ∈ cs.filter fun d => d.id ≠ c.id := by
  intro d hd
  have hne : d.id ≠ c.id := fun heq => hother (heq ▸ List.mem_map_of_mem hd)
  exact List.mem_filter.mpr ⟨hheld d (List.mem_cons_of_mem c hd), by simpa using hne⟩

theorem filter_undoomed (c : Comment) (doomed cs : List Comment) :
    ((cs.filter fun d => d.id ≠ c.id).filter fun d => d.id ∉ doomed.map Comment.id) =
      cs.filter fun d => d.id ∉ (c :: doomed).map Comment.id := by
  rw [List.filter_filter]
  refine List.filter_congr fun d _ => ?_
  have hboth : (d.id ∉ doomed.map Comment.id ∧ d.id ≠ c.id) ↔ d.id ∉ (c :: doomed).map Comment.id := by
    rw [List.map_cons, List.mem_cons, not_or, and_comm]
  rw [← Bool.decide_and, decide_eq_decide]
  exact hboth

/-- Comments are deleted one after the other. The induction is on those that are still there. -/
theorem deleteComments_runs {doomed : List Comment} {olds : List Value}
    (hshown : List.Forall₂ IsShownBy doomed olds) (hs : h.Backs p.client p.repository pull n x s)
    (hn : doomed.length ≤ n) (hheld : ∀ c ∈ doomed, c ∈ h.comments x)
    (hunique : (doomed.map Comment.id).Nodup) :
    ∃ qs t, h.Runs p.client p.repository pull n x s (p.deleteComments olds) () qs t ∧
      qs.length = doomed.length ∧
      h.comments (h.after x qs) = ((h.comments x).filter fun c => c.id ∉ doomed.map Comment.id) ∧
      h.Always (·.Sublist (h.comments x)) x qs := by
  induction hshown generalizing n x s with
  | nil => exact ⟨[], s, .pure hs (), rfl, by simp [Host.after], .nil (List.Sublist.refl _)⟩
  | @cons c v doomed olds hv hmore ih =>
    rw [List.length_cons] at hn
    rw [List.map_cons, List.nodup_cons] at hunique
    obtain ⟨t, hdelete, hleft⟩ :=
      hs.deleteComment (by omega) (hheld c List.mem_cons_self)
    generalize p.client.deletion p.repository c.id = q at hdelete hleft
    have hnext : h.Backs p.client p.repository pull (n - 1) (h.next x q) t := hdelete.backs
    have hheld' : ∀ d ∈ doomed, d ∈ h.comments (h.next x q) := hleft ▸ still_held hheld hunique.1
    obtain ⟨qs, u, hrest, hlength, hcomments, hsub⟩ :=
      ih hnext (by omega) hheld' hunique.2
    have hstep : (h.comments (h.next x q)).Sublist (h.comments x) := hleft ▸ List.filter_sublist
    refine ⟨[q] ++ qs, u, .congr (hdelete.seq hrest) ?_, ?_, ?_, .cons (List.Sublist.refl _) ?_⟩
    · rw [deleteComments, Action.bind_run, Job.use_run, hv.id]
      rfl
    · simp [hlength]
    · show h.comments (h.after (h.next x q) qs) = _
      rw [hcomments, hleft, filter_undoomed]
    · exact hsub.mono fun cs hcs => hcs.trans hstep

/-- The comments that are left are those without the marker, since no two comments have the same
number. -/
theorem filter_undeleted (cs : List Comment) (hunique : (cs.map Comment.id).Nodup) :
    (cs.filter fun c => c.id ∉ (cs.filter fun c => c.IsMarked marker).map Comment.id) =
      cs.filter fun c => ¬ c.IsMarked marker := by
  refine List.filter_congr fun c hc => ?_
  have hmem : c.id ∈ (cs.filter fun c => c.IsMarked marker).map Comment.id ↔ c.IsMarked marker := by
    constructor
    · intro hid
      obtain ⟨d, hd, heq⟩ := List.mem_map.mp hid
      obtain ⟨hheld, hmarked⟩ := List.mem_filter.mp hd
      rw [← List.inj_on_of_nodup_map hunique hheld hc heq]
      simpa using hmarked
    · intro hmarked
      exact List.mem_map_of_mem (List.mem_filter.mpr ⟨hc, by simpa using hmarked⟩)
  rw [decide_eq_decide]
  exact not_congr hmem

/-- All summaries are deleted, and a new one is added. -/
theorem replaceSummaries_recreates (hmarker : p.marker = .str marker) (hrecreate : p.recreate = true)
    (body : String) {olds : List Value} (hs : h.Backs p.client p.repository pull n x s)
    (hn : (h.comments x).length < n)
    (holds : List.Forall₂ IsShownBy ((h.comments x).filter fun c => c.IsMarked marker) olds) :
    ∃ v qs t, h.Runs p.client p.repository pull n x s (p.replaceSummaries pull body olds) v qs t ∧
      qs.length ≤ (h.comments x).length + 1 ∧
      Recreated marker (p.marked body) (h.comments x) (h.comments (h.after x qs)) ∧
      h.Always (marks marker · ≤ max 1 (marks marker (h.comments x))) x qs := by
  have hunique := (hs.servesIn (by omega)).unique
  have hfew := List.length_filter_le (fun c : Comment => c.IsMarked marker) (h.comments x)
  obtain ⟨qs, t, hdelete, hlength, hleft, hsub⟩ :=
    deleteComments_runs holds hs (by omega) (fun c hc => (List.mem_filter.mp hc).1)
      (hunique.sublist (List.filter_sublist.map Comment.id))
  rw [filter_undeleted _ hunique] at hleft
  obtain ⟨v, id, u, hadd, hadded⟩ := hdelete.backs.addComment (by omega) (p.marked body)
  generalize p.client.addition p.repository pull (p.marked body) = q at hadd hadded
  rw [hleft] at hadded
  have hdone : Recreated marker (p.marked body) (h.comments x) (h.comments (h.next (h.after x qs) q)) :=
    ⟨id, hadded⟩
  refine ⟨v, qs ++ [q], u, .congr (hdelete.seq hadd) ?_, ?_, ?_, .concat (hsub.mono ?_) ?_⟩
  · unfold replaceSummaries
    rw [hrecreate]
  · rw [List.length_append, List.length_singleton]
    omega
  · rw [Host.after_append]
    exact hdone
  · intro cs hcs
    have hle : marks marker cs ≤ marks marker (h.comments x) := hcs.countP_le
    omega
  · have hone := hdone.marks (marker_infix_marked hmarker body)
    omega

theorem map_edit {before after : List Comment} {c : Comment}
    (hunique : ((before ++ c :: after).map Comment.id).Nodup) (text : String) :
    (before ++ c :: after).map (Comment.edit c.id text) =
      before ++ { c with body := some text } :: after := by
  rw [List.map_append, List.map_cons, List.nodup_middle, List.nodup_cons, List.mem_append,
    not_or] at hunique
  have hsame : ∀ cs : List Comment, c.id ∉ cs.map Comment.id → cs.map (Comment.edit c.id text) = cs := by
    intro cs hcs
    have hall : ∀ d ∈ cs, Comment.edit c.id text d = d := by
      intro d hd
      have hother : d.id ≠ c.id := fun heq => hcs (heq ▸ List.mem_map_of_mem hd)
      exact if_neg hother
    exact (List.map_congr_left hall).trans (List.map_id' cs)
  have hchanged : Comment.edit c.id text c = { c with body := some text } := if_pos rfl
  rw [List.map_append, List.map_cons, hsame before hunique.1.1, hsame after hunique.1.2, hchanged]

/-- The first summary is changed, or one is added if there is none. -/
theorem replaceSummaries_updates (hrecreate : p.recreate = false)
    (body : String) {olds : List Value} (hs : h.Backs p.client p.repository pull n x s) (hn : 0 < n)
    (holds : List.Forall₂ IsShownBy ((h.comments x).filter fun c => c.IsMarked marker) olds) :
    ∃ v q t, h.Runs p.client p.repository pull n x s (p.replaceSummaries pull body olds) v [q] t ∧
      Updated marker (p.marked body) (h.comments x) (h.comments (h.next x q)) := by
  generalize hmarked : ((h.comments x).filter fun c => c.IsMarked marker) = summaries at holds
  cases holds with
  | nil =>
    obtain ⟨v, id, t, hadd, hadded⟩ := hs.addComment hn (p.marked body)
    refine ⟨v, _, t, .congr hadd ?_, ?_⟩
    · unfold replaceSummaries
      rw [hrecreate]
      rfl
    · rw [hadded]
      refine .added id ?_
      simpa using List.filter_eq_nil_iff.mp hmarked
  | @cons c old _ _ hold hmore =>
    obtain ⟨before, after, hheld, hbefore, hc, -⟩ := List.filter_eq_cons_iff.mp hmarked
    have hmem : c ∈ h.comments x := hheld ▸ by simp
    obtain ⟨v, t, hchange, hchanged⟩ := hs.changeComment hn hmem (p.marked body)
    refine ⟨v, _, t, .congr hchange ?_, ?_⟩
    · unfold replaceSummaries
      rw [hrecreate]
      dsimp only
      rw [Action.bind_run, Job.use_run, hold.id]
      rfl
    · have hunique := (hs.servesIn hn).unique
      rw [hheld] at hunique hchanged
      rw [hchanged, map_edit hunique]
      exact .changed before after c hheld (by simpa using hbefore) (by simpa using hc)

/-- Posting a summary puts it in the place of those that are there. There are never more comments with
the marker meanwhile than there were, or one if there was none. -/
theorem postSummary_runs (hmarker : p.marker = .str marker) (body : String)
    (hs : h.Backs p.client p.repository pull n x s) (hn : 2 * ((h.comments x).length + 1) ≤ n) :
    ∃ v qs t, h.Runs p.client p.repository pull n x s (p.postSummary pull body) v qs t ∧
      qs.length ≤ 2 * ((h.comments x).length + 1) ∧
      Replaced p.recreate marker (p.marked body) (h.comments x) (h.comments (h.after x qs)) ∧
      h.Always (marks marker · ≤ max 1 (marks marker (h.comments x))) x qs := by
  obtain ⟨olds, qs, t, hlist, hfew, hshown, hsame⟩ := summaries_runs hmarker hs (by omega)
  have hheld : h.comments (h.after x qs) = h.comments x := hsame.last
  have hbound : h.Always (marks marker · ≤ max 1 (marks marker (h.comments x))) x qs := by
    refine hsame.mono fun cs hcs => ?_
    rw [hcs]
    exact Nat.le_max_right _ _
  rw [postSummary_eq]
  cases hrecreate : p.recreate with
  | true =>
    obtain ⟨v, qs', u, hreplace, hfew', hdone, hbound'⟩ :=
      replaceSummaries_recreates hmarker hrecreate body hlist.backs (by rw [hheld]; omega)
        (hheld.symm ▸ hshown)
    rw [hheld] at hfew' hdone hbound'
    refine ⟨v, qs ++ qs', u, hlist.bind hreplace, ?_, ?_, hbound.append hbound'⟩
    · rw [List.length_append]
      omega
    · rw [Host.after_append]
      exact hdone
  | false =>
    obtain ⟨v, q, u, hreplace, hdone⟩ :=
      replaceSummaries_updates hrecreate body hlist.backs (by omega) (hheld.symm ▸ hshown)
    rw [hheld] at hdone
    have hmarks := hdone.marks (marker_infix_marked hmarker body)
    refine ⟨v, qs ++ [q], u, hlist.bind hreplace, ?_, ?_, hbound.concat (Nat.le_of_eq hmarks)⟩
    · rw [List.length_append, List.length_singleton]
      omega
    · rw [Host.after_append]
      exact hdone

/-! ### Summaries posted one after the other -/

/-- The number of requests that are enough to post summaries where there are comments already. -/
def enough (comments summaries : Nat) : Nat :=
  summaries * (2 * (comments + summaries))

theorem enough_succ (comments summaries : Nat) :
    2 * (comments + 1) + enough (comments + 1) summaries ≤ enough comments (summaries + 1) := by
  have hsum : comments + 1 + summaries = comments + (summaries + 1) := by omega
  unfold enough
  rw [hsum, Nat.add_one_mul summaries]
  omega

theorem enough_mono {comments comments' : Nat} (h : comments ≤ comments') (summaries : Nat) :
    enough comments summaries ≤ enough comments' summaries :=
  Nat.mul_le_mul_left summaries (by omega)

theorem postSummaries_runs (hmarker : p.marker = .str marker) {bodies : List String} {last : String}
    (hlast : bodies.getLast? = some last) (hs : h.Backs p.client p.repository pull n x s)
    (hn : enough (h.comments x).length bodies.length ≤ n) :
    ∃ vs qs t, h.Runs p.client p.repository pull n x s (bodies.mapM (p.postSummary pull)) vs qs t ∧
      Replaced p.recreate marker (p.marked last) (h.comments x) (h.comments (h.after x qs)) ∧
      h.Always (marks marker · ≤ max 1 (marks marker (h.comments x))) x qs := by
  induction bodies generalizing n x s with
  | nil => cases hlast
  | cons body more ih =>
    have hsucc := enough_succ (h.comments x).length more.length
    rw [List.length_cons] at hn
    obtain ⟨v, qs, t, hfirst, hfew, hdone, hbound⟩ := postSummary_runs hmarker body hs (by omega)
    have htext := marker_infix_marked hmarker body
    have hlength := hdone.length_le
    have hmarks := hdone.marks_le htext
    rw [List.mapM_cons]
    cases more with
    | nil =>
      obtain rfl : body = last := Option.some.inj hlast
      exact ⟨_, qs, t, hfirst.map fun v => [v], hdone, hbound⟩
    | cons next more =>
      have henough := enough_mono hlength (next :: more).length
      obtain ⟨vs, qs', u, hmore, hdone', hbound'⟩ :=
        ih (by simpa using hlast) hfirst.backs (by omega)
      refine ⟨v :: vs, qs ++ qs', u, hfirst.bind (hmore.map (v :: ·)), ?_, hbound.append ?_⟩
      · rw [Host.after_append]
        exact hdone.trans htext hdone'
      · refine hbound'.mono fun cs hcs => ?_
        omega

/-- However many comments there are and however often a summary is posted, the last one takes the place of
all comments with the marker or of the first of them, and no other comment is touched. There are never
more comments with the marker than there were at the start, or one if there was none. -/
theorem postSummaries_leave_one {bodies : List String} {last : String} (hmarker : p.marker = .str marker)
    (hlast : bodies.getLast? = some last) (hnetwork : s.network = h.network n x)
    (hserves : h.Serves p.client p.repository pull n x) (hplenty : Budget.reserve < s.budget.remaining)
    (hn : enough (h.comments x).length bodies.length ≤ n) :
    ∃ answers t qs, bodies.mapM (p.postSummary pull) s = (.ok answers, t) ∧
      t.requests = s.requests ++ qs ∧
      (p.recreate = true →
        Recreated marker (Text.stripEnd last ++ "\n" ++ marker ++ "\n") (h.comments x)
          (h.comments (h.after x qs))) ∧
      (p.recreate = false →
        Updated marker (Text.stripEnd last ++ "\n" ++ marker ++ "\n") (h.comments x)
          (h.comments (h.after x qs))) ∧
      ∀ sent, sent <+: qs →
        marks marker (h.comments (h.after x sent)) ≤ max 1 (marks marker (h.comments x)) := by
  obtain ⟨answers, qs, t, hrun, hdone, hbound⟩ :=
    postSummaries_runs hmarker hlast ⟨hnetwork, hplenty, hserves⟩ hn
  rw [marked_eq hmarker] at hdone
  refine ⟨answers, t, qs, hrun.run, hrun.requests, ?_, ?_, hbound⟩
  · intro hrecreate
    rw [hrecreate] at hdone
    exact hdone
  · intro hrecreate
    rw [hrecreate] at hdone
    exact hdone

def replacingPoster : Poster :=
  ⟨⟨.str "t", "https://api.github.com", .int 30⟩, ⟨"owner", "repo"⟩, .str "<!-- review -->", true⟩

/-- Three comments, of which the second one is a summary and the third one has no text. -/
def threeComments : Shelf :=
  ⟨[⟨1, some "Looks good."⟩, ⟨2, some "Issues found.\n<!-- review -->\n"⟩, ⟨3, none⟩], 4⟩

def onThreeComments : Runner :=
  { Runner.fresh 0 with
    network := (Host.memory replacingPoster.client replacingPoster.repository).network 20 threeComments }

theorem postSummaries_leave_one_of_two :
    ∃ answers t qs id,
      ["One issue left.", "No issues. "].mapM (replacingPoster.postSummary (.int 7)) onThreeComments =
        (.ok answers, t) ∧
      t.requests = qs ∧
      ((Host.memory replacingPoster.client replacingPoster.repository).after threeComments qs).comments =
        [⟨1, some "Looks good."⟩, ⟨3, none⟩, ⟨id, some "No issues.\n<!-- review -->\n"⟩] := by
  have hsound : threeComments.IsSound 20 := ⟨by decide, by decide, by decide, by decide⟩
  have hmarker : replacingPoster.marker = .str "<!-- review -->" := rfl
  have hlast : ["One issue left.", "No issues. "].getLast? = some "No issues. " := rfl
  have hnetwork : onThreeComments.network =
      (Host.memory replacingPoster.client replacingPoster.repository).network 20 threeComments := rfl
  have hplenty : Budget.reserve < onThreeComments.budget.remaining := by decide
  have hserves : (Host.memory replacingPoster.client replacingPoster.repository).Serves
      replacingPoster.client replacingPoster.repository (.int 7) 20 threeComments := hsound.serves
  obtain ⟨answers, t, qs, hrun, hrequests, hrecreated, -⟩ :=
    postSummaries_leave_one hmarker hlast hnetwork hserves hplenty (by decide)
  obtain ⟨id, hcomments⟩ := hrecreated rfl
  have hpraise : ¬ (Comment.mk 1 (some "Looks good.")).IsMarked "<!-- review -->" :=
    fun h => absurd (isMarked_ofList.mp h) (by decide)
  have hsummary : (Comment.mk 2 (some "Issues found.\n<!-- review -->\n")).IsMarked "<!-- review -->" :=
    isMarked_ofList.mpr (by decide)
  have hempty : ¬ (Comment.mk 3 none).IsMarked "<!-- review -->" := by simp [IsMarked]
  have hkept : (threeComments.comments.filter fun c => ¬ c.IsMarked "<!-- review -->") =
      [⟨1, some "Looks good."⟩, ⟨3, none⟩] := by
    simp [threeComments, hpraise, hsummary, hempty]
  have hbody : Text.stripEnd "No issues. " = "No issues." :=
    (Text.stripEnd_ofList _).trans (congrArg String.ofList (by decide))
  have htext : Text.stripEnd "No issues. " ++ "\n" ++ "<!-- review -->" ++ "\n" =
      "No issues.\n<!-- review -->\n" := by
    simp only [hbody]
    rfl
  have hnew : (threeComments.comments.filter fun c => ¬ c.IsMarked "<!-- review -->") ++
      [⟨id, some (Text.stripEnd "No issues. " ++ "\n" ++ "<!-- review -->" ++ "\n")⟩] =
        [⟨1, some "Looks good."⟩, ⟨3, none⟩, ⟨id, some "No issues.\n<!-- review -->\n"⟩] := by
    simp only [hkept, htext, List.cons_append, List.nil_append]
  exact ⟨answers, t, qs, id, hrun, hrequests, hcomments.trans hnew⟩

end ReviewGate.Poster
