import ReviewGate.Posting.Summary
import ReviewGate.Proofs.Forge.Host
import ReviewGate.Proofs.Text.Search

/-! What becomes of the comments on a pull request when a summary takes the place of those that are
there. -/
namespace ReviewGate.Forge.Comment

/-- Whether a marker stands in the text of a comment, which is empty if the comment has none. -/
def IsMarked (marker : String) (c : Comment) : Prop :=
  marker.toList <:+: (c.body.getD "").toList

instance (marker : String) (c : Comment) : Decidable (c.IsMarked marker) :=
  inferInstanceAs (Decidable (_ <:+: _))

/-- How many comments have the marker. -/
def marks (marker : String) (comments : List Comment) : Nat :=
  comments.countP fun c => c.IsMarked marker

/-- Whether the comments with the marker are gone and one with a text stands after all others. -/
def Recreated (marker text : String) (old new : List Comment) : Prop :=
  ∃ id, new = (old.filter fun c => ¬ c.IsMarked marker) ++ [⟨id, some text⟩]

/-- Whether the first comment with the marker has a text now, or one with it stands after all others if
none had the marker. -/
inductive Updated (marker text : String) (old : List Comment) : List Comment → Prop
  | changed (before after : List Comment) (c : Comment) (held : old = before ++ c :: after)
    (unmarked : ∀ d ∈ before, ¬ d.IsMarked marker) (marked : c.IsMarked marker) :
    Updated marker text old (before ++ { c with body := some text } :: after)
  | added (id : Int) (unmarked : ∀ c ∈ old, ¬ c.IsMarked marker) :
    Updated marker text old (old ++ [⟨id, some text⟩])

def Replaced (recreate : Bool) (marker text : String) (old new : List Comment) : Prop :=
  if recreate then Recreated marker text old new else Updated marker text old new

variable {marker text text' : String} {old mid new : List Comment} {c : Comment} {recreate : Bool}

theorem isMarked_of_text (htext : marker.toList <:+: text.toList) (id : Int) :
    (Comment.mk id (some text)).IsMarked marker :=
  htext

theorem isMarked_ofList {ms cs : List Char} {id : Int} :
    (Comment.mk id (some (String.ofList cs))).IsMarked (String.ofList ms) ↔ ms <:+: cs := by
  rw [IsMarked, Option.getD_some, String.toList_ofList, String.toList_ofList]

theorem marks_append (cs ds : List Comment) : marks marker (cs ++ ds) = marks marker cs + marks marker ds :=
  List.countP_append

theorem marks_eq_zero (h : ∀ c ∈ old, ¬ c.IsMarked marker) : marks marker old = 0 := by
  rw [marks, List.countP_eq_zero]
  intro c hc
  simpa using h c hc

theorem marks_cons (h : c.IsMarked marker) (cs : List Comment) :
    marks marker (c :: cs) = marks marker cs + 1 :=
  List.countP_cons_of_pos (by simpa using h)

theorem unmarked_filter (cs : List Comment) :
    ∀ c ∈ cs.filter fun c => ¬ c.IsMarked marker, ¬ c.IsMarked marker := by
  intro c hc
  simpa using (List.mem_filter.mp hc).2

theorem Recreated.marks (htext : marker.toList <:+: text.toList) (h : Recreated marker text old new) :
    marks marker new = 1 := by
  obtain ⟨id, rfl⟩ := h
  rw [marks_append, marks_eq_zero (unmarked_filter old), marks_cons (isMarked_of_text htext id)]
  rfl

theorem Updated.marks (htext : marker.toList <:+: text.toList) (h : Updated marker text old new) :
    marks marker new = max 1 (marks marker old) := by
  cases h with
  | changed before after c held unmarked marked =>
    rw [held, marks_append, marks_append, marks_eq_zero unmarked, marks_cons marked,
      marks_cons (isMarked_of_text htext c.id)]
    omega
  | added id unmarked =>
    rw [marks_append, marks_eq_zero unmarked, marks_cons (isMarked_of_text htext id)]
    rfl

/-- A summary that is posted after another one takes its place. -/
theorem Recreated.trans (htext : marker.toList <:+: text.toList) (h : Recreated marker text old mid)
    (h' : Recreated marker text' mid new) : Recreated marker text' old new := by
  obtain ⟨id, rfl⟩ := h
  obtain ⟨id', rfl⟩ := h'
  refine ⟨id', ?_⟩
  have hkept : (old.filter fun c => ¬ c.IsMarked marker).filter (fun c => ¬ c.IsMarked marker) =
      old.filter fun c => ¬ c.IsMarked marker := by
    rw [List.filter_filter]
    simp
  have hgone : ([⟨id, some text⟩] : List Comment).filter (fun c => ¬ c.IsMarked marker) = [] := by
    simpa using isMarked_of_text htext id
  rw [List.filter_append, hkept, hgone, List.append_nil]

/-- The first comment with the marker is told by the comments before it. -/
theorem first_unique {before before' after after' : List Comment} {c c' : Comment}
    (h : before ++ c :: after = before' ++ c' :: after') (hbefore : ∀ d ∈ before, ¬ d.IsMarked marker)
    (hc : c.IsMarked marker) (hbefore' : ∀ d ∈ before', ¬ d.IsMarked marker) (hc' : c'.IsMarked marker) :
    before = before' ∧ c = c' ∧ after = after' := by
  induction before generalizing before' with
  | nil =>
    cases before' with
    | nil =>
      obtain ⟨rfl, rfl⟩ := List.cons.inj h
      exact ⟨rfl, rfl, rfl⟩
    | cons d before' =>
      obtain ⟨rfl, -⟩ := List.cons.inj h
      exact absurd hc (hbefore' c List.mem_cons_self)
  | cons d before ih =>
    cases before' with
    | nil =>
      obtain ⟨rfl, -⟩ := List.cons.inj h
      exact absurd hc' (hbefore d List.mem_cons_self)
    | cons d' before' =>
      obtain ⟨rfl, hmore⟩ := List.cons.inj h
      obtain ⟨rfl, rfl, rfl⟩ := ih hmore (fun e he => hbefore e (List.mem_cons_of_mem d he))
        fun e he => hbefore' e (List.mem_cons_of_mem d he)
      exact ⟨rfl, rfl, rfl⟩

theorem Updated.trans (htext : marker.toList <:+: text.toList) (h : Updated marker text old mid)
    (h' : Updated marker text' mid new) : Updated marker text' old new := by
  -- After the first summary the first comment with the marker is the one with that summary.
  have hfirst : ∃ before after id, (∀ d ∈ before, ¬ d.IsMarked marker) ∧
      mid = before ++ ⟨id, some text⟩ :: after ∧
      Updated marker text' old (before ++ ⟨id, some text'⟩ :: after) := by
    cases h with
    | changed before after c held unmarked marked =>
      exact ⟨before, after, c.id, unmarked, rfl, .changed before after c held unmarked marked⟩
    | added id unmarked => exact ⟨old, [], id, unmarked, rfl, .added id unmarked⟩
  obtain ⟨before, after, id, hbefore, rfl, hupdated⟩ := hfirst
  cases h' with
  | changed before' after' c held unmarked marked =>
    obtain ⟨rfl, rfl, rfl⟩ :=
      first_unique held hbefore (isMarked_of_text htext id) unmarked marked
    exact hupdated
  | added id' unmarked =>
    exact absurd (isMarked_of_text htext id) (unmarked ⟨id, some text⟩ (by simp))

namespace Replaced

theorem trans (htext : marker.toList <:+: text.toList) (h : Replaced recreate marker text old mid)
    (h' : Replaced recreate marker text' mid new) : Replaced recreate marker text' old new := by
  unfold Replaced at *
  cases recreate with
  | true => exact Recreated.trans htext h h'
  | false => exact Updated.trans htext h h'

theorem marks_le (htext : marker.toList <:+: text.toList) (h : Replaced recreate marker text old new) :
    marks marker new ≤ max 1 (marks marker old) := by
  unfold Replaced at h
  cases recreate with
  | true =>
    have hone := Recreated.marks htext h
    omega
  | false => exact Nat.le_of_eq (Updated.marks htext h)

theorem length_le (h : Replaced recreate marker text old new) : new.length ≤ old.length + 1 := by
  unfold Replaced at h
  cases recreate with
  | true =>
    obtain ⟨id, rfl⟩ := h
    have hkept := List.length_filter_le (fun c : Comment => ¬ c.IsMarked marker) old
    rw [List.length_append, List.length_singleton]
    omega
  | false =>
    cases h with
    | changed before after c held => simp [held]
    | added id => simp

end Replaced

end ReviewGate.Forge.Comment
