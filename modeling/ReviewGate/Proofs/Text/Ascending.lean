import Mathlib.Tactic.SplitIfs
import ReviewGate.Text.Search

/-! Texts in ascending order, each of them once: the order in which they were given does not matter. -/
namespace ReviewGate.Text

theorem mem_insertOnce {s t : String} {items : List String} :
    t ∈ insertOnce s items ↔ t = s ∨ t ∈ items := by
  induction items with
  | nil => simp [insertOnce]
  | cons u more ih =>
    rw [insertOnce]
    split_ifs with hsame hless
    · simp [hsame]
    · simp
    · rw [List.mem_cons, ih, List.mem_cons, or_left_comm]

theorem mem_ascending {s : String} {items : List String} : s ∈ ascending items ↔ s ∈ items := by
  induction items with
  | nil => simp [ascending]
  | cons t items ih =>
    rw [List.mem_cons, ← ih]
    exact mem_insertOnce

theorem insertOnce_pairwise {s : String} {items : List String} (h : items.Pairwise (· < ·)) :
    (insertOnce s items).Pairwise (· < ·) := by
  induction items with
  | nil => exact List.pairwise_singleton _ s
  | cons t more ih =>
    obtain ⟨hfirst, hmore⟩ := List.pairwise_cons.mp h
    rw [insertOnce]
    split_ifs with hsame hless
    · exact h
    · refine List.pairwise_cons.mpr ⟨fun u hu => ?_, h⟩
      rcases List.mem_cons.mp hu with rfl | hu
      · exact hless
      · exact String.lt_trans hless (hfirst u hu)
    · have hgreater : t < s := String.not_le.mp fun hle =>
        hsame (String.le_antisymm hle (String.not_lt.mp hless))
      refine List.pairwise_cons.mpr ⟨fun u hu => ?_, ih hmore⟩
      rcases mem_insertOnce.mp hu with rfl | hu
      · exact hgreater
      · exact hfirst u hu

theorem ascending_pairwise (items : List String) : (ascending items).Pairwise (· < ·) := by
  induction items with
  | nil => exact .nil
  | cons s items ih => exact insertOnce_pairwise ih

/-- An ascending list is what the texts in it come to, in any order and however often. -/
theorem ascending_eq {items sorted : List String} (hsorted : sorted.Pairwise (· < ·))
    (hmem : ∀ s, s ∈ items ↔ s ∈ sorted) : ascending items = sorted := by
  have hnodup : ∀ {l : List String}, l.Pairwise (· < ·) → l.Nodup := by
    intro l hl
    refine hl.imp ?_
    rintro s _ hless rfl
    exact String.lt_irrefl s hless
  have hperm : (ascending items).Perm sorted :=
    (List.perm_ext_iff_of_nodup (hnodup (ascending_pairwise items)) (hnodup hsorted)).mpr fun s =>
      mem_ascending.trans (hmem s)
  refine hperm.eq_of_pairwise ?_ (ascending_pairwise items) hsorted
  exact fun s t _ _ hst hts => absurd hts (String.lt_asymm hst)

end ReviewGate.Text
