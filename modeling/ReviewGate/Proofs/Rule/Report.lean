import Mathlib.Data.List.Sort
import Mathlib.Order.Bounds.Image
import ReviewGate.Proofs.Rule.Language

/-! What rules report, told by the numbers of lines. Of the lines that a rule describes it reports all, the
first, or the first within some lines after an anchor, which is the first line that holds a certain text. -/
namespace ReviewGate

/-- The numbers of the lines that have a property, counted from one. -/
def numbersOf (P : String → Prop) (lines : List String) : Set Nat :=
  {n | ∃ _ : 1 ≤ n ∧ n ≤ lines.length, P lines[n - 1]}

/-- Whether a text stands in a line. -/
def Mentions (text line : String) : Prop :=
  text.toList <:+: line.toList

/-- The lines after an anchor, up to so many of them. -/
def windowAfter (anchor : Nat) (size : Int) : Set Nat :=
  {n | anchor < n ∧ n ≤ anchor + size}

namespace Reach

/-- Whether a line is among those that a rule is to report which describes the lines with a property. -/
def Picks (reach : Reach) (P : String → Prop) (lines : List String) (n : Nat) : Prop :=
  match reach with
  | .everyLine => n ∈ numbersOf P lines
  | .firstLine => IsLeast (numbersOf P lines) n
  | .window anchor size =>
    ∃ a, IsLeast (numbersOf (Mentions anchor) lines) a ∧ IsLeast (numbersOf P lines ∩ windowAfter a size) n

/-- Whether a window, if this is one, has at least one line. -/
def IsOpen (reach : Reach) : Prop :=
  ∀ anchor size, reach = .window anchor size → 1 ≤ size

/-- The numbers of the lines that a rule reports which describes those that a test holds for. -/
def numbers (reach : Reach) (test : String → Bool) (lines : List String) : List Nat :=
  match reach with
  | .everyLine => Rule.linesFrom test 1 lines
  | .firstLine => (Rule.linesFrom test 1 lines).take 1
  | .window anchor size =>
    match Rule.linesFrom (Text.contains · anchor) 1 lines with
    | [] => []
    | start :: _ =>
      let stop := Rule.placeIn lines.length (start + size)
      (Rule.linesFrom test (start + 1) ((lines.take stop).drop start)).take 1

end Reach

/-- Only windows with a line at least are accepted. -/
theorem buildRules_eq_ok {window : Int} {rules : List Rule} (h : buildRules window = .ok rules) :
    1 ≤ window ∧ rules = ruleTable window := by
  unfold buildRules at h
  split at h
  · cases h
  · cases h
    exact ⟨by omega, rfl⟩

namespace Rule

/-- What a rule reports depends on its patterns only by the lines that they describe. -/
theorem matchLines_eq (r : Rule) (lines : List String) :
    r.matchLines lines = r.reach.numbers r.describes lines := by
  unfold matchLines Reach.numbers
  rfl

theorem reach_of_mem_lineRules {r : Rule} (hr : r ∈ lineRules) (anchor : String) (size : Int) :
    r.reach ≠ .window anchor size := by
  have hsingle : ∀ r ∈ lineRules, ∀ anchor size, r.reach ≠ .window anchor size := by
    simp [lineRules, nullCheck, validation, documentationMarker, documentationBlock, exceptionTry,
      exceptionCatch, loggingMarker, loggingBlock]
  exact hsingle r hr anchor size

/-- Whether a rule is to report a line. -/
def Reports (r : Rule) (lines : List String) (n : Nat) : Prop :=
  r.reach.Picks r.Finds lines n

theorem isOpen_of_mem_ruleTable {window : Int} (hwindow : 1 ≤ window) {r : Rule}
    (hr : r ∈ ruleTable window) : r.reach.IsOpen := by
  intro anchor size hreach
  rcases List.mem_append.mp hr with hline | hlast
  · exact absurd hreach (reach_of_mem_lineRules hline anchor size)
  · obtain rfl := List.mem_singleton.mp hlast
    cases hreach
    exact hwindow

end Rule

/-! ### The first of some numbers -/

theorem isLeast_iff_head? {l : List Nat} (hl : l.Pairwise (· < ·)) {n : Nat} :
    IsLeast {m | m ∈ l} n ↔ l.head? = some n := by
  cases l with
  | nil => simp [IsLeast]
  | cons m more =>
    have hfirst : IsLeast {k | k ∈ m :: more} m := by
      refine ⟨List.mem_cons_self, fun k hk => ?_⟩
      rcases List.mem_cons.mp hk with rfl | hk
      · exact Nat.le_refl k
      · exact Nat.le_of_lt (List.rel_of_pairwise_cons hl hk)
    rw [List.head?_cons, Option.some_inj]
    constructor
    · intro hn
      exact hfirst.unique hn
    · rintro rfl
      exact hfirst

theorem mem_take_one {l : List Nat} (hl : l.Pairwise (· < ·)) {n : Nat} :
    n ∈ l.take 1 ↔ IsLeast {m | m ∈ l} n := by
  rw [isLeast_iff_head? hl, List.take_one, Option.mem_toList]

/-! ### The lines that are looked at -/

theorem mem_linesFrom_one {test : String → Bool} {lines : List String} {n : Nat} :
    n ∈ Rule.linesFrom test 1 lines ↔ n ∈ numbersOf (test · = true) lines := by
  rw [Rule.mem_linesFrom]
  constructor
  · rintro ⟨i, line, hline, rfl, htest⟩
    obtain ⟨hi, rfl⟩ := List.getElem?_eq_some_iff.mp hline
    refine ⟨by omega, ?_⟩
    simpa using htest
  · rintro ⟨hn, htest⟩
    refine ⟨n - 1, lines[n - 1], List.getElem?_eq_getElem _, by omega, htest⟩

theorem contains_eq_mentions (anchor : String) :
    (fun line => Text.contains line anchor = true) = Mentions anchor := by
  funext line
  exact propext Text.contains_iff

/-- The lines after an anchor and up to a place are those in a window. -/
theorem mem_linesFrom_window {test : String → Bool} {lines : List String} {a n : Nat} {size : Int}
    (hsize : 1 ≤ size) :
    n ∈ Rule.linesFrom test (a + 1) ((lines.take (Rule.placeIn lines.length (a + size))).drop a) ↔
      n ∈ numbersOf (test · = true) lines ∩ windowAfter a size := by
  have hplace : Rule.placeIn lines.length (a + size) = min (a + size).toNat lines.length := by
    unfold Rule.placeIn
    rw [if_pos (by omega)]
  rw [Rule.mem_linesFrom, hplace]
  constructor
  · rintro ⟨i, line, hline, rfl, htest⟩
    rw [List.getElem?_drop, List.getElem?_take] at hline
    split_ifs at hline with hi
    obtain ⟨hbound, rfl⟩ := List.getElem?_eq_some_iff.mp hline
    have hindex : a + 1 + i - 1 = a + i := by omega
    refine ⟨⟨by omega, ?_⟩, by omega, by omega⟩
    simpa only [hindex] using htest
  · rintro ⟨⟨hn, htest⟩, hafter, hwithin⟩
    refine ⟨n - 1 - a, lines[n - 1], ?_, by omega, htest⟩
    have hindex : a + (n - 1 - a) = n - 1 := by omega
    rw [List.getElem?_drop, hindex, List.getElem?_take_of_lt (by omega)]
    exact List.getElem?_eq_getElem _

/-! ### What rules report -/

namespace Reach

theorem numbers_ascending (reach : Reach) (test : String → Bool) (lines : List String) :
    (reach.numbers test lines).Pairwise (· < ·) := by
  cases reach with
  | everyLine => exact Rule.linesFrom_ascending test 1 lines
  | firstLine => exact (Rule.linesFrom_ascending test 1 lines).sublist (List.take_sublist _ _)
  | window anchor size =>
    unfold numbers
    dsimp only
    split
    · exact .nil
    · exact (Rule.linesFrom_ascending _ _ _).sublist (List.take_sublist _ _)

/-- A rule reports the lines that it is to report. -/
theorem mem_numbers {reach : Reach} (hopen : reach.IsOpen) {test : String → Bool} {lines : List String}
    {n : Nat} : n ∈ reach.numbers test lines ↔ reach.Picks (test · = true) lines n := by
  cases reach with
  | everyLine => exact mem_linesFrom_one
  | firstLine =>
    have hall : {m | m ∈ Rule.linesFrom test 1 lines} = numbersOf (test · = true) lines :=
      Set.ext fun _ => mem_linesFrom_one
    unfold numbers Picks
    rw [mem_take_one (Rule.linesFrom_ascending _ _ _), hall]
  | window anchor size =>
    have hanchors : {m | m ∈ Rule.linesFrom (Text.contains · anchor) 1 lines} =
        numbersOf (Mentions anchor) lines := by
      rw [← contains_eq_mentions]
      exact Set.ext fun _ => mem_linesFrom_one
    have hfirst : ∀ a, IsLeast (numbersOf (Mentions anchor) lines) a ↔
        (Rule.linesFrom (Text.contains · anchor) 1 lines).head? = some a := by
      intro a
      rw [← hanchors]
      exact isLeast_iff_head? (Rule.linesFrom_ascending _ _ _)
    unfold numbers Picks
    simp only [hfirst]
    rcases Rule.linesFrom (Text.contains · anchor) 1 lines with _ | ⟨start, more⟩
    · simp
    · have hwindow : {m | m ∈ Rule.linesFrom test (start + 1)
          ((lines.take (Rule.placeIn lines.length (start + size))).drop start)} =
            numbersOf (test · = true) lines ∩ windowAfter start size :=
        Set.ext fun _ => mem_linesFrom_window (hopen anchor size rfl)
      dsimp only
      rw [mem_take_one (Rule.linesFrom_ascending _ _ _), hwindow]
      simp

end Reach

namespace Rule

variable {r : Rule}

theorem matchLines_ascending (r : Rule) (lines : List String) :
    (r.matchLines lines).Pairwise (· < ·) := by
  rw [matchLines_eq]
  exact r.reach.numbers_ascending _ _

theorem describes_eq_finds (r : Rule) : (fun line => r.describes line = true) = r.Finds := by
  funext line
  exact propext r.describes_iff

theorem mem_matchLines (hopen : r.reach.IsOpen) {lines : List String} {n : Nat} :
    n ∈ r.matchLines lines ↔ r.Reports lines n := by
  rw [matchLines_eq, Reach.mem_numbers hopen, describes_eq_finds, Reports]

/-- Every line that a rule reports is a line of the file that it describes. -/
theorem Reports.mem_numbersOf {lines : List String} {n : Nat} (h : r.Reports lines n) :
    n ∈ numbersOf r.Finds lines := by
  unfold Reports Reach.Picks at h
  split at h
  · exact h
  · exact h.1
  · obtain ⟨a, -, hleast⟩ := h
    exact hleast.1.1

end Rule

end ReviewGate
