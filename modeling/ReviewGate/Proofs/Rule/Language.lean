import Mathlib.Data.List.Nodup
import ReviewGate.Proofs.Rule.Pattern
import ReviewGate.Rule.Table

/-! What the rules on single lines report: the numbers of the lines in which certain texts stand, which
are told for each rule. -/
namespace ReviewGate.Rule

/-- The lines that a rule on single lines looks for, by the name of the rule. -/
inductive Seeks : String → String → Prop
  | nullCheck (before w₁ w₂ x w₃ w₄ after : String) (blank₁ : Text.isBlankText w₁ = true)
    (blank₂ : Text.isBlankText w₂ = true) (blank₃ : Text.isBlankText w₃ = true)
    (blank₄ : Text.isBlankText w₄ = true) (within : '\n' ∉ x.toList) :
    Seeks "null_check"
      (before ++ "//" ++ w₁ ++ "if" ++ w₂ ++ "(" ++ x ++ w₃ ++ "==" ++ w₄ ++ "null)" ++ after)
  | validationCondition (before w w' x after : String) (blank : Text.isBlankText w = true)
    (blank' : Text.isBlankText w' = true) (within : '\n' ∉ x.toList) :
    Seeks "validation" (before ++ "//" ++ w ++ "if" ++ w' ++ "(!" ++ x ++ ".IsValid" ++ after)
  | validationCall (before w after : String) (blank : Text.isBlankText w = true) :
    Seeks "validation" (before ++ "//" ++ w ++ "validator.Validate" ++ after)
  | documentationMarker (before after : String) :
    Seeks "documentation_marker" (before ++ "Uncomment for DOCUMENTATION issue" ++ after)
  | documentationBlock (before x after : String) (within : '\n' ∉ x.toList) :
    Seeks "documentation_block" (before ++ "/*" ++ x ++ "/// <summary>" ++ after)
  | exceptionTry (before w after : String) (blank : Text.isBlankText w = true) :
    Seeks "exception_try" (before ++ "//" ++ w ++ "try" ++ after)
  | exceptionCatch (before w after : String) (blank : Text.isBlankText w = true) :
    Seeks "exception_catch" (before ++ "//" ++ w ++ "catch" ++ after)
  | loggingMarker (before after : String) :
    Seeks "logging_marker" (before ++ "Uncomment for LOGGING issue" ++ after)
  | loggingBlock (before x after : String) (within : '\n' ∉ x.toList) :
    Seeks "logging_block" (before ++ "/*" ++ x ++ "_logger.Log" ++ after)

/-- Whether a text that one of a rule's patterns describes stands in a line. -/
def Finds (r : Rule) (line : String) : Prop :=
  ∃ p ∈ r.patterns, p.StandsIn line

theorem describes_iff (r : Rule) {line : String} : r.describes line = true ↔ r.Finds line := by
  simp [describes, Finds, Pattern.found_iff]

/-- What a rule finds is what is told for its name. -/
theorem seeks_of_finds {r : Rule} (hr : r ∈ lineRules) {line : String} (h : r.Finds line) :
    Seeks r.name line := by
  obtain ⟨p, hp, before, found, after, rfl, hfound⟩ := h
  simp only [lineRules, List.mem_cons, List.not_mem_nil, or_false] at hr
  rcases hr with rfl | rfl | rfl | rfl | rfl | rfl | rfl | rfl
  · obtain rfl := List.mem_singleton.mp hp
    obtain ⟨_, _, rfl, rfl, w₁, _, rfl, hw₁, _, _, rfl, rfl, w₂, _, rfl, hw₂, _, _, rfl, rfl,
      x, _, rfl, hx, w₃, _, rfl, hw₃, _, _, rfl, rfl, w₄, _, rfl, hw₄, _, _, rfl, rfl, rfl⟩ := hfound
    simpa [nullCheck, String.append_assoc] using
      Seeks.nullCheck before w₁ w₂ x w₃ w₄ after hw₁ hw₂ hw₃ hw₄ hx
  · rcases List.mem_cons.mp hp with rfl | hp
    · obtain ⟨_, _, rfl, rfl, w, _, rfl, hw, _, _, rfl, rfl, w', _, rfl, hw', _, _, rfl, rfl,
        x, _, rfl, hx, _, _, rfl, rfl, rfl⟩ := hfound
      simpa [validation, String.append_assoc] using
        Seeks.validationCondition before w w' x after hw hw' hx
    · obtain rfl := List.mem_singleton.mp hp
      obtain ⟨_, _, rfl, rfl, w, _, rfl, hw, _, _, rfl, rfl, rfl⟩ := hfound
      simpa [validation, String.append_assoc] using Seeks.validationCall before w after hw
  · obtain rfl := List.mem_singleton.mp hp
    obtain ⟨_, _, rfl, rfl, rfl⟩ := hfound
    simpa [documentationMarker, String.append_assoc] using Seeks.documentationMarker before after
  · obtain rfl := List.mem_singleton.mp hp
    obtain ⟨_, _, rfl, rfl, x, _, rfl, hx, _, _, rfl, rfl, rfl⟩ := hfound
    simpa [documentationBlock, String.append_assoc] using Seeks.documentationBlock before x after hx
  · obtain rfl := List.mem_singleton.mp hp
    obtain ⟨_, _, rfl, rfl, w, _, rfl, hw, _, _, rfl, rfl, rfl⟩ := hfound
    simpa [exceptionTry, String.append_assoc] using Seeks.exceptionTry before w after hw
  · obtain rfl := List.mem_singleton.mp hp
    obtain ⟨_, _, rfl, rfl, w, _, rfl, hw, _, _, rfl, rfl, rfl⟩ := hfound
    simpa [exceptionCatch, String.append_assoc] using Seeks.exceptionCatch before w after hw
  · obtain rfl := List.mem_singleton.mp hp
    obtain ⟨_, _, rfl, rfl, rfl⟩ := hfound
    simpa [loggingMarker, String.append_assoc] using Seeks.loggingMarker before after
  · obtain rfl := List.mem_singleton.mp hp
    obtain ⟨_, _, rfl, rfl, x, _, rfl, hx, _, _, rfl, rfl, rfl⟩ := hfound
    simpa [loggingBlock, String.append_assoc] using Seeks.loggingBlock before x after hx

theorem finds_of_describes {r : Rule} {p : Pattern} (hr : r ∈ lineRules) (hp : p ∈ r.patterns)
    {found line : String} (hfound : p.Describes found) (before after : String)
    (hline : line = before ++ found ++ after) : ∃ r' ∈ lineRules, r'.name = r.name ∧ r'.Finds line :=
  ⟨r, hr, rfl, p, hp, before, found, after, hline, hfound⟩

open Pattern.Describes in
/-- What is told for a name is found by a rule of that name. -/
theorem exists_finds_of_seeks {name line : String} (h : Seeks name line) :
    ∃ r ∈ lineRules, r.name = name ∧ r.Finds line := by
  cases h with
  | nullCheck before w₁ w₂ x w₃ w₄ after hw₁ hw₂ hw₃ hw₄ hx =>
    refine finds_of_describes (r := nullCheck) (by simp [lineRules]) (List.mem_singleton_self _)
      (text (blanks hw₁ (text (blanks hw₂ (text (anything hx (blanks hw₃ (text (blanks hw₄
        (last _)))))))))) before after ?_
    simp [String.append_assoc]
  | validationCondition before w w' x after hw hw' hx =>
    refine finds_of_describes (r := validation) (by simp [lineRules]) List.mem_cons_self
      (text (blanks hw (text (blanks hw' (text (anything hx (last _))))))) before after ?_
    simp [String.append_assoc]
  | validationCall before w after hw =>
    refine finds_of_describes (r := validation) (by simp [lineRules])
      (List.mem_cons_of_mem _ (List.mem_singleton_self _)) (text (blanks hw (last _))) before after ?_
    simp [String.append_assoc]
  | documentationMarker before after =>
    exact finds_of_describes (r := documentationMarker) (by simp [lineRules]) (List.mem_singleton_self _)
      (last _) before after rfl
  | documentationBlock before x after hx =>
    refine finds_of_describes (r := documentationBlock) (by simp [lineRules]) (List.mem_singleton_self _)
      (text (anything hx (last _))) before after ?_
    simp [String.append_assoc]
  | exceptionTry before w after hw =>
    refine finds_of_describes (r := exceptionTry) (by simp [lineRules]) (List.mem_singleton_self _)
      (text (blanks hw (last _))) before after ?_
    simp [String.append_assoc]
  | exceptionCatch before w after hw =>
    refine finds_of_describes (r := exceptionCatch) (by simp [lineRules]) (List.mem_singleton_self _)
      (text (blanks hw (last _))) before after ?_
    simp [String.append_assoc]
  | loggingMarker before after =>
    exact finds_of_describes (r := loggingMarker) (by simp [lineRules]) (List.mem_singleton_self _)
      (last _) before after rfl
  | loggingBlock before x after hx =>
    refine finds_of_describes (r := loggingBlock) (by simp [lineRules]) (List.mem_singleton_self _)
      (text (anything hx (last _))) before after ?_
    simp [String.append_assoc]

/-- Rules on single lines are told apart by their names. -/
theorem eq_of_name_eq {r r' : Rule} (hr : r ∈ lineRules) (hr' : r' ∈ lineRules)
    (h : r.name = r'.name) : r = r' := by
  have hnames : (lineRules.map Rule.name).Nodup := by decide
  exact List.inj_on_of_nodup_map hnames hr hr' h

theorem finds_iff_seeks {r : Rule} (hr : r ∈ lineRules) {line : String} :
    r.Finds line ↔ Seeks r.name line := by
  constructor
  · exact seeks_of_finds hr
  · intro h
    obtain ⟨r', hr', hname, hfinds⟩ := exists_finds_of_seeks h
    rwa [eq_of_name_eq hr' hr hname] at hfinds

/-! ### The lines that a rule reports -/

theorem mem_linesFrom {test : String → Bool} {first n : Nat} {lines : List String} :
    n ∈ linesFrom test first lines ↔
      ∃ i line, lines[i]? = some line ∧ n = first + i ∧ test line = true := by
  induction lines generalizing first with
  | nil => simp [linesFrom]
  | cons line lines ih =>
    have hmore : (∃ i other, (line :: lines)[i + 1]? = some other ∧ n = first + (i + 1) ∧
        test other = true) ↔ n ∈ linesFrom test (first + 1) lines := by
      rw [ih]
      simp only [List.getElem?_cons_succ, Nat.add_assoc, Nat.add_comm 1]
    have hfirst : n ∈ linesFrom test first (line :: lines) ↔
        (n = first ∧ test line = true) ∨ n ∈ linesFrom test (first + 1) lines := by
      by_cases hline : test line = true <;> simp [linesFrom, hline]
    rw [hfirst, ← hmore]
    constructor
    · rintro (⟨hn, hline⟩ | ⟨i, other, hother, hn, htest⟩)
      · exact ⟨0, line, rfl, hn, hline⟩
      · exact ⟨i + 1, other, hother, hn, htest⟩
    · rintro ⟨i, other, hother, hn, htest⟩
      cases i with
      | zero =>
        obtain rfl : line = other := by simpa using hother
        exact Or.inl ⟨hn, htest⟩
      | succ i => exact Or.inr ⟨i, other, hother, hn, htest⟩

theorem linesFrom_ascending (test : String → Bool) (first : Nat) (lines : List String) :
    (linesFrom test first lines).Pairwise (· < ·) := by
  induction lines generalizing first with
  | nil => exact .nil
  | cons line lines ih =>
    rw [linesFrom]
    split
    · refine .cons (fun n hn => ?_) (ih _)
      obtain ⟨i, other, -, rfl, -⟩ := mem_linesFrom.mp hn
      omega
    · exact ih _

/-- A rule on single lines reports, in ascending order and counted from one, the lines in which one of the
texts stands that are told for its name; a rule for the first line of a file reports the first of
them. -/
theorem matchLines_seeks {window : Int} {rules : List Rule} (hrules : buildRules window = .ok rules)
    {r : Rule} (hr : r ∈ rules) (hsingle : ∀ anchor size, r.reach ≠ .window anchor size)
    (lines : List String) :
    (∀ line, r.Finds line ↔ Seeks r.name line) ∧
      ∃ numbers : List Nat, numbers.Pairwise (· < ·) ∧
        (∀ n, n ∈ numbers ↔ ∃ i line, lines[i]? = some line ∧ n = i + 1 ∧ Seeks r.name line) ∧
        r.matchLines lines = if r.reach = .firstLine then numbers.take 1 else numbers := by
  have hline : r ∈ lineRules := by
    unfold buildRules at hrules
    split at hrules
    · cases hrules
    · cases hrules
      rcases List.mem_append.mp hr with hr | hr
      · exact hr
      · obtain rfl := List.mem_singleton.mp hr
        exact absurd rfl (hsingle stepTwoMarker window)
  refine ⟨fun line => finds_iff_seeks hline, linesFrom r.describes 1 lines,
    linesFrom_ascending _ _ _, fun n => ?_, ?_⟩
  · rw [mem_linesFrom]
    simp only [describes_iff, finds_iff_seeks hline, Nat.add_comm 1]
  · unfold matchLines
    cases hreach : r.reach with
    | everyLine => simp
    | firstLine => simp
    | window anchor size => exact absurd hreach (hsingle anchor size)

/-- Lines with a condition on two values, with a check for null after another comment, and with one that is
not commented out. -/
def nullCheckLines : List String :=
  ["// if (left == right)", "//// if (a) // if ( order  ==\tnull) throw;", "if (order == null) throw;"]

theorem matchLines_seeks_nullCheck :
    buildRules 30 = .ok (ruleTable 30) ∧ nullCheck ∈ ruleTable 30 ∧
      (∀ anchor size, nullCheck.reach ≠ .window anchor size) ∧
      nullCheck.matchLines nullCheckLines = [2] ∧
      (∀ line, nullCheck.Finds line ↔ Seeks "null_check" line) ∧
      ∃ numbers : List Nat, numbers.Pairwise (· < ·) ∧
        (∀ n, n ∈ numbers ↔
          ∃ i line, nullCheckLines[i]? = some line ∧ n = i + 1 ∧ Seeks "null_check" line) ∧
        nullCheck.matchLines nullCheckLines = numbers := by
  have hrules : buildRules 30 = .ok (ruleTable 30) := rfl
  have hmem : nullCheck ∈ ruleTable 30 := by simp [ruleTable, lineRules]
  have hsingle : ∀ anchor size, nullCheck.reach ≠ .window anchor size := fun _ _ h => nomatch h
  exact ⟨hrules, hmem, hsingle, by decide +kernel,
    matchLines_seeks hrules hmem hsingle nullCheckLines⟩

end ReviewGate.Rule
