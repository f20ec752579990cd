import Mathlib.Data.List.Infix
import ReviewGate.Proofs.Service.Agreement
import ReviewGate.Proofs.Settings.Shape

/-! What the check of settings says. It reports the conditions that settings break, all of them and no
others, in a fixed order. Settings from the environment are of the kinds for which it can do so. -/
namespace ReviewGate.Settings

/-! ### Any settings -/

/-- What settings are checked for. -/
inductive Condition where
  | repository
  | timeout
  | extensions
  | window
  | workers
  | command
  | level
  deriving DecidableEq

namespace Condition

/-- The conditions in the order in which they are reported. -/
def all : List Condition :=
  [repository, timeout, extensions, window, workers, command, level]

/-- What the check finds out about a condition: whether it is broken. -/
def outcome (s : Settings) : Condition → Except Misuse Bool
  | repository => lacksOwner s.forge.repository
  | timeout => s.forge.timeout.atMost 0
  | extensions => .ok !s.analysis.extensions.isGiven
  | window => s.analysis.window.atMost 0
  | workers => s.analysis.workers.lessThan 1
  | command => isBlankCommand s.tests.command
  | level => isNoLevel s.log.level

/-- The words for a condition that is broken. -/
def words (s : Settings) : Condition → String
  | repository => "Repository must be in format \x27owner/repo\x27"
  | timeout => "GitHub timeout must be positive"
  | extensions => "At least one file extension is required"
  | window => "STEP 2 window must be positive"
  | workers => "Scan workers must be at least 1"
  | command => "Test command cannot be empty"
  | level => "Invalid log level: " ++ s.log.level.text

theorem conditions_eq (s : Settings) : s.conditions = all.map fun c => (c.outcome s, c.words s) :=
  rfl

theorem mem_all (c : Condition) : c ∈ all := by
  cases c <;> decide

end Condition

/-- Of conditions of which all can be found out, the words for those that are broken are collected. -/
theorem problemsIn_map {α : Type} {outcome : α → Except Misuse Bool} (words : α → String)
    {conditions : List α} (h : ∀ c ∈ conditions, ∃ b, outcome c = .ok b) :
    ∃ broken : List α, broken.Sublist conditions ∧ (∀ c, c ∈ broken ↔ c ∈ conditions ∧ outcome c = .ok true) ∧
      problemsIn (conditions.map fun c => (outcome c, words c)) = .ok (broken.map words) := by
  induction conditions with
  | nil => exact ⟨[], .slnil, by simp, rfl⟩
  | cons c conditions ih =>
    obtain ⟨⟨b, hb⟩, hmore⟩ := List.forall_mem_cons.mp h
    obtain ⟨broken, hsub, hmem, hproblems⟩ := ih hmore
    have hrest : ∀ c', c' ∈ c :: conditions ∧ outcome c' = .ok true ↔
        (c' = c ∧ b = true) ∨ c' ∈ broken := by
      intro c'
      rw [List.mem_cons, or_and_right, hmem]
      refine or_congr_left (and_congr_right fun hc => ?_)
      rw [hc, hb, Except.ok.injEq]
    rw [List.map_cons, problemsIn, hb, hproblems]
    cases b with
    | true =>
      refine ⟨c :: broken, hsub.cons_cons c, fun c' => ?_, rfl⟩
      rw [hrest, List.mem_cons, and_iff_left rfl]
    | false =>
      refine ⟨broken, hsub.cons c, fun c' => ?_, rfl⟩
      rw [hrest]
      simp

/-- Whether the check refuses settings exactly if they break a condition, and names exactly those that they
break, in their order. -/
def ReportsBroken (s : Settings) : Prop :=
  ∃ broken : List Condition, broken.Sublist Condition.all ∧
    (∀ c, c ∈ broken ↔ c.outcome s = .ok true) ∧
    (broken = [] → s.check = .ok ()) ∧
    (broken ≠ [] → ∃ e, s.check = .error e ∧ e.isInvalid = true ∧
      e.message = "Configuration validation failed: " ++ Text.join "; " (broken.map (·.words s)))

theorem reportsBroken {s : Settings} (h : s.HasKinds) : s.ReportsBroken := by
  have hfound : ∀ c ∈ Condition.all, ∃ b, c.outcome s = .ok b := by
    have hall := problemsIn_isOk.mp (problems_isOk.mpr h)
    rw [Condition.conditions_eq, List.forall_mem_map] at hall
    exact hall
  obtain ⟨broken, hsub, hmem, hproblems⟩ := problemsIn_map (Condition.words s) hfound
  rw [← Condition.conditions_eq, ← problems] at hproblems
  refine ⟨broken, hsub, fun c => ?_, fun hnone => ?_, fun hsome => ?_⟩
  · rw [hmem, and_iff_right c.mem_all]
  · rw [check, hproblems, hnone]
    rfl
  · obtain ⟨c, more, rfl⟩ := List.exists_cons_of_ne_nil hsome
    exact ⟨_, by rw [check, hproblems]; rfl, rfl, rfl⟩

/-- Settings with values of other kinds are not found to break anything, since the check itself breaks
off. -/
theorem check_of_not_hasKinds {s : Settings} (h : ¬ s.HasKinds) : ∃ m, s.check = .error (.misuse m) := by
  rw [← problems_isOk] at h
  rw [check]
  rcases hproblems : s.problems with m | found
  · exact ⟨m, rfl⟩
  · exact absurd ⟨found, hproblems⟩ h

/-! ### Settings from the environment -/

/-- The values that are checked, of the kinds that they have in the environment. -/
structure Plain where
  repository : Option String
  timeout : Int
  extensions : List String
  window : Int
  workers : Int
  command : String
  level : String

/-- Whether plain values break a condition. -/
def Plain.Breaks (p : Plain) : Condition → Prop
  | .repository => ∃ text, p.repository = some text ∧ text ≠ "" ∧ '/' ∉ text.toList
  | .timeout => p.timeout ≤ 0
  | .extensions => p.extensions = []
  | .window => p.window ≤ 0
  | .workers => p.workers < 1
  | .command => ∀ c ∈ p.command.toList, Text.isBlank c = true
  | .level => ∀ level ∈ LogLevel.all, level.name ≠ Text.capitals p.level

/-- Whether settings have the given plain values. -/
structure IsPlain (s : Settings) (p : Plain) : Prop where
  repository : s.forge.repository = .ofOption .str p.repository
  timeout : s.forge.timeout = .int p.timeout
  extensions : s.analysis.extensions = .list (p.extensions.map .str)
  window : s.analysis.window = .int p.window
  workers : s.analysis.workers = .int p.workers
  command : s.tests.command = .str p.command
  level : s.log.level = .str p.level

theorem ofEnvironment_isPlain {env : Environment} {s : Settings} (h : ofEnvironment env = .ok s) :
    ∃ p, s.IsPlain p := by
  have hrepository : textIn env "GITHUB_REPOSITORY" .null =
      .ofOption .str (setting? env "GITHUB_REPOSITORY") := by
    unfold textIn
    cases setting? env "GITHUB_REPOSITORY" <;> rfl
  simp only [ofEnvironment, Action.except_bind_eq_ok] at h
  obtain ⟨timeout, htimeout, window, hwindow, workers, hworkers, maxSize, -, backups, -, hdone⟩ := h
  cases hdone
  obtain ⟨t, rfl⟩ := numberIn_int htimeout
  obtain ⟨w, rfl⟩ := numberIn_int hwindow
  obtain ⟨k, rfl⟩ := numberIn_int hworkers
  obtain ⟨extensions, hextensions⟩ := listIn_texts env "REVIEW_FILE_EXTENSIONS" [".cs"]
  obtain ⟨command, hcommand⟩ := textIn_str env "TEST_COMMAND" "dotnet test --verbosity normal"
  obtain ⟨level, hlevel⟩ := textIn_str env "LOG_LEVEL" "INFO"
  exact ⟨⟨setting? env "GITHUB_REPOSITORY", t, extensions, w, k, command, level⟩,
    hrepository, rfl, hextensions, rfl, rfl, hcommand, hlevel⟩

section Plain

variable {s : Settings} {p : Plain}

theorem atMost_int (n bound : Int) : (Value.int n).atMost bound = .ok (decide (n ≤ bound)) := by
  have horder : (some (compare n bound) == some Ordering.lt || some (compare n bound) == some Ordering.eq) =
      decide (n ≤ bound) := by
    rw [Bool.eq_iff_iff]
    simp only [Bool.or_eq_true, beq_iff_eq, Option.some.injEq, Int.compare_eq_lt, Int.compare_eq_eq,
      decide_eq_true_eq]
    omega
  rw [← horder]
  rfl

theorem lessThan_int (n bound : Int) : (Value.int n).lessThan bound = .ok (decide (n < bound)) := by
  have horder : (some (compare n bound) == some Ordering.lt) = decide (n < bound) := by
    rw [Bool.eq_iff_iff]
    simp only [beq_iff_eq, Option.some.injEq, Int.compare_eq_lt, decide_eq_true_eq]
  rw [← horder]
  rfl

theorem contains_slash {text : String} : Text.contains text "/" = true ↔ '/' ∈ text.toList := by
  rw [Text.contains_iff]
  exact List.singleton_infix_iff '/' text.toList

theorem ofText_eq_none {text : String} :
    LogLevel.ofText? text = none ↔ ∀ level ∈ LogLevel.all, level.name ≠ Text.capitals text := by
  simp [LogLevel.ofText?]

theorem IsPlain.hasKinds (h : s.IsPlain p) : s.HasKinds := by
  refine ⟨fun hgiven => ?_, ?_, ?_, ?_, ?_, ?_⟩
  · rw [h.repository] at hgiven ⊢
    cases hrepository : p.repository with
    | none =>
      rw [hrepository] at hgiven
      cases hgiven
    | some text => trivial
  · rw [h.timeout]
    trivial
  · rw [h.window]
    trivial
  · rw [h.workers]
    trivial
  · rw [h.command]
    trivial
  · rw [h.level]
    trivial

/-- What the check finds out about plain values. -/
theorem IsPlain.breaks_iff (h : s.IsPlain p) (c : Condition) : c.outcome s = .ok true ↔ p.Breaks c := by
  cases c with
  | repository =>
    rw [Condition.outcome, h.repository, Plain.Breaks, lacksOwner]
    cases p.repository with
    | none => simp [Value.ofOption, Value.isGiven]
    | some text =>
      simp only [← contains_slash]
      by_cases hempty : text = ""
      · simp [Value.ofOption, Value.isGiven, hempty]
      · cases hslash : Text.contains text "/" <;>
          simp [Value.ofOption, Value.isGiven, hempty, Value.isIn, Except.map, hslash]
  | timeout =>
    rw [Condition.outcome, h.timeout, atMost_int, Plain.Breaks, Except.ok.injEq, decide_eq_true_iff]
  | extensions =>
    rw [Condition.outcome, h.extensions, Plain.Breaks]
    simp [Value.isGiven]
  | window =>
    rw [Condition.outcome, h.window, atMost_int, Plain.Breaks, Except.ok.injEq, decide_eq_true_iff]
  | workers =>
    rw [Condition.outcome, h.workers, lessThan_int, Plain.Breaks, Except.ok.injEq, decide_eq_true_iff]
  | command =>
    rw [Condition.outcome, h.command, Plain.Breaks, isBlankCommand, Except.ok.injEq, Text.isBlankText,
      List.all_eq_true]
  | level =>
    rw [Condition.outcome, h.level, Plain.Breaks, ← ofText_eq_none, isNoLevel, Except.ok.injEq,
      Option.isNone_iff_eq_none]

/-- Plain values that pass the check break nothing. -/
theorem IsPlain.not_breaks (h : s.IsPlain p) (hcheck : s.check = .ok ()) (c : Condition) : ¬ p.Breaks c := by
  rw [← h.breaks_iff]
  have hmem : (c.outcome s, c.words s) ∈ s.conditions := by
    rw [Condition.conditions_eq]
    exact List.mem_map.mpr ⟨c, c.mem_all, rfl⟩
  have hall := none_of_check hcheck _ hmem
  rw [show c.outcome s = .ok false from hall]
  simp

/-- A repository that breaks nothing has a slash in it, if there is one. -/
theorem IsPlain.repository_slash (h : s.IsPlain p) (hfit : ¬ p.Breaks .repository)
    (hgiven : s.forge.repository.isGiven = true) :
    ∃ text, s.forge.repository = .str text ∧ '/' ∈ text.toList := by
  have hvalue := h.repository
  cases hfound : p.repository with
  | none =>
    rw [hvalue, hfound] at hgiven
    cases hgiven
  | some text =>
    rw [hfound] at hvalue
    have hsome : text ≠ "" := by
      rintro rfl
      rw [hvalue] at hgiven
      cases hgiven
    refine ⟨text, hvalue, ?_⟩
    by_contra hnone
    exact hfit ⟨text, hfound, hsome, hnone⟩

/-- A level that breaks nothing is one of the levels, and decides what is logged. -/
theorem IsPlain.exists_level (h : s.IsPlain p) (hfit : ¬ p.Breaks .level) :
    ∃ level, LogLevel.ofText? s.log.level.text = some level ∧
      s.threshold = if s.debug.isGiven then LogLevel.debug.weight else level.weight := by
  have hsome : LogLevel.ofText? p.level ≠ none := fun hnone => hfit (ofText_eq_none.mp hnone)
  obtain ⟨level, hlevel⟩ := Option.ne_none_iff_exists'.mp hsome
  have htext : s.log.level.text = p.level := by
    rw [h.level]
    rfl
  refine ⟨level, htext ▸ hlevel, ?_⟩
  rw [threshold, htext, hlevel]
  rfl

end Plain

end ReviewGate.Settings
