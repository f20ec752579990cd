import Mathlib.Tactic.SplitIfs
import ReviewGate.Proofs.Action
import ReviewGate.Settings.Check

/-! The documents that settings can be read from, and the settings that can be checked. Of all others some
value is of the wrong kind, which nobody notices before it is used. -/
namespace ReviewGate

namespace Value

/-- Whether a value is a number; truth values are. -/
def IsNumber : Value → Prop
  | .bool _ | .int _ | .float _ => True
  | _ => False

/-- Whether a value is a text or bytes. -/
def IsWritten : Value → Prop
  | .str _ | .bytes _ => True
  | _ => False

/-- Whether a text can be looked for in a value. -/
def IsSearchable : Value → Prop
  | .str _ | .list _ | .tuple _ | .set _ | .map _ | .loop _ => True
  | _ => False

theorem compareInt_isSome {v : Value} (n : Int) : (∃ order, v.compareInt? n = some order) ↔ v.IsNumber := by
  cases v <;> simp [compareInt?, asInt?, IsNumber]

theorem atMost_isOk {v : Value} (n : Int) : (∃ b, v.atMost n = .ok b) ↔ v.IsNumber := by
  rw [← compareInt_isSome n, atMost]
  rcases v.compareInt? n with _ | order <;> simp

theorem lessThan_isOk {v : Value} (n : Int) : (∃ b, v.lessThan n = .ok b) ↔ v.IsNumber := by
  rw [← compareInt_isSome n, lessThan]
  rcases v.compareInt? n with _ | order <;> simp

theorem isIn_isOk {v : Value} (needle : String) :
    (∃ b, (Value.str needle).isIn v = .ok b) ↔ v.IsSearchable := by
  cases v <;> simp [isIn, asInt?, isKey, IsSearchable]

end Value

namespace Settings

/-- The sections of a document. -/
def sections : List (String × Options) :=
  [("github", forgeDefaults), ("analysis", analysisDefaults), ("artifacts", artifactDefaults),
    ("tests", testDefaults), ("logging", logDefaults)]

/-- Whether the values of settings are of the kinds that the check needs. -/
structure HasKinds (s : Settings) : Prop where
  repository : s.forge.repository.isGiven = true → s.forge.repository.IsSearchable
  timeout : s.forge.timeout.IsNumber
  window : s.analysis.window.IsNumber
  workers : s.analysis.workers.IsNumber
  command : s.tests.command.IsWritten
  level : s.log.level.IsWritten

theorem problemsIn_isOk {conditions : List (Except Misuse Bool × String)} :
    (∃ found, problemsIn conditions = .ok found) ↔ ∀ c ∈ conditions, ∃ holds, c.1 = .ok holds := by
  induction conditions with
  | nil => simp [problemsIn]
  | cons condition more ih =>
    obtain ⟨outcome, words⟩ := condition
    rw [List.forall_mem_cons, ← ih]
    simp only [problemsIn, Action.except_bind_eq_ok]
    constructor
    · rintro ⟨found, holds, houtcome, rest, hrest, -⟩
      exact ⟨⟨holds, houtcome⟩, rest, hrest⟩
    · rintro ⟨⟨holds, houtcome⟩, rest, hrest⟩
      exact ⟨_, holds, houtcome, rest, hrest, rfl⟩

theorem lacksOwner_isOk {repository : Value} :
    (∃ b, lacksOwner repository = .ok b) ↔ (repository.isGiven = true → repository.IsSearchable) := by
  rw [← Value.isIn_isOk "/"]
  unfold lacksOwner
  rcases repository.isGiven with _ | _
  · simp
  · rcases (Value.str "/").isIn repository with m | b <;> simp [Except.map]

/-- The check finds out whether there are problems if and only if all values are of the right kinds. -/
theorem problems_isOk {s : Settings} : (∃ found, s.problems = .ok found) ↔ s.HasKinds := by
  have hcommand : (∃ b, isBlankCommand s.tests.command = .ok b) ↔ s.tests.command.IsWritten := by
    cases s.tests.command <;> simp [isBlankCommand, Value.IsWritten]
  have hlevel : (∃ b, isNoLevel s.log.level = .ok b) ↔ s.log.level.IsWritten := by
    cases s.log.level <;> simp [isNoLevel, Value.IsWritten]
  rw [problems, problemsIn_isOk]
  simp only [conditions, List.forall_mem_cons, List.not_mem_nil, false_implies, implies_true, and_true,
    lacksOwner_isOk, Value.atMost_isOk, Value.lessThan_isOk, hcommand, hlevel]
  constructor
  · rintro ⟨hrepository, htimeout, -, hwindow, hworkers, hcommand, hlevel⟩
    exact ⟨hrepository, htimeout, hwindow, hworkers, hcommand, hlevel⟩
  · rintro ⟨hrepository, htimeout, hwindow, hworkers, hcommand, hlevel⟩
    exact ⟨hrepository, htimeout, ⟨_, rfl⟩, hwindow, hworkers, hcommand, hlevel⟩

theorem none_of_problemsIn {conditions : List (Except Misuse Bool × String)}
    (h : problemsIn conditions = .ok []) : ∀ c ∈ conditions, c.1 = .ok false := by
  induction conditions with
  | nil => simp
  | cons condition more ih =>
    obtain ⟨outcome, words⟩ := condition
    simp only [problemsIn, Action.except_bind_eq_ok] at h
    obtain ⟨holds, houtcome, rest, hrest, hdone⟩ := h
    cases holds with
    | true => cases hdone
    | false =>
      cases hdone
      exact List.forall_mem_cons.mpr ⟨houtcome, ih hrest⟩

/-- Settings that pass the check meet none of the conditions that they must not meet. -/
theorem none_of_check {s : Settings} (h : s.check = .ok ()) : ∀ c ∈ s.conditions, c.1 = .ok false := by
  refine none_of_problemsIn ?_
  rw [check, problems] at h
  rcases hproblems : problemsIn s.conditions with m | _ | ⟨words, more⟩
  · rw [hproblems] at h
    cases h
  · rfl
  · rw [hproblems] at h
    cases h

/-- The command of settings that pass the check is a text that is not blank, or bytes. -/
theorem command_of_check {s : Settings} (h : s.check = .ok ()) :
    (∃ command, s.tests.command = .str command ∧ Text.isBlankText command = false) ∨
      ∃ content, s.tests.command = .bytes content := by
  have hcommand : isBlankCommand s.tests.command = .ok false :=
    none_of_check h (isBlankCommand s.tests.command, "Test command cannot be empty") (by simp [conditions])
  cases hkind : s.tests.command with
  | str command =>
    rw [hkind] at hcommand
    exact Or.inl ⟨command, rfl, Except.ok.inj hcommand⟩
  | bytes content => exact Or.inr ⟨content, rfl⟩
  | _ =>
    rw [hkind] at hcommand
    cases hcommand

end Settings

end ReviewGate
