import ReviewGate.Settings.Basic

/-! Whether settings are fit for use. All problems are found and reported together, in a fixed order. -/
namespace ReviewGate.Settings

/-- Whether a repository is given without an owner. -/
def lacksOwner (repository : Value) : Except Misuse Bool :=
  if repository.isGiven then (Value.isIn (.str "/") repository).map (!·) else .ok false

/-- Whether a command has nothing in it. -/
def isBlankCommand : Value → Except Misuse Bool
  | .str s => .ok (Text.isBlankText s)
  | .bytes content => .ok (content.all fun b => b == 32 || (9 ≤ b && b ≤ 13))
  | v => .error (.noAttribute v.kind "strip")

/-- Whether a text is not the name of a level. -/
def isNoLevel : Value → Except Misuse Bool
  | .str s => .ok (LogLevel.ofText? s).isNone
  | .bytes _ => .ok true
  | v => .error (.noAttribute v.kind "upper")

/-- The conditions that settings must not meet, with the words for each. -/
def conditions (s : Settings) : List (Except Misuse Bool × String) :=
  [(lacksOwner s.forge.repository, "Repository must be in format \x27owner/repo\x27"),
    (s.forge.timeout.atMost 0, "GitHub timeout must be positive"),
    (.ok !s.analysis.extensions.isGiven, "At least one file extension is required"),
    (s.analysis.window.atMost 0, "STEP 2 window must be positive"),
    (s.analysis.workers.lessThan 1, "Scan workers must be at least 1"),
    (isBlankCommand s.tests.command, "Test command cannot be empty"),
    (isNoLevel s.log.level, "Invalid log level: " ++ s.log.level.text)]

/-- The words for the conditions that hold. -/
def problemsIn : List (Except Misuse Bool × String) → Except Misuse (List String)
  | [] => .ok []
  | (condition, words) :: more => do
    let holds ← condition
    let rest ← problemsIn more
    return if holds then words :: rest else rest

def problems (s : Settings) : Except Misuse (List String) :=
  problemsIn s.conditions

/-- Refuses settings with problems. -/
def check (s : Settings) : Except Fault Unit :=
  match s.problems with
  | .error m => .error (.misuse m)
  | .ok [] => .ok ()
  | .ok found => .error (.refused (.settings found))

end ReviewGate.Settings
