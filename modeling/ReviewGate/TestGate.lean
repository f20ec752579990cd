import ReviewGate.Artifacts

/-! The test gate: running the tests of a change, and keeping the outcome in a file for the stage that
depends on it. -/
namespace ReviewGate.TestGate

def source : String := "code_review_trainer.gate"

/-- The name under which the outcome is kept. -/
def entryName : String := "TEST_PASSED"

/-- The words of a command line, which must be a text. -/
def words : Value → Except Fault (List String)
  | .str command => (Text.ShellWords.split command).mapError .commandLine
  | .null => .ok []
  | v => .error (.misuse (.noAttribute v.kind "read"))

/-- Runs the tests: they pass if the program could be started and its exit code is zero. -/
def runTests (command : Value) (directory : Value) (timeout : Option Nat) : Job Bool := do
  let args ← Job.ofExcept (words command)
  Job.log .info source ("Running tests: " ++ command.text)
  match ← Job.start ⟨args, directory, timeout⟩ with
  | .error e =>
    Job.log .error source ("Test command failed to run: " ++ e.message)
    return false
  | .ok (code, _, _) =>
    if code = 0 then
      Job.log .info source "Tests passed"
      return true
    else
      Job.log .warning source ("Tests failed with exit code " ++ Number.intText code)
      return false

/-- The content of the file for an outcome. -/
def record (passed : Bool) : String :=
  entryName ++ "=" ++ (if passed then "true" else "false") ++ "\n"

/-- Keeps an outcome in a file, whatever the file held before. -/
def writeResults (path : Path) (passed : Bool) : Job Path := do
  Job.makeDirectories path.parent
  Job.writeFile path (Text.Utf8.encode (record passed))
  return path

/-- The outcome in a line, if it holds one: the name before the first equals sign, the outcome after
it, both with blanks around them. -/
def outcomeIn? (line : String) : Option Bool :=
  let (key, value) := (Text.cut? '=' line.toList).getD (line.toList, [])
  if Text.stripChars key = entryName.toList then
    some (Text.lowerChars (Text.stripChars value) == "true".toList)
  else none

/-- The outcome in a text: that in the first line that holds one. -/
def outcomeOf (text : String) : Option Bool :=
  (Text.brokenLines text).findSome? outcomeIn?

/-- The outcome that a file holds, if the file is there. -/
def readResults (path : Path) : Job (Option Bool) := do
  if ← Job.isFile path then return outcomeOf (← Artifacts.readText path) else return none

end ReviewGate.TestGate
