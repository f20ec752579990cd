import ReviewGate.ChangedFile
import ReviewGate.Runner
import ReviewGate.Text.Lowercase

/-! The files that a change touches: which of the paths named by version control are of interest, in
which order, and what the files hold. -/
namespace ReviewGate

/-- A checkout, and the endings of the paths of interest in lower case. -/
structure Checkout where
  root : Path
  endings : List String

namespace Checkout

def source : String := "code_review_trainer.github.collector"

/-- The seconds that version control may take. -/
def timeout : Nat := 60

/-- An ending of paths: a point and the extension in lower case. -/
def ending (extension : String) : String :=
  if Text.startsWith extension "." then Text.lower extension else "." ++ Text.lower extension

/-- The ending of an extension, which must be a text. -/
def endingOf : Value → Except Misuse String
  | .str s => .ok (ending s)
  | .bytes _ => .error .bytesStartNeeded
  | v => .error (.noAttribute v.kind "startswith")

def make (root : String) (extensions : Value) : Except Misuse Checkout := do
  let items ← extensions.items
  return ⟨.ofText root, ← items.mapM endingOf⟩

/-- Whether a path has one of the endings, whatever its case. -/
def isRelevant (c : Checkout) (path : String) : Bool :=
  c.endings.any fun e => Text.endsWith (Text.lower path) e

/-- The paths of interest without the blanks around them, each of them once, in ascending order. -/
def select (c : Checkout) (paths : List String) : List String :=
  Text.ascending ((paths.map Text.strip).filter fun p => p != "" && c.isRelevant p)

/-- How version control is asked for the paths that differ between two commits. -/
def diff (c : Checkout) (base head : String) : Command :=
  ⟨["git", "diff", "--name-only", base, head], .str c.root.text, some timeout⟩

/-- The paths of interest that differ between two commits; none if version control fails. -/
def changedPaths (c : Checkout) (base head : String) : Job (List String) := do
  match ← Job.start (c.diff base head) with
  | .error e =>
    Job.log .warning source ("git diff failed: " ++ e.message)
    return []
  | .ok (code, output, errors) =>
    if code = 0 then
      let paths := c.select (Text.brokenLines output)
      Job.log .info source
        ("Found " ++ toString paths.length ++ " changed files matching " ++ Text.join ", " c.endings)
      return paths
    else
      let description := Text.strip errors
      let shown := if description = "" then "exit code " ++ Number.intText code else description
      Job.log .warning source ("git diff failed: " ++ shown)
      return []

/-- The bytes of a changed file as its text. -/
def fileOf (path : String) (content : List UInt8) : Except Refusal ChangedFile :=
  ChangedFile.ofText path (Text.Utf8.decodeLossy content)

/-- A changed file; `none` if it cannot be read. -/
def loadFile (c : Checkout) (path : String) : Job (Option ChangedFile) := do
  match ← Job.catching Fault.isStorage (Job.readFile (c.root.follow path)) with
  | .error e =>
    Job.log .warning source ("Skipping unreadable file " ++ path ++ ": " ++ e.message)
    return none
  | .ok content =>
    let size := (Text.Utf8.decodeLossy content).length
    Job.log .debug source ("Loaded " ++ path ++ " (" ++ toString size ++ " chars)")
    return some (← Job.ofExcept ((fileOf path content).mapError .refused))

/-- The changed files that can be read, in the order of the paths. -/
def loadFiles (c : Checkout) : List String → Job (List ChangedFile)
  | [] => return []
  | path :: more => do
    let file ← c.loadFile path
    let files ← c.loadFiles more
    return file.toList ++ files

/-- The changed files between two commits. -/
def collect (c : Checkout) (base head : String) : Job (List ChangedFile) := do
  c.loadFiles (← c.changedPaths base head)

end Checkout

end ReviewGate
