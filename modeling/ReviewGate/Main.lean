import ReviewGate.CommandLine.Reach

/-! The program: a command line on the files and the environment of the machine. It starts no other
programs and sends nothing. -/
namespace ReviewGate.CommandLine

/-- What a path leads to on the machine. -/
def readEntry (path : String) : IO (Option Entry) := do
  try
    return some (.file (← IO.FS.readBinFile path).toList)
  catch e =>
    match e with
    | .inappropriateType .. => return some .directory
    | _ => return none

/-- The workspace together with what is on the machine along the names from one path on. -/
def learnFrom (w : Workspace) (p : Path) : List String → IO Workspace
  | [] => return w
  | name :: more => do
    let next := p.child name
    match w.locate next, ← readEntry next.text with
    | .ok place, some e => learnFrom (w.put place e) next more
    | _, _ => return w

/-- The workspace together with what is on the machine on the way to a path and at its end. -/
def learn (w : Workspace) (p : Path) : IO Workspace :=
  learnFrom w ⟨p.root, []⟩ p.parts

/-- The path of a place on the machine. -/
def pathAt : Location → String
  | "/" :: names => "/" ++ Text.join "/" names
  | names => Text.join "/" names

/-- Brings a place of the machine to what it holds in the workspace. -/
def store (place : Location) : Option Entry → IO Unit
  | none => IO.FS.removeFile (pathAt place)
  | some .directory => IO.FS.createDirAll (pathAt place)
  | some (.file content) => IO.FS.writeBinFile (pathAt place) ⟨content.toArray⟩

/-- Brings the machine from one workspace to another. -/
def storeChanges (before after : Workspace) : IO Unit := do
  for (place, e) in after.entries do
    if before.entryAt? place != some e then store place (some e)
  for (place, _) in before.entries do
    if (after.entryAt? place).isNone then store place none

def environment : IO Settings.Environment :=
  Settings.variableNames.filterMapM fun name => do
    return (← IO.getEnv name).map fun value => (name, value)

/-- The workspace that a command line may look at. -/
def load (env : Settings.Environment) (start : Runner) (args : List String) : IO Workspace := do
  match read args with
  | .error _ => return start.workspace
  | .ok i =>
    let w ← (settingsPaths i).foldlM learn start.workspace
    match (readSettings env i.config { start with workspace := w }).1 with
    | .error _ => return w
    | .ok s => (paths s i).foldlM learn w

end ReviewGate.CommandLine

open ReviewGate CommandLine

def main (args : List String) : IO UInt32 := do
  let env ← environment
  let start : Runner := { Runner.fresh 0 with child := .notFound }
  let before ← load env start args
  let (result, after) := execute env args { start with workspace := before }
  storeChanges before after.workspace
  IO.print after.output
  IO.eprint after.errors
  match result with
  | .ok code => return code.toUInt32
  | .error e =>
    IO.eprintln e.message
    return 1
