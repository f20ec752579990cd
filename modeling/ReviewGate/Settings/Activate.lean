import ReviewGate.Runner
import ReviewGate.Settings.Check

/-! Putting settings to use: reading them, checking them, and setting up the log as they say. -/
namespace ReviewGate.Settings

def source : String := "code_review_trainer.config"

/-- The settings in a file, which may be empty. -/
def load (path : String) : Job Settings := do
  let file := Path.ofText path
  if (← Job.ofExcept ((← get).workspace.status file)).isNone then throw (.settingsMissing path)
  let content ← Job.readFile file
  let document ← Job.ofExcept ((← get).platform.yaml content)
  Job.use (ofDocument (if document.isGiven then document else .map []))

/-- The layout of log lines, which must have a slot. The layout of nothing is that of the message
alone. -/
def layoutOf (layout : Value) : Except Fault String :=
  if !layout.isGiven then .ok LogLayout.plain
  else
    match layout with
    | .str s => if LogLayout.hasSlot s.toList then .ok s else .error (.refused (.logFormat s))
    | .bytes _ => .error (.misuse .bytesFormat)
    | v => .error (.misuse (.notFormat v.kind))

/-- The path that a value gives. -/
def pathOf : Value → Except Misuse Path
  | .str s => .ok (.ofText s)
  | .bytes _ => .error .bytesPath
  | v => .error (.notPath v.shortKind)

/-- A path with the steps up taken out together with the names before them. -/
def direct (p : Path) : Path :=
  ⟨p.root, p.parts.foldl (fun kept part => if part = ".." then kept.dropLast else kept ++ [part]) []⟩

/-- Whether a log file is limited in size; the limit must be a number. -/
def limitOf (maxSize : Value) : Except Misuse Int :=
  match maxSize.compareInt? 0 with
  | none => .error (.notOrdered ">" maxSize.kind "int")
  | some _ => .ok (maxSize.asInt?.getD 0)

/-- Opens the log file, which keeps what it holds. -/
def openLogFile (s : LogSettings) : Job LogFile := do
  let maxBytes ← Job.use (limitOf s.maxSize)
  let path := direct (← Job.use (pathOf s.file))
  if (← Job.ofExcept ((← get).workspace.status path)) matches some (.file _) then pure ()
  else Job.writeFile path []
  return ⟨path, maxBytes, s.backups.asInt?.getD 0⟩

/-- The least weight of the messages that are logged. -/
def threshold (s : Settings) : Nat :=
  if s.debug.isGiven then LogLevel.debug.weight
  else ((LogLevel.ofText? s.log.level.text).getD .info).weight

/-- Sets up the log. If lines are shown already, they go on to be shown as before. -/
def setUpLog (s : Settings) : Job Unit := do
  if (← get).journal.console.isNone then
    let layout ← Job.ofExcept (layoutOf s.log.layout)
    modify fun r =>
      { r with journal := { r.journal with threshold := s.threshold, console := some layout } }
  if s.log.file.isGiven then
    let file ← openLogFile s.log
    let layout ← Job.ofExcept (layoutOf s.log.layout)
    modify fun r => { r with journal := { r.journal with file := some (layout, file) } }

/-- Checks settings, sets up the log and shows the settings in it. -/
def activate (s : Settings) : Job Unit := do
  Job.ofExcept s.check
  s.setUpLog
  let document ← Job.use s.shown
  Job.log .debug source ("Effective configuration: " ++ document.quoted)

/-- The settings in use: those that are kept or, if there are none yet, those in the environment, put
to use. -/
def current (kept : Option Settings) (env : Environment) : Job Settings := do
  match kept with
  | some s => return s
  | none =>
    let s ← Job.ofExcept (ofEnvironment env)
    s.activate
    return s

end ReviewGate.Settings
