import ReviewGate.Proofs.CommandLine.Prepare
import ReviewGate.Proofs.Settings.Shape

/-! What a command makes of the file with its settings, whatever the file holds and whatever the platform
reads from it. Settings that pass the check are put to use. A file that does not give such settings stops
the command before it does anything, but this is reported only if the values in the file are of the right
kinds. -/
namespace ReviewGate

/-- Whether two machines differ at most in their files and logs and in what they have shown as errors. -/
structure Runner.Mute (s t : Runner) : Prop where
  wires : s.SameWires t
  output : t.output = s.output

theorem Runner.Mute.isCalm : IsCalm Mute := by
  refine ⟨fun s => ⟨.refl s, rfl⟩, fun h h' => ⟨h.wires.trans h'.wires, h'.output.trans h.output⟩,
    fun level source message s => ?_⟩
  obtain ⟨errors, w, hrun, -⟩ := Job.log_run level source message s
  refine ⟨Job.log_wires level source message s, ?_⟩
  rw [hrun]

theorem Runner.Mute.allowsFiles : AllowsFiles Mute :=
  fun s w journal => ⟨SameWires.allowsFiles s w journal, rfl⟩

namespace Settings

variable {p : Platform} {path : String} {content : Option (List UInt8)} {settings : Settings}
  {m s t : Runner} {e : Fault}

/-- The document that stands for one in a file, which may be empty. -/
def documentOf (document : Value) : Value :=
  if document.isGiven then document else .map []

/-- The settings in a file with some content, if there is one, as a platform reads it. -/
def ofFile (p : Platform) (path : String) : Option (List UInt8) → Except Fault Settings
  | none => .error (.settingsMissing path)
  | some content => do
    let document ← p.yaml content
    (ofDocument (documentOf document)).mapError .misuse

/-- The settings in a file, if they pass the check. -/
def accepted (p : Platform) (path : String) (content : Option (List UInt8)) : Except Fault Settings := do
  let s ← ofFile p path content
  s.check
  return s

end Settings

namespace CommandLine

open Settings

variable {env : Settings.Environment} {p : Platform} {path : String} {content : Option (List UInt8)}
  {settings : Settings} {task : Task} {m n s : Runner} {e : Fault}

/-- A machine with a file of settings. -/
def holding (text : String) : Runner :=
  { Runner.fresh 0 with workspace := ⟨[(["config.yaml"], .file (Text.Utf8.encode text))]⟩ }

/-- Whether the settings in a text are refused with a message, and whether this is reported. -/
def refuses (text message : String) (isReported : Bool) : Bool :=
  match accepted (holding text).platform "config.yaml" (some (Text.Utf8.encode text)) with
  | .error e => e.message == message && isConfigurationFault e == isReported
  | .ok _ => false

end CommandLine

end ReviewGate
