import ReviewGate.Proofs.Artifacts.Read
import ReviewGate.Settings.Activate

/-! Reading settings and putting them to use changes no file, unless they name a log file. That file is
open from then on. -/
namespace ReviewGate

/-- Whether a relation between machines holds of those that differ in how they log, though not in where. -/
def Runner.AllowsJournals (R : Runner → Runner → Prop) : Prop :=
  ∀ s journal, journal.file = s.journal.file → R s { s with journal := journal }

/-- Whether a relation between machines holds of those that differ in their files and in how they log. -/
def Runner.AllowsFiles (R : Runner → Runner → Prop) : Prop :=
  ∀ s workspace journal, R s { s with workspace := workspace, journal := journal }

theorem Runner.SameWires.allowsFiles : AllowsFiles SameWires :=
  fun _ _ _ => ⟨rfl, rfl, rfl, rfl, rfl, rfl⟩

theorem Runner.SameWires.allowsJournals : AllowsJournals SameWires :=
  fun _ _ _ => ⟨rfl, rfl, rfl, rfl, rfl, rfl⟩

theorem Runner.SameDisk.allowsJournals : AllowsJournals SameDisk :=
  fun _ _ hjournal hfile => ⟨hjournal.trans hfile, rfl⟩

theorem Runner.Aside.allowsJournals : AllowsJournals Aside :=
  fun s journal h => ⟨SameWires.allowsJournals s journal h, SameDisk.allowsJournals s journal h, rfl⟩

namespace Settings

/-- The part of setting up the log that opens its file. -/
def keepLog (settings : Settings) : Job Unit := do
  let file ← openLogFile settings.log
  let layout ← Job.ofExcept (layoutOf settings.log.layout)
  modify fun r => { r with journal := { r.journal with file := some (layout, file) } }

variable {R : Runner → Runner → Prop} (hR : Runner.IsCalm R)
include hR

theorem load_keeps (path : String) : (load path).Keeps R := by
  have hread : (Job.readFile (.ofText path) >>= fun content => get >>= fun s =>
      Job.ofExcept (s.platform.yaml content) >>= fun document =>
        Job.use (ofDocument (if document.isGiven then document else .map []))).Keeps R :=
    .bind hR ((Job.readFile_effects _).keeps_of_quiet hR) fun _ => .bind hR (.get hR) fun s =>
      .bind hR (.ofExcept hR _) fun _ => .use hR _
  refine .bind hR (.get hR) fun s => .bind hR (.ofExcept hR _) fun status => ?_
  exact .ite (.bind hR (.throw hR _) fun _ => hread) hread

theorem openLogFile_keeps (hfiles : Runner.AllowsFiles R) (log : LogSettings) :
    (openLogFile log).Keeps R := by
  have hwrite : ∀ path, (Job.writeFile path []).Keeps R := fun path =>
    .bind hR (.get hR) fun s => .bind hR (.ofExcept hR _) fun w => fun s => hfiles s w s.journal
  refine .bind hR (.use hR _) fun _ => .bind hR (.use hR _) fun path => .bind hR (.get hR) fun s =>
    .bind hR (.ofExcept hR _) fun _ => ?_
  exact .ite (.pure hR _) (.bind hR (hwrite _) fun _ => .pure hR _)

/-- Putting settings to use changes files and the log at most. -/
theorem activate_keeps_rest (hfiles : Runner.AllowsFiles R) (s : Settings) : s.activate.Keeps R := by
  have hjournal : ∀ f : Runner → Journal,
      (modify fun r => { r with journal := f r } : Job Unit).Keeps R :=
    fun f r => hfiles r r.workspace (f r)
  have hfile : (if s.log.file.isGiven then s.keepLog else pure ()).Keeps R :=
    .ite (.bind hR (openLogFile_keeps hR hfiles _) fun _ => .bind hR (.ofExcept hR _) fun _ =>
      hjournal _) (.pure hR _)
  have hlog : s.setUpLog.Keeps R :=
    .bind hR (.get hR) fun _ => .ite (.bind hR (.ofExcept hR _) fun _ => .bind hR (hjournal _)
      fun _ => hfile) hfile
  exact .bind hR (.ofExcept hR _) fun _ => .bind hR hlog fun _ => .bind hR (.use hR _) fun _ =>
    hR.log _ _ _

theorem setUpLog_keeps (hjournals : Runner.AllowsJournals R) {s : Settings}
    (hlog : s.log.file.isGiven = false) : s.setUpLog.Keeps R := by
  unfold setUpLog
  simp only [hlog, Bool.false_eq_true, if_false]
  refine .bind hR (.get hR) fun r => .ite (.bind hR (.ofExcept hR _) fun layout => ?_) (.pure hR _)
  refine .bind hR (fun r => ?_) fun _ => .pure hR _
  rw [Action.modify_run]
  exact hjournals r _ rfl

theorem activate_keeps (hjournals : Runner.AllowsJournals R) {s : Settings}
    (hlog : s.log.file.isGiven = false) : s.activate.Keeps R :=
  .bind hR (.ofExcept hR _) fun _ => .bind hR (setUpLog_keeps hR hjournals hlog) fun _ =>
    .bind hR (.use hR _) fun _ => hR.log _ _ _

omit hR

variable {settings : Settings} {s t m : Runner}

/-- Whether a machine has no log file, and shows messages only if the settings have a layout for them. -/
def IsReadyOn (s : Settings) (m : Runner) : Prop :=
  m.journal.file = none ∧ (m.journal.console = none ∨ ∃ layout, layoutOf s.log.layout = .ok layout)

/-- Whether settings can be put to use on a machine that is ready for them. -/
def usable (s : Settings) : Except Fault Unit := do
  s.check
  let _ ← layoutOf s.log.layout
  let _ ← s.shown.mapError .misuse

theorem activate_result (hready : settings.IsReadyOn m)
    (hunlogged : settings.log.file.isGiven = false) : (settings.activate m).1 = settings.usable := by
  have hset : (settings.setUpLog m).1 = (layoutOf settings.log.layout).map fun _ => () := by
    unfold setUpLog
    simp only [hunlogged, Bool.false_eq_true, if_false]
    rw [Action.bind_run_ok (Action.get_run m)]
    rcases hready.2 with hnone | ⟨layout, hlayout⟩
    · rw [if_pos (by rw [hnone]; rfl), Action.bind_run, Job.ofExcept_run]
      rcases layoutOf settings.log.layout with e | layout <;> rfl
    · split_ifs
      · rw [Action.bind_run, Job.ofExcept_run, hlayout]
        rfl
      · rw [hlayout]
        rfl
  rw [activate, usable, Action.bind_run, Job.ofExcept_run]
  rcases settings.check with e | _
  · rfl
  · dsimp only
    rw [Action.bind_run]
    rcases hrun : settings.setUpLog m with ⟨result, t⟩
    rw [hrun] at hset
    obtain rfl : result = _ := hset
    rcases layoutOf settings.log.layout with e | layout
    · rfl
    · simp only [Except.map, Action.bind_run, Job.use_run]
      rcases settings.shown with misuse | document
      · rfl
      · exact Job.log_ok _ _ _ _

end Settings

end ReviewGate
