import ReviewGate.CommandLine.Run
import ReviewGate.Proofs.Settings.Activate

/-! What every command starts with: the settings are read and put to use, and a reviewer is made ready. -/
namespace ReviewGate

section Keeps

variable {R : Runner → Runner → Prop} (hR : Runner.IsCalm R)
include hR

theorem CommandLine.readSettings_keeps (env : Settings.Environment) (config : Option String) :
    (readSettings env config).Keeps R :=
  .ite (.ofExcept hR _) (Settings.load_keeps hR _)

theorem CommandLine.prepare_keeps (hfiles : Runner.AllowsFiles R) (env : Settings.Environment)
    (config : Option String) : (prepare env config).Keeps R :=
  .bind hR (readSettings_keeps hR env config) fun s =>
    .bind hR (Settings.activate_keeps_rest hR hfiles s) fun _ => .pure hR _

theorem Reviewer.start_keeps (s : Settings) : (start s).Keeps R :=
  .bind hR (.ofExcept hR _) fun _ => .bind hR (hR.log _ _ _) fun _ => .pure hR _

end Keeps

/-- A reviewer has the settings that it was made with. -/
theorem Reviewer.make_eq_ok {s : Settings} {r : Reviewer} (h : make s = .ok r) :
    r.settings = s ∧ Settings.pathOf s.artifacts.directory = .ok r.store := by
  unfold make at h
  rcases hwindow : s.analysis.window.atMost 0 with _ | _ | _ <;> rw [hwindow] at h
  · cases h
  · rcases hworkers : s.analysis.workers.lessThan 1 with _ | _ | _ <;> rw [hworkers] at h
    · cases h
    · rcases hstore : Settings.pathOf s.artifacts.directory with _ | store <;> rw [hstore] at h
      · cases h
      · cases h
        exact ⟨rfl, rfl⟩
    · cases h
  · cases h

theorem Reviewer.start_eq_ok {s : Settings} {r : Reviewer} {m n : Runner}
    (h : start s m = (.ok r, n)) :
    make s = .ok r ∧ Job.log .debug source "Review Trainer API initialized" m = (.ok (), n) := by
  simp only [start, Action.bind_eq_ok, Job.ofExcept_eq_ok] at h
  obtain ⟨r', _, ⟨hmake, rfl⟩, _, _, hlog, hdone⟩ := h
  cases hdone
  exact ⟨hmake, hlog⟩

/-- The reviewer that settings give on every machine that is ready for them. -/
def Settings.reviewer (s : Settings) : Except Fault Reviewer := do
  s.usable
  Reviewer.make s

theorem Reviewer.start_result (settings : Settings) (s : Runner) :
    (start settings s).1 = make settings := by
  rw [start, Action.bind_run, Job.ofExcept_run]
  rcases make settings with e | r
  · rfl
  · obtain ⟨t, hlog⟩ := (Job.Gives.log .debug source "Review Trainer API initialized").exists_run s
    exact congrArg Prod.fst (Action.bind_run_ok hlog _)

namespace CommandLine

variable {env : Settings.Environment} {config : Option String} {settings : Settings} {r : Reviewer}
  {task : Task} {m n s t : Runner}

theorem prepare_of_environment (hconfig : config.getD "" = "")
    (hsettings : Settings.ofEnvironment env = .ok settings) :
    prepare env config = (settings.activate >>= fun _ => pure settings) := by
  rw [prepare, readSettings, if_pos hconfig, hsettings]
  rfl

theorem prepare_eq_ok (h : prepare env config m = (.ok settings, n)) :
    ∃ s, readSettings env config m = (.ok settings, s) ∧ settings.activate s = (.ok (), n) := by
  simp only [prepare, Action.bind_eq_ok] at h
  obtain ⟨found, s, hread, _, t, hactivate, hdone⟩ := h
  cases hdone
  exact ⟨s, hread, hactivate⟩

/-- A command whose settings cannot be put to use says so at most. Its exit code, if it has one, is that
of a mistake in the settings. -/
theorem run_of_unprepared {e : Fault} (h : prepare env config m = (.error e, s)) :
    ∃ t, s.Aside t ∧ ∀ task, run env ⟨config, task⟩ m =
      (if isConfigurationFault e then .ok 2 else .error e, t) := by
  have hrun : ∀ task, run env ⟨config, task⟩ m = _ := fun task => by
    rw [run, Action.bind_run, Job.catching_run, h]
  rcases hfamily : isConfigurationFault e with _ | _
  · exact ⟨s, .refl s, fun task => by simp only [hrun, hfamily, Bool.false_eq_true, if_false]⟩
  · refine ⟨_, ?_, fun task => by simp only [hrun, hfamily, if_true]; rfl⟩
    exact ⟨⟨rfl, rfl, rfl, rfl, rfl, rfl⟩, fun hfile => ⟨hfile, rfl⟩, rfl⟩

/-- Once the settings are put to use and a reviewer is ready, a command does what it is for. -/
theorem run_of_start (hprepare : prepare env config m = (.ok settings, s))
    (hstart : Reviewer.start settings s = (.ok r, t)) :
    run env ⟨config, task⟩ m = runTask r task t := by
  have hcatch : Job.catching isConfigurationFault (prepare env config) m = (.ok (.ok settings), s) := by
    rw [Job.catching_run, hprepare]
  rw [run, Action.bind_run_ok hcatch]
  exact Action.bind_run_ok hstart _

/-- A command succeeds only after its settings have been put to use. -/
theorem run_eq_zero (h : run env ⟨config, task⟩ m = (.ok 0, n)) :
    ∃ settings s r t, prepare env config m = (.ok settings, s) ∧
      Reviewer.start settings s = (.ok r, t) ∧ runTask r task t = (.ok 0, n) := by
  rw [run, Action.bind_eq_ok] at h
  obtain ⟨e | settings, s, hcatch, h⟩ := h
  · obtain ⟨_, u, -, hdone⟩ := Action.bind_eq_ok.mp h
    cases hdone
  · obtain ⟨r, t, hstart, h⟩ := Action.bind_eq_ok.mp h
    exact ⟨settings, s, r, t, Job.catching_eq_ok hcatch, hstart, h⟩

/-! ### Making ready on every machine -/

/-- Puts the settings to use and makes a reviewer ready, as every command does at first. -/
def makeReady (env : Settings.Environment) (config : Option String) : Job Reviewer := do
  let s ← prepare env config
  Reviewer.start s

theorem run_of_ready (h : makeReady env config m = (.ok r, t)) (task : Task) :
    run env ⟨config, task⟩ m = runTask r task t := by
  obtain ⟨s, u, hprepare, hstart⟩ := Action.bind_eq_ok.mp h
  exact run_of_start hprepare hstart

/-- If no reviewer can be made ready, all commands end in the same way. -/
theorem run_of_unready {e : Fault} (h : makeReady env config m = (.error e, t)) :
    ∃ result u, t.Aside u ∧ ∀ task, run env ⟨config, task⟩ m = (result, u) := by
  rw [makeReady, Action.bind_run] at h
  rcases hprepare : prepare env config m with ⟨e' | s, u⟩
  · rw [hprepare] at h
    cases h
    exact ⟨_, run_of_unprepared hprepare⟩
  · rw [hprepare] at h
    refine ⟨.error e, t, .refl t, fun task => ?_⟩
    have hcatch : Job.catching isConfigurationFault (prepare env config) m = (.ok (.ok s), u) := by
      rw [Job.catching_run, hprepare]
    rw [run, Action.bind_run_ok hcatch]
    exact Action.bind_run_error h _

theorem makeReady_run (hsettings : Settings.ofEnvironment env = .ok settings)
    (hunlogged : settings.log.file.isGiven = false) (hready : settings.IsReadyOn m)
    (hconfig : config.getD "" = "") :
    ∃ t, makeReady env config m = (settings.reviewer, t) ∧ m.Aside t := by
  have hprepare := prepare_of_environment hconfig hsettings
  have hkeeps : (makeReady env config).Keeps Runner.Aside := by
    rw [makeReady, hprepare]
    have hcalm := Runner.Aside.isCalm
    exact .bind hcalm (.bind hcalm (Settings.activate_keeps hcalm .allowsJournals hunlogged)
      fun _ => .pure hcalm _) fun _ => Reviewer.start_keeps hcalm _
  have hresult : (makeReady env config m).1 = settings.reviewer := by
    rw [makeReady, hprepare, Settings.reviewer, ← Settings.activate_result hready hunlogged,
      Action.bind_run, Action.bind_run]
    rcases settings.activate m with ⟨e | _, t⟩
    · rfl
    · exact Reviewer.start_result settings t
  exact ⟨_, Prod.ext hresult rfl, hkeeps m⟩

end CommandLine

end ReviewGate
