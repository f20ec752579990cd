import ReviewGate.Proofs.CommandLine.Analyze
import ReviewGate.Proofs.Guards
import ReviewGate.Proofs.Posting.Scope
import ReviewGate.Proofs.Settings.Conditions

/-! One check stands for all. What is made from settings looks at them once more, every part at its own and
in its own words, but settings from the environment that have passed the check pass everywhere: no command
is ever stopped by a guard. -/
namespace ReviewGate

/-! ### The parts that are made from settings -/

/-- A text is cut at the first separator in it. -/
theorem Text.cut_of_mem {separator : Char} {cs : List Char} (h : separator ∈ cs) :
    ∃ before after, cut? separator cs = some (before, after) ∧ separator ∉ before := by
  induction cs with
  | nil => cases h
  | cons c cs ih =>
    by_cases hc : c = separator
    · exact ⟨[], cs, by rw [cut?, if_pos hc], List.not_mem_nil⟩
    · obtain ⟨before, after, hcut, hbefore⟩ := ih (List.mem_of_ne_of_mem (Ne.symm hc) h)
      refine ⟨c :: before, after, by rw [cut?, if_neg hc, hcut]; rfl, ?_⟩
      rw [List.mem_cons, not_or]
      exact ⟨Ne.symm hc, hbefore⟩

/-- A text with a slash in it is taken for a repository. Its owner stands before the first slash. -/
theorem Forge.Repository.ofValue_of_slash {text : String} (h : '/' ∈ text.toList) :
    ∃ place : Repository, ofValue (.str text) = .ok place ∧ text = place.owner ++ "/" ++ place.name ∧
      '/' ∉ place.owner.toList := by
  obtain ⟨owner, name, hcut, howner⟩ := Text.cut_of_mem h
  have hslash : Value.isIn (.str "/") (.str text) = .ok true :=
    congrArg Except.ok (Settings.contains_slash.mpr h)
  refine ⟨⟨String.ofList owner, String.ofList name⟩, ?_, String.toList_injective ?_, ?_⟩
  · simp only [ofValue, hslash, hcut]
  · simp [String.toList_append, Text.cut_eq_some hcut]
  · rwa [String.toList_ofList]

/-- Whether settings are good enough for everything that is made from them: a table of rules and a crew, a
client and a poster as soon as there is a token and a repository, and the log. -/
structure Settings.Suffices (s : Settings) : Prop where
  rules : ∃ r size, Reviewer.make s = .ok r ∧ r.settings = s ∧ s.analysis.window = .int size ∧
    buildRules size = .ok r.rules ∧ 1 ≤ r.crew.workers
  client : s.forge.token.isGiven = true →
    ∃ c, Forge.Client.make s.forge.token s.forge.baseUrl s.forge.timeout = .ok c
  poster : s.forge.repository.isGiven = true → ∃ place : Forge.Repository,
    s.forge.repository = .str (place.owner ++ "/" ++ place.name) ∧ '/' ∉ place.owner.toList ∧
      ∀ client marker recreate,
        Poster.make client s.forge.repository marker recreate = .ok ⟨client, place, marker, recreate.isGiven⟩
  level : ∃ level, LogLevel.ofText? s.log.level.text = some level ∧
    s.threshold = if s.debug.isGiven then LogLevel.debug.weight else level.weight

namespace Settings

variable {env : Environment} {s : Settings}

theorem suffices_of_check (henv : ofEnvironment env = .ok s) (hcheck : s.check = .ok ()) : s.Suffices := by
  obtain ⟨p, hp⟩ := ofEnvironment_isPlain henv
  obtain ⟨htexts, directory, hdirectory⟩ := ofEnvironment_hasTexts henv
  have hfit := hp.not_breaks hcheck
  refine ⟨?_, fun htoken => ?_, fun hrepository => ?_, hp.exists_level (hfit .level)⟩
  · have hstore : pathOf s.artifacts.directory = .ok (.ofText directory) := by
      rw [hdirectory]
      rfl
    have hwindow : ¬ p.window ≤ 0 := hfit .window
    have hworkers : ¬ p.workers < 1 := hfit .workers
    refine ⟨_, p.window, Reviewer.make_of_check hcheck hstore, rfl, hp.window, ?_, ?_⟩
    · simp only [buildRules, if_neg hwindow, Reviewer.rules, hp.window, Value.asInt?]
    · simp only [Reviewer.crew, hp.workers, Value.asInt?, Option.getD_some]
      omega
  · obtain ⟨address, haddress⟩ := htexts.baseUrl
    refine ⟨⟨s.forge.token, Text.dropTrailing '/' address, s.forge.timeout⟩, ?_⟩
    simp [Forge.Client.make, htoken, haddress, Forge.Client.baseOf]
  · obtain ⟨text, htext, hslash⟩ := hp.repository_slash (hfit .repository) hrepository
    obtain ⟨place, hplace, heq, howner⟩ := Forge.Repository.ofValue_of_slash hslash
    refine ⟨place, htext.trans (congrArg Value.str heq), howner, fun client marker recreate => ?_⟩
    rw [htext, Poster.make, hplace]
    rfl

end Settings

/-! ### Putting settings to use -/

namespace Settings

theorem unguarded_check (s : Settings) : Unguarded s.check := by
  unfold check
  split
  · exact .error rfl
  · exact .ok _
  · exact .error rfl

theorem unguarded_layoutOf (layout : Value) : Unguarded (layoutOf layout) := by
  unfold layoutOf
  split_ifs
  · exact .ok _
  · split
    · split_ifs
      · exact .ok _
      · exact .error rfl
    · exact .error rfl
    · exact .error rfl

theorem openLogFile_passes (log : LogSettings) : PassesGuards (openLogFile log) :=
  .bind (.use _) fun _ => .bind (.use _) fun _ => .bind .get fun s =>
    .bind (.ofExcept (s.workspace.status_failsPlainly _).unguarded) fun _ =>
      .ite (.pure _) (.bind (writeFile_passes _ _) fun _ => .pure _)

theorem activate_passes (s : Settings) : PassesGuards s.activate := by
  have hlayout : PassesGuards (Job.ofExcept (layoutOf s.log.layout)) := .ofExcept (unguarded_layoutOf _)
  have hfile : PassesGuards (if s.log.file.isGiven then s.keepLog else pure ()) :=
    .ite (.bind (openLogFile_passes _) fun _ => .bind hlayout fun _ => .changing _) (.pure _)
  have hlog : PassesGuards s.setUpLog :=
    .bind .get fun _ => .ite (.bind hlayout fun _ => .bind (.changing _) fun _ => hfile) hfile
  exact .bind (.ofExcept s.unguarded_check) fun _ => .bind hlog fun _ => .bind (.use _) fun _ => .log _ _ _

end Settings

/-! ### Stages and commands -/

/-- Whether no guard ever stops a stage of a reviewer. What a command makes of a stage that fails is left
out, since that might hide a guard. -/
structure Reviewer.IsUnguarded (r : Reviewer) : Prop where
  tests : PassesGuards r.runTests
  analysis : ∀ gate change number, PassesGuards
    (CommandLine.testsPassed r.settings gate >>= fun passed => r.runAnalysis passed change number)
  posting : ∀ client run number details, PassesGuards (r.runPosting client run number details)

namespace CommandLine

/-- Whether no guard ever stops a command whose settings are those in the environment: neither while they
are put to use, nor while a reviewer is made ready, nor in a stage, nor anywhere else. -/
structure IsUnguarded (env : Settings.Environment) (s : Settings) : Prop where
  preparation : ∀ config, config.getD "" = "" → PassesGuards (prepare env config)
  start : PassesGuards (Reviewer.start s)
  stages : ∀ r, Reviewer.make s = .ok r → r.IsUnguarded
  commands : ∀ args, (∀ i, read args = .ok i → i.config.getD "" = "") → PassesGuards (execute env args)

variable {env : Settings.Environment} {s : Settings} {r : Reviewer}

theorem prepare_passes (henv : Settings.ofEnvironment env = .ok s) {config : Option String}
    (hconfig : config.getD "" = "") : PassesGuards (prepare env config) := by
  rw [prepare_of_environment hconfig henv]
  exact .bind s.activate_passes fun _ => .pure _

theorem start_passes (hmake : Reviewer.make s = .ok r) : PassesGuards (Reviewer.start s) := by
  have hr : Unguarded (Reviewer.make s) := hmake ▸ .ok r
  exact .bind (.ofExcept hr) fun _ => .bind (.log _ _ _) fun _ => .pure _

theorem isUnguarded_of_suffices (h : s.Suffices) (hmake : Reviewer.make s = .ok r) : r.IsUnguarded := by
  obtain ⟨rfl, -⟩ := Reviewer.make_eq_ok hmake
  refine ⟨r.runTests_passes, fun gate change number => ?_, r.runPosting_passes fun hgiven => ?_⟩
  · exact .bind (.of_effects (testsPassed_effects (A := Effect.IsQuiet) _ gate)) fun passed =>
      r.runAnalysis_passes passed change number
  · obtain ⟨place, -, -, hposter⟩ := h.poster hgiven
    intro c marker recreate
    rw [hposter]
    exact .ok _

theorem runTask_passes (h : r.IsUnguarded) (task : Task) : PassesGuards (runTask r task) := by
  cases task with
  | test => exact .bind h.tests fun _ => .bind (.changing _) fun _ => .pure _
  | analyze gate change number =>
    refine .bind (.catching (h.analysis gate change number) _) fun analysis => ?_
    cases analysis with
    | ok a => exact .bind (.changing _) fun _ => .pure _
    | error e => exact .bind (.log _ _ _) fun _ => .pure _
  | post run number details =>
    refine .bind (.catching (h.posting none run number details) _) fun posting => ?_
    cases posting with
    | ok posting =>
      obtain ⟨_ | _, _⟩ := posting
      all_goals exact .pure _
    | error e => exact .bind (.log _ _ _) fun _ => .pure _

theorem run_passes (henv : Settings.ofEnvironment env = .ok s) (h : s.Suffices) {i : Invocation}
    (hconfig : i.config.getD "" = "") : PassesGuards (run env i) := by
  obtain ⟨r, -, hmake, -⟩ := h.rules
  have hprepare := prepare_of_environment hconfig henv
  refine .bind_of_run (.catching (prepare_passes henv hconfig) _) fun m result t hcaught => ?_
  cases result with
  | error e => exact .bind (.changing _) fun _ => .pure _
  | ok found =>
    -- The settings that are found are those of the environment, for which a reviewer can be made.
    have hrun := Job.catching_eq_ok hcaught
    rw [hprepare, Action.bind_eq_ok] at hrun
    obtain ⟨_, _, -, hdone⟩ := hrun
    cases hdone
    refine .bind_of_run (start_passes hmake) fun n r' u hstart => ?_
    obtain ⟨hmake', -⟩ := Reviewer.start_eq_ok hstart
    exact runTask_passes (isUnguarded_of_suffices h hmake') i.task

/-- Settings from the environment that suffice take every command past all guards. -/
theorem isUnguarded (henv : Settings.ofEnvironment env = .ok s) (h : s.Suffices) : IsUnguarded env s := by
  obtain ⟨r, -, hmake, -⟩ := h.rules
  refine ⟨fun config => prepare_passes henv, start_passes hmake, fun r => isUnguarded_of_suffices h,
    fun args hconfig => ?_⟩
  unfold execute
  cases hread : read args with
  | ok i => exact run_passes henv h (hconfig i hread)
  | error stop => exact .ite (.bind (.changing _) fun _ => .pure _) (.pure _)

end CommandLine

namespace Settings

/-- The check of settings is enough. It refuses exactly those that break one of its conditions, and says
which, unless a value is of a kind that it cannot look at. It can look at all values that come from the
environment. If they pass, everything that is made from them accepts them, and no guard ever stops a
command. -/
theorem check_suffices :
    (∀ s : Settings, (s.HasKinds → s.ReportsBroken) ∧ (¬ s.HasKinds → ∃ m, s.check = .error (.misuse m))) ∧
      ∀ (env : Environment) (s : Settings), ofEnvironment env = .ok s →
        (s.HasKinds ∧ ∃ p, s.IsPlain p ∧ ∀ c : Condition, c.outcome s = .ok true ↔ p.Breaks c) ∧
          (s.check = .ok () → s.Suffices ∧ CommandLine.IsUnguarded env s) := by
  refine ⟨fun s => ⟨reportsBroken, check_of_not_hasKinds⟩, fun env s henv => ⟨?_, fun hcheck => ?_⟩⟩
  · obtain ⟨p, hp⟩ := ofEnvironment_isPlain henv
    exact ⟨hp.hasKinds, p, hp, hp.breaks_iff⟩
  · have hsuffices := suffices_of_check henv hcheck
    exact ⟨hsuffices, CommandLine.isUnguarded henv hsuffices⟩

/-- An environment with values that are fit for use but look odd. -/
def oddValues : Environment :=
  [("GITHUB_TOKEN", " "), ("GITHUB_REPOSITORY", "octo/ref/er"), ("STEP2_WINDOW", "0_01"),
    ("SCAN_WORKERS", " +4 "), ("LOG_LEVEL", "dEbug")]

/-- The settings that the odd values stand for. -/
def oddSettings : Settings :=
  { default with
    forge := { default.forge with token := .str " ", repository := .str "octo/ref/er" }
    analysis := { default.analysis with window := .int 1, workers := .int 4 }
    log := { default.log with level := .str "dEbug" } }

/-- Settings with an empty window and with a level that there is not. -/
def loudSettings : Settings :=
  { default with
    analysis := { default.analysis with window := .int 0 }
    log := { default.log with level := .str "loud" } }

theorem check_suffices_oddValues :
    (oddSettings.Suffices ∧ CommandLine.IsUnguarded oddValues oddSettings) ∧
      loudSettings.ReportsBroken ∧
        (∃ e, loudSettings.check = .error e ∧ e.message = "Configuration validation failed: " ++
          "STEP 2 window must be positive; Invalid log level: loud") ∧
        ∃ m, { default with tests := { default.tests with command := .null } : Settings }.check =
          .error (.misuse m) := by
  have henv : ofEnvironment oddValues = .ok oddSettings := rfl
  have hcheck : oddSettings.check = .ok () := rfl
  have hloud : ofEnvironment [("STEP2_WINDOW", "0"), ("LOG_LEVEL", "loud")] = .ok loudSettings := rfl
  obtain ⟨hany, hfromEnvironment⟩ := check_suffices
  have hkinds := (hfromEnvironment _ _ hloud).1.1
  refine ⟨(hfromEnvironment _ _ henv).2 hcheck, (hany _).1 hkinds, ⟨_, rfl, rfl⟩, (hany _).2 fun h => ?_⟩
  exact h.command

end Settings

end ReviewGate
