import ReviewGate.Proofs.CommandLine.Analyze

/-! What the command that runs the tests leaves behind. Its last run decides whether the change is
analysed, whatever the file with the outcome held before. -/
namespace ReviewGate

variable {s t u m n : Runner}

namespace CommandLine

variable {env : Settings.Environment} {config : Option String} {settings : Settings} {r : Reviewer}

/-! ### Runs of the tests -/

/-- What a run of the tests shows: how its program ended, if it started one, and what it printed. -/
structure TestRun where
  ended : Option ChildOutcome
  printed : String

/-- Whether the program of a run of the tests ended with exit code zero. -/
def TestRun.passed (run : TestRun) : Bool :=
  run.ended.any ChildOutcome.isPass

/-- Whether a command line that asks for a run of the tests is obeyed: it ends with an exit code. -/
structure RunsTests (env : Settings.Environment) (settings : Settings) (m : Runner) (run : TestRun)
    (n : Runner) : Prop where
  ready : settings.IsReadyOn m
  returns : ∃ args config code, read args = .ok ⟨config, .test⟩ ∧ config.getD "" = "" ∧
    execute env args m = (.ok code, n)
  ended : (∃ c, n.commands = m.commands ++ [c] ∧ run.ended = some m.child) ∨
    (n.commands = m.commands ∧ run.ended = none)
  printed : n.output = m.output ++ run.printed

/-- Runs of the tests one after the other, each on a machine with the files that the one before has left
and with any program to be started. -/
inductive TestRuns (env : Settings.Environment) (settings : Settings) :
    Runner → List TestRun → Runner → Prop where
  | one {m run n} : RunsTests env settings m run n → TestRuns env settings m [run] n
  | more {m run n m' runs n'} : RunsTests env settings m run n → m'.workspace = n.workspace →
      TestRuns env settings m' runs n' → TestRuns env settings m (run :: runs) n'

/-- Whether files hold an outcome of the tests for the next analysis; where no reviewer can be made ready,
the tests have not passed. -/
def Holds (settings : Settings) (passed : Bool) (w : Workspace) : Prop :=
  (∃ e, settings.reviewer = .error e ∧ passed = false) ∨
    ∃ r path, settings.reviewer = .ok r ∧ Settings.pathOf settings.tests.resultsFile = .ok path ∧
      w.read path = .ok (Text.Utf8.encode (TestGate.record passed))

/-- Whether an analysis for which the command line does not say whether the tests passed looks at the
change. -/
def LooksAtChange (env : Settings.Environment) (config : Option String) (m : Runner) : Prop :=
  ∃ r t u, makeReady env config m = (.ok r, t) ∧ testsPassed r.settings none t = (.ok true, u)

theorem settings_of_reviewer (h : settings.reviewer = .ok r) : r.settings = settings := by
  obtain ⟨_, -, hmake⟩ := Action.except_bind_eq_ok.mp h
  exact (Reviewer.make_eq_ok hmake).1

/-- A run of the tests ends by keeping and printing how its program ended. -/
theorem runTest_eq_ok {code : Nat} (h : runTest r s = (.ok code, t)) :
    (∃ path, Settings.pathOf r.settings.tests.resultsFile = .ok path ∧
        t.workspace.read path = .ok (Text.Utf8.encode (TestGate.record s.child.isPass))) ∧
      t.output = s.output ++ ("test_passed=" ++ (if s.child.isPass then "true" else "false") ++ "\n") ∧
      ∃ c, t.commands = s.commands ++ [c] := by
  simp only [runTest, Reviewer.runTests, Action.bind_eq_ok, Job.use_eq_ok] at h
  obtain ⟨passed, s₁, ⟨passed', s₂, hrun, path, s₃, ⟨hpath, rfl⟩, written, s₄, hwrite, hdone⟩, _, s₅,
    hprint, hcode⟩ := h
  cases hdone
  cases hcode
  cases hprint
  obtain ⟨hstarted, rfl⟩ := TestGate.runTests_eq_ok hrun
  obtain ⟨hread, w, rfl⟩ := TestGate.writeResults_eq_ok hwrite
  refine ⟨⟨path, hpath, hread⟩, ?_, hstarted.commands⟩
  show s₂.output ++ _ = _
  rw [hstarted.output]

/-- An analysis only asks whether the tests passed. -/
theorem runAnalyze_of_passed {gate : Option Bool} {passed : Bool}
    (h : testsPassed r.settings gate t = (.ok passed, t)) (change : ChangeSelection)
    (number : Option Int) :
    runAnalyze r gate change number t = runAnalyze r (some passed) change number t := by
  have hgate := Action.bind_run_ok h fun passed => r.runAnalysis passed change number
  have hgiven : (testsPassed r.settings (some passed) >>= fun passed =>
      r.runAnalysis passed change number) t = _ := Action.bind_run_ok rfl _
  simp only [runAnalyze, Action.bind_run, Job.catching_run] at hgate hgiven ⊢
  rw [hgate, hgiven]

section Runs

variable {run : TestRun} {runs : List TestRun} (hsettings : Settings.ofEnvironment env = .ok settings)
  (hunlogged : settings.log.file.isGiven = false)
include hsettings hunlogged

/-- Where no reviewer can be made ready, no program is started and nothing is printed. -/
theorem RunsTests.of_unready {e : Fault} (h : RunsTests env settings m run n)
    (hreviewer : settings.reviewer = .error e) : run.printed = "" ∧ run.passed = false := by
  obtain ⟨hready, ⟨args, config, code, hread, hconfig, hrun⟩, hended, hprinted⟩ := h
  obtain ⟨t, hmade, haside⟩ := makeReady_run hsettings hunlogged hready hconfig
  rw [hreviewer] at hmade
  obtain ⟨result, u, haside', hall⟩ := run_of_unready hmade
  simp only [execute, hread] at hrun
  obtain ⟨-, rfl⟩ := Action.outcome_eq.mp ((hall .test).symm.trans hrun)
  have haside := haside.trans haside'
  constructor
  · rw [haside.output] at hprinted
    exact (String.append_right_inj m.output).mp (by rw [← hprinted, String.append_empty])
  · rcases hended with ⟨c, hcommands, -⟩ | ⟨-, hnone⟩
    · rw [haside.wires.commands] at hcommands
      simp at hcommands
    · rw [TestRun.passed, hnone]
      rfl

/-- Where a reviewer can be made ready, the outcome of the program is kept and printed. -/
theorem RunsTests.of_ready (h : RunsTests env settings m run n) (hreviewer : settings.reviewer = .ok r) :
    (∃ path, Settings.pathOf settings.tests.resultsFile = .ok path ∧
        n.workspace.read path = .ok (Text.Utf8.encode (TestGate.record run.passed))) ∧
      run.printed = "test_passed=" ++ (if run.passed then "true" else "false") ++ "\n" := by
  obtain ⟨hready, ⟨args, config, code, hread, hconfig, hrun⟩, hended, hprinted⟩ := h
  obtain ⟨t, hmade, haside⟩ := makeReady_run hsettings hunlogged hready hconfig
  rw [hreviewer] at hmade
  simp only [execute, hread] at hrun
  rw [run_of_ready hmade] at hrun
  obtain ⟨⟨path, hpath, hfile⟩, houtput, d, hstarted⟩ := runTest_eq_ok hrun
  have hpassed : run.passed = t.child.isPass := by
    rcases hended with ⟨c, -, hsome⟩ | ⟨hnone, -⟩
    · rw [TestRun.passed, hsome, haside.wires.child]
      rfl
    · rw [hnone, haside.wires.commands] at hstarted
      simp at hstarted
  rw [settings_of_reviewer hreviewer] at hpath
  rw [← hpassed] at hfile houtput
  rw [haside.output, hprinted, String.append_right_inj] at houtput
  exact ⟨⟨path, hpath, hfile⟩, houtput⟩

/-- A run of the tests leaves its outcome in the files, whatever they held, and prints it. -/
theorem RunsTests.holds (h : RunsTests env settings m run n) :
    (run.printed = "test_passed=true\n" ↔ run.passed = true) ∧
      Holds settings run.passed n.workspace := by
  rcases hreviewer : settings.reviewer with e | r
  · obtain ⟨hprinted, hpassed⟩ := h.of_unready hsettings hunlogged hreviewer
    exact ⟨by simp [hprinted, hpassed], Or.inl ⟨e, hreviewer, hpassed⟩⟩
  · obtain ⟨⟨path, hpath, hfile⟩, hprinted⟩ := h.of_ready hsettings hunlogged hreviewer
    refine ⟨?_, Or.inr ⟨r, path, hreviewer, hpath, hfile⟩⟩
    rw [hprinted]
    rcases run.passed with _ | _ <;> decide

/-- After runs of the tests the files hold the outcome of the last one. -/
theorem TestRuns.holds (h : TestRuns env settings m runs n) :
    (∀ run ∈ runs, run.printed = "test_passed=true\n" ↔ run.passed = true) ∧
      ∃ last, runs.getLast? = some last ∧ Holds settings last.passed n.workspace := by
  induction h with
  | @one m run n hrun =>
    obtain ⟨hprints, hholds⟩ := hrun.holds hsettings hunlogged
    exact ⟨by simpa using hprints, run, rfl, hholds⟩
  | @more m run n m' runs n' hrun hfiles hruns ih =>
    obtain ⟨hall, last, hlast, hholds⟩ := ih
    refine ⟨?_, last, by rw [List.getLast?_cons, hlast]; rfl, hholds⟩
    simpa using ⟨(hrun.holds hsettings hunlogged).1, hall⟩

/-- An analysis goes by the outcome that the files hold as by one on the command line. -/
theorem Holds.decides {passed : Bool} (h : Holds settings passed m.workspace)
    (hready : settings.IsReadyOn m) (hconfig : config.getD "" = "") :
    (LooksAtChange env config m ↔ passed = true) ∧
      ∀ change number, CommandLine.run env ⟨config, .analyze none change number⟩ m =
        CommandLine.run env ⟨config, .analyze (some passed) change number⟩ m := by
  obtain ⟨t, hmade, haside⟩ := makeReady_run hsettings hunlogged hready hconfig
  rcases h with ⟨e, hreviewer, rfl⟩ | ⟨r, path, hreviewer, hpath, hfile⟩
  · rw [hreviewer] at hmade
    obtain ⟨result, u, -, hall⟩ := run_of_unready hmade
    refine ⟨iff_of_false ?_ (by decide), fun change number => by rw [hall, hall]⟩
    rintro ⟨r, t', u', hmade', -⟩
    cases hmade.symm.trans hmade'
  · rw [hreviewer] at hmade
    have hpassed : testsPassed r.settings none t = (.ok passed, t) := by
      rw [← (haside.disk hready.1).2] at hfile
      rw [settings_of_reviewer hreviewer, testsPassed, hpath, Action.bind_run, Job.use_run]
      dsimp only [Except.mapError]
      rw [Action.bind_run_ok (TestGate.readResults_record hfile)]
      rfl
    refine ⟨⟨?_, ?_⟩, fun change number => ?_⟩
    · rintro ⟨r', t', u', hmade', hopen⟩
      cases hmade.symm.trans hmade'
      cases hpassed.symm.trans hopen
      rfl
    · rintro rfl
      exact ⟨r, t, t, hmade, hpassed⟩
    · rw [run_of_ready hmade, run_of_ready hmade]
      exact runAnalyze_of_passed hpassed change number

/-- Whatever the results file held before, the last run of the tests decides whether a following analysis
looks at the change, and every run prints its own outcome. -/
theorem test_runs_decide (h : TestRuns env settings m runs n) :
    (∀ run ∈ runs, run.printed = "test_passed=true\n" ↔ run.passed = true) ∧
      ∃ last, runs.getLast? = some last ∧
        ∀ config k, config.getD "" = "" → settings.IsReadyOn k → k.workspace = n.workspace →
          (LooksAtChange env config k ↔ last.passed = true) ∧
            ∀ args change number, read args = .ok ⟨config, .analyze none change number⟩ →
              execute env args k =
                CommandLine.run env ⟨config, .analyze (some last.passed) change number⟩ k := by
  obtain ⟨hprints, last, hlast, hholds⟩ := h.holds hsettings hunlogged
  refine ⟨hprints, last, hlast, fun config k hconfig hready hfiles => ?_⟩
  rw [← hfiles] at hholds
  obtain ⟨hlooks, hall⟩ := hholds.decides hsettings hunlogged hready hconfig
  refine ⟨hlooks, fun args change number hread => ?_⟩
  rw [← hall change number, execute, hread]

end Runs

/-- A machine on which the tests pass, with the outcome of tests that failed. -/
def passing : Runner :=
  { Runner.fresh 0 with
    workspace := ⟨[(["test-results.txt"], .file (Text.Utf8.encode "TEST_PASSED=false\n"))]⟩ }

/-- The machine afterwards, when the program that runs the tests may not be started any more. -/
def barred : Runner :=
  { Runner.fresh 60 with workspace := (execute [] ["test"] passing).2.workspace, child := .forbidden }

theorem runsTests_of_execute {printed : String} (hsilent : m.journal = .silent)
    (hcommands : m.commands = []) (houtput : m.output = "")
    (hcode : (execute [] ["test"] m).1.toOption = some 0)
    (hcommand : (execute [] ["test"] m).2.commands.length = 1)
    (hprinted : (execute [] ["test"] m).2.output = printed) :
    RunsTests [] .default m ⟨some m.child, printed⟩ (execute [] ["test"] m).2 := by
  obtain ⟨n, hrun⟩ := Action.exists_run_of_toOption hcode
  obtain ⟨c, hc⟩ := List.length_eq_one_iff.mp hcommand
  refine ⟨⟨by rw [hsilent]; rfl, Or.inl (by rw [hsilent]; rfl)⟩,
    ⟨["test"], none, 0, rfl, rfl, by rw [hrun]⟩, Or.inl ⟨c, by rw [hc, hcommands]; rfl, rfl⟩, ?_⟩
  rw [hprinted, houtput, String.empty_append]

theorem test_runs_decide_barred :
    TestRuns [] .default passing
        [⟨some (.exited 0 "" ""), "test_passed=true\n"⟩, ⟨some .forbidden, "test_passed=false\n"⟩]
        (execute [] ["test"] barred).2 ∧
      ¬ LooksAtChange [] none
        { Runner.fresh 120 with workspace := (execute [] ["test"] barred).2.workspace } := by
  have hpassing : RunsTests [] .default passing ⟨some (.exited 0 "" ""), "test_passed=true\n"⟩
      (execute [] ["test"] passing).2 :=
    runsTests_of_execute rfl rfl rfl (by decide +kernel) (by decide +kernel) (by decide +kernel)
  have hbarred : RunsTests [] .default barred ⟨some .forbidden, "test_passed=false\n"⟩
      (execute [] ["test"] barred).2 :=
    runsTests_of_execute rfl rfl rfl (by decide +kernel) (by decide +kernel) (by decide +kernel)
  have hfiles : barred.workspace = (execute [] ["test"] passing).2.workspace := by rw [barred]
  have hruns := TestRuns.more hpassing hfiles (.one hbarred)
  refine ⟨hruns, fun hlooks => ?_⟩
  -- The machine is not looked into again.
  generalize (execute [] ["test"] barred).2 = n at hruns hlooks
  obtain ⟨-, last, hlast, hdecides⟩ := test_runs_decide rfl (by decide) hruns
  obtain rfl : _ = last := Option.some.inj hlast
  have hready : Settings.default.IsReadyOn { Runner.fresh 120 with workspace := n.workspace } :=
    ⟨rfl, Or.inl rfl⟩
  have hpassed := (hdecides none _ rfl hready rfl).1.mp hlooks
  cases hpassed

end CommandLine

end ReviewGate
