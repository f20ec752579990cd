import ReviewGate.Proofs.Logged
import ReviewGate.Proofs.Settings.Shape
import ReviewGate.Proofs.TestGate
import ReviewGate.Proofs.Text.ShellWords
import ReviewGate.Reviewer.Stages

/-! What the test stage leaves behind: a record of how the program that runs the tests ended, whatever way
that was, as soon as the command is a text in which all quotes and escapes are ended, and the system takes
its words and the directory. -/
namespace ReviewGate

open Text.ShellWords (IsClosed)

theorem ChildOutcome.isPass_iff {o : ChildOutcome} :
    o.isPass = true ↔ ∃ output errors, o = .exited 0 output errors := by
  cases o with
  | exited code output errors => simp [isPass]
  | timedOut => simp [isPass]
  | notFound => simp [isPass]
  | forbidden => simp [isPass]

namespace TestGate

variable {s : Runner} {path : Path}

/-- A command with words that the system takes is started once. The outcome decides, and the rest is in the
log. -/
theorem runTests_run {command directory : Value} {args : List String} {timeout : Option Nat}
    (hwords : words command = .ok args) (hargs : args ≠ [])
    (hcheck : Command.check ⟨args, directory, timeout⟩ = .ok ()) (s : Runner) :
    ∃ t, runTests command directory timeout s = (.ok s.child.isPass, t) ∧ s.OnlyLogs t ∧
      t.commands = s.commands ++ [⟨args, directory, timeout⟩] := by
  obtain ⟨program, more, rfl⟩ := List.exists_cons_of_ne_nil hargs
  obtain ⟨u, hlog⟩ := (Job.Gives.log .info source ("Running tests: " ++ command.text)).exists_run s
  have hlogs : s.OnlyLogs u := (Runner.OnlyLogs.isCalm.log _ _ _).of_run hlog
  have hwires := (Job.log_wires _ _ _).of_run hlog
  let v : Runner := { u with commands := u.commands ++ [⟨program :: more, directory, timeout⟩] }
  -- Whatever the outcome is, it is logged and returned.
  have hend : ∀ (level : LogLevel) (message : String) (passed : Bool),
      ∃ t, (do Job.log level source message; return passed : Job Bool) v = (.ok passed, t) ∧
        s.OnlyLogs t ∧ t.commands = s.commands ++ [⟨program :: more, directory, timeout⟩] := by
    intro level message passed
    obtain ⟨t, hrun⟩ := (Job.Gives.log level source message).exists_run v
    have hlogs' : u.OnlyLogs t := Runner.OnlyLogs.isCalm.trans (Runner.OnlyLogs.allowsCommands u _)
      ((Runner.OnlyLogs.isCalm.log _ _ _).of_run hrun)
    refine ⟨t, Action.bind_run_ok hrun _, Runner.OnlyLogs.isCalm.trans hlogs hlogs', ?_⟩
    rw [((Job.log_wires _ _ _).of_run hrun).commands, ← hwires.commands]
  have hstart : Job.start ⟨program :: more, directory, timeout⟩ u = (_, v) := Job.start_run rfl hcheck u
  rw [runTests, hwords]
  simp only [Action.bind_run, Job.ofExcept_run, hlog, hstart, ← hwires.child]
  rcases u.child with ⟨code, output, errors⟩ | _ | _ | _
  · dsimp only
    split_ifs with hcode
    · simpa only [ChildOutcome.isPass, hcode, decide_true] using hend .info "Tests passed" true
    · simpa only [ChildOutcome.isPass, hcode, decide_false] using
        hend .warning ("Tests failed with exit code " ++ Number.intText code) false
  · exact hend .error _ false
  · exact hend .error _ false
  · exact hend .error _ false

/-- A command with words that the system does not take is not started, after it has been logged. -/
theorem runTests_refused {command directory : Value} {args : List String} {timeout : Option Nat} {e : Fault}
    (hwords : words command = .ok args) (hargs : args ≠ [])
    (hcheck : Command.check ⟨args, directory, timeout⟩ = .error e) (s : Runner) :
    ∃ t, runTests command directory timeout s = (.error e, t) ∧ s.OnlyLogs t ∧ t.commands = s.commands := by
  obtain ⟨program, more, rfl⟩ := List.exists_cons_of_ne_nil hargs
  obtain ⟨t, hlog⟩ := (Job.Gives.log .info source ("Running tests: " ++ command.text)).exists_run s
  have hstart : Job.start ⟨program :: more, directory, timeout⟩ t = (.error e, t) :=
    Job.start_refused rfl hcheck t
  refine ⟨t, ?_, (Runner.OnlyLogs.isCalm.log _ _ _).of_run hlog, ((Job.log_wires _ _ _).of_run hlog).commands⟩
  simp only [runTests, hwords, Action.bind_run, Job.ofExcept_run, hlog, hstart]

/-- A record that can be written is written. -/
theorem writeResults_run (hwritable : s.workspace.IsWritable path) (passed : Bool) :
    ∃ t, writeResults path passed s = (.ok path, t) ∧ t.commands = s.commands := by
  obtain ⟨w, hmake, hfree⟩ := hwritable
  simp only [writeResults, Action.bind_run, Job.makeDirectories_run, hmake, Job.writeFile, Action.get_run,
    Job.ofExcept_run, hfree.write, Action.modify_run]
  exact ⟨_, rfl, rfl⟩

end TestGate

namespace Reviewer

variable {r : Reviewer} {s : Runner} {path : Path}

/-- A text that passes the check and is closed has words. -/
theorem words_of_check (haccepted : r.settings.check = .ok ()) {command : String}
    (hcommand : r.settings.tests.command = .str command) (hclosed : IsClosed command.toList) :
    ∃ args, Text.ShellWords.split command = .ok args ∧ args ≠ [] ∧
      TestGate.words r.settings.tests.command = .ok args := by
  obtain ⟨args, hargs⟩ := Text.ShellWords.split_ok.mpr hclosed
  have hblank : Text.isBlankText command = false := by
    rcases Settings.command_of_check haccepted with ⟨command', hcommand', hblank⟩ | ⟨content, hcommand'⟩
    · rw [hcommand] at hcommand'
      cases hcommand'
      exact hblank
    · rw [hcommand] at hcommand'
      cases hcommand'
  refine ⟨args, hargs, Text.ShellWords.split_ne_nil hblank hargs, ?_⟩
  rw [hcommand, TestGate.words, hargs]
  rfl

/-- The system takes the words of a command if it takes the command as a text, and the directory. -/
theorem check_words {command : String} {args : List String} (hargs : Text.ShellWords.split command = .ok args)
    (directory : Value) (timeout : Option Nat) :
    Command.check ⟨args, directory, timeout⟩ = .ok () ↔
      '\x00' ∉ command.toList ∧ Job.IsStartable directory := by
  have hordinary : Text.ShellWords.IsOrdinary '\x00' := ⟨by decide, by decide, by decide⟩
  rw [Job.check_iff, ← Text.ShellWords.exists_mem_split hordinary hargs]
  simp

/-- With settings that pass the check and a file for the outcome that can be written, the stage records
whether the program that it starts ends with exit code zero, whatever the file held before, if the command
is a text that is closed, and the system takes it and the directory. If the system does not take them, then
the stage breaks off before it starts a program, and has done nothing but to log what it is about to do. Any
other command breaks off the stage before it has done anything. So in both cases what was recorded before is
left. -/
theorem runTests_records (haccepted : r.settings.check = .ok ())
    (hpath : Settings.pathOf r.settings.tests.resultsFile = .ok path)
    (hwritable : s.workspace.IsWritable path)
    (hway : ∀ place, path.parent.IsOnWay place → ¬ s.journal.Touches place) :
    (∀ command, r.settings.tests.command = .str command → IsClosed command.toList →
      ('\x00' ∉ command.toList → Job.IsStartable r.settings.tests.directory →
        ∃ args passed t, Text.ShellWords.split command = .ok args ∧
          t.commands = s.commands ++ [⟨args, r.settings.tests.directory, none⟩] ∧
          r.runTests s = (.ok passed, t) ∧
          (passed = true ↔ ∃ output errors, s.child = .exited 0 output errors) ∧
          t.workspace.read path = .ok (Text.Utf8.encode (TestGate.record passed))) ∧
      ('\x00' ∈ command.toList ∨ ¬ Job.IsStartable r.settings.tests.directory →
        ∃ e t, r.runTests s = (.error e, t) ∧ t.commands = s.commands ∧ s.OnlyLogs t)) ∧
    ((∀ command, r.settings.tests.command = .str command → ¬ IsClosed command.toList) →
      ∃ e, r.runTests s = (.error e, s)) := by
  refine ⟨fun command hcommand hclosed => ⟨fun hended hstartable => ?_, fun hrefused => ?_⟩, fun hopen => ?_⟩
  · obtain ⟨args, hargs, hsome, hwords⟩ := words_of_check haccepted hcommand hclosed
    obtain ⟨u, hrun, hlogs, hstarted⟩ :=
      TestGate.runTests_run hwords hsome ((check_words hargs _ none).mpr ⟨hended, hstartable⟩) s
    obtain ⟨t, hwrite, hcommands⟩ :=
      TestGate.writeResults_run (hlogs.isWritable hwritable hway) s.child.isPass
    refine ⟨args, s.child.isPass, t, hargs, by rw [hcommands, hstarted], ?_, ChildOutcome.isPass_iff,
      (TestGate.writeResults_eq_ok hwrite).1⟩
    rw [runTests, Action.bind_run_ok hrun, Action.bind_run_ok (Job.use_eq_ok.mpr ⟨hpath, rfl⟩),
      Action.bind_run_ok hwrite]
    rfl
  · obtain ⟨args, hargs, hsome, hwords⟩ := words_of_check haccepted hcommand hclosed
    rcases hcheck : Command.check ⟨args, r.settings.tests.directory, none⟩ with e | ⟨⟩
    · obtain ⟨t, hrun, hlogs, hcommands⟩ := TestGate.runTests_refused hwords hsome hcheck s
      exact ⟨e, t, by rw [runTests, Action.bind_run_error hrun], hcommands, hlogs⟩
    · obtain ⟨hended, hstartable⟩ := (check_words hargs _ none).mp hcheck
      exact absurd hrefused (by simp [hended, hstartable])
  · have hwords : ∃ e, TestGate.words r.settings.tests.command = .error e := by
      rcases Settings.command_of_check haccepted with ⟨command, hcommand, -⟩ | ⟨content, hcommand⟩
      · rw [hcommand, TestGate.words]
        rcases hsplit : Text.ShellWords.split command with m | args
        · exact ⟨_, rfl⟩
        · exact absurd (Text.ShellWords.split_ok.mp ⟨args, hsplit⟩) (hopen command hcommand)
      · rw [hcommand]
        exact ⟨_, rfl⟩
    obtain ⟨e, he⟩ := hwords
    refine ⟨e, ?_⟩
    rw [runTests, TestGate.runTests, he]
    rfl

/-- A reviewer with settings that differ from those that are used unless others are given in the command
only. -/
def testing (command : String) : Reviewer where
  settings := { Settings.default with tests := { Settings.default.tests with command := .str command } }
  window := Settings.default.analysis.window.asInt?
  store := .ofText "artifacts"

def resultsPath : Path := .ofText "test-results.txt"

/-- A machine on which the tests passed once and fail now. -/
def failingNow : Runner :=
  { Runner.fresh 0 with
    workspace := Workspace.empty.install [] (.file (Text.Utf8.encode (TestGate.record true)))
      ["test-results.txt"]
    child := .exited 1 "" "" }

theorem failingNow_isWritable : failingNow.workspace.IsWritable resultsPath :=
  ⟨failingNow.workspace, rfl, rfl, rfl, by decide⟩

theorem runTests_records_quoted :
    ∃ args passed t, Text.ShellWords.split "dotnet test \"My Tests.csproj\"" = .ok args ∧
      t.commands = failingNow.commands ++ [⟨args, .str ".", none⟩] ∧
      (testing "dotnet test \"My Tests.csproj\"").runTests failingNow = (.ok passed, t) ∧
      (passed = true ↔ ∃ output errors, failingNow.child = .exited 0 output errors) ∧
      t.workspace.read resultsPath = .ok (Text.Utf8.encode (TestGate.record passed)) :=
  ((runTests_records (r := testing "dotnet test \"My Tests.csproj\"") (by rfl) (by rfl)
    failingNow_isWritable (fun _ _ ⟨_, _, hfile, _⟩ => by cases hfile)).1 _ rfl
      (Text.ShellWords.split_ok.mp ⟨_, rfl⟩)).1 (by decide) (.text (by decide))

/-- A quote that is not closed passes the check, breaks off the stage, and leaves the record of another
time. -/
theorem runTests_leaves_old_record :
    (testing "dotnet test \"").settings.check = .ok () ∧
      (testing "dotnet test \"").runTests failingNow = (.error (.commandLine .unclosedQuote), failingNow) ∧
      failingNow.workspace.read resultsPath = .ok (Text.Utf8.encode (TestGate.record true)) :=
  ⟨rfl, rfl, rfl⟩

end Reviewer

end ReviewGate
