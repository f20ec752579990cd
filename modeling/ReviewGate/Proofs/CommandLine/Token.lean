import ReviewGate.Proofs.CommandLine.Post
import ReviewGate.Proofs.Posting.Token

/-! The token in the environment stays secret: whatever a command shows, logs, stores, starts and sends,
it would do the same with another token. -/
namespace ReviewGate

theorem Job.ofExcept_map {α β : Type} (f : α → β) (x : Except Fault α) :
    ofExcept (x.map f) = f <$> ofExcept x := by
  cases x <;> rfl

namespace Settings

/-- The token in an environment. -/
def tokenIn (env : Environment) : Value :=
  textIn env "GITHUB_TOKEN" default.forge.token

/-- Whether two environments differ in the token at most. -/
def SameButToken (env env' : Environment) : Prop :=
  ∀ name, name ≠ "GITHUB_TOKEN" → setting? env' name = setting? env name

def withToken (s : Settings) (token : Value) : Settings :=
  { s with forge := { s.forge with token := token } }

/-- Environments that differ in the token give the same settings but for the token, or the same fault. -/
theorem ofEnvironment_withToken {env env' : Environment} (h : SameButToken env env') :
    ofEnvironment env' = (ofEnvironment env).map (·.withToken (tokenIn env')) := by
  have htext : ∀ name o, name ≠ "GITHUB_TOKEN" → textIn env' name o = textIn env name o :=
    fun name o hname => by rw [textIn, textIn, h name hname]
  have hnumber : ∀ name o, name ≠ "GITHUB_TOKEN" → numberIn env' name o = numberIn env name o :=
    fun name o hname => by rw [numberIn, numberIn, h name hname]
  have hswitch : ∀ name o, name ≠ "GITHUB_TOKEN" → switchIn env' name o = switchIn env name o :=
    fun name o hname => by rw [switchIn, switchIn, h name hname]
  have hlist : ∀ name o, name ≠ "GITHUB_TOKEN" → listIn env' name o = listIn env name o :=
    fun name o hname => by rw [listIn, listIn, h name hname]
  simp (disch := decide) only [ofEnvironment, htext, hnumber, hswitch, hlist]
  rcases numberIn env "GITHUB_TIMEOUT" default.forge.timeout with e | timeout
  · rfl
  rcases numberIn env "STEP2_WINDOW" default.analysis.window with e | window
  · rfl
  rcases numberIn env "SCAN_WORKERS" default.analysis.workers with e | workers
  · rfl
  rcases numberIn env "LOG_MAX_SIZE" default.log.maxSize with e | maxSize
  · rfl
  rcases numberIn env "LOG_BACKUP_COUNT" default.log.backups with e | backups <;> rfl

variable (s : Settings) (token : Value)

theorem problems_withToken : (s.withToken token).problems = s.problems :=
  rfl

theorem shown_withToken : (s.withToken token).shown = s.shown :=
  rfl

theorem activate_withToken : (s.withToken token).activate = s.activate :=
  rfl

end Settings

namespace Reviewer

def withToken (r : Reviewer) (token : Value) : Reviewer :=
  { r with settings := r.settings.withToken token }

theorem make_withToken (s : Settings) (token : Value) :
    make (s.withToken token) = (make s).map (·.withToken token) := by
  unfold make
  simp only [Settings.withToken]
  rcases s.analysis.window.atMost 0 with m | _ | _
  · rfl
  · rcases s.analysis.workers.lessThan 1 with m | _ | _
    · rfl
    · rcases Settings.pathOf s.artifacts.directory with m | store <;> rfl
    · rfl
  · rfl

variable (r : Reviewer) (token : Value)

theorem start_withToken (s : Settings) (token : Value) :
    start (s.withToken token) = (·.withToken token) <$> start s := by
  rw [start, start, make_withToken]
  rcases make s with e | r <;> rfl

theorem runTests_withToken : (r.withToken token).runTests = r.runTests :=
  rfl

theorem logScans_withToken (scans : List (ChangedFile × List Finding)) :
    (r.withToken token).logScans scans = r.logScans scans := by
  induction scans with
  | nil => rfl
  | cons scan scans ih =>
    simp only [logScans, ih]
    rfl

theorem analyze_withToken (files : List ChangedFile) :
    (r.withToken token).analyze files = r.analyze files := by
  simp only [analyze, logScans_withToken]
  rfl

theorem runAnalysis_withToken (testsPassed : Bool) (change : ChangeSelection) (number : Option Int) :
    (r.withToken token).runAnalysis testsPassed change number =
      r.runAnalysis testsPassed change number := by
  simp only [runAnalysis, analyzeChange, analyze_withToken]
  rfl

variable {r token}

theorem clientFor_withToken (h : token.isGiven = r.settings.forge.token.isGiven) :
    (r.withToken token).clientFor none = (·.withToken token) <$> r.clientFor none := by
  have hconnect := Forge.Client.connect_withToken h r.settings.forge.baseUrl r.settings.forge.timeout
  simp only [clientFor, withToken, Settings.withToken, h, hconnect]
  rcases r.settings.forge.token.isGiven with _ | _ <;> rfl

theorem runPosting_withToken (h : token.isGiven = r.settings.forge.token.isGiven)
    (run number : Option Int) (details : Option String) :
    (r.withToken token).runPosting none run number details = r.runPosting none run number details := by
  simp only [runPosting, clientFor_withToken h, bind_map_left, Poster.make_withToken, Job.ofExcept_map,
    Poster.post_withToken]
  rfl

end Reviewer

namespace CommandLine

open Settings

/-- Whether a command needs the token. -/
def Task.NeedsToken : Task → Prop
  | .test => False
  | .analyze _ _ _ => False
  | .post _ _ _ => True

theorem runTask_withToken {r : Reviewer} {token : Value} {task : Task}
    (h : task.NeedsToken → token.isGiven = r.settings.forge.token.isGiven) :
    runTask (r.withToken token) task = runTask r task := by
  cases task with
  | test => simp only [runTask, runTest, Reviewer.runTests_withToken]
  | analyze gate change number =>
    simp only [runTask, runAnalyze, Reviewer.runAnalysis_withToken]
    rfl
  | post run number details => simp only [runTask, runPost, Reviewer.runPosting_withToken (h trivial)]

theorem start_bind_withToken {s : Settings} {token : Value} {task : Task}
    (h : task.NeedsToken → token.isGiven = s.forge.token.isGiven) :
    (Reviewer.start (s.withToken token) >>= fun r => runTask r task) =
      Reviewer.start s >>= fun r => runTask r task := by
  funext m
  rw [Reviewer.start_withToken, bind_map_left, Action.bind_run, Action.bind_run]
  rcases hstart : Reviewer.start s m with ⟨e | r, n⟩
  · rfl
  · have hsettings := (Reviewer.make_eq_ok (Reviewer.start_eq_ok hstart).1).1
    exact congrFun (runTask_withToken (by rwa [hsettings])) n

theorem token_of_environment {env : Environment} {s : Settings} (h : ofEnvironment env = .ok s) :
    s.forge.token = tokenIn env := by
  have hself : SameButToken env env := fun _ _ => rfl
  have hsame := ofEnvironment_withToken hself
  rw [h] at hsame
  exact congrArg (·.forge.token) (Except.ok.inj hsame)

/-- With another token in the environment a command does the same. -/
theorem run_withToken {env env' : Environment} (hsame : SameButToken env env') (i : Invocation)
    (h : i.task.NeedsToken → i.config.getD "" = "" → (tokenIn env').isGiven = (tokenIn env).isGiven) :
    run env' i = run env i := by
  by_cases hconfig : i.config.getD "" = ""
  · have hsettings' := ofEnvironment_withToken hsame
    rcases hsettings : ofEnvironment env with e | s
    all_goals rw [hsettings] at hsettings'
    · simp only [run, prepare, readSettings, if_pos hconfig, hsettings, hsettings', Except.map]
    · have htoken := token_of_environment hsettings
      have hgiven : i.task.NeedsToken → (tokenIn env').isGiven = s.forge.token.isGiven :=
        fun hneeds => by rw [htoken, h hneeds hconfig]
      have hrest := start_bind_withToken hgiven
      funext m
      rw [run, run, Action.bind_run, Action.bind_run, Job.catching_run, Job.catching_run,
        prepare_of_environment hconfig hsettings, prepare_of_environment hconfig hsettings',
        activate_withToken, Action.bind_run, Action.bind_run]
      rcases s.activate m with ⟨e | _, n⟩
      · rfl
      · exact congrFun hrest n
  · simp only [run, prepare, readSettings, if_neg hconfig]

/-- The token in the environment changes nothing that can be seen: environments that differ in the token
lead to the same settings otherwise, with the same problems, and every command line does the same on every
machine. For a posting, which does not start without a token, both or none of them must be given. -/
theorem execute_ignores_token {env env' : Environment} (hsame : SameButToken env env') :
    ((ofEnvironment env').map fun s => (s.shown, s.problems)) =
        (ofEnvironment env).map (fun s => (s.shown, s.problems)) ∧
      ∀ args m,
        (∀ config run number details, read args = .ok ⟨config, .post run number details⟩ →
          config.getD "" = "" → (tokenIn env').isGiven = (tokenIn env).isGiven) →
        execute env' args m = execute env args m := by
  refine ⟨?_, fun args m h => ?_⟩
  · rw [ofEnvironment_withToken hsame]
    rcases ofEnvironment env with e | s
    · rfl
    · exact congrArg Except.ok (Prod.ext (shown_withToken s _) (problems_withToken s _))
  · rcases hread : read args with stop | ⟨config, task⟩
    · simp only [execute, hread]
    · simp only [execute, hread]
      refine congrFun (run_withToken hsame ⟨config, task⟩ fun hneeds hconfig => ?_) m
      cases task with
      | test => exact hneeds.elim
      | analyze gate change number => exact hneeds.elim
      | post run number details => exact h config run number details hread hconfig

/-- An environment like the example, with another token. -/
def otherEnvironment : Environment :=
  [("GITHUB_TOKEN", "u"), ("GITHUB_REPOSITORY", "owner/repo")]

theorem execute_ignores_token_approved :
    SameButToken exampleEnvironment otherEnvironment ∧
      (execute otherEnvironment ["post", "--pr-number", "17"] approved).1.toOption = some 0 ∧
      (execute otherEnvironment ["post", "--pr-number", "17"] approved).2.requests =
        (execute exampleEnvironment ["post", "--pr-number", "17"] approved).2.requests := by
  have hsame : SameButToken exampleEnvironment otherEnvironment := by
    intro name hname
    have hother : ("GITHUB_TOKEN" == name) = false := beq_false_of_ne hname.symm
    simp only [setting?, exampleEnvironment, otherEnvironment, List.find?_cons, hother]
  have hrun := (execute_ignores_token hsame).2 ["post", "--pr-number", "17"] approved
    fun _ _ _ _ _ _ => by decide
  refine ⟨hsame, ?_, congrArg (·.2.requests) hrun⟩
  rw [hrun]
  decide +kernel

end CommandLine

end ReviewGate
