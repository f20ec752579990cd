import ReviewGate.CommandLine.Invocation

/-! Doing what a command line asks for. Every command starts with the settings, which come from a file
or from the environment, and ends with an exit code. -/
namespace ReviewGate.CommandLine

def source : String := "code_review_trainer.cli"

/-- The settings in the named file or, without a name, in the environment. -/
def readSettings (env : Settings.Environment) (config : Option String) : Job Settings := do
  let path := config.getD ""
  if path = "" then Job.ofExcept (Settings.ofEnvironment env) else Settings.load path

/-- The settings, put to use. -/
def prepare (env : Settings.Environment) (config : Option String) : Job Settings := do
  let s ← readSettings env config
  s.activate
  return s

/-- Whether the settings were at fault in a way that is reported to the user. -/
def isConfigurationFault (f : Fault) : Bool :=
  f.isInvalid || f.isMissing

/-- Whether a review could not be posted in a way that is logged. -/
def isPostingFault (f : Fault) : Bool :=
  f.isReview || f.isForge || f.isInvalid

/-- Whether the tests passed: as the command line says or, if it does not, as the results file says.
Without either they count as failed. -/
def testsPassed (s : Settings) : Option Bool → Job Bool
  | some passed => return passed
  | none => do
    let file := s.tests.resultsFile
    match ← TestGate.readResults (← Job.use (Settings.pathOf file)) with
    | some passed => return passed
    | none =>
      Job.log .warning source ("No test result in " ++ file.text ++ ", treating tests as failed")
      return false

def runTest (r : Reviewer) : Job Nat := do
  let passed ← r.runTests
  Job.print ("test_passed=" ++ (if passed then "true" else "false") ++ "\n")
  return 0

def runAnalyze (r : Reviewer) (gate : Option Bool) (change : ChangeSelection)
    (number : Option Int) : Job Nat := do
  let analysis := do
    let passed ← testsPassed r.settings gate
    r.runAnalysis passed change number
  match ← Job.catching Fault.isInvalid analysis with
  | .error e =>
    Job.log .error source e.message
    return 2
  | .ok a =>
    Job.print (a.payload.verdict.name ++ "\n")
    return 0

def runPost (r : Reviewer) (run number : Option Int) (details : Option String) : Job Nat := do
  match ← Job.catching isPostingFault (r.runPosting none run number details) with
  | .error e =>
    Job.log .error source ("Posting failed: " ++ e.message)
    return 1
  | .ok posting =>
    match posting.status with
    | .posted => return 0
    | .pullRequestNotFound => return 1

def runTask (r : Reviewer) : Task → Job Nat
  | .test => runTest r
  | .analyze gate change number => runAnalyze r gate change number
  | .post run number details => runPost r run number details

/-- Does what is asked for: the exit code. -/
def run (env : Settings.Environment) (i : Invocation) : Job Nat := do
  match ← Job.catching isConfigurationFault (prepare env i.config) with
  | .error e =>
    Job.complain ("Configuration error: " ++ e.message ++ "\n")
    return 2
  | .ok s => runTask (← Reviewer.start s) i.task

/-- Does what a command line asks for: the exit code. -/
def execute (env : Settings.Environment) (args : List String) : Job Nat := do
  match read args with
  | .error stop =>
    if stop != .help then Job.complain (stop.text ++ "\n")
    return stop.code
  | .ok i => run env i

end ReviewGate.CommandLine
