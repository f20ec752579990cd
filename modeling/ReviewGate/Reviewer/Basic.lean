import ReviewGate.Review.Payload
import ReviewGate.Scan
import ReviewGate.Settings.Activate

/-! A reviewer: settings with which files can be analysed and reviewed. -/
namespace ReviewGate

/-- A reviewer looks for findings with a table of rules whose last rule has a window; a window that is
not a whole number is of no use once the rule looks for its end. It stores reviews in a directory. -/
structure Reviewer where
  settings : Settings
  window : Option Int
  store : Path

namespace Reviewer

def source : String := "code_review_trainer.api"

def scanSource : String := "code_review_trainer.review.scanner"

def analysisSource : String := "code_review_trainer.review.aggregator"

def verdictSource : String := "code_review_trainer.formatting.verdict"

/-- The window of the rules and the directory of stored reviews; there must be a window, and somebody
to do the work. -/
def make (s : Settings) : Except Fault Reviewer := do
  if ← (s.analysis.window.atMost 0).mapError .misuse then throw (.refused .windowNotPositive)
  if ← (s.analysis.workers.lessThan 1).mapError .misuse then throw (.refused .noWorkers)
  let store ← (Settings.pathOf s.artifacts.directory).mapError .misuse
  return ⟨s, s.analysis.window.asInt?, store⟩

/-- A reviewer that is ready to work. -/
def start (s : Settings) : Job Reviewer := do
  let r ← Job.ofExcept (make s)
  Job.log .debug source "Review Trainer API initialized"
  return r

/-- The rules of a reviewer. A window that is not a whole number only matters in a file with its
anchor, which is refused. -/
def rules (r : Reviewer) : List Rule :=
  match r.window with
  | some size => ruleTable size
  | none => lineRules

def checkWindow (r : Reviewer) (f : ChangedFile) : Except Misuse Unit :=
  if r.window.isNone && f.lines.any (Text.contains · Rule.stepTwoMarker) then .error .notCount
  else .ok ()

/-! ### Analysis -/

/-- Logs the outcome of a scan, if there is something to say. -/
def logScan (r : Reviewer) (f : ChangedFile) (findings : List Finding) : Job Unit := do
  if f.lines.isEmpty then Job.log .debug scanSource ("Skipping empty file: " ++ f.path)
  else
    Job.use (r.checkWindow f)
    if !findings.isEmpty then
      Job.log .debug scanSource (f.path ++ ": " ++ toString findings.length ++ " findings")

def logScans (r : Reviewer) : List (ChangedFile × List Finding) → Job Unit
  | [] => pure ()
  | (f, findings) :: more => do
    r.logScan f findings
    r.logScans more

def logCounts : List (ChangedFile × List Finding) → Job Unit
  | [] => pure ()
  | (f, findings) :: more => do
    Job.log .info analysisSource
      ("Analyzing " ++ f.path ++ "... " ++ toString findings.length ++ " issues")
    logCounts more

/-- The categories of a result as the log shows them, in ascending order. -/
def categoryText (result : AnalysisResult) : String :=
  match Text.ascending (result.categories.map Category.name) with
  | [] => "none"
  | names => (Value.list (names.map .str)).text

/-- Who scans the files. A number of workers that is not whole makes a pool like any other, and no order is
laid down for what happens in it. -/
def crew (r : Reviewer) : Crew :=
  ⟨(r.settings.analysis.workers.asInt?.getD 2).toNat, []⟩

/-- The findings in files. -/
def analyze (r : Reviewer) (files : List ChangedFile) : Job AnalysisResult := do
  Job.log .info analysisSource ("Analyzing " ++ toString files.length ++ " changed files")
  let scans := r.crew.scanEach r.rules files
  r.logScans scans
  logCounts scans
  let result := AnalysisResult.ofScans scans
  Job.log .info analysisSource
    ("Analysis complete: " ++ toString result.findings.length ++ " findings, categories: " ++
      categoryText result)
  return result

/-- The review of a result. -/
def judge (result : AnalysisResult) : Job Payload := do
  if result.hasIssues then
    Job.log .info verdictSource
      ("Requesting changes with " ++ toString result.findings.length ++ " line comments")
  else Job.log .info verdictSource "No code quality issues found, approving"
  return result.payload

/-- The review of files, which are not looked at if their tests fail. -/
def review (r : Reviewer) (files : List ChangedFile) (testsPassed : Bool) : Job Payload := do
  if testsPassed then judge (← r.analyze files)
  else
    Job.log .info source "Tests failed, skipping code analysis"
    return .failingTests

end Reviewer

end ReviewGate
