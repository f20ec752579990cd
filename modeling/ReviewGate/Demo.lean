import ReviewGate.Reviewer.Stages

/-! A demonstration: the review of some files of the working directory, shown instead of posted. -/
namespace ReviewGate.Demo

def usage : String :=
  "\nDisabled-Code Analysis Demo\n\n" ++
    "Scans local C# files for commented-out code and prints the review that\n" ++
    "the CI workflow would post to the pull request.\n\n" ++
    "Usage:\n    python examples/analysis_demo.py <file.cs> [<file.cs> ...]\n\n" ++
    "Example:\n    python examples/analysis_demo.py src/Services/OrderService.cs\n"

def printLine (line : String) : Job Unit :=
  Job.print (line ++ "\n")

/-- A rule of some length. -/
def rule (c : Char) (length : Nat) : String :=
  String.ofList (List.replicate length c)

def findingLine (f : Finding) : String :=
  "   L" ++ toString f.line ++ " [" ++ f.category.name ++ "] " ++ f.body

/-- The lines about a file with findings. -/
def fileLines (r : AnalysisResult) (path : String) : List String :=
  ("📄 " ++ path) :: (r.findings.filter fun f => f.path = path).map findingLine

/-- The findings file by file. -/
def findingLines (r : AnalysisResult) : List String :=
  if r.hasIssues then r.filesWithIssues.flatMap (fileLines r) else ["No disabled code found."]

def reviewLines (p : Payload) : List String :=
  ["📝 Review", rule '-' 30, "Verdict: " ++ p.verdict.name, "Body: " ++ p.shortBody, "",
    p.longSummary]

def printLines : List String → Job Unit
  | [] => pure ()
  | line :: more => do
    printLine line
    printLines more

/-- Shows the findings. -/
def printFindings (r : AnalysisResult) : Job Unit :=
  printLines (["🔍 Findings", rule '-' 30] ++ findingLines r ++ [""])

/-- Shows the review of files. -/
def present (paths : List String) : Job Unit := do
  modify fun s => { s with journal := ⟨LogLevel.info.weight, some LogLayout.standard, none⟩ }
  printLines ["🚀 Code Review Trainer - Analysis Demo", rule '=' 50, ""]
  let r ← Reviewer.start Settings.default
  let checkout ← Job.use (Checkout.make "." r.settings.analysis.extensions)
  let files ← checkout.loadFiles (checkout.select paths)
  printLines ["📥 Loaded " ++ toString files.length ++ " files", ""]
  let result ← r.analyze files
  let payload ← Reviewer.judge result
  printFindings result
  printLines (reviewLines payload)

/-- Shows the review of the named files, or how to name some: the exit code. -/
def run (args : List String) : Job Nat := do
  if args.isEmpty then
    printLine usage
    return 1
  else
    present args
    return 0

end ReviewGate.Demo
