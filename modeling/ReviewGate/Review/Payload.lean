import ReviewGate.Review.Result
import ReviewGate.Review.Verdict

/-! What is told to the author of a pull request: the verdict, a short text, a summary, and a comment
for each finding. All of it is made from the result of the analysis alone. -/
namespace ReviewGate

/-- A review ready to be stored and posted. -/
structure Payload where
  verdict : Verdict
  shortBody : String
  longSummary : String
  comments : List Finding

/-- The parts of a review by name. -/
def Payload.entries (p : Payload) : List (String × Value) :=
  [("verdict", .str p.verdict.name), ("short_body", .str p.shortBody),
    ("long_summary", .str p.longSummary), ("comments", .list (p.comments.map Finding.record))]

namespace Summary

def header : String := "## Code Review Results"

def approval : String := "All code quality standards have been met. Great job!"

def approvalSummary : String :=
  header ++ "\n\n" ++
    "🎉 **Great job!** All tests are passing and code quality standards have been met.\n"

def changeRequest : String :=
  "Code quality issues found. Please see the line-specific comments for details."

def issuesHeading : String := "🔍 **Code Quality Issues Found:**"

def closing : String :=
  "Please address these code quality issues by uncommenting the correct code sections and " ++
    "update your PR. **Line-specific comments have been added to the affected code.**"

/-- The line of a summary for a category. A block of the second step has none of its own. -/
def bullet : Category → String
  | .nullCheck =>
    "- ❌ **Missing Null Checks**: The code is missing important null checks. " ++
      "Look for commented lines with null checks and uncomment them."
  | .validation =>
    "- ❌ **Missing Input Validation**: The code doesn't validate inputs before processing them. " ++
      "Find and uncomment the validation code."
  | .documentation =>
    "- ❌ **Missing Documentation**: The code lacks proper XML documentation. " ++
      "Uncomment the documentation sections."
  | .exceptionHandling =>
    "- ❌ **Missing Exception Handling**: The code doesn't properly handle exceptions. " ++
      "Uncomment the try/catch blocks."
  | .logging =>
    "- ❌ **Missing Logging**: The code doesn't include proper logging. " ++
      "Uncomment the logging statements."
  | .stepTwoBlock => ""

/-- Lines as a text in which each of them is ended. -/
def ofLines (lines : List String) : String :=
  Text.join "\n" lines ++ "\n"

/-- The lines of the summary of a result with findings. -/
def issueLines (r : AnalysisResult) : List String :=
  [header, "", issuesHeading] ++ (Category.summaryOrder.filter r.flags).map bullet ++ ["", closing]

def issues (r : AnalysisResult) : String :=
  ofLines (issueLines r)

def testsFailing : String := "Tests are failing. Please fix the functionality issues first."

def testsFailingSummary : String :=
  ofLines
    ["# ❌ Unit Tests Failed",
      "",
      "The unit tests for this PR are failing. Before we can review the code quality, " ++
        "you need to make the tests pass.",
      "",
      "Please uncomment the necessary code to fix the functionality issues, " ++
        "then we'll review the code for best practices.",
      "",
      "Common issues that might cause test failures:",
      "- Missing null checks",
      "- Missing input validation",
      "- Exception handling is incomplete"]

/-- The names under which the categories are flagged for other programs. -/
def flagNames : List (String × Category) :=
  [("MISSING_NULL_CHECKS", .nullCheck), ("MISSING_VALIDATION", .validation),
    ("MISSING_DOCUMENTATION", .documentation),
    ("MISSING_EXCEPTION_HANDLING", .exceptionHandling), ("MISSING_LOGGING", .logging)]

def flagLine (name : String) (isSet : Bool) : String :=
  name ++ "=" ++ (if isSet then "true" else "false")

def flagLines (r : AnalysisResult) : List String :=
  flagLine "ISSUES_FOUND" r.hasIssues :: flagNames.map fun (name, c) => flagLine name (r.flags c)

/-- For other programs: whether there are findings, and which categories they count for. -/
def flags (r : AnalysisResult) : String :=
  ofLines (flagLines r)

end Summary

/-- The review of a result: changes are requested if there is any finding. -/
def AnalysisResult.payload (r : AnalysisResult) : Payload :=
  if r.hasIssues then ⟨.requestChanges, Summary.changeRequest, Summary.issues r, r.findings⟩
  else ⟨.approve, Summary.approval, Summary.approvalSummary, []⟩

/-- The review of a change whose tests fail, whatever the code is. -/
def Payload.failingTests : Payload :=
  ⟨.requestChanges, Summary.testsFailing, Summary.testsFailingSummary, []⟩

end ReviewGate
