import ReviewGate.Json.Reader
import ReviewGate.Json.Writer
import ReviewGate.Review.LineComment
import ReviewGate.Review.Payload
import ReviewGate.Runner

/-! Review files: a review is stored as several files in one directory, so that a stage with other
rights can read and post it. What is read is checked, since anybody may have written it. -/
namespace ReviewGate

/-- A review as it is read back. -/
structure StoredReview where
  reviewType : String
  body : String
  message : Option String
  comments : List LineComment
  pullRequest : Option Int

namespace Artifacts

def typeFile : String := "review_type.txt"
def bodyFile : String := "review_body.txt"
def messageFile : String := "review_message.md"
def commentsFile : String := "line_comments.json"
def flagsFile : String := "analysis_results.txt"
def pullRequestFile : String := "pr_number.txt"

def source : String := "code_review_trainer.artifacts"

/-- Writes one of the files of a directory. -/
def writeText (directory : Path) (name content : String) : Job Path := do
  let path := directory.child name
  Job.writeFile path (Text.Utf8.encode content)
  Job.log .debug source ("Wrote artifact " ++ path.text)
  return path

/-- The comments of a review as they are stored. No line number may be too long to be written. -/
def commentsText (comments : List Finding) : Except Number.IntegerFault String := do
  let _ ← comments.mapM fun c => Number.writeInt c.line
  return Json.write (.list (comments.map Finding.record)) ++ "\n"

def writeComments (directory : Path) (payload : Payload) (result : AnalysisResult) :
    Job (List Path) := do
  let text ← Job.ofExcept ((commentsText payload.comments).mapError .integer)
  let comments ← writeText directory commentsFile text
  let flags ← writeText directory flagsFile (Summary.flags result)
  return [comments, flags]

def writePullRequest (directory : Path) (number : Int) : Job (List Path) := do
  let text ← Job.ofExcept ((Number.writeInt number).mapError .integer)
  return [← writeText directory pullRequestFile (text ++ "\n")]

/-- Stores a review: with the comments and the flags if there was an analysis, and with the number of
the pull request if it is known. -/
def write (directory : Path) (payload : Payload) (result : Option AnalysisResult)
    (pullRequest : Option Int) : Job (List Path) := do
  Job.makeDirectories directory
  let type ← writeText directory typeFile (payload.verdict.name ++ "\n")
  let body ← writeText directory bodyFile (payload.shortBody ++ "\n")
  let message ← writeText directory messageFile payload.longSummary
  let details ←
    match result with
    | none => pure []
    | some r => writeComments directory payload r
  let number ←
    match pullRequest with
    | none => pure []
    | some n => writePullRequest directory n
  let written := [type, body, message] ++ details ++ number
  Job.log .info source
    ("Wrote " ++ toString written.length ++ " artifacts to " ++ directory.text)
  return written

/-- The text of a file, every line end being a line feed. -/
def readText (path : Path) : Job String := do
  match Text.Utf8.decode (← Job.readFile path) with
  | .ok text => return Text.unified text
  | .error m => throw (.notUtf8 m)

def fail {α : Type} (problem : ArtifactProblem) : Job α :=
  throw (.artifact problem)

/-- The text of a file that must be there, without the blanks around it. -/
def readRequired (directory : Path) (name : String) : Job String := do
  let path := directory.child name
  if ← Job.isFile path then return Text.strip (← readText path) else fail (.missing name)

/-- The text of a file that may be missing. -/
def readOptional (directory : Path) (name : String) : Job (Option String) := do
  let path := directory.child name
  if ← Job.isFile path then return some (← readText path) else return none

/-- The comments in a text: a list of which every item is a comment. -/
def commentsOf (room : Json.Room) (text : String) : Except Fault (List LineComment) :=
  match Json.read room text with
  | .error (.malformed m) => .error (.artifact (.commentsMalformed commentsFile m))
  | .error (.number f) => .error (.integer f)
  | .error (.tooDeep b) => .error (.tooDeep b)
  | .ok (.list items) =>
    (items.mapM LineComment.ofValue).mapError fun report =>
      .artifact (.commentRefused commentsFile report)
  | .ok _ => .error (.artifact (.commentsNotList commentsFile))

def readComments (directory : Path) : Job (List LineComment) := do
  match ← readOptional directory commentsFile with
  | none => return []
  | some text => Job.ofExcept (commentsOf (← get).platform.room text)

/-- The number of a pull request in a text: a positive whole number. -/
def numberOf (text : String) : Except Fault Int :=
  let raw := Text.strip text
  match Number.readInt raw with
  | .ok n => if 0 < n then .ok n else .error (.artifact (.number pullRequestFile raw))
  | .error _ => .error (.artifact (.number pullRequestFile raw))

def readPullRequest (directory : Path) : Job (Option Int) := do
  match ← readOptional directory pullRequestFile with
  | none => return none
  | some text => return some (← Job.ofExcept (numberOf text))

/-- Reads a stored review. -/
def read (directory : Path) : Job StoredReview := do
  if !(← Job.isDirectory directory) || !(← get).workspace.hasChildren directory then
    fail (.unavailable directory.text)
  let type ← readRequired directory typeFile
  let body ← readRequired directory bodyFile
  let message ← readOptional directory messageFile
  let comments ← readComments directory
  Job.log .info source ("Loaded " ++ toString comments.length ++ " line-specific comments")
  let number ← readPullRequest directory
  return ⟨type, body, message, comments, number⟩

end Artifacts

end ReviewGate
