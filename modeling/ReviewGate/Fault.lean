import ReviewGate.Json.Malformed
import ReviewGate.Schema.Report
import ReviewGate.Text.ShellWords
import ReviewGate.Text.Utf8
import ReviewGate.Value.Misuse

/-! Why an action fails. Each cause has a message, and the causes fall into families: a caller
that can go on after a failure does so for whole families. -/
namespace ReviewGate

/-- A value whose content, not its kind, is refused. -/
inductive Refusal where
  | emptyPath
  | lineNotPositive
  | emptyComment
  | negativeCount
  | unknownCategory (shown : String)
  | windowNotPositive
  | noWorkers
  | unknownStatus (status : String)
  | noToken
  | repositoryForm
  | noRepositoryForPosting
  | noTokenForPosting
  | noCommits
  | settings (problems : List String)
  | logFormat (format : String)
  | nulInPath
  | codePoint
  | digits (base : Nat) (text : String)
  | decimal (text : String)
  | time (problem : Calendar.Problem)
  deriving DecidableEq

def Refusal.message : Refusal → String
  | .emptyPath => "File path cannot be empty"
  | .lineNotPositive => "Line number must be positive"
  | .emptyComment => "Comment body cannot be empty"
  | .negativeCount => "files_scanned must be non-negative"
  | .unknownCategory shown => shown ++ " is not a valid IssueCategory"
  | .windowNotPositive => "STEP 2 window must be positive"
  | .noWorkers => "max_workers must be at least 1"
  | .unknownStatus status => "Invalid status: " ++ status
  | .noToken => "GitHub token is required"
  | .repositoryForm => "Repository must be in format \x27owner/repo\x27"
  | .noRepositoryForPosting => "GitHub repository is required for posting"
  | .noTokenForPosting => "GitHub token is required for posting"
  | .noCommits => "base_sha and head_sha are required when no paths are given"
  | .settings problems => "Configuration validation failed: " ++ Text.join "; " problems
  | .logFormat format => "Invalid format \x27" ++ format ++ "\x27 for \x27%\x27 style"
  | .nulInPath => "embedded null byte"
  | .codePoint => "chr() arg not in range(0x110000)"
  | .digits base text =>
    "invalid literal for int() with base " ++ toString base ++ ": " ++ Text.quoted text
  | .decimal text => "could not convert string to float: " ++ Text.quoted text
  | .time problem => problem.message

/-- Why the file system refuses an access to a path. -/
inductive StorageProblem where
  | missing
  | exists
  | directory
  | notDirectory
  | nameTooLong
  deriving DecidableEq

def StorageProblem.text : StorageProblem → String
  | .missing => "[Errno 2] No such file or directory"
  | .exists => "[Errno 17] File exists"
  | .directory => "[Errno 21] Is a directory"
  | .notDirectory => "[Errno 20] Not a directory"
  | .nameTooLong => "[Errno 36] File name too long"

/-- Why stored review files are not read. -/
inductive ArtifactProblem where
  | unavailable (directory : String)
  | missing (name : String)
  | commentsMalformed (name : String) (m : Json.Malformed)
  | commentsNotList (name : String)
  | commentRefused (name : String) (report : Schema.Report)
  | number (name raw : String)
  deriving DecidableEq

def ArtifactProblem.message : ArtifactProblem → String
  | .unavailable directory =>
    "Failed to download artifacts or artifacts directory is empty: " ++ directory
  | .missing name => "Required review file not found in artifacts: " ++ name
  | .commentsMalformed _ m => "Error parsing line comments JSON: " ++ m.message
  | .commentsNotList _ => "Line comments JSON must be an array"
  | .commentRefused _ report => "Invalid line comment: " ++ report.message
  | .number name raw => "Invalid PR number in " ++ name ++ ": " ++ Text.quoted raw

/-- The file that is to blame, if it is one file. -/
def ArtifactProblem.file? : ArtifactProblem → Option String
  | .unavailable _ => none
  | .missing name => some name
  | .commentsMalformed name _ => some name
  | .commentsNotList name => some name
  | .commentRefused name _ => some name
  | .number name _ => some name

/-- Why an action fails. -/
inductive Fault where
  | refused (r : Refusal)
  | integer (f : Number.IntegerFault)
  | commandLine (m : Text.ShellWords.Malformed)
  | notUtf8 (m : Text.Utf8.Malformed)
  | notJson (m : Json.Malformed)
  | tooDeep (b : Json.Bracket)
  | schema (report : Schema.Report)
  | misuse (m : Misuse)
  | storage (problem : StorageProblem) (path : String)
  | settingsMissing (path : String)
  | clockOverflow
  | codePointTooLarge
  | clockTooLarge
  | yaml
  | artifact (problem : ArtifactProblem)
  | verdict (text : String)
  | pullRequestNotFound (run : Value)
  | transport (description : String)
  | answer (status : Int) (data description : Value)
  | rateLimited (reset : Int)

/-- A byte as messages show it. -/
def shownByte (b : UInt8) : String :=
  String.ofList ('0' :: 'x' :: Text.hexDigits 2 b.toNat)

def utf8Message (m : Text.Utf8.Malformed) : String :=
  let reason :=
    match m.reason with
    | .invalidStart => "invalid start byte"
    | .invalidContinuation => "invalid continuation byte"
    | .endOfData => "unexpected end of data"
  let subject :=
    match m.bytes with
    | [b] => "byte " ++ shownByte b ++ " in position " ++ toString m.start
    | bytes =>
      "bytes in position " ++ toString m.start ++ "-" ++ toString (m.start + bytes.length - 1)
  "\x27utf-8\x27 codec can\x27t decode " ++ subject ++ ": " ++ reason

def Fault.message : Fault → String
  | .refused r => r.message
  | .integer f => f.message
  | .commandLine .unclosedQuote => "No closing quotation"
  | .commandLine .nothingEscaped => "No escaped character"
  | .notUtf8 m => utf8Message m
  | .notJson m => m.message
  | .tooDeep b => b.depthMessage
  | .schema report => report.message
  | .misuse m => m.message
  | .storage problem path => problem.text ++ ": " ++ Text.quoted path
  | .settingsMissing path => "Config file not found: " ++ path
  | .clockOverflow => "timestamp out of range for platform time_t"
  | .codePointTooLarge => "Python int too large to convert to C int"
  | .clockTooLarge => "[Errno 75] Value too large for defined data type"
  | .yaml => "malformed YAML"
  | .artifact problem => problem.message
  | .verdict text =>
    "Invalid review type: " ++ Text.quoted text ++ ". Must be one of: APPROVE, REQUEST_CHANGES"
  | .pullRequestNotFound run => "Could not find PR number for workflow run " ++ run.text
  | .transport description => "Request failed: " ++ description
  | .answer status _ description =>
    "GitHub API error: " ++ Number.intText status ++ " - " ++ description.text
  | .rateLimited reset => "Rate limit exceeded. Resets at " ++ (Timestamp.ofSeconds reset).text

/-- Whether a value of the right kind had the wrong content. -/
def Fault.isInvalid : Fault → Bool
  | .refused _ | .integer _ | .commandLine _ | .notUtf8 _ | .notJson _ | .schema _ => true
  | _ => false

/-- Whether a file was not there. -/
def Fault.isMissing : Fault → Bool
  | .storage .missing _ | .settingsMissing _ => true
  | _ => false

/-- Whether the file system refused an access. -/
def Fault.isStorage : Fault → Bool
  | .storage .. | .settingsMissing _ | .clockTooLarge => true
  | _ => false

/-- Whether a review or its stored form was at fault. -/
def Fault.isReview : Fault → Bool
  | .artifact _ | .verdict _ | .pullRequestNotFound _ => true
  | _ => false

/-- Whether the stored form of a review was at fault. -/
def Fault.isArtifact : Fault → Bool
  | .artifact _ => true
  | _ => false

/-- Whether a workflow run has no pull request. -/
def Fault.isUnresolved : Fault → Bool
  | .pullRequestNotFound _ => true
  | _ => false

/-- Whether the forge did not accept a request. -/
def Fault.isForge : Fault → Bool
  | .transport _ | .answer .. | .rateLimited _ => true
  | _ => false

end ReviewGate
