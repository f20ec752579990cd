import ReviewGate.ChangedFile
import ReviewGate.Schema.Field

/-! Requests to analyse files that are sent along. -/
namespace ReviewGate

/-- A file that is sent along; its path has no blanks around it. -/
structure SentFile where
  path : String
  content : String
  path_given : Text.isBlankText path = false

/-- Files to analyse, and whether the tests of the change passed. -/
structure AnalysisRequest where
  files : List SentFile
  testsPassed : Bool

namespace SentFile

def recordName : String := "ChangedFileRequest"

def emptyPath : String := "File path cannot be empty"

/-- The path of a sent file: a text that is not blank, without the blanks around it. -/
def readPath (v : Value) : Schema.Checked { path : String // Text.isBlankText path = false } := do
  let path := Text.strip (← Schema.readText v)
  if h : Text.isBlankText path = false then .ok ⟨path, h⟩
  else Schema.complain (.refused emptyPath)

def check (v : Value) : Schema.Checked SentFile := do
  let entries ← Schema.entriesOf recordName v
  let (⟨path, given⟩, content) ←
    (Schema.field entries "path" readPath).both (Schema.field entries "content" Schema.readText)
  return ⟨path, content, given⟩

def ofValue (v : Value) : Except Schema.Report SentFile :=
  (check v).report recordName

def toChangedFile (f : SentFile) : ChangedFile :=
  ⟨f.path, ChangedFile.linesOf f.content, f.path_given⟩

end SentFile

namespace AnalysisRequest

def recordName : String := "AnalyzeRequest"

def check (v : Value) : Schema.Checked AnalysisRequest := do
  let entries ← Schema.entriesOf recordName v
  let files := Schema.fieldOr [] entries "files" (Schema.readList SentFile.check)
  let testsPassed := Schema.fieldOr true entries "tests_passed" Schema.readBoolean
  let (files, testsPassed) ← files.both testsPassed
  return ⟨files, testsPassed⟩

/-- The request that a value stands for. -/
def ofValue (v : Value) : Except Schema.Report AnalysisRequest :=
  (check v).report recordName

def changedFiles (r : AnalysisRequest) : List ChangedFile :=
  r.files.map SentFile.toChangedFile

end AnalysisRequest

end ReviewGate
