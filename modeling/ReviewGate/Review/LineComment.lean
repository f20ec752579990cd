import ReviewGate.Schema.Field
import ReviewGate.Text.Blank

/-! Comments on lines of a pull request, as they are stored and as they are posted. -/
namespace ReviewGate

/-- A comment on a line of a file. -/
structure LineComment where
  path : String
  line : Nat
  body : String
  path_given : Text.isBlankText path = false
  line_pos : 0 < line
  body_given : Text.isBlankText body = false

namespace LineComment

def recordName : String := "LineCommentRecord"

/-- A text that is not blank. -/
def readGiven (reason : String) (v : Value) :
    Schema.Checked { s : String // Text.isBlankText s = false } := do
  let s ← Schema.readText v
  if h : Text.isBlankText s = false then .ok ⟨s, h⟩ else Schema.complain (.refused reason)

/-- The number of a line. -/
def readLine (v : Value) : Schema.Checked { n : Nat // 0 < n } := do
  let n ← Schema.readInteger v
  if h : 0 < n.toNat then .ok ⟨n.toNat, h⟩
  else Schema.complain (.refused "Line number must be positive")

def check (v : Value) : Schema.Checked LineComment := do
  let entries ← Schema.entriesOf recordName v
  let path := Schema.field entries "path" (readGiven "Path cannot be empty")
  let line := Schema.field entries "line" readLine
  let body := Schema.field entries "body" (readGiven "Comment body cannot be empty")
  let (path, line, body) ← path.both (line.both body)
  return ⟨path.val, line.val, body.val, path.property, line.property, body.property⟩

/-- The comment that a value stands for. -/
def ofValue (v : Value) : Except Schema.Report LineComment :=
  (check v).report recordName

/-- A comment as it is posted: on the new side of the change. -/
def posted (c : LineComment) : Value :=
  .record [("path", .str c.path), ("line", .int c.line), ("side", .str "RIGHT"), ("body", .str c.body)]

end LineComment

end ReviewGate
