import ReviewGate.ChangedFile
import ReviewGate.Review.Category

/-! Findings: pieces of disabled code, each with its place and a comment for its author. -/
namespace ReviewGate

/-- A piece of disabled code in a line of a file. -/
structure Finding where
  path : String
  line : Nat
  category : Category
  body : String
  line_pos : 0 < line
  body_given : Text.isBlankText body = false

namespace Finding

def make (path : String) (line : Int) (category : Category) (body : String) :
    Except Refusal Finding :=
  if hline : 0 < line.toNat then
    if hbody : Text.isBlankText body = false then .ok ⟨path, line.toNat, category, body, hline, hbody⟩
    else .error .emptyComment
  else .error .lineNotPositive

/-- A finding as it is stored for the stage that posts it. -/
def record (f : Finding) : Value :=
  .record [("path", .str f.path), ("line", .int f.line), ("body", .str f.body)]

end Finding

end ReviewGate
