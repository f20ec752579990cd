import ReviewGate.Fault
import ReviewGate.Text.Lines

/-! Files that a pull request changes. -/
namespace ReviewGate

/-- A changed file with its lines, which are counted from one. -/
structure ChangedFile where
  path : String
  lines : List String
  path_given : Text.isBlankText path = false

namespace ChangedFile

def make (path : String) (lines : List String) : Except Refusal ChangedFile :=
  if h : Text.isBlankText path = false then .ok ⟨path, lines, h⟩ else .error .emptyPath

/-- The lines of a text as version control numbers them, each without the carriage return at its
end. -/
def linesOf (text : String) : List String :=
  (Text.feedLines text.toList).map fun line => String.ofList (Text.dropReturn line)

def ofText (path text : String) : Except Refusal ChangedFile :=
  make path (linesOf text)

end ChangedFile

end ReviewGate
