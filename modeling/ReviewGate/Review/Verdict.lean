import ReviewGate.Text.Blank

/-! The verdict of a review. -/
namespace ReviewGate

/-- What a review tells the author of a pull request. -/
inductive Verdict where
  | approve
  | requestChanges
  deriving DecidableEq

namespace Verdict

/-- The word for a verdict, in files and in requests. -/
def name : Verdict → String
  | approve => "APPROVE"
  | requestChanges => "REQUEST_CHANGES"

/-- The verdict that a text names, blanks around the name aside. -/
def ofText? (s : String) : Option Verdict :=
  let word := Text.strip s
  if word = approve.name then some approve
  else if word = requestChanges.name then some requestChanges
  else none

end Verdict

end ReviewGate
