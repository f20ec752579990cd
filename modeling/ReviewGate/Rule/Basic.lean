import ReviewGate.Review.Finding
import ReviewGate.Rule.Pattern

/-! Rules: which lines of a file hold disabled code of a category, and what to tell its author. -/
namespace ReviewGate

/-- Which of the lines that a rule's patterns describe it reports: all of them, the first one, or
the first one within a number of lines after the first line that holds an anchor. -/
inductive Reach where
  | everyLine
  | firstLine
  | window (anchor : String) (size : Int)
  deriving DecidableEq

/-- A line is described by a rule if one of its patterns is found in it. -/
structure Rule where
  name : String
  category : Category
  patterns : List Pattern
  comment : String
  reach : Reach
  comment_given : Text.isBlankText comment = false

namespace Rule

def describes (r : Rule) (line : String) : Bool :=
  r.patterns.any fun p => p.found line.toList

/-- The numbers of the lines that a test holds for, the first line having the number `n`. -/
def linesFrom (test : String → Bool) (n : Nat) : List String → List Nat
  | [] => []
  | line :: more => if test line then n :: linesFrom test (n + 1) more else linesFrom test (n + 1) more

/-- The number of lines up to a place; a place before the first line is counted from the end. -/
def placeIn (total : Nat) (place : Int) : Nat :=
  if 0 ≤ place then min place.toNat total else (place + total).toNat

/-- The numbers of the lines that a rule reports. -/
def matchLines (r : Rule) (lines : List String) : List Nat :=
  match r.reach with
  | .everyLine => linesFrom r.describes 1 lines
  | .firstLine => (linesFrom r.describes 1 lines).take 1
  | .window anchor size =>
    match linesFrom (Text.contains · anchor) 1 lines with
    | [] => []
    | start :: _ =>
      let stop := placeIn lines.length (start + size)
      (linesFrom r.describes (start + 1) ((lines.take stop).drop start)).take 1

end Rule

end ReviewGate
