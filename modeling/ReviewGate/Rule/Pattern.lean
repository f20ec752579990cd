import ReviewGate.Text.Blank
import ReviewGate.Text.Search

/-! Patterns of text within a line: fixed texts, with runs of blanks or of any characters between
them. -/
namespace ReviewGate

/-- A part of a pattern. -/
inductive Piece where
  | text (s : String)
  | blanks
  | anything
  deriving DecidableEq

abbrev Pattern := List Piece

/-- Whether the characters go on as `next` wants after some of them that all are of a class. -/
def skips (inClass : Char → Bool) (next : List Char → Bool) : List Char → Bool
  | [] => next []
  | c :: rest => next (c :: rest) || (inClass c && skips inClass next rest)

/-- Runs of any characters end with the line. -/
def isWithinLine (c : Char) : Bool :=
  c != '\n'

def Piece.matchesThen (p : Piece) (next : List Char → Bool) (cs : List Char) : Bool :=
  match p with
  | .text s =>
    match Text.dropStart? s.toList cs with
    | some rest => next rest
    | none => false
  | .blanks => skips Text.isBlank next cs
  | .anything => skips isWithinLine next cs

namespace Pattern

/-- Whether the characters start with a text that the pattern describes. -/
def matchesStart : Pattern → List Char → Bool
  | [], _ => true
  | p :: more, cs => p.matchesThen (matchesStart more) cs

/-- Whether a text that the pattern describes stands somewhere in the characters. -/
def found (p : Pattern) : List Char → Bool
  | [] => p.matchesStart []
  | c :: rest => p.matchesStart (c :: rest) || found p rest

end Pattern

end ReviewGate
