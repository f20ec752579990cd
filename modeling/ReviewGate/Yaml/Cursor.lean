import ReviewGate.Fault

/-! A place in a text that is read, with its line and column. -/
namespace ReviewGate.Yaml

/-- What is still to be read, and how many characters, lines and columns lie before it. -/
structure Cursor where
  rest : List Char
  index : Nat
  line : Nat
  column : Nat

def isBreak (c : Char) : Bool :=
  c == '\n' || c == '\r' || c == '\u0085' || c == '\u2028' || c == '\u2029'

/-- Whether a line ends here. -/
def atLineEnd : Option Char → Bool
  | none => true
  | some c => isBreak c

/-- Whether a line ends or a space stands here. -/
def atWordEnd : Option Char → Bool
  | none => true
  | some c => isBreak c || c == ' '

/-- Whether a line ends or a space or tab stands here. -/
def atGap : Option Char → Bool
  | none => true
  | some c => isBreak c || c == ' ' || c == '\t'

namespace Cursor

def start (cs : List Char) : Cursor := ⟨cs, 0, 0, 0⟩

def peek (c : Cursor) : Option Char := c.rest.head?

def peekAt (c : Cursor) (n : Nat) : Option Char := c.rest[n]?

/-- The place after the next character. A byte order mark takes no column. -/
def next (c : Cursor) : Cursor :=
  match c.rest with
  | [] => c
  | ch :: rest =>
    if isBreak ch && !(ch == '\r' && rest.head? == some '\n') then ⟨rest, c.index + 1, c.line + 1, 0⟩
    else if ch == '\uFEFF' then ⟨rest, c.index + 1, c.line, c.column⟩
    else ⟨rest, c.index + 1, c.line, c.column + 1⟩

def skip : Nat → Cursor → Cursor
  | 0, c => c
  | n + 1, c => skip n c.next

/-- The characters of a class here, and the place after them. -/
def take (c : Cursor) (inClass : Char → Bool) : List Char × Cursor :=
  let found := c.rest.takeWhile inClass
  (found, c.skip found.length)

def skipWhile (c : Cursor) (inClass : Char → Bool) : Cursor :=
  (c.take inClass).2

def skipSpaces (c : Cursor) : Cursor :=
  c.skipWhile (· == ' ')

/-- The place at the end of the line. -/
def skipLine (c : Cursor) : Cursor :=
  c.skipWhile fun ch => !isBreak ch

/-- The line break here, if there is one, and the place after it. All breaks but the two separators
are the same. -/
def lineBreak? (c : Cursor) : Option (Char × Cursor) :=
  match c.rest with
  | '\r' :: '\n' :: _ => some ('\n', skip 2 c)
  | ch :: _ =>
    if ch == '\r' || ch == '\n' || ch == '\u0085' then some ('\n', c.next)
    else if ch == '\u2028' || ch == '\u2029' then some (ch, c.next)
    else none
  | [] => none

/-- The place after the line break here, if there is one. -/
def skipBreak (c : Cursor) : Cursor :=
  match c.lineBreak? with
  | some (_, c) => c
  | none => c

/-- Whether a mark that separates documents stands here. -/
def atDocumentMark (c : Cursor) : Bool :=
  (c.rest.take 3 == ['-', '-', '-'] || c.rest.take 3 == ['.', '.', '.']) && atGap (c.peekAt 3)

end Cursor

/-- A text that is not YAML. -/
def malformed {α : Type} : Except Fault α := .error .yaml

/-- Goes on only if a condition holds. -/
def expect (condition : Bool) : Except Fault Unit :=
  if condition then .ok () else malformed

end ReviewGate.Yaml
