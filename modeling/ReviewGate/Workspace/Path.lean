import ReviewGate.Text.Search

/-! Paths: the names on the way to a file, without empty names and without names that stay in place.
A step up is kept, because where it leads is only known on the way. -/
namespace ReviewGate

/-- A path from the working directory or, if it has a root, from there. -/
structure Path where
  root : String
  parts : List String
  deriving DecidableEq

namespace Path

/-- Whether a part between two separators leads somewhere. -/
def leads (part : List Char) : Bool :=
  part != [] && part != ['.']

/-- The root that a text starts with: two separators are a root of their own, more are one. -/
def rootOf : List Char → String
  | '/' :: '/' :: '/' :: _ => "/"
  | '/' :: '/' :: _ => "//"
  | '/' :: _ => "/"
  | _ => ""

def ofText (s : String) : Path :=
  ⟨rootOf s.toList, ((Text.pieces '/' s.toList).filter leads).map String.ofList⟩

/-- A path as a text; the working directory itself is a point. -/
def text (p : Path) : String :=
  if p.root = "" && p.parts.isEmpty then "." else p.root ++ Text.join "/" p.parts

/-- The path of a text read from a directory on. -/
def follow (p : Path) (s : String) : Path :=
  let q := ofText s
  if q.root = "" then ⟨p.root, p.parts ++ q.parts⟩ else q

/-- The path of a name in a directory. -/
def child (p : Path) (name : String) : Path :=
  ⟨p.root, p.parts ++ [name]⟩

/-- The path without its last part. -/
def parent (p : Path) : Path :=
  ⟨p.root, p.parts.dropLast⟩

/-- Whether a path holds the character that no path may hold. -/
def hasNul (p : Path) : Bool :=
  p.parts.any fun part => part.toList.contains '\x00'

end Path

end ReviewGate
