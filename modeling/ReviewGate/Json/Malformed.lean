import ReviewGate.Number.Integer

/-! Why a text is not JSON, and where, and how deep it may be nested. -/
namespace ReviewGate.Json

/-- How many levels of brackets there is room for. Each level takes some of the stack, so that how many
there are depends on where a text is read. -/
inductive Room where
  | endless
  | levels (count : Nat)
  deriving DecidableEq

/-- The room inside of a bracket, if there is any. -/
def Room.inside? : Room → Option Room
  | endless => some endless
  | levels 0 => none
  | levels (count + 1) => some (levels count)

/-- What a bracket opens. -/
inductive Bracket where
  | list
  | map
  deriving DecidableEq

/-- The complaint about a bracket for which there is no room. -/
def Bracket.depthMessage (b : Bracket) : String :=
  let kind :=
    match b with
    | list => "array"
    | map => "object"
  "maximum recursion depth exceeded while decoding a JSON " ++ kind ++ " from a unicode string"

/-- What is wrong at a place of a text. -/
inductive Problem where
  | value
  | key
  | colon
  | comma
  | extra
  | unterminated
  | controlCharacter
  | escape
  | unicodeEscape
  | byteOrderMark
  deriving DecidableEq

def Problem.message : Problem → String
  | .value => "Expecting value"
  | .key => "Expecting property name enclosed in double quotes"
  | .colon => "Expecting \x27:\x27 delimiter"
  | .comma => "Expecting \x27,\x27 delimiter"
  | .extra => "Extra data"
  | .unterminated => "Unterminated string starting at"
  | .controlCharacter => "Invalid control character at"
  | .escape => "Invalid \\escape"
  | .unicodeEscape => "Invalid \\uXXXX escape"
  | .byteOrderMark => "Unexpected UTF-8 BOM (decode using utf-8-sig)"

/-- A problem with its place: line and column count from one, the place in the whole text from
zero. -/
structure Malformed where
  problem : Problem
  line : Nat
  column : Nat
  place : Nat
  deriving DecidableEq

def Malformed.message (m : Malformed) : String :=
  m.problem.message ++ ": line " ++ toString m.line ++ " column " ++ toString m.column ++ " (char " ++
    toString m.place ++ ")"

/-- A problem after the given characters of a text. -/
def Malformed.after (before : List Char) (problem : Problem) : Malformed :=
  ⟨problem, before.count '\n' + 1, (before.reverse.takeWhile (· != '\n')).length + 1, before.length⟩

/-- Why no value is read from a text: it is not JSON, it holds a number with too many digits, or there is no
room for one of its brackets. -/
inductive ReadFault where
  | malformed (m : Malformed)
  | number (fault : Number.IntegerFault)
  | tooDeep (b : Bracket)
  deriving DecidableEq

end ReviewGate.Json
