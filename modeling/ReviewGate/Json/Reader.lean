import ReviewGate.Json.Malformed
import ReviewGate.Value.Same

/-! Reading JSON. Beyond the standard, the three quantities that are not finite numbers have names; of
several values under one key the last one counts. Faults name the first place where the text cannot
be the start of a document; but a bracket for which there is no room is met before what it holds. -/
namespace ReviewGate.Json

/-- A fault while reading: a problem with the number of characters from its place to the end, a number with
too many digits, or a bracket for which there is no room. -/
inductive Stop where
  | at (problem : Problem) (remaining : Nat)
  | number (fault : Number.IntegerFault)
  | tooDeep (b : Bracket)
  deriving DecidableEq

def isSpace (c : Char) : Bool :=
  c == ' ' || c == '\t' || c == '\n' || c == '\r'

def skipSpace (cs : List Char) : List Char :=
  cs.dropWhile isSpace

def hexValue? (c : Char) : Option Nat :=
  if '0' ≤ c && c ≤ '9' then some (c.toNat - 48)
  else if 'a' ≤ c && c ≤ 'f' then some (c.toNat - 87)
  else if 'A' ≤ c && c ≤ 'F' then some (c.toNat - 55)
  else none

/-- The number that four digits in base sixteen stand for. -/
def hexQuad? (a b c d : Char) : Option Nat := do
  let a ← hexValue? a
  let b ← hexValue? b
  let c ← hexValue? c
  let d ← hexValue? d
  return ((a * 16 + b) * 16 + c) * 16 + d

/-- The character of a one-letter escape. -/
def escaped? : Char → Option Char
  | '"' => some '"'
  | '\\' => some '\\'
  | '/' => some '/'
  | 'b' => some '\x08'
  | 'f' => some '\x0c'
  | 'n' => some '\n'
  | 'r' => some '\r'
  | 't' => some '\t'
  | _ => none

def isHighHalf (n : Nat) : Bool :=
  0xD800 ≤ n && n < 0xDC00

def isLowHalf (n : Nat) : Bool :=
  0xDC00 ≤ n && n < 0xE000

/-- The character of a code unit; half a pair stands for the replacement character. -/
def unitChar (n : Nat) : Char :=
  if isHighHalf n || isLowHalf n then '\uFFFD' else Char.ofNat n

/-- The character of two halves of a pair. -/
def pairChar (high low : Nat) : Char :=
  Char.ofNat (0x10000 + (high - 0xD800) * 1024 + (low - 0xDC00))

/-- The characters of code units, two halves of a pair being one character. -/
def unitChars : List Nat → List Char
  | [] => []
  | [n] => [unitChar n]
  | high :: low :: rest =>
    if isHighHalf high && isLowHalf low then pairChar high low :: unitChars rest
    else unitChar high :: unitChars (low :: rest)

def consUnit (n : Nat) (step : Except Stop (List Nat × List Char)) :
    Except Stop (List Nat × List Char) :=
  step.map fun (units, rest) => (n :: units, rest)

/-- The code units of a text up to its closing quote, each character that is not escaped being one;
`opened` is all that follows its opening quote. -/
def readUnits (opened : List Char) : List Char → Except Stop (List Nat × List Char)
  | [] => .error (.at .unterminated (opened.length + 1))
  | c :: rest =>
    if c = '"' then .ok ([], rest)
    else if c = '\\' then
      match rest with
      | [] => .error (.at .unterminated (opened.length + 1))
      | 'u' :: a :: b :: c :: d :: more =>
        match hexQuad? a b c d with
        | none => .error (.at .unicodeEscape (more.length + 5))
        | some n =>
          if more.isEmpty then .error (.at .unicodeEscape 5) else consUnit n (readUnits opened more)
      | letter :: more =>
        if letter = 'u' then .error (.at .unicodeEscape (more.length + 1))
        else
          match escaped? letter with
          | some e => consUnit e.toNat (readUnits opened more)
          | none => .error (.at .escape (more.length + 2))
    else if c.toNat < 32 then .error (.at .controlCharacter (rest.length + 1))
    else consUnit c.toNat (readUnits opened rest)

/-- The text after an opening quote. -/
def readText (cs : List Char) : Except Stop (List Char × List Char) :=
  (readUnits cs cs).map fun (units, rest) => (unitChars units, rest)

/-- The digits at the start and what follows them. -/
def digits (cs : List Char) : List Char × List Char :=
  (cs.takeWhile Char.isDigit, cs.dropWhile Char.isDigit)

/-- The digits before the point: a single zero, or digits that do not start with one. -/
def wholePart? : List Char → Option (List Char × List Char)
  | c :: rest =>
    if c = '0' then some (['0'], rest)
    else if c.isDigit then some (digits (c :: rest))
    else none
  | [] => none

/-- The digits after a point, if there are any. -/
def fractionPart? : List Char → Option (List Char × List Char)
  | '.' :: c :: rest => if c.isDigit then some (digits (c :: rest)) else none
  | _ => none

/-- The power of ten after an exponent letter, if there is one. -/
def exponentPart? : List Char → Option (Int × List Char)
  | c :: rest =>
    if c = 'e' || c = 'E' then
      let (negative, unsigned) := Number.signOf rest
      match digits unsigned with
      | ([], _) => none
      | (found, after) =>
        let size : Nat := Nat.ofDigitChars 10 found 0
        some (if negative then -size else size, after)
    else none
  | [] => none

def minusOf : List Char → Bool × List Char
  | '-' :: rest => (true, rest)
  | cs => (false, cs)

/-- The number at the start. It is a whole number if it has neither fraction nor exponent. -/
def readNumber? (cs : List Char) : Option (Except Stop (Value × List Char)) := do
  let (negative, unsigned) := minusOf cs
  let (whole, rest) ← wholePart? unsigned
  let (fraction, rest', hasFraction) :=
    match fractionPart? rest with
    | some (found, after) => (found, after, true)
    | none => ([], rest, false)
  let (exponent, rest'', hasExponent) :=
    match exponentPart? rest' with
    | some (found, after) => (found, after, true)
    | none => (0, rest', false)
  if hasFraction || hasExponent then
    let mantissa := Nat.ofDigitChars 10 (whole ++ fraction) 0
    return .ok (.float (Number.nearestDecimal negative mantissa (exponent - fraction.length)), rest'')
  else if Number.digitLimit < whole.length then
    return .error (.number (.tooLongToRead whole.length))
  else
    let size : Nat := Nat.ofDigitChars 10 whole 0
    return .ok (.int (if negative then -size else size), rest'')

/-- The names of values, and what they stand for. -/
def names : List (List Char × Value) :=
  [("null".toList, .null), ("true".toList, .bool true), ("false".toList, .bool false),
    ("NaN".toList, .float (Float.ofBits 0x7FF8000000000000)),
    ("Infinity".toList, .float (Float.ofBits 0x7FF0000000000000)),
    ("-Infinity".toList, .float (Float.ofBits 0xFFF0000000000000))]

/-- The named value at the start. -/
def readName? (cs : List Char) : Option (Value × List Char) :=
  names.findSome? fun (name, v) => (Text.dropStart? name cs).map fun rest => (v, rest)

/-- A value that holds no other one: a name or a number. -/
def readPlain (cs : List Char) : Except Stop (Value × List Char) :=
  match readName? cs with
  | some found => .ok found
  | none =>
    match readNumber? cs with
    | some step => step
    | none => .error (.at .value cs.length)

mutual

/-- The value at the start. Each value takes at least one character, so a budget of as many values
as there are characters is never used up. -/
def readValue (room : Room) : Nat → List Char → Except Stop (Value × List Char)
  | 0, cs => .error (.at .value cs.length)
  | _ + 1, [] => .error (.at .value 0)
  | budget + 1, c :: rest =>
    if c = '"' then (readText rest).map fun (cs, after) => (.str (String.ofList cs), after)
    else if c = '[' then
      match room.inside? with
      | none => .error (.tooDeep .list)
      | some inner =>
        match skipSpace rest with
        | [] => .error (.at .value 0)
        | d :: after =>
          if d = ']' then .ok (.list [], after)
          else (readItems inner budget (d :: after)).map fun (items, after) => (.list items, after)
    else if c = '{' then
      match room.inside? with
      | none => .error (.tooDeep .map)
      | some inner =>
        match skipSpace rest with
        | [] => .error (.at .key 0)
        | d :: after =>
          if d = '}' then .ok (.map [], after)
          else
            (readEntries inner budget (d :: after)).map fun (entries, after) =>
              (.map (Value.entriesOf entries), after)
    else readPlain (c :: rest)

/-- The items of a list from one of them up to the closing bracket. -/
def readItems (room : Room) : Nat → List Char → Except Stop (List Value × List Char)
  | 0, cs => .error (.at .value cs.length)
  | budget + 1, cs => do
    let (v, rest) ← readValue room budget cs
    match skipSpace rest with
    | [] => .error (.at .comma 0)
    | c :: after =>
      if c = ']' then .ok ([v], after)
      else if c = ',' then do
        let (items, rest) ← readItems room budget (skipSpace after)
        .ok (v :: items, rest)
      else .error (.at .comma (after.length + 1))

/-- The entries of a map from a key up to the closing brace. -/
def readEntries (room : Room) : Nat → List Char → Except Stop (List (Value × Value) × List Char)
  | 0, cs => .error (.at .key cs.length)
  | budget + 1, cs =>
    match cs with
    | [] => .error (.at .key 0)
    | quote :: text =>
      if quote = '"' then do
        let (key, rest) ← readText text
        match skipSpace rest with
        | [] => .error (.at .colon 0)
        | colon :: rest =>
          if colon = ':' then do
            let (v, rest) ← readValue room budget (skipSpace rest)
            let entry := (Value.str (String.ofList key), v)
            match skipSpace rest with
            | [] => .error (.at .comma 0)
            | c :: after =>
              if c = '}' then .ok ([entry], after)
              else if c = ',' then do
                let (entries, rest) ← readEntries room budget (skipSpace after)
                .ok (entry :: entries, rest)
              else .error (.at .comma (after.length + 1))
          else .error (.at .colon (rest.length + 1))
      else .error (.at .key (text.length + 1))

end

/-- The value of a whole document, which may have space around it. -/
def readDocument (room : Room) (cs : List Char) : Except Stop Value :=
  match cs with
  | '\uFEFF' :: _ => .error (.at .byteOrderMark cs.length)
  | _ => do
    let (v, rest) ← readValue room (2 * cs.length + 1) (skipSpace cs)
    match skipSpace rest with
    | [] => .ok v
    | more => .error (.at .extra more.length)

/-- A fault with its place counted from the start. -/
def Stop.placed (cs : List Char) : Stop → ReadFault
  | .at problem remaining => .malformed (.after (cs.take (cs.length - remaining)) problem)
  | .number fault => .number fault
  | .tooDeep b => .tooDeep b

def read (room : Room) (text : String) : Except ReadFault Value :=
  (readDocument room text.toList).mapError (Stop.placed text.toList)

end ReviewGate.Json
