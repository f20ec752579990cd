import ReviewGate.Number.Decimal
import ReviewGate.Yaml.Cursor

/-! Plain scalars: which of them stand for something else than their text, and for what. -/
namespace ReviewGate.Yaml

/-- What kind of value a node stands for. -/
inductive Tag where
  | null
  | bool
  | int
  | float
  | binary
  | timestamp
  | ordered
  | pairs
  | set
  | text
  | list
  | map
  | merge
  | value
  | unknown
  deriving DecidableEq

/-- What the names of all tags start with. -/
def tagStart : String := "tag:yaml.org,2002:"

def Tag.names : List (String × Tag) :=
  [("null", .null), ("bool", .bool), ("int", .int), ("float", .float), ("binary", .binary),
    ("timestamp", .timestamp), ("omap", .ordered), ("pairs", .pairs), ("set", .set), ("str", .text),
    ("seq", .list), ("map", .map), ("merge", .merge), ("value", .value)]

def Tag.ofName (name : String) : Tag :=
  match Text.dropStart? tagStart.toList name.toList with
  | none => .unknown
  | some rest => ((names.find? fun (n, _) => n == String.ofList rest).map Prod.snd).getD .unknown

/-! ### Numbers -/

def isDigitOrGap (c : Char) : Bool := c.isDigit || c == '_'

/-- Whether the characters are parts of sixty: colons, each with one or two digits after it. -/
def areSixtieths : List Char → Bool
  | [] => true
  | [':', b] => b.isDigit
  | ':' :: a :: ':' :: rest => a.isDigit && areSixtieths (':' :: rest)
  | ':' :: a :: b :: rest => '0' ≤ a && a ≤ '5' && b.isDigit && areSixtieths rest
  | _ => false

/-- Whether the characters start with a digit other than zero. -/
def startsCount : List Char → Bool
  | c :: _ => c.isDigit && c != '0'
  | [] => false

def isNonempty (cs : List Char) : Bool := !cs.isEmpty

def isInt (cs : List Char) : Bool :=
  let (_, digits) := Number.signOf cs
  match digits with
  | ['0'] => true
  | '0' :: 'b' :: rest => isNonempty rest && rest.all fun c => c == '0' || c == '1' || c == '_'
  | '0' :: 'x' :: rest =>
    isNonempty rest && rest.all fun c => (c.isAlphanum && c.toLower ≤ 'f') || c == '_'
  | '0' :: rest => rest.all fun c => ('0' ≤ c && c ≤ '7') || c == '_'
  | _ => startsCount digits && areSixtieths (digits.dropWhile isDigitOrGap)

/-- Whether the characters are a power of ten with a sign, or nothing. -/
def isPower : List Char → Bool
  | [] => true
  | e :: sign :: digits =>
    (e == 'e' || e == 'E') && (sign == '+' || sign == '-') && isNonempty digits &&
      digits.all Char.isDigit
  | _ => false

def startsDigit : List Char → Bool
  | c :: _ => c.isDigit
  | [] => false

def isFloat (cs : List Char) : Bool :=
  let (_, digits) := Number.signOf cs
  let word := String.ofList digits
  if word = ".inf" || word = ".Inf" || word = ".INF" then true
  else if cs == ".nan".toList || cs == ".NaN".toList || cs == ".NAN".toList then true
  else
    match cs with
    | '.' :: rest => startsDigit rest && isPower (rest.dropWhile isDigitOrGap)
    | _ =>
      startsDigit digits &&
        match Text.cut? '.' digits with
        | none => false
        | some (whole, fraction) =>
          let sixtieths := whole.dropWhile isDigitOrGap
          if sixtieths.isEmpty then isPower (fraction.dropWhile isDigitOrGap)
          else areSixtieths sixtieths && fraction.all isDigitOrGap

/-! ### Times -/

/-- A date as it is written, with a time of day and a zone if they are given. -/
structure Stamp where
  year : List Char
  month : List Char
  day : List Char
  time : Option (List Char × List Char × List Char)
  fraction : List Char
  zone : Option (Option (Bool × List Char × List Char))

/-- Digits of a number of them between two bounds, and what follows. -/
def digitsBetween? (least most : Nat) (cs : List Char) : Option (List Char × List Char) :=
  let digits := (cs.take most).takeWhile Char.isDigit
  if least ≤ digits.length then some (digits, cs.drop digits.length) else none

def after? (c : Char) : List Char → Option (List Char)
  | d :: rest => if c = d then some rest else none
  | [] => none

def isBlank (c : Char) : Bool := c == ' ' || c == '\t'

/-- What separates a time of day from its date. -/
def timeMark? : List Char → Option (List Char)
  | c :: rest =>
    if c == 'T' || c == 't' then some rest
    else if isBlank c then some (rest.dropWhile isBlank)
    else none
  | [] => none

/-- The zone at the end: none, universal time, or a distance from it. -/
def zone? (cs : List Char) : Option (Option (Option (Bool × List Char × List Char))) :=
  match cs with
  | [] => some none
  | _ =>
    match cs.dropWhile isBlank with
    | ['Z'] => some (some none)
    | sign :: rest => do
      if !(sign == '+' || sign == '-') then none
      let (hours, rest) ← digitsBetween? 1 2 rest
      match rest with
      | [] => return some (some (sign == '-', hours, []))
      | _ =>
        let (minutes, rest) ← digitsBetween? 2 2 (← after? ':' rest)
        if rest.isEmpty then return some (some (sign == '-', hours, minutes)) else none
    | [] => none

def stamp? (cs : List Char) : Option Stamp := do
  let (year, rest) ← digitsBetween? 4 4 cs
  let (month, rest) ← digitsBetween? 1 2 (← after? '-' rest)
  let (day, rest) ← digitsBetween? 1 2 (← after? '-' rest)
  match rest with
  | [] => return ⟨year, month, day, none, [], none⟩
  | _ =>
    let (hour, rest) ← digitsBetween? 1 2 (← timeMark? rest)
    let (minute, rest) ← digitsBetween? 2 2 (← after? ':' rest)
    let (second, rest) ← digitsBetween? 2 2 (← after? ':' rest)
    let (fraction, rest) :=
      match rest with
      | '.' :: more => (more.takeWhile Char.isDigit, more.dropWhile Char.isDigit)
      | _ => ([], rest)
    return ⟨year, month, day, some (hour, minute, second), fraction, ← zone? rest⟩

/-- A date alone must have two digits for the month and for the day. -/
def isTimestamp (cs : List Char) : Bool :=
  match stamp? cs with
  | none => false
  | some s => s.time.isSome || (s.month.length == 2 && s.day.length == 2)

/-! ### Kinds of plain scalars -/

def isSwitch (cs : List Char) : Bool :=
  ["yes", "Yes", "YES", "no", "No", "NO", "true", "True", "TRUE", "false", "False", "FALSE", "on", "On",
    "ON", "off", "Off", "OFF"].contains (String.ofList cs)

def isNull (cs : List Char) : Bool :=
  ["", "~", "null", "Null", "NULL"].contains (String.ofList cs)

/-- What a plain scalar stands for. -/
def Tag.ofPlain (text : String) : Tag :=
  let cs := text.toList
  if isSwitch cs then .bool
  else if isFloat cs then .float
  else if isInt cs then .int
  else if text = "<<" then .merge
  else if isNull cs then .null
  else if isTimestamp cs then .timestamp
  else if text = "=" then .value
  else if text = "!" || text = "&" || text = "*" then .unknown
  else .text

/-! ### Values of scalars -/

def readNat (digits : List Char) : Nat := Nat.ofDigitChars 10 digits 0

/-- A number in base two, eight or sixteen. -/
def readBase (base : Nat) (digits : List Char) : Except Fault Int :=
  let values := digits.map fun c => if c.isDigit then c.toNat - 48 else c.toLower.toNat - 87
  if !digits.isEmpty && digits.all Char.isAlphanum && values.all (· < base) then
    .ok (values.foldl (fun n v => n * base + v) 0 : Nat)
  else .error (.refused (.digits base (String.ofList digits)))

def readDecimal (cs : List Char) : Except Fault Int :=
  (Number.readInt (String.ofList cs)).mapError .integer

/-- The parts between the colons as a number in base sixty. -/
def readSixtieths (cs : List Char) : Except Fault Int := do
  let parts ← (Text.pieces ':' cs).mapM readDecimal
  return parts.foldl (fun n part => n * 60 + part) 0

def isSign (c : Char) : Bool := c == '-' || c == '+'

def readInt (text : String) : Except Fault Int := do
  let cs := text.toList.filter (· != '_')
  let negative := cs.head? == some '-'
  let digits := if cs.head?.any isSign then cs.drop 1 else cs
  let size ←
    match digits with
    | [] => .error (.misuse .emptyText)
    | ['0'] => .ok 0
    | '0' :: 'b' :: rest => readBase 2 rest
    | '0' :: 'x' :: rest => readBase 16 rest
    | '0' :: _ => readBase 8 digits
    | _ => if digits.contains ':' then readSixtieths digits else readDecimal digits
  return if negative then -size else size

def readFloatPart (cs : List Char) : Except Fault Float :=
  match Number.readFloat? cs with
  | some x => .ok x
  | none => .error (.refused (.decimal (String.ofList cs)))

def negateIf (negative : Bool) (x : Float) : Float := if negative then -x else x

def readFloat (text : String) : Except Fault Float := do
  let cs := (text.toList.filter (· != '_')).map Char.toLower
  let negative := cs.head? == some '-'
  let digits := if cs.head?.any isSign then cs.drop 1 else cs
  if cs.isEmpty then .error (.misuse .emptyText)
  else if digits == ".inf".toList then return Number.infinity negative
  else if digits == ".nan".toList then return Number.notANumber
  else if digits.contains ':' then
    let parts ← (Text.pieces ':' digits).mapM readFloatPart
    let (sum, _) := parts.reverse.foldl (fun (sum, base) x => (sum + x * base, base * 60)) (0.0, 1.0)
    return negateIf negative sum
  else return negateIf negative (← readFloatPart digits)

/-- The truth value of a switch word in any case. -/
def readSwitch (text : String) : Except Fault Bool :=
  let word := String.ofList (text.toList.map Char.toLower)
  if ["yes", "true", "on"].contains word then .ok true
  else if ["no", "false", "off"].contains word then .ok false
  else .error (.misuse (.missingKey (.str word)))

/-- The seconds from universal time of a zone; they must be less than a day. -/
def readZone (negative : Bool) (hours minutes : List Char) : Except Fault Int :=
  let size : Int := readNat hours * 3600 + readNat minutes * 60
  let offset := if negative then -size else size
  if offset.natAbs < 86400 then .ok offset
  else .error (.refused (.time (.offset (Timestamp.spanText offset))))

/-- The six digits of a fraction of a second. -/
def microseconds (fraction : List Char) : Nat :=
  let digits := fraction.take 6
  readNat (digits ++ List.replicate (6 - digits.length) '0')

def checkTime : Option Calendar.Problem → Except Fault Unit
  | none => .ok ()
  | some problem => .error (.refused (.time problem))

def readTimestamp (text : String) : Except Fault Value :=
  match stamp? text.toList with
  | none => .error (.misuse (.noAttribute "NoneType" "groupdict"))
  | some s => do
    let year := readNat s.year
    let month := readNat s.month
    let day := readNat s.day
    match s.time with
    | none =>
      checkTime (Calendar.dateProblem? year month day)
      return .date year month day
    | some (hour, minute, second) =>
      let offset ←
        match s.zone with
        | none => .ok none
        | some none => .ok (some 0)
        | some (some (negative, hours, minutes)) => (readZone negative hours minutes).map some
      let hour := readNat hour
      let minute := readNat minute
      let second := readNat second
      checkTime (Calendar.dateProblem? year month day)
      checkTime (Calendar.timeProblem? hour minute second)
      return .time ⟨year, month, day, hour, minute, second, microseconds s.fraction, offset⟩

end ReviewGate.Yaml
