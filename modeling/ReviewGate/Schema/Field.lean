import ReviewGate.Schema.Report
import ReviewGate.Value.Basic
import ReviewGate.Value.Same
import ReviewGate.Number.Integer

/-! Reading the fields of records from values, with all complaints in the order of the fields. Numbers
and truth values may also be given as texts and as each other, as long as nothing is lost. -/
namespace ReviewGate.Schema

/-- Something read, or all complaints about what was given. -/
abbrev Checked (α : Type) := Except (List Complaint) α

def complain {α : Type} (problem : Problem) : Checked α :=
  .error [⟨[], problem⟩]

/-- The two things together, or the complaints about both. -/
def Checked.both {α β : Type} : Checked α → Checked β → Checked (α × β)
  | .ok a, .ok b => .ok (a, b)
  | .ok _, .error es => .error es
  | .error ds, .ok _ => .error ds
  | .error ds, .error es => .error (ds ++ es)

def Checked.within {α : Type} (place : Place) : Checked α → Checked α
  | .ok a => .ok a
  | .error cs => .error (cs.map (Complaint.within place))

def readText : Value → Checked String
  | .str s => .ok s
  | _ => complain .notText

/-- The blanks that may stand around a number in a text: the white space of all scripts. -/
def isWhiteSpace (c : Char) : Bool :=
  Text.isBlank c && !(28 ≤ c.toNat && c.toNat ≤ 31)

def trimmed (cs : List Char) : List Char :=
  ((cs.dropWhile isWhiteSpace).reverse.dropWhile isWhiteSpace).reverse

/-- Digits with no zero before them, the digit zero alone aside, and a minus sign before them if
there is one. -/
def plainInteger? (cs : List Char) : Option (Bool × List Char) :=
  let (negative, digits) :=
    match cs with
    | '-' :: rest => (true, rest)
    | _ => (false, cs)
  match digits with
  | [] => none
  | '0' :: _ :: _ => none
  | _ => if digits.all Char.isDigit then some (negative, digits) else none

/-- What follows the zeros at the start, among which there may be underscores; one of these characters stays
before a point and at the end. -/
def dropZeros (last : Char) : List Char → Option (List Char)
  | [] => some [last]
  | '0' :: rest => dropZeros '0' rest
  | '_' :: rest => dropZeros '_' rest
  | '.' :: rest => some (last :: '.' :: rest)
  | c :: rest => if c.isDigit then some (c :: rest) else none

/-- The digits of a text without zeros at the start. -/
def withoutZeros : List Char → Option (List Char)
  | '0' :: rest => dropZeros '0' rest
  | c :: rest => if c.isDigit || c = '-' then some (c :: rest) else none
  | [] => none

/-- The part before the point, if the part after it is made of zeros. -/
def withoutFraction (cs : List Char) : List Char :=
  match Text.cut? '.' cs with
  | some (whole, zeros) => if !zeros.isEmpty && zeros.all (· == '0') then whole else cs
  | none => cs

/-- The digits without the single underscores between them. -/
def withoutUnderscores (cs : List Char) : List Char :=
  if cs.head? == some '_' || cs.getLast? == some '_' || Text.occursIn ['_', '_'] cs then cs
  else cs.filter (· != '_')

/-- The plain form of a number with a plus sign, zeros at the start, a fraction of zeros or
underscores between its digits. -/
def cleanedInteger? (cs : List Char) : Option (List Char) :=
  let unsigned :=
    match cs with
    | '+' :: '-' :: _ => none
    | '+' :: rest => some rest
    | _ => some cs
  (unsigned.bind withoutZeros).map fun digits => withoutUnderscores (withoutFraction digits)

def readIntegerText (s : String) : Checked Int :=
  let cs := trimmed s.toList
  let plain :=
    match plainInteger? cs with
    | some found => some found
    | none => (cleanedInteger? cs).bind plainInteger?
  match plain with
  | none => complain .unreadableInteger
  | some (negative, digits) =>
    if Number.digitLimit < digits.length then complain .integerTooLong
    else
      let size : Nat := Nat.ofDigitChars 10 digits 0
      .ok (if negative then -size else size)

/-- A floating-point number counts as the whole one that it equals, within 64 bits. -/
def readFloatInteger (x : Float) : Checked Int :=
  match Number.exact x with
  | .finite .. =>
    match Number.toInt? x with
    | none => complain .fraction
    | some n => if n.natAbs < Number.twoTo 63 then .ok n else complain .integerTooLong
  | _ => complain .notFinite

def readInteger : Value → Checked Int
  | .int n => .ok n
  | .bool b => .ok (if b then 1 else 0)
  | .float x => readFloatInteger x
  | .str s => readIntegerText s
  | _ => complain .notInteger

def trueWords : List String := ["1", "true", "t", "yes", "y", "on"]

def falseWords : List String := ["0", "false", "f", "no", "n", "off"]

def booleanOfInt (n : Int) : Checked Bool :=
  if n = 0 then .ok false else if n = 1 then .ok true else complain .unreadableBoolean

def readBoolean : Value → Checked Bool
  | .bool b => .ok b
  | .int n => booleanOfInt n
  | .float x =>
    match readFloatInteger x with
    | .ok n => booleanOfInt n
    | .error _ => complain .notBoolean
  | .str s =>
    let word := String.ofList (s.toList.map Char.toLower)
    if trueWords.contains word then .ok true
    else if falseWords.contains word then .ok false
    else complain .unreadableBoolean
  | _ => complain .notBoolean

/-- A field that must be there. -/
def field {α : Type} (entries : List (Value × Value)) (name : String) (read : Value → Checked α) :
    Checked α :=
  Checked.within (.field name)
    (match Value.find? (.str name) entries with
    | some v => read v
    | none => complain .missing)

/-- A field that stands for a default where it is left out. -/
def fieldOr {α : Type} (default : α) (entries : List (Value × Value)) (name : String)
    (read : Value → Checked α) : Checked α :=
  match Value.find? (.str name) entries with
  | some v => Checked.within (.field name) (read v)
  | none => .ok default

/-- The items of a list from a place on. -/
def readItems {α : Type} (read : Value → Checked α) (index : Nat) : List Value → Checked (List α)
  | [] => .ok []
  | v :: items =>
    ((Checked.within (.item index) (read v)).both (readItems read (index + 1) items)).map
      fun (a, more) => a :: more

def readList {α : Type} (read : Value → Checked α) : Value → Checked (List α)
  | .list items => readItems read 0 items
  | .tuple items => readItems read 0 items
  | _ => complain .notList

/-- The entries of a value that stands for the named record. -/
def entriesOf (record : String) : Value → Checked (List (Value × Value))
  | .map entries => .ok entries
  | _ => complain (.notRecord record)

/-- The outcome for a whole value that should have been the named record. -/
def Checked.report {α : Type} (record : String) : Checked α → Except Report α
  | .ok a => .ok a
  | .error cs => .error ⟨record, cs⟩

end ReviewGate.Schema
