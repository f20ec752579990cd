import ReviewGate.Text.DecimalDigit
import ReviewGate.Text.Blank
import ReviewGate.Text.Quoted

/-! Whole numbers as decimal texts. A text may have blanks around it, a sign, digits of any script
and single underscores between digits. Neither reading nor writing handles more than a fixed number
of digits. -/
namespace ReviewGate.Number

/-- The most digits a number may have to be read or written in decimal. -/
def digitLimit : Nat := 4300

/-- Why a text is not read as a whole number, or a number not written. -/
inductive IntegerFault where
  | notANumber (text : String)
  | tooLongToRead (digits : Nat)
  | tooLongToWrite
  deriving DecidableEq

/-- Messages show at most this much of a text that is not a number. -/
def shownLimit : Nat := 200

def IntegerFault.message : IntegerFault → String
  | .notANumber text =>
    "invalid literal for int() with base 10: " ++
      String.ofList ((Text.quotedChars text.toList).take shownLimit)
  | .tooLongToRead digits =>
    "Exceeds the limit (4300 digits) for integer string conversion: value has " ++
      toString digits ++ " digits; use sys.set_int_max_str_digits() to increase the limit"
  | .tooLongToWrite =>
    "Exceeds the limit (4300 digits) for integer string conversion; " ++
      "use sys.set_int_max_str_digits() to increase the limit"

/-- A character as the reader sees it: digits of all scripts are the ten digits, and all blanks
beyond the first 127 code points are spaces. -/
def plainChar (c : Char) : Char :=
  if c.toNat < 127 then c
  else if Text.isBlank c then ' '
  else
    match Text.digitValue? c with
    | some n => Char.ofNat (48 + n)
    | none => '?'

/-- The blanks that may stand around a number. -/
def isGap (c : Char) : Bool :=
  c == ' ' || (9 ≤ c.toNat && c.toNat ≤ 13)

/-- The digits at the start and what follows them. `isOpen` says that a digit must come next: at the
start and after an underscore. -/
def digitRun (isOpen : Bool) : List Char → Option (List Char × List Char)
  | [] => if isOpen then none else some ([], [])
  | c :: rest =>
    if c.isDigit then (digitRun false rest).map fun (digits, after) => (c :: digits, after)
    else if isOpen then none
    else if c = '_' then digitRun true rest
    else some ([], c :: rest)

/-- The sign of a number and what follows it. -/
def signOf : List Char → Bool × List Char
  | '-' :: rest => (true, rest)
  | '+' :: rest => (false, rest)
  | cs => (false, cs)

def readInt (text : String) : Except IntegerFault Int :=
  let (negative, unsigned) := signOf ((text.toList.map plainChar).dropWhile isGap)
  match digitRun true unsigned with
  | none => .error (.notANumber text)
  | some (digits, after) =>
    if digitLimit < digits.length then .error (.tooLongToRead digits.length)
    else if after.all isGap then
      let size : Nat := Nat.ofDigitChars 10 digits 0
      .ok (if negative then -size else size)
    else .error (.notANumber text)

/-- The decimal digits of a number, after a minus sign if it is negative. -/
def intChars (n : Int) : List Char :=
  if n < 0 then '-' :: Nat.toDigits 10 n.natAbs else Nat.toDigits 10 n.natAbs

def intText (n : Int) : String :=
  String.ofList (intChars n)

/-- The text of a number within the digit limit. -/
def writeInt (n : Int) : Except IntegerFault String :=
  if digitLimit < (Nat.toDigits 10 n.natAbs).length then .error .tooLongToWrite
  else .ok (intText n)

end ReviewGate.Number
