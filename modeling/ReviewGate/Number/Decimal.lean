import ReviewGate.Number.Exact
import ReviewGate.Number.Integer

/-! Floating-point numbers read from decimal texts. -/
namespace ReviewGate.Number

/-- The digits at the start and what follows them. -/
def digitsOf (cs : List Char) : List Char × List Char :=
  (cs.takeWhile Char.isDigit, cs.dropWhile Char.isDigit)

/-- The power of ten in what follows the digits; `none` if that is something else. -/
def powerOf : List Char → Option Int
  | [] => some 0
  | c :: rest =>
    if c = 'e' || c = 'E' then
      let (negative, unsigned) := signOf rest
      match digitsOf unsigned with
      | ([], _) => none
      | (digits, []) =>
        let size : Nat := Nat.ofDigitChars 10 digits 0
        some (if negative then -size else size)
      | _ => none
    else none

/-- The number that digits with a point and a power of ten stand for. -/
def unsignedFloat? (negative : Bool) (cs : List Char) : Option Float :=
  let (whole, rest) := digitsOf cs
  let (fraction, rest) :=
    match rest with
    | '.' :: more => digitsOf more
    | _ => ([], rest)
  if whole.isEmpty && fraction.isEmpty then none
  else
    (powerOf rest).map fun power =>
      nearestDecimal negative (Nat.ofDigitChars 10 (whole ++ fraction) 0) (power - fraction.length)

def infinity (negative : Bool) : Float :=
  Float.ofBits (if negative then 0xFFF0000000000000 else 0x7FF0000000000000)

def notANumber : Float := Float.ofBits 0x7FF8000000000000

/-- The number that a text stands for, if it is one. -/
def readFloat? (cs : List Char) : Option Float :=
  let (negative, unsigned) := signOf cs
  let word := String.ofList (unsigned.map Char.toLower)
  if word = "inf" || word = "infinity" then some (infinity negative)
  else if word = "nan" then some notANumber
  else unsignedFloat? negative unsigned

end ReviewGate.Number
