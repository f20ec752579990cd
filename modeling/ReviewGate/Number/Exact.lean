import ReviewGate.Number.Power

/-! Floating-point numbers as exact quantities: taking one apart into a whole number times a power of
two, rounding a quotient to the nearest one, and comparing one with a whole number. -/
namespace ReviewGate.Number

/-- What a floating-point number stands for: a finite one for `mantissa * 2 ^ exponent`. -/
inductive Exact where
  | notANumber
  | infinite (negative : Bool)
  | finite (negative : Bool) (mantissa : Nat) (exponent : Int)
  deriving DecidableEq

def exact (x : Float) : Exact :=
  let bits := x.toBits.toNat
  let negative := bits / twoTo 63 == 1
  let field : Nat := bits / twoTo 52 % 2048
  let fraction : Nat := bits % twoTo 52
  if field = 2047 then
    if fraction = 0 then .infinite negative else .notANumber
  else if field = 0 then .finite negative fraction (-1074)
  else .finite negative (twoTo 52 + fraction) (field - 1075)

/-- The quotient rounded to the nearest whole number, a half to the even one. -/
def divNearest (num den : Nat) : Nat :=
  let low := num / den
  let twice := 2 * (num % den)
  if twice > den || (twice = den && low % 2 = 1) then low + 1 else low

/-- The quotient over two to the power `exponent`, rounded to the nearest whole number. -/
def scaledQuotient (num den : Nat) (exponent : Int) : Nat :=
  if exponent < 0 then divNearest (num * twoTo exponent.natAbs) den
  else divNearest num (den * twoTo exponent.natAbs)

/-- The floating-point number nearest to a positive quotient. -/
def nearestQuotient (negative : Bool) (num den : Nat) : Float :=
  let size : Int := (Nat.log2 num : Int) - Nat.log2 den
  let guess := max (size - 53) (-1074)
  let exponent :=
    if scaledQuotient num den guess < twoTo 53 then guess
    else if scaledQuotient num den (guess + 1) < twoTo 53 then guess + 1
    else guess + 2
  let mantissa := scaledQuotient num den exponent
  let sign := if negative then twoTo 63 else 0
  let bits :=
    if mantissa < twoTo 52 then mantissa
    else (exponent + 1075).toNat * twoTo 52 + (mantissa - twoTo 52)
  Float.ofBits (UInt64.ofNat (sign + min bits (2047 * twoTo 52)))

/-- The floating-point number nearest to `mantissa * 10 ^ exponent`. Far outside the range it is
infinite or zero without the power being computed. -/
def nearestDecimal (negative : Bool) (mantissa : Nat) (exponent : Int) : Float :=
  let size : Int := (Nat.toDigits 10 mantissa).length + exponent
  if mantissa = 0 || size < -400 then Float.ofBits (if negative then 0x8000000000000000 else 0)
  else if 400 < size then Float.ofBits (if negative then 0xFFF0000000000000 else 0x7FF0000000000000)
  else if exponent < 0 then nearestQuotient negative mantissa (tenTo exponent.natAbs)
  else nearestQuotient negative (mantissa * tenTo exponent.natAbs) 1

/-- How a floating-point number compares with a whole one, unless it is not a number. -/
def compareInt? (x : Float) (n : Int) : Option Ordering :=
  match exact x with
  | .notANumber => none
  | .infinite negative => some (if negative then .lt else .gt)
  | .finite negative mantissa exponent =>
    let signed : Int := if negative then -mantissa else mantissa
    some (if exponent < 0 then compare signed (n * twoTo exponent.natAbs)
      else compare (signed * twoTo exponent.natAbs) n)

/-- The whole number that a floating-point number equals. -/
def toInt? (x : Float) : Option Int :=
  match exact x with
  | .finite negative mantissa exponent =>
    let signed : Int := if negative then -mantissa else mantissa
    if 0 ≤ exponent then some (signed * twoTo exponent.natAbs)
    else if mantissa % twoTo exponent.natAbs = 0 then some (signed / twoTo exponent.natAbs)
    else none
  | _ => none

end ReviewGate.Number
