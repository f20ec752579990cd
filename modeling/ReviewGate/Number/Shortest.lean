import ReviewGate.Number.Exact

/-! The text of a floating-point number: the fewest decimal digits that read back as the same
number, and of these the nearest; written by position for middle sizes, with an exponent
otherwise. -/
namespace ReviewGate.Number

/-- The quotient times ten to the power `shift`, rounded down. -/
def decimalFloor (num den : Nat) (shift : Int) : Nat :=
  if shift < 0 then num / (den * tenTo shift.natAbs) else num * tenTo shift.natAbs / den

/-- Compares a multiple of ten to the power `-shift` with a quotient. -/
def compareGrid (point : Nat) (shift : Int) (num den : Nat) : Ordering :=
  if shift < 0 then compare (point * tenTo shift.natAbs * den) num
  else compare (point * den) (num * tenTo shift.natAbs)

/-- The place of the decimal point of a positive quotient: the number of its digits before the
point, or minus the number of zeros after it. -/
def pointPlace (num den : Nat) : Int :=
  if den ≤ num then (Nat.toDigits 10 (num / den)).length
  else
    match (List.range 400).find? fun zeros => den ≤ num * tenTo (zeros + 1) with
    | some zeros => -(zeros : Int)
    | none => 0

/-- The shortest digits of `mantissa * 2 ^ exponent`, read after the point, and the power of ten to
multiply them with. The candidates of each length are the two neighbours of the value. -/
def shortestDigits (mantissa : Nat) (exponent : Int) : List Char × Int :=
  let up := if exponent < 2 then 1 else twoTo (exponent - 2).natAbs
  let den := if exponent < 2 then twoTo (2 - exponent).natAbs else 1
  let value := 4 * mantissa * up
  let below := (4 * mantissa - (if mantissa = twoTo 52 && exponent > -1074 then 1 else 2)) * up
  let above := (4 * mantissa + 2) * up
  let place := pointPlace value den
  let closed := mantissa % 2 = 0
  let readsBack (point : Nat) (shift : Int) : Bool :=
    let low := compareGrid point shift below den
    let high := compareGrid point shift above den
    (low == .gt || (closed && low == .eq)) && (high == .lt || (closed && high == .eq))
  let candidate (count : Nat) : Option (Nat × Int) :=
    let shift : Int := count - place
    let floor := decimalFloor value den shift
    match readsBack floor shift, readsBack (floor + 1) shift with
    | false, false => none
    | true, false => some (floor, shift)
    | false, true => some (floor + 1, shift)
    | true, true =>
      match compareGrid (2 * floor + 1) shift (2 * value) den with
      | .gt => some (floor, shift)
      | .lt => some (floor + 1, shift)
      | .eq => some (if floor % 2 = 0 then floor else floor + 1, shift)
  match (List.range 17).findSome? fun n => candidate (n + 1) with
  | some (point, shift) =>
    let digits := Nat.toDigits 10 point
    let kept := (digits.reverse.dropWhile (· == '0')).reverse
    (kept, digits.length - shift)
  | none => (['0'], 1)

/-- Digits after the point, times a power of ten, as a text: by position while the power is above
-4 and at most 16. -/
def layout (digits : List Char) (power : Int) : List Char :=
  if power ≤ -4 || 16 < power then
    let exponent := power - 1
    let size := Nat.toDigits 10 exponent.natAbs
    let fraction := if digits.length ≤ 1 then [] else '.' :: digits.drop 1
    digits.take 1 ++ fraction ++ 'e' :: (if exponent < 0 then '-' else '+') ::
      (if size.length < 2 then '0' :: size else size)
  else if power ≤ 0 then
    '0' :: '.' :: List.replicate power.natAbs '0' ++ digits
  else
    let whole := digits.take power.natAbs
    let fraction := digits.drop power.natAbs
    whole ++ List.replicate (power.natAbs - whole.length) '0' ++
      '.' :: (if fraction.isEmpty then ['0'] else fraction)

def floatText (x : Float) : String :=
  match exact x with
  | .notANumber => "nan"
  | .infinite negative => if negative then "-inf" else "inf"
  | .finite negative mantissa exponent =>
    let digits :=
      if mantissa = 0 then ['0', '.', '0']
      else
        let (digits, power) := shortestDigits mantissa exponent
        layout digits power
    String.ofList (if negative then '-' :: digits else digits)

end ReviewGate.Number
