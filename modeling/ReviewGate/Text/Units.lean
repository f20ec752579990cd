import ReviewGate.Text.Utf8

/-! Text as units of 16 or 32 bits, each of them a row of bytes with the most or the least significant
one first. A half of a pair that stands alone is replaced. -/
namespace ReviewGate.Text.Units

/-- The number that bytes stand for, the most significant one first. -/
def bigEndian (bytes : List UInt8) : Nat :=
  bytes.foldl (fun n b => n * 256 + b.toNat) 0

/-- The units of two bytes; `none` if a byte is left. -/
def pairs? (isBig : Bool) : List UInt8 → Option (List Nat)
  | [] => some []
  | [_] => none
  | a :: b :: rest =>
    (pairs? isBig rest).map ((bigEndian (if isBig then [a, b] else [b, a])) :: ·)

/-- The units of four bytes; `none` if bytes are left. -/
def quads? (isBig : Bool) : List UInt8 → Option (List Nat)
  | a :: b :: c :: d :: rest =>
    (quads? isBig rest).map ((bigEndian (if isBig then [a, b, c, d] else [d, c, b, a])) :: ·)
  | [] => some []
  | _ => none

def isHigh (n : Nat) : Bool := 0xD800 ≤ n && n < 0xDC00

def isLow (n : Nat) : Bool := 0xDC00 ≤ n && n < 0xE000

/-- The character with a code point; half of a pair gives the replacement. -/
def charOf (n : Nat) : Char :=
  if isHigh n || isLow n then Utf8.replacement else Char.ofNat n

/-- The characters of units of 16 bits. -/
def ofPairs : List Nat → List Char
  | [] => []
  | [n] => [charOf n]
  | high :: low :: rest =>
    if isHigh high && isLow low then
      Char.ofNat (0x10000 + (high - 0xD800) * 0x400 + (low - 0xDC00)) :: ofPairs rest
    else charOf high :: ofPairs (low :: rest)

/-- The text of units of 16 bits. -/
def decode16 (isBig : Bool) (bytes : List UInt8) : Option String :=
  (pairs? isBig bytes).map fun units => String.ofList (ofPairs units)

/-- The text of units of 32 bits, all of which must be code points. -/
def decode32 (isBig : Bool) (bytes : List UInt8) : Option String := do
  let units ← quads? isBig bytes
  if units.all (· < 0x110000) then some (String.ofList (units.map charOf)) else none

end ReviewGate.Text.Units
