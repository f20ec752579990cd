/-! UTF-8: writing, reading with a report of the first bytes that are not UTF-8, and reading with a
replacement character for every such run of bytes. A run is the longest start of a character that
the bytes hold, or one byte that can start none. -/
namespace ReviewGate.Text.Utf8

/-- The bytes of one character. -/
def encodeChar (c : Char) : List UInt8 :=
  let n := c.toNat
  if n < 0x80 then [UInt8.ofNat n]
  else if n < 0x800 then [UInt8.ofNat (0xC0 + n / 64), UInt8.ofNat (0x80 + n % 64)]
  else if n < 0x10000 then
    [UInt8.ofNat (0xE0 + n / 4096), UInt8.ofNat (0x80 + n / 64 % 64), UInt8.ofNat (0x80 + n % 64)]
  else
    [UInt8.ofNat (0xF0 + n / 262144), UInt8.ofNat (0x80 + n / 4096 % 64),
      UInt8.ofNat (0x80 + n / 64 % 64), UInt8.ofNat (0x80 + n % 64)]

def encode (s : String) : List UInt8 :=
  s.toList.flatMap encodeChar

/-- A character of which some bytes have been read: how many bytes come after the next one, the
bounds of the next one, and the bits so far. -/
structure Begun where
  after : Nat
  low : Nat
  high : Nat
  bits : Nat
  deriving DecidableEq

/-- What a byte means between two characters. -/
inductive Opening where
  | whole (c : Char)
  | begun (b : Begun)
  | invalid
  deriving DecidableEq

/-- The bounds of the second byte leave out the overlong forms, the surrogates and what lies beyond
the last code point. -/
def opening (byte : UInt8) : Opening :=
  let n := byte.toNat
  if n < 0x80 then .whole (Char.ofNat n)
  else if n < 0xC2 then .invalid
  else if n < 0xE0 then .begun ⟨0, 0x80, 0xBF, n - 0xC0⟩
  else if n < 0xF0 then
    .begun ⟨1, if n = 0xE0 then 0xA0 else 0x80, if n = 0xED then 0x9F else 0xBF, n - 0xE0⟩
  else if n < 0xF5 then
    .begun ⟨2, if n = 0xF0 then 0x90 else 0x80, if n = 0xF4 then 0x8F else 0xBF, n - 0xF0⟩
  else .invalid

/-- What a byte does to a character begun. -/
inductive Growth where
  | done (c : Char)
  | more (b : Begun)
  | broken
  deriving DecidableEq

def Begun.grow (b : Begun) (byte : UInt8) : Growth :=
  let n := byte.toNat
  if b.low ≤ n ∧ n ≤ b.high then
    let bits := b.bits * 64 + (n - 0x80)
    match b.after with
    | 0 => .done (Char.ofNat bits)
    | after + 1 => .more ⟨after, 0x80, 0xBF, bits⟩
  else .broken

def replacement : Char := '\uFFFD'

/-- The characters of the bytes from within a character or between two of them, with one
replacement for every run that is not UTF-8. -/
def decodeLossyFrom : Option Begun → List UInt8 → List Char
  | none, [] => []
  | some _, [] => [replacement]
  | none, byte :: rest =>
    match opening byte with
    | .whole c => c :: decodeLossyFrom none rest
    | .begun b => decodeLossyFrom (some b) rest
    | .invalid => replacement :: decodeLossyFrom none rest
  | some b, byte :: rest =>
    match b.grow byte with
    | .done c => c :: decodeLossyFrom none rest
    | .more b => decodeLossyFrom (some b) rest
    | .broken =>
      replacement ::
        match opening byte with
        | .whole c => c :: decodeLossyFrom none rest
        | .begun b => decodeLossyFrom (some b) rest
        | .invalid => replacement :: decodeLossyFrom none rest

def decodeLossy (bytes : List UInt8) : String :=
  String.ofList (decodeLossyFrom none bytes)

/-- Why bytes are not UTF-8. -/
inductive Reason where
  | invalidStart
  | invalidContinuation
  | endOfData
  deriving DecidableEq

/-- The first run of bytes that is not UTF-8: its place, its bytes and the reason. -/
structure Malformed where
  start : Nat
  bytes : List UInt8
  reason : Reason
  deriving DecidableEq

/-- The characters of the bytes; `read` holds the bytes of the character begun, last one first, and
`start` is where the next character starts. -/
def decodeFrom (start : Nat) (read : List UInt8) :
    Option Begun → List UInt8 → Except Malformed (List Char)
  | none, [] => .ok []
  | some _, [] => .error ⟨start, read.reverse, .endOfData⟩
  | none, byte :: rest =>
    match opening byte with
    | .whole c => (decodeFrom (start + 1) [] none rest).map (c :: ·)
    | .begun b => decodeFrom start [byte] (some b) rest
    | .invalid => .error ⟨start, [byte], .invalidStart⟩
  | some b, byte :: rest =>
    match b.grow byte with
    | .done c => (decodeFrom (start + read.length + 1) [] none rest).map (c :: ·)
    | .more b => decodeFrom start (byte :: read) (some b) rest
    | .broken => .error ⟨start, read.reverse, .invalidContinuation⟩

def decode (bytes : List UInt8) : Except Malformed String :=
  (decodeFrom 0 [] none bytes).map String.ofList

/-- The bytes with the replacement character in the place of each half of a pair that stands there as
if it were a character. -/
def replaceHalves : List UInt8 → List UInt8
  | 0xED :: a :: b :: rest =>
    if 0xA0 ≤ a && a ≤ 0xBF && 0x80 ≤ b && b ≤ 0xBF then encodeChar replacement ++ replaceHalves rest
    else 0xED :: replaceHalves (a :: b :: rest)
  | byte :: rest => byte :: replaceHalves rest
  | [] => []

end ReviewGate.Text.Utf8
