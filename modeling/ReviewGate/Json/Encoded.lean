import ReviewGate.Json.Reader
import ReviewGate.Text.Units

/-! JSON as bytes. How the text is encoded is told by its first bytes, since a document starts with two
characters of seven bits or with a mark. -/
namespace ReviewGate.Json

/-- How a text is encoded. -/
inductive Encoding where
  | bytes
  | pairs (isBig : Bool)
  | quads (isBig : Bool)
  deriving DecidableEq

/-- How a document without a mark is encoded: by where its first zero bytes are. -/
def encodingOf (document : List UInt8) : Encoding :=
  match document with
  | [a, b] => if a = 0 then .pairs true else if b = 0 then .pairs false else .bytes
  | a :: b :: c :: d :: _ =>
    if a = 0 then (if b = 0 then .quads true else .pairs true)
    else if b = 0 then (if c = 0 && d = 0 then .quads false else .pairs false)
    else .bytes
  | _ => .bytes

/-- How a document is encoded, and what follows its mark if it has one. -/
def detect (document : List UInt8) : Encoding × List UInt8 :=
  match document with
  | 0x00 :: 0x00 :: 0xFE :: 0xFF :: rest => (.quads true, rest)
  | 0xFF :: 0xFE :: 0x00 :: 0x00 :: rest => (.quads false, rest)
  | 0xFE :: 0xFF :: rest => (.pairs true, rest)
  | 0xFF :: 0xFE :: rest => (.pairs false, rest)
  | 0xEF :: 0xBB :: 0xBF :: rest => (.bytes, rest)
  | _ => (encodingOf document, document)

/-- The text of a document, in which halves of pairs may stand alone. -/
def textOf? (document : List UInt8) : Option String :=
  match detect document with
  | (.bytes, rest) => (Text.Utf8.decode (Text.Utf8.replaceHalves rest)).toOption
  | (.pairs isBig, rest) => Text.Units.decode16 isBig rest
  | (.quads isBig, rest) => Text.Units.decode32 isBig rest

/-- The value of a document, however deep it is nested; `none` if the bytes are none. -/
def readBytes (document : List UInt8) : Option Value := do
  (read .endless (← textOf? document)).toOption

end ReviewGate.Json
