import ReviewGate.Json.Reader
import ReviewGate.Text.Utf8

/-! The targets of requests: the path in a target, without the host before it and the query after
it. -/
namespace ReviewGate.Service

/-- Whether a character ends a path. -/
def endsPath (c : Char) : Bool :=
  c == '?' || c == '#'

/-- What follows the host, if one is named. -/
def dropHost : List Char → List Char
  | '/' :: '/' :: rest => rest.dropWhile fun c => c != '/' && !endsPath c
  | cs => cs

/-- The bytes of characters, of which some may be written as a percent sign and two digits. -/
def bytesOf : List Char → List UInt8
  | [] => []
  | '%' :: a :: b :: rest =>
    match Json.hexValue? a, Json.hexValue? b with
    | some m, some n => UInt8.ofNat (m * 16 + n) :: bytesOf rest
    | _, _ => 0x25 :: bytesOf (a :: b :: rest)
  | c :: rest => Text.Utf8.encode (String.singleton c) ++ bytesOf rest

/-- The path in a target. The host is looked for twice, once by the sender and once by the receiver;
the path has one slash at its start. -/
def pathOf (target : String) : String :=
  let sent := (dropHost target.toList).takeWhile fun c => !endsPath c
  let path := Text.Utf8.decodeLossy (bytesOf (dropHost sent))
  String.ofList ('/' :: path.toList.dropWhile (· == '/'))

/-- A path with one slash in the place of every two. -/
def mergeSlashes : List Char → List Char
  | '/' :: '/' :: rest => '/' :: mergeSlashes rest
  | c :: rest => c :: mergeSlashes rest
  | [] => []

end ReviewGate.Service
