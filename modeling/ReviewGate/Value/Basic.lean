import ReviewGate.Calendar
import ReviewGate.Number.Exact

/-! Values as documents hold them. Settings and answers of the forge are read into them, and what is
made of a value is decided where it is used. -/
namespace ReviewGate

/-- A value of a document. The entries of a map are in the order of their first appearance, and no
two of them have the same key. A list or a map that is found within itself is cut off there. -/
inductive Value where
  | null
  | bool (b : Bool)
  | int (n : Int)
  | float (x : Float)
  | str (s : String)
  | bytes (content : List UInt8)
  | list (items : List Value)
  | tuple (items : List Value)
  | set (items : List Value)
  | map (entries : List (Value × Value))
  | date (year month day : Nat)
  | time (t : Timestamp)
  | loop (isMap : Bool)

namespace Value

/-- The name of a value's kind, as messages give it. -/
def kind : Value → String
  | .null => "NoneType"
  | .bool _ => "bool"
  | .int _ => "int"
  | .float _ => "float"
  | .str _ => "str"
  | .bytes _ => "bytes"
  | .list _ => "list"
  | .tuple _ => "tuple"
  | .set _ => "set"
  | .map _ => "dict"
  | .date .. => "datetime.date"
  | .time _ => "datetime.datetime"
  | .loop isMap => if isMap then "dict" else "list"

/-- The name of a value's kind without the family that it belongs to. -/
def shortKind : Value → String
  | .date .. => "date"
  | .time _ => "datetime"
  | v => v.kind

/-- Whether a value counts as given: zero, nothing and empty values do not. -/
def isGiven : Value → Bool
  | .null => false
  | .bool b => b
  | .int n => n != 0
  | .float x => Number.compareInt? x 0 != some .eq
  | .str s => s != ""
  | .bytes content => !content.isEmpty
  | .list items => !items.isEmpty
  | .tuple items => !items.isEmpty
  | .set items => !items.isEmpty
  | .map entries => !entries.isEmpty
  | .date .. => true
  | .time _ => true
  | .loop _ => true

/-- The whole number that a value stands for where truth values count as zero and one. -/
def asInt? : Value → Option Int
  | .bool b => some (if b then 1 else 0)
  | .int n => some n
  | _ => none

def ofOption {α : Type} (f : α → Value) : Option α → Value
  | none => .null
  | some a => f a

/-- A map with texts for keys. -/
def record (entries : List (String × Value)) : Value :=
  .map (entries.map fun (key, v) => (.str key, v))

end Value

end ReviewGate
