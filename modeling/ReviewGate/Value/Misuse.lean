import ReviewGate.Value.Display
import ReviewGate.Value.Same

/-! What can be asked of a value whatever its kind, and the ways in which a value can be of the wrong
kind for what is asked. -/
namespace ReviewGate

/-- A value that is not fit for its use. Kinds are given by name. -/
inductive Misuse where
  | notOrdered (relation left right : String)
  | noAttribute (kind name : String)
  | notIterable (kind : String)
  | notSearchable (kind : String)
  | notIndexable (kind : String)
  | needleNotText (kind : String)
  | bytesNeeded
  | bytesStartNeeded
  | notPath (kind : String)
  | bytesPath
  | notFormat (kind : String)
  | bytesFormat
  | unhashable (kind : String)
  | notCount
  | unknownOption (owner name : String)
  | notOptions (owner kind : String)
  | optionNotText
  | missingKey (key : Value)
  | emptyList
  | emptyText

def Misuse.message : Misuse → String
  | .notOrdered relation left right =>
    "\x27" ++ relation ++ "\x27 not supported between instances of \x27" ++ left ++
      "\x27 and \x27" ++ right ++ "\x27"
  | .noAttribute kind name => "\x27" ++ kind ++ "\x27 object has no attribute \x27" ++ name ++ "\x27"
  | .notIterable kind => "\x27" ++ kind ++ "\x27 object is not iterable"
  | .notSearchable kind => "argument of type \x27" ++ kind ++ "\x27 is not iterable"
  | .notIndexable kind => "\x27" ++ kind ++ "\x27 object is not subscriptable"
  | .needleNotText kind => "\x27in <string>\x27 requires string as left operand, not " ++ kind
  | .bytesNeeded => "a bytes-like object is required, not \x27str\x27"
  | .bytesStartNeeded => "startswith first arg must be bytes or a tuple of bytes, not str"
  | .notPath kind => "expected str, bytes or os.PathLike object, not " ++ kind
  | .bytesPath =>
    "argument should be a str object or an os.PathLike object returning str, not <class \x27bytes\x27>"
  | .notFormat kind => "expected string or bytes-like object, got \x27" ++ kind ++ "\x27"
  | .bytesFormat => "cannot use a string pattern on a bytes-like object"
  | .unhashable kind => "unhashable type: \x27" ++ kind ++ "\x27"
  | .notCount => "slice indices must be integers or None or have an __index__ method"
  | .unknownOption owner name =>
    owner ++ ".__init__() got an unexpected keyword argument \x27" ++ name ++ "\x27"
  | .notOptions owner kind =>
    "code_review_trainer.config." ++ owner ++ "() argument after ** must be a mapping, not " ++ kind
  | .optionNotText => "keywords must be strings"
  | .missingKey key => key.quoted
  | .emptyList => "list index out of range"
  | .emptyText => "string index out of range"

namespace Value

/-- Whether a value can be a key, which a list, a set and a map cannot. -/
def isKey : Value → Bool
  | .list _ => false
  | .set _ => false
  | .map _ => false
  | .loop _ => false
  | _ => true

/-- How a number compares with a whole one; `none` for a value that is not a number. A quantity that
is not a number compares in no way. -/
def compareInt? : Value → Int → Option (Option Ordering)
  | .float x, n => some (Number.compareInt? x n)
  | v, n => v.asInt?.map fun m => some (compare m n)

/-- Whether a value is at most a whole number. -/
def atMost (v : Value) (n : Int) : Except Misuse Bool :=
  match v.compareInt? n with
  | some order => .ok (order == some .lt || order == some .eq)
  | none => .error (.notOrdered "<=" v.kind "int")

/-- Whether a value is less than a whole number. -/
def lessThan (v : Value) (n : Int) : Except Misuse Bool :=
  match v.compareInt? n with
  | some order => .ok (order == some .lt)
  | none => .error (.notOrdered "<" v.kind "int")

/-- The items of a value one by one: a text gives its characters and a map its keys. Of what is cut off
there is one item, cut off like it. -/
def items : Value → Except Misuse (List Value)
  | .list items => .ok items
  | .tuple items => .ok items
  | .set items => .ok items
  | .map entries => .ok (entries.map Prod.fst)
  | .str s => .ok (s.toList.map fun c => .str (String.singleton c))
  | .bytes content => .ok (content.map fun b => .int b.toNat)
  | .loop isMap => .ok [.loop isMap]
  | v => .error (.notIterable v.kind)

/-- The value under a key of a map, or a default. -/
def getOr (v : Value) (key : String) (default : Value) : Except Misuse Value :=
  match v with
  | .map entries => .ok ((find? (.str key) entries).getD default)
  | v => .error (.noAttribute v.kind "get")

/-- The value under a key of a map, or nothing. -/
def get (v : Value) (key : String) : Except Misuse Value :=
  v.getOr key .null

/-- The value under a key that must be there. -/
def field (v : Value) (key : String) : Except Misuse Value :=
  match v with
  | .map entries =>
    match find? (.str key) entries with
    | some w => .ok w
    | none => .error (.missingKey (.str key))
  | v => .error (.notIndexable v.kind)

/-- The first item of a value that is given. -/
def first (v : Value) : Except Misuse Value :=
  match v with
  | .map entries =>
    match find? (.int 0) entries with
    | some w => .ok w
    | none => .error (.missingKey (.int 0))
  | .list _ | .tuple _ | .str _ | .bytes _ =>
    match v.items with
    | .ok (w :: _) => .ok w
    | _ => .error .emptyList
  | v => .error (.notIndexable v.kind)

/-- Whether a value is found in another one: a text in a text, an item in a list, a key in a
map. -/
def isIn (needle : Value) : Value → Except Misuse Bool
  | .str s =>
    match needle with
    | .str n => .ok (Text.contains s n)
    | n => .error (.needleNotText n.kind)
  | .list items => .ok (items.any needle.same)
  | .tuple items => .ok (items.any needle.same)
  | .set items => if needle.isKey then .ok (items.any needle.same) else .error (.unhashable needle.kind)
  | .map entries =>
    if needle.isKey then .ok (find? needle entries).isSome else .error (.unhashable needle.kind)
  | .bytes content =>
    match needle.asInt? with
    | some n => .ok (content.any fun b => (b.toNat : Int) == n)
    | none => .error .bytesNeeded
  | .loop _ => .ok false
  | v => .error (.notSearchable v.kind)

end Value

end ReviewGate
