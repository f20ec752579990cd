import ReviewGate.Text.Base64
import ReviewGate.Text.Lines
import ReviewGate.Yaml.Node

/-! The values of YAML documents. Of several entries with the same key the last one counts; the entries
of a mapping that is merged into another one come first, so that those of the other replace them. -/
namespace ReviewGate.Yaml

/-- A key with its value. -/
abbrev Pair := Value × Value

/-- The entries that are merged into a mapping and those of its own. -/
structure Entries where
  merged : List Pair
  own : List Pair

def Entries.all (e : Entries) : List Pair := e.merged ++ e.own

/-- An entry whose key can be a key. -/
def keyed (k v : Value) : Except Fault Pair :=
  if k.isKey then .ok (k, v) else malformed

/-- The text of a node that stands for a scalar value. A mapping has the text under its value key. -/
def Node.text : Node → Except Fault String
  | .scalar _ s => .ok s
  | .sequence .. => malformed
  | .mapping _ pairs => valueText pairs
  | .loop _ => malformed
where
  valueText : List (Node × Node) → Except Fault String
    | [] => malformed
    | (.scalar .value _, .scalar _ s) :: _ => .ok s
    | _ :: more => valueText more

def readBinary (text : String) : Except Fault Value :=
  if text.toList.all (·.toNat < 128) then
    match Text.Base64.decode? text with
    | some content => .ok (.bytes content)
    | none => malformed
  else malformed

/-- The value of a scalar of a kind. -/
def scalarValue (tag : Tag) (text : String) : Except Fault Value :=
  match tag with
  | .null => .ok .null
  | .bool => (readSwitch text).map .bool
  | .int => (readInt text).map .int
  | .float => (readFloat text).map .float
  | .binary => readBinary text
  | .timestamp => readTimestamp text
  | .text => .ok (.str text)
  | _ => malformed

/-- Whether values of a kind are read from texts. -/
def Tag.isScalar : Tag → Bool
  | .null | .bool | .int | .float | .binary | .timestamp | .text => true
  | _ => false

mutual

/-- The value of a node. -/
def Node.value : Node → Except Fault Value
  | .scalar tag text => scalarValue tag text
  | .sequence tag items =>
    match tag with
    | .list => (values items).map .list
    | .ordered => (singles items).map fun pairs => .list (pairs.map fun (k, v) => .tuple [k, v])
    | .pairs => (singles items).map fun pairs => .list (pairs.map fun (k, v) => .tuple [k, v])
    | _ => malformed
  | .mapping tag pairs =>
    match tag with
    | .map => (entries pairs).map fun e => .map (Value.entriesOf e.all)
    | .set => (entries pairs).map fun e => .set (Value.distinct (e.all.map Prod.fst))
    | tag => if tag.isScalar then do scalarValue tag (← (Node.mapping tag pairs).text) else malformed
  | .loop isMap => .ok (.loop isMap)

def values : List Node → Except Fault (List Value)
  | [] => .ok []
  | n :: more => do
    let v ← n.value
    return v :: (← values more)

/-- The entries of mappings that have one entry each. -/
def singles : List Node → Except Fault (List Pair)
  | [] => .ok []
  | n :: more => do
    let pair ← n.single
    return pair :: (← singles more)

def Node.single : Node → Except Fault Pair
  | .mapping _ pairs => onlyPair pairs
  | _ => malformed

def onlyPair : List (Node × Node) → Except Fault Pair
  | (key, value) :: more => do
    expect more.isEmpty
    return (← key.value, ← value.value)
  | [] => malformed

/-- The entries of a mapping. -/
def entries : List (Node × Node) → Except Fault Entries
  | [] => .ok ⟨[], []⟩
  | (key, value) :: more =>
    match key with
    | .scalar .merge _ => do
      let merged ← value.mergedEntries
      let rest ← entries more
      return ⟨merged ++ rest.merged, rest.own⟩
    | .scalar .value text => do
      let v ← value.value
      let rest ← entries more
      return ⟨rest.merged, (.str text, v) :: rest.own⟩
    | key => do
      let k ← key.value
      let pair ← keyed k (← value.value)
      let rest ← entries more
      return ⟨rest.merged, pair :: rest.own⟩

/-- The entries that a node gives to the mapping that it is merged into: those of a mapping, or those
of several, of which the first ones count. A mapping that is merged into itself gives none. -/
def Node.mergedEntries : Node → Except Fault (List Pair)
  | .mapping _ pairs => (entries pairs).map Entries.all
  | .sequence _ items => mergedItems items
  | .scalar .. => malformed
  | .loop isMap => if isMap then .ok [] else malformed

/-- The entries of mappings, those of the last one first. -/
def mergedItems : List Node → Except Fault (List Pair)
  | [] => .ok []
  | n :: more => do
    let here ← n.pairsOf
    return (← mergedItems more) ++ here

def Node.pairsOf : Node → Except Fault (List Pair)
  | .mapping _ pairs => (entries pairs).map Entries.all
  | .loop true => .ok []
  | _ => malformed

end

/-- The value of the only document in a text, which is nothing if there is none. -/
def load (text : String) : Except Fault Value := do
  match ← Node.ofTokens? (← tokens text) with
  | none => return .null
  | some n => n.value

/-- The value of the only document in a file. -/
def read (content : List UInt8) : Except Fault Value :=
  match Text.Utf8.decode content with
  | .ok text => load (Text.unified text)
  | .error m => .error (.notUtf8 m)

end ReviewGate.Yaml
