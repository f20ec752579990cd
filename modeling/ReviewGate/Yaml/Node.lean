import ReviewGate.Yaml.Lexer
import ReviewGate.Yaml.Scalar

/-! The tree of a YAML document, built from its tokens. Aliases are replaced by the nodes that they
stand for, and every node has the tag that its kind, its text or its author gives it. -/
namespace ReviewGate.Yaml

/-- A node; an alias of a sequence or a mapping that it is part of closes a loop. -/
inductive Node where
  | scalar (tag : Tag) (text : String)
  | sequence (tag : Tag) (items : List Node)
  | mapping (tag : Tag) (pairs : List (Node × Node))
  | loop (isMap : Bool)

/-- Tokens that are being built into nodes, the nodes that have names, and what the handles of tags
stand for. -/
structure Builder where
  tokens : List Token
  anchors : List (String × Node)
  handles : List (String × String)

abbrev Build (α : Type) := StateT Builder (Except Fault) α

namespace Build

def fail {α : Type} : Build α := fun _ => malformed

def peek : Build (Option Token) := do
  return (← get).tokens.head?

def skip : Build Unit :=
  modify fun b => { b with tokens := b.tokens.drop 1 }

/-- Whether the next token is one of those given. -/
def sees (ts : List Token) : Build Bool := do
  return (← peek).any ts.contains

/-- Takes the next token if it is the one given. -/
def takes (t : Token) : Build Bool := do
  if ← sees [t] then
    skip
    return true
  else return false

/-- Takes the next token, which must be the one given. -/
def need (t : Token) : Build Unit := do
  if !(← takes t) then fail

/-- The name that a node is given, if one comes next. -/
def anchor? : Build (Option String) := do
  match ← peek with
  | some (.anchor name) =>
    skip
    return some name
  | _ => return none

def tag? : Build (Option TagMark) := do
  match ← peek with
  | some (.tag mark) =>
    skip
    return some mark
  | _ => return none

/-- The name and the tag of a node, in either order. -/
def properties : Build (Option String × Option TagMark) := do
  match ← anchor? with
  | some name => return (some name, ← tag?)
  | none =>
    match ← tag? with
    | some mark => return (← anchor?, some mark)
    | none => return (none, none)

/-- The full name of a tag. -/
def fullTag (mark : TagMark) : Build String := do
  match mark.handle with
  | none => return mark.suffix
  | some handle =>
    match (← get).handles.find? fun (h, _) => h == handle with
    | some (_, start) => return start ++ mark.suffix
    | none => fail

/-- The tag of a collection, which is the usual one unless its author gives another. -/
def collectionTag (usual : Tag) : Option String → Tag
  | none => usual
  | some name => if name = "!" then usual else .ofName name

/-- The tag of a scalar. Only plain ones and those marked by a bare sign can stand for something else
than their text. -/
def scalarTag (text : String) (isPlain : Bool) : Option String → Tag
  | none => if isPlain then .ofPlain text else .text
  | some name => if name = "!" then .ofPlain text else .ofName name

def empty : Node := .scalar .null ""

/-- Remembers a node under the name that it is given. -/
def named (name : Option String) (n : Node) : Build Node := do
  match name with
  | none => return n
  | some name =>
    if (← get).anchors.any fun (a, _) => a == name then fail
    modify fun b => { b with anchors := (name, n) :: b.anchors }
    return n

/-- Builds a sequence or a mapping, within which its name stands for a loop. -/
def collected (name : Option String) (isMap : Bool) (build : Build Node) : Build Node := do
  let _ ← named name (.loop isMap)
  let n ← build
  if let some name := name then
    modify fun b => { b with anchors := (name, n) :: b.anchors }
  return n

mutual

/-- The node that comes next. In block context it may be a block; after a key it may be a sequence that
is not indented. Every node and entry takes at least one token or ends its parent, so a budget of
twice as many as there are tokens is never used up. -/
def node : Nat → Bool → Bool → Build Node
  | 0, _, _ => fail
  | budget + 1, inBlock, mayHang => do
    if let some (.alias name) ← peek then
      skip
      match (← get).anchors.find? fun (a, _) => a == name with
      | some (_, n) => return n
      | none => fail
    else
      let (name, mark) ← properties
      let tag ← mark.mapM fullTag
      match ← peek with
      | some (.scalar text isPlain) =>
        skip
        named name (.scalar (scalarTag text isPlain tag) text)
      | some .flowSequenceStart =>
        skip
        collected name false (do return .sequence (collectionTag .list tag) (← flowItems budget true))
      | some .flowMappingStart =>
        skip
        collected name true (do return .mapping (collectionTag .map tag) (← flowPairs budget true))
      | some .blockEntry =>
        if mayHang then
          collected name false (do return .sequence (collectionTag .list tag) (← hangingItems budget))
        else emptyNode name tag
      | some .blockSequenceStart =>
        if inBlock then
          skip
          collected name false (do return .sequence (collectionTag .list tag) (← blockItems budget))
        else emptyNode name tag
      | some .blockMappingStart =>
        if inBlock then
          skip
          collected name true (do return .mapping (collectionTag .map tag) (← blockPairs budget))
        else emptyNode name tag
      | _ => emptyNode name tag
where
  emptyNode (name : Option String) (tag : Option String) : Build Node :=
    if name.isSome || tag.isSome then named name (.scalar (scalarTag "" true tag) "") else fail

/-- The entries of a block sequence up to its end. -/
def blockItems : Nat → Build (List Node)
  | 0 => fail
  | budget + 1 => do
    if ← takes .blockEntry then
      let item ←
        if ← sees [.blockEntry, .blockEnd] then pure empty else node budget true false
      return item :: (← blockItems budget)
    else
      need .blockEnd
      return []

/-- The entries of a sequence that is not indented. -/
def hangingItems : Nat → Build (List Node)
  | 0 => fail
  | budget + 1 => do
    if ← takes .blockEntry then
      let item ←
        if ← sees [.blockEntry, .key, .value, .blockEnd] then pure empty else node budget true false
      return item :: (← hangingItems budget)
    else return []

/-- A key or a value of a block mapping, which may be left out. -/
def blockPart : Nat → Build Node
  | 0 => fail
  | budget + 1 => do
    if ← sees [.key, .value, .blockEnd] then return empty else node budget true true

/-- The pairs of a block mapping up to its end. -/
def blockPairs : Nat → Build (List (Node × Node))
  | 0 => fail
  | budget + 1 => do
    if ← takes .key then
      let key ← blockPart budget
      let value ← if ← takes .value then blockPart budget else pure empty
      return (key, value) :: (← blockPairs budget)
    else
      need .blockEnd
      return []

/-- The value in a flow collection that ends with the given token. -/
def flowValue : Nat → Token → Build Node
  | 0, _ => fail
  | budget + 1, last => do
    if ← takes .value then
      if ← sees [.flowEntry, last] then return empty else node budget false false
    else return empty

/-- The items of a flow sequence up to its end; a pair alone is a mapping of one. -/
def flowItems : Nat → Bool → Build (List Node)
  | 0, _ => fail
  | budget + 1, isFirst => do
    if ← takes .flowSequenceEnd then return []
    if !isFirst then need .flowEntry
    if ← takes .key then
      let key ←
        if ← sees [.value, .flowEntry, .flowSequenceEnd] then pure empty else node budget false false
      let value ← flowValue budget .flowSequenceEnd
      return .mapping .map [(key, value)] :: (← flowItems budget false)
    else if ← takes .flowSequenceEnd then return []
    else
      let item ← node budget false false
      return item :: (← flowItems budget false)

/-- The pairs of a flow mapping up to its end; a node alone is a key without a value. -/
def flowPairs : Nat → Bool → Build (List (Node × Node))
  | 0, _ => fail
  | budget + 1, isFirst => do
    if ← takes .flowMappingEnd then return []
    if !isFirst then need .flowEntry
    if ← takes .key then
      let key ←
        if ← sees [.value, .flowEntry, .flowMappingEnd] then pure empty else node budget false false
      let value ← flowValue budget .flowMappingEnd
      return (key, value) :: (← flowPairs budget false)
    else if ← takes .flowMappingEnd then return []
    else
      let key ← node budget false false
      return (key, empty) :: (← flowPairs budget false)

end

/-- The handles of tags that need no directive. -/
def usualHandles : List (String × String) := [("!", "!"), ("!!", tagStart)]

/-- The directives before a document: at most one version, which must be the first one, and at most one
meaning for each handle. -/
def directives (hasVersion : Bool) (handles : List (String × String)) :
    List Token → Except Fault (List (String × String) × List Token)
  | .directive (.version major) :: rest => do
    expect (!hasVersion && major == 1)
    directives true handles rest
  | .directive (.tag handle start) :: rest => do
    expect !(handles.any fun (h, _) => h == handle)
    directives hasVersion ((handle, start) :: handles) rest
  | .directive .other :: rest => directives hasVersion handles rest
  | rest => .ok (handles, rest)

/-- The node of the only document, if there is one, from its first token on. -/
def content (tokens : List Token) (handles : List (String × String)) (mayBeEmpty : Bool) :
    Except Fault (Node × List Token) := do
  match tokens with
  | [] => if mayBeEmpty then return (empty, []) else malformed
  | .directive _ :: _ | .documentStart :: _ | .documentEnd :: _ =>
    if mayBeEmpty then return (empty, tokens) else malformed
  | _ =>
    let (n, b) ← (node (2 * tokens.length + 2) true false).run ⟨tokens, [], handles⟩
    return (n, b.tokens)

/-- Nothing but the ends of a document may follow it. -/
def finish : List Token → Except Fault Unit
  | [] => .ok ()
  | .documentEnd :: rest => finish rest
  | _ => malformed

def explicitDocument (tokens : List Token) : Except Fault (Option Node) := do
  let (handles, rest) ← directives false [] tokens
  match rest with
  | .documentStart :: rest =>
    let (n, rest) ← content rest (handles ++ usualHandles) true
    finish rest
    return some n
  | _ => malformed

end Build

/-- The node of the only document in a text, if there is one. -/
def Node.ofTokens? (tokens : List Token) : Except Fault (Option Node) := do
  match tokens with
  | [] => return none
  | .directive _ :: _ | .documentStart :: _ => Build.explicitDocument tokens
  | _ =>
    let (n, rest) ← Build.content tokens Build.usualHandles false
    Build.finish rest
    return some n

end ReviewGate.Yaml
