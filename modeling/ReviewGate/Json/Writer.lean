import ReviewGate.Value.Display

/-! Writing JSON over several lines, in printable ASCII alone: every level is indented by two spaces,
and every other character is written as the escapes of its code units. -/
namespace ReviewGate.Json

/-- The escape of a code unit. -/
def unitEscape (n : Nat) : List Char :=
  '\\' :: 'u' :: Text.hexDigits 4 n

/-- One character inside a text. -/
def writtenChar (c : Char) : List Char :=
  if c = '"' then ['\\', '"']
  else if c = '\\' then ['\\', '\\']
  else if c = '\n' then ['\\', 'n']
  else if c = '\r' then ['\\', 'r']
  else if c = '\t' then ['\\', 't']
  else if c = '\x0c' then ['\\', 'f']
  else if c = '\x08' then ['\\', 'b']
  else if 32 ≤ c.toNat && c.toNat < 127 then [c]
  else if c.toNat < 0x10000 then unitEscape c.toNat
  else
    unitEscape (0xD800 + (c.toNat - 0x10000) / 1024) ++
      unitEscape (0xDC00 + (c.toNat - 0x10000) % 1024)

def writtenText (cs : List Char) : List Char :=
  '"' :: cs.flatMap writtenChar ++ ['"']

/-- A new line indented to a level. -/
def newLine (level : Nat) : List Char :=
  '\n' :: List.replicate (2 * level) ' '

def writtenFloat (x : Float) : List Char :=
  match Number.exact x with
  | .notANumber => "NaN".toList
  | .infinite negative => if negative then "-Infinity".toList else "Infinity".toList
  | .finite .. => (Number.floatText x).toList

/-- The text of a key, which is the text of the value where that is not a text already. -/
def writtenKey : Value → List Char
  | .str s => writtenText s.toList
  | .null => writtenText "null".toList
  | .bool b => writtenText (if b then "true".toList else "false".toList)
  | .int n => writtenText (Number.intChars n)
  | v => writtenText v.text.toList

/-- What has no form in JSON is written as the text that messages show. -/
def writtenScalar : Value → List Char
  | .null => "null".toList
  | .bool b => if b then "true".toList else "false".toList
  | .int n => Number.intChars n
  | .float x => writtenFloat x
  | .str s => writtenText s.toList
  | v => writtenText v.text.toList

mutual

/-- A value whose brackets stand at a level of indentation. -/
def written (level : Nat) : Value → List Char
  | .list items => writtenList level items
  | .tuple items => writtenList level items
  | .map entries =>
    match entries with
    | [] => ['{', '}']
    | (k, v) :: more =>
      '{' :: newLine (level + 1) ++ writtenKey k ++ ':' :: ' ' :: written (level + 1) v ++
        writtenEntries (level + 1) more ++ newLine level ++ ['}']
  | .null => writtenScalar .null
  | .bool b => writtenScalar (.bool b)
  | .int n => writtenScalar (.int n)
  | .float x => writtenScalar (.float x)
  | .str s => writtenScalar (.str s)
  | .bytes content => writtenScalar (.bytes content)
  | .set items => writtenScalar (.set items)
  | .date y m d => writtenScalar (.date y m d)
  | .time t => writtenScalar (.time t)
  | .loop isMap => writtenScalar (.loop isMap)

def writtenList (level : Nat) : List Value → List Char
  | [] => ['[', ']']
  | v :: more =>
    '[' :: newLine (level + 1) ++ written (level + 1) v ++ writtenItems (level + 1) more ++
      newLine level ++ [']']

/-- The items of a list after its first one. -/
def writtenItems (level : Nat) : List Value → List Char
  | [] => []
  | v :: more => ',' :: newLine level ++ written level v ++ writtenItems level more

/-- The entries of a map after its first one. -/
def writtenEntries (level : Nat) : List (Value × Value) → List Char
  | [] => []
  | (k, v) :: more =>
    ',' :: newLine level ++ writtenKey k ++ ':' :: ' ' :: written level v ++
      writtenEntries level more

end

def write (v : Value) : String :=
  String.ofList (written 0 v)

end ReviewGate.Json
