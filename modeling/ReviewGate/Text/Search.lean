/-! Looking for a text inside another one, and taking a text apart at a separator. -/
namespace ReviewGate.Text

/-- What follows `start` in `cs`, if `cs` begins with it. -/
def dropStart? : List Char → List Char → Option (List Char)
  | [], cs => some cs
  | _ :: _, [] => none
  | x :: start, c :: cs => if x = c then dropStart? start cs else none

/-- Whether `needle` stands somewhere in the given characters. -/
def occursIn (needle : List Char) : List Char → Bool
  | [] => needle.isEmpty
  | c :: cs => (dropStart? needle (c :: cs)).isSome || occursIn needle cs

def contains (s needle : String) : Bool :=
  occursIn needle.toList s.toList

def startsWith (s start : String) : Bool :=
  (dropStart? start.toList s.toList).isSome

def endsWith (s ending : String) : Bool :=
  (dropStart? ending.toList.reverse s.toList.reverse).isSome

/-- The pieces of a text between the occurrences of a character: one more than there are of it. -/
def pieces (separator : Char) : List Char → List (List Char)
  | [] => [[]]
  | c :: cs =>
    if c = separator then [] :: pieces separator cs
    else
      match pieces separator cs with
      | [] => [[c]]
      | piece :: more => (c :: piece) :: more

/-- The texts before and after the first occurrence of a character. -/
def cut? (separator : Char) : List Char → Option (List Char × List Char)
  | [] => none
  | c :: cs =>
    if c = separator then some ([], cs)
    else (cut? separator cs).map fun (before, after) => (c :: before, after)

/-- The texts with a separator between each two of them. -/
def join (separator : String) : List String → String
  | [] => ""
  | [s] => s
  | s :: more => s ++ separator ++ join separator more

/-- The text without the given character at its start, however often it stands there. -/
def dropLeading (c : Char) (s : String) : String :=
  String.ofList (s.toList.dropWhile (· == c))

/-- The text without the given character at its end, however often it stands there. -/
def dropTrailing (c : Char) (s : String) : String :=
  String.ofList (s.toList.reverse.dropWhile (· == c)).reverse

/-- A text put into an ascending list, unless it is there already. -/
def insertOnce (s : String) : List String → List String
  | [] => [s]
  | t :: more => if s = t then t :: more else if s < t then s :: t :: more else t :: insertOnce s more

/-- The texts of a list in ascending order, each of them once. -/
def ascending (items : List String) : List String :=
  items.foldr insertOnce []

end ReviewGate.Text
