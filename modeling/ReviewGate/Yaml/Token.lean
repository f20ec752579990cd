import ReviewGate.Json.Reader
import ReviewGate.Yaml.Cursor

/-! The tokens of YAML, and the reading of those that carry a text: anchors, tags, directives and
scalars. -/
namespace ReviewGate.Yaml

/-- The tag of a node as it is written: a handle, if there is one, and what follows it. -/
structure TagMark where
  handle : Option String
  suffix : String
  deriving DecidableEq

/-- A directive before a document. -/
inductive Directive where
  | version (major : Nat)
  | tag (handle start : String)
  | other
  deriving DecidableEq

inductive Token where
  | directive (d : Directive)
  | documentStart
  | documentEnd
  | blockSequenceStart
  | blockMappingStart
  | blockEnd
  | flowSequenceStart
  | flowSequenceEnd
  | flowMappingStart
  | flowMappingEnd
  | flowEntry
  | blockEntry
  | key
  | value
  | alias (name : String)
  | anchor (name : String)
  | tag (mark : TagMark)
  | scalar (text : String) (isPlain : Bool)
  deriving DecidableEq

def isNameChar (c : Char) : Bool :=
  c.isAlphanum || c == '-' || c == '_'

def isHex (c : Char) : Bool :=
  (Json.hexValue? c).isSome

def hexNumber (digits : List Char) : Nat :=
  digits.foldl (fun n c => n * 16 + (Json.hexValue? c).getD 0) 0

/-- A number of so many digits in base sixteen. -/
def readHex (count : Nat) (c : Cursor) : Except Fault (Nat × Cursor) := do
  let digits := c.rest.take count
  expect (digits.length == count && digits.all isHex)
  return (hexNumber digits, c.skip count)

/-- The rest of a line that holds nothing but a comment, and its end. -/
def skipComment (c : Cursor) : Except Fault Cursor := do
  let c := c.skipSpaces
  let c := if c.peek == some '#' then c.skipLine else c
  expect (atLineEnd c.peek)
  return c.skipBreak

/-! ### Anchors and aliases -/

/-- The name after the sign of an anchor or alias. -/
def readName (c : Cursor) : Except Fault (String × Cursor) := do
  let (name, c) := c.next.take isNameChar
  expect !name.isEmpty
  expect (atGap c.peek || (c.peek.any fun ch => "?:,]%@\x60\x7d".toList.contains ch))
  return (String.ofList name, c)

/-! ### Tags -/

/-- A handle: a sign alone, or a name between two signs. -/
def readHandle (c : Cursor) : Except Fault (String × Cursor) := do
  expect (c.peek == some '!')
  if c.peekAt 1 == some ' ' then return ("!", c.next)
  let (name, after) := c.next.take isNameChar
  expect (after.peek == some '!')
  return (String.ofList ('!' :: name ++ ['!']), after.next)

def isUriChar (c : Char) : Bool :=
  c.isAlphanum || "-;/?:@&=+$,_.!~*\x27()[]".toList.contains c

/-- The bytes of escapes in a row. -/
def readUriBytes : Nat → Cursor → Except Fault (List UInt8 × Cursor)
  | 0, c => .ok ([], c)
  | budget + 1, c =>
    if c.peek == some '%' then do
      let (n, c) ← readHex 2 c.next
      let (more, c) ← readUriBytes budget c
      return (UInt8.ofNat n :: more, c)
    else .ok ([], c)

/-- The characters of a tag, which may be escaped as the bytes of UTF-8. -/
def readUriFrom : Nat → Cursor → Except Fault (List Char × Cursor)
  | 0, c => .ok ([], c)
  | budget + 1, c =>
    match c.peek with
    | none => .ok ([], c)
    | some ch =>
      if isUriChar ch then do
        let (more, c) ← readUriFrom budget c.next
        return (ch :: more, c)
      else if ch == '%' then do
        let (bytes, c) ← readUriBytes (c.rest.length + 1) c
        match Text.Utf8.decode bytes with
        | .ok s =>
          let (more, c) ← readUriFrom budget c
          return (s.toList ++ more, c)
        | .error _ => malformed
      else .ok ([], c)

def readUri (c : Cursor) : Except Fault (String × Cursor) := do
  let (uri, c) ← readUriFrom (c.rest.length + 1) c
  expect !uri.isEmpty
  return (String.ofList uri, c)

/-- Whether a second sign stands before the end of the word. -/
def hasHandle (c : Cursor) : Bool :=
  match c.next.rest.dropWhile fun ch => ch != '!' && !atWordEnd (some ch) with
  | '!' :: _ => true
  | _ => false

def readTag (c : Cursor) : Except Fault (TagMark × Cursor) := do
  let (mark, c) ←
    if c.peekAt 1 == some '<' then do
      let (suffix, c) ← readUri (c.skip 2)
      expect (c.peek == some '>')
      pure (TagMark.mk none suffix, c.next)
    else if atGap (c.peekAt 1) then pure (TagMark.mk none "!", c.next)
    else do
      let (handle, c) ← if hasHandle c then readHandle c else pure ("!", c.next)
      let (suffix, c) ← readUri c
      pure (TagMark.mk (some handle) suffix, c)
  expect (atWordEnd c.peek)
  return (mark, c)

/-! ### Directives -/

def readNumber (c : Cursor) : Except Fault (Nat × Cursor) := do
  let (digits, c) := c.take Char.isDigit
  expect !digits.isEmpty
  return (Nat.ofDigitChars 10 digits 0, c)

def readVersion (c : Cursor) : Except Fault (Directive × Cursor) := do
  let (major, c) ← readNumber c.skipSpaces
  expect (c.peek == some '.')
  let (_, c) ← readNumber c.next
  expect (atWordEnd c.peek)
  return (.version major, c)

def readTagDirective (c : Cursor) : Except Fault (Directive × Cursor) := do
  let (handle, c) ← readHandle c.skipSpaces
  expect (c.peek == some ' ')
  let (start, c) ← readUri c.skipSpaces
  expect (atWordEnd c.peek)
  return (.tag handle start, c)

def readDirective (c : Cursor) : Except Fault (Directive × Cursor) := do
  let (name, c) := c.next.take isNameChar
  expect (!name.isEmpty && atWordEnd c.peek)
  let (directive, c) ←
    if name == "YAML".toList then readVersion c
    else if name == "TAG".toList then readTagDirective c
    else pure (.other, c.skipLine)
  return (directive, ← skipComment c)

/-! ### Scalars in quotes -/

/-- The characters that a backslash and a letter stand for. -/
def escapedChar? : Char → Option Char
  | '0' => some '\x00'
  | 'a' => some '\x07'
  | 'b' => some '\x08'
  | 't' => some '\t'
  | '\t' => some '\t'
  | 'n' => some '\n'
  | 'v' => some '\x0b'
  | 'f' => some '\x0c'
  | 'r' => some '\r'
  | 'e' => some '\x1b'
  | ' ' => some ' '
  | '"' => some '"'
  | '\\' => some '\\'
  | '/' => some '/'
  | 'N' => some '\u0085'
  | '_' => some '\u00a0'
  | 'L' => some '\u2028'
  | 'P' => some '\u2029'
  | _ => none

/-- How many digits follow a letter that stands for a code point. -/
def codeLength? : Char → Option Nat
  | 'x' => some 2
  | 'u' => some 4
  | 'U' => some 8
  | _ => none

/-- The character of a code point, if there is one; half a pair stands for the replacement
character. -/
def codeChar (n : Nat) : Except Fault Char :=
  if n < 0x110000 then .ok (Json.unitChar n)
  else if n < Number.twoTo 31 then .error (.refused .codePoint)
  else .error .codePointTooLarge

/-- Empty lines within quotes, of which the breaks are kept. No mark that separates documents may
start a line. -/
def readBreaks : Nat → Cursor → Except Fault (List Char × Cursor)
  | 0, c => .ok ([], c)
  | budget + 1, c => do
    expect !c.atDocumentMark
    let c := c.skipWhile fun ch => ch == ' ' || ch == '\t'
    match c.lineBreak? with
    | none => return ([], c)
    | some (b, c) =>
      let (more, c) ← readBreaks budget c
      return (b :: more, c)

/-- The text of a break and of the empty lines after it: one break alone is a space. -/
def folded (b : Char) (breaks : List Char) : List Char :=
  if b != '\n' then b :: breaks else if breaks.isEmpty then [' '] else breaks

/-- The text up to the closing quote. -/
def readQuoted (isDouble : Bool) : Nat → Cursor → Except Fault (List Char × Cursor)
  | 0, _ => malformed
  | budget + 1, c =>
    match c.peek with
    | none => malformed
    | some ch =>
      let more (found : List Char) (c : Cursor) : Except Fault (List Char × Cursor) := do
        let (text, c) ← readQuoted isDouble budget c
        return (found ++ text, c)
      if ch == ' ' || ch == '\t' || isBreak ch then do
        let (gap, c) := c.take fun ch => ch == ' ' || ch == '\t'
        match c.lineBreak? with
        | some (b, c) =>
          let (breaks, c) ← readBreaks (c.rest.length + 1) c
          more (folded b breaks) c
        | none => more gap c
      else if ch == '\x27' && !isDouble then
        if c.peekAt 1 == some '\x27' then more ['\x27'] (c.skip 2) else return ([], c.next)
      else if ch == '"' && isDouble then return ([], c.next)
      else if ch == '\\' && isDouble then
        match c.peekAt 1 with
        | none => malformed
        | some letter =>
          match escapedChar? letter, codeLength? letter with
          | some e, _ => more [e] (c.skip 2)
          | none, some count => do
            let (n, c) ← readHex count (c.skip 2)
            more [← codeChar n] c
          | none, none =>
            if isBreak letter then do
              let (breaks, c) ← readBreaks (c.rest.length + 1) c.next.skipBreak
              more breaks c
            else malformed
      else more [ch] c.next

/-! ### Block scalars -/

/-- What happens to the breaks at the end of a block scalar. -/
inductive Chomp where
  | strip
  | clip
  | keep
  deriving DecidableEq

def chomp? : Option Char → Option Chomp
  | some '+' => some .keep
  | some '-' => some .strip
  | _ => none

/-- The digit of an indentation, if there is one; it must not be zero. -/
def readIndentation (c : Cursor) : Except Fault (Option Nat × Cursor) :=
  match c.peek with
  | some ch =>
    if ch.isDigit then
      if ch == '0' then malformed else .ok (some (ch.toNat - 48), c.next)
    else .ok (none, c)
  | none => .ok (none, c)

/-- How a block scalar ends and how far it is indented, in either order. -/
def readBlockHeader (c : Cursor) : Except Fault (Chomp × Option Nat × Cursor) := do
  let (chomp, size, c) ←
    match chomp? c.peek with
    | some chomp => do
      let (size, c) ← readIndentation c.next
      pure (chomp, size, c)
    | none => do
      let (size, c) ← readIndentation c
      match size, chomp? c.peek with
      | some n, some chomp => pure (chomp, some n, c.next)
      | _, _ => pure (.clip, size, c)
  expect (atWordEnd c.peek)
  return (chomp, size, ← skipComment c)

/-- The empty lines before a block whose indentation is to be found: their breaks, and the widest of
their indentations and of the next line's. -/
def readLeading (widest : Nat) : Nat → Cursor → List Char × Nat × Cursor
  | 0, c => ([], widest, c)
  | budget + 1, c =>
    let c := c.skipSpaces
    let widest := max widest c.column
    match c.lineBreak? with
    | none => ([], widest, c)
    | some (b, c) =>
      let (more, widest, c) := readLeading widest budget c
      (b :: more, widest, c)

/-- The place after the indentation here, or after the part of it that there is. -/
def skipIndentation (indent : Nat) (c : Cursor) : Cursor :=
  let spaces := (c.rest.takeWhile (· == ' ')).length
  c.skip (min spaces (indent - c.column))

/-- The breaks of empty lines, and the place after the indentation of the next line. -/
def readEmptyLines (indent : Nat) : Nat → Cursor → List Char × Cursor
  | 0, c => ([], c)
  | budget + 1, c =>
    let c := skipIndentation indent c
    match c.lineBreak? with
    | none => ([], c)
    | some (b, c) =>
      let (more, c) := readEmptyLines indent budget c
      (b :: more, c)

def isSpaceOrTab : Option Char → Bool
  | some c => c == ' ' || c == '\t'
  | none => false

/-- The lines of a block from a place on, after the breaks of empty lines. -/
def readBlockLines (isFolded : Bool) (chomp : Chomp) (indent : Nat) :
    Nat → List Char → Cursor → List Char × Cursor
  | 0, _, c => ([], c)
  | budget + 1, breaks, c =>
    if c.column == indent && c.peek.isSome then
      let isText := !isSpaceOrTab c.peek
      let (line, c) := c.take fun ch => !isBreak ch
      let (b, c) :=
        match c.lineBreak? with
        | some (b, c) => ([b], c)
        | none => ([], c)
      let (after, c) := readEmptyLines indent (c.rest.length + 1) c
      let start := breaks ++ line
      if c.column == indent && c.peek.isSome then
        let joint :=
          if isFolded && b == ['\n'] && isText && !isSpaceOrTab c.peek then
            (if after.isEmpty then [' '] else [])
          else b
        let (more, c) := readBlockLines isFolded chomp indent budget after c
        (start ++ joint ++ more, c)
      else
        match chomp with
        | .strip => (start, c)
        | .clip => (start ++ b, c)
        | .keep => (start ++ b ++ after, c)
    else
      match chomp with
      | .keep => (breaks, c)
      | _ => ([], c)

/-- A block scalar; `outer` is the indentation around it. -/
def readBlock (isFolded : Bool) (outer : Int) (c : Cursor) : Except Fault (String × Cursor) := do
  let (chomp, size, c) ← readBlockHeader c.next
  let least := (max 1 (outer + 1)).toNat
  let (breaks, indent, c) :=
    match size with
    | none =>
      let (breaks, widest, c) := readLeading 0 (c.rest.length + 1) c
      (breaks, max least widest, c)
    | some n =>
      let indent := least + n - 1
      let (breaks, c) := readEmptyLines indent (c.rest.length + 1) c
      (breaks, indent, c)
  let (text, c) := readBlockLines isFolded chomp indent (c.rest.length + 1) breaks c
  return (String.ofList text, c)

/-! ### Plain scalars -/

def isFlowSign (c : Char) : Bool :=
  c == ',' || c == '[' || c == ']' || c == '{' || c == '}'

/-- The characters of a plain scalar up to the next gap or sign. -/
def plainRun (inFlow : Bool) : List Char → List Char
  | [] => []
  | c :: rest =>
    let ends :=
      atGap (some c) ||
        (c == ':' && (atGap rest.head? || (inFlow && rest.head?.any isFlowSign))) ||
        (inFlow && (isFlowSign c || c == '?'))
    if ends then [] else c :: plainRun inFlow rest

/-- The breaks of empty lines within a plain scalar; `none` if a mark that separates documents starts
a line. -/
def plainBreaks : Nat → Cursor → Option (List Char) × Cursor
  | 0, c => (some [], c)
  | budget + 1, c =>
    let c := c.skipSpaces
    match c.lineBreak? with
    | none => (some [], c)
    | some (b, c) =>
      if c.atDocumentMark then (none, c)
      else
        let (more, c) := plainBreaks budget c
        (more.map (b :: ·), c)

/-- The gap after a part of a plain scalar: its text, if the scalar may go on, whether it holds a line
break, and the place after it. -/
def plainGap (c : Cursor) : List Char × Bool × Cursor :=
  let (spaces, c) := c.take (· == ' ')
  match c.lineBreak? with
  | none => (spaces, false, c)
  | some (b, c) =>
    if c.atDocumentMark then ([], true, c)
    else
      match plainBreaks (c.rest.length + 1) c with
      | (none, c) => ([], true, c)
      | (some breaks, c) => (folded b breaks, true, c)

/-- A plain scalar, with whether a line break follows it. `indent` is the least column of its later
lines outside of flow collections. -/
def readPlain (inFlow : Bool) (indent : Int) : Nat → Cursor → List Char × Bool × Cursor
  | 0, c => ([], false, c)
  | budget + 1, c =>
    let run := plainRun inFlow c.rest
    if c.peek == some '#' || run.isEmpty then ([], false, c)
    else
      let (gap, broke, c) := plainGap (c.skip run.length)
      if gap.isEmpty || c.peek == some '#' || (!inFlow && c.column < indent) then (run, broke, c)
      else
        let (more, brokeLater, c) := readPlain inFlow indent budget c
        if more.isEmpty then (run, broke, c) else (run ++ gap ++ more, brokeLater, c)

end ReviewGate.Yaml
