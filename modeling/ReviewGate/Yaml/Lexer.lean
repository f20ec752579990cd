import ReviewGate.Yaml.Token

/-! Cutting a YAML text into tokens. What opens and closes a block is told by columns; that a scalar or
collection was a key is known only at the colon after it, so the places where a key may have started
are kept until then. -/
namespace ReviewGate.Yaml

/-- A place where a key may have started: the number of tokens before it, whether it must be a key, and
where in the text it is. -/
structure Candidate where
  place : Nat
  isRequired : Bool
  index : Nat
  line : Nat
  column : Nat

/-- A text that is being cut into tokens. `depth` is the number of open flow collections, `indent` the
column of the innermost block, which is -1 outside of all, and `outer` those of the blocks around it.
There is at most one candidate for each depth. -/
structure Lexer where
  cursor : Cursor
  tokens : Array Token
  depth : Nat
  indent : Int
  outer : List Int
  allowKey : Bool
  candidates : List (Nat × Candidate)

namespace Lexer

def start (cs : List Char) : Lexer where
  cursor := .start cs
  tokens := #[]
  depth := 0
  indent := -1
  outer := []
  allowKey := true
  candidates := []

def push (l : Lexer) (t : Token) : Lexer :=
  { l with tokens := l.tokens.push t }

def inFlow (l : Lexer) : Bool := l.depth != 0

/-- Spaces, comments and line breaks before a token. After a line break a key may start. -/
def skipGap : Nat → Lexer → Lexer
  | 0, l => l
  | budget + 1, l =>
    let c := l.cursor.skipSpaces
    let c := if c.peek == some '#' then c.skipLine else c
    match c.lineBreak? with
    | none => { l with cursor := c }
    | some (_, c) => skipGap budget { l with cursor := c, allowKey := l.allowKey || !l.inFlow }

def skipMark (l : Lexer) : Lexer :=
  if l.cursor.index == 0 && l.cursor.peek == some '\uFEFF' then { l with cursor := l.cursor.next } else l

/-- The most characters between the start of a key and its colon. -/
def keyLimit : Nat := 1024

/-- Whether a candidate can no longer be a key: it is in another line or too far away. -/
def isStale (l : Lexer) (k : Candidate) : Bool :=
  k.line != l.cursor.line || keyLimit < l.cursor.index - k.index

def dropStale (l : Lexer) : Except Fault Lexer := do
  expect !(l.candidates.any fun (_, k) => k.isRequired && l.isStale k)
  return { l with candidates := l.candidates.filter fun (_, k) => !l.isStale k }

/-- Gives up the candidate of the present depth. -/
def dropCandidate (l : Lexer) : Except Fault Lexer := do
  expect !(l.candidates.any fun (d, k) => d == l.depth && k.isRequired)
  return { l with candidates := l.candidates.filter fun (d, _) => d != l.depth }

/-- Keeps the present place as a candidate, if a key may start here. -/
def saveCandidate (l : Lexer) : Except Fault Lexer := do
  if l.allowKey then
    let l ← l.dropCandidate
    let isRequired := !l.inFlow && l.indent == l.cursor.column
    let k : Candidate :=
      ⟨l.tokens.size, isRequired, l.cursor.index, l.cursor.line, l.cursor.column⟩
    return { l with candidates := (l.depth, k) :: l.candidates }
  else return l

/-- Closes the blocks that are indented further than a column. -/
def closeBlocks (column : Int) : List Int → Lexer → Lexer
  | [], l => l
  | before :: outer, l =>
    if column < l.indent then
      closeBlocks column outer
        { l with tokens := l.tokens.push .blockEnd, indent := before, outer := outer }
    else l

def unwind (column : Int) (l : Lexer) : Lexer :=
  if l.inFlow then l else closeBlocks column l.outer l

/-- Opens a block at a column, unless one is open there. The token that opens it stands at a place
among the tokens. -/
def openBlock (column place : Nat) (t : Token) (l : Lexer) : Lexer :=
  if l.indent < column then
    { l with
      indent := column, outer := l.indent :: l.outer, tokens := l.tokens.insertIdxIfInBounds place t }
  else l

def openHere (t : Token) (l : Lexer) : Lexer :=
  l.openBlock l.cursor.column l.tokens.size t

/-- A token of so many characters. -/
def sign (l : Lexer) (count : Nat) (t : Token) : Lexer :=
  { l with cursor := l.cursor.skip count, tokens := l.tokens.push t }

/-- The end of all blocks, before a mark that separates documents. -/
def endBlocks (l : Lexer) : Except Fault Lexer := do
  let l ← (l.unwind (-1)).dropCandidate
  return { l with allowKey := false }

def documentMark (t : Token) (l : Lexer) : Except Fault Lexer := do
  return (← l.endBlocks).sign 3 t

def directive (l : Lexer) : Except Fault Lexer := do
  let l ← l.endBlocks
  let (d, c) ← readDirective l.cursor
  return { l with cursor := c, tokens := l.tokens.push (.directive d) }

def openFlow (t : Token) (l : Lexer) : Except Fault Lexer := do
  let l ← l.saveCandidate
  return { l with depth := l.depth + 1, allowKey := true }.sign 1 t

/-- A closing bracket without an opening one is refused. -/
def closeFlow (t : Token) (l : Lexer) : Except Fault Lexer := do
  expect l.inFlow
  let l ← l.dropCandidate
  return { l with depth := l.depth - 1, allowKey := false }.sign 1 t

def flowEntry (l : Lexer) : Except Fault Lexer := do
  let l ← { l with allowKey := true }.dropCandidate
  return l.sign 1 .flowEntry

def blockEntry (l : Lexer) : Except Fault Lexer := do
  expect (l.inFlow || l.allowKey)
  let l := if l.inFlow then l else l.openHere .blockSequenceStart
  let l ← { l with allowKey := true }.dropCandidate
  return l.sign 1 .blockEntry

def explicitKey (l : Lexer) : Except Fault Lexer := do
  expect (l.inFlow || l.allowKey)
  let l := if l.inFlow then l else l.openHere .blockMappingStart
  let l ← { l with allowKey := !l.inFlow }.dropCandidate
  return l.sign 1 .key

/-- The colon before a value: what started at the candidate of this depth was its key. -/
def value (l : Lexer) : Except Fault Lexer := do
  match l.candidates.find? fun (d, _) => d == l.depth with
  | some (_, k) =>
    let l :=
      { l with
        candidates := l.candidates.filter fun (d, _) => d != l.depth
        tokens := l.tokens.insertIdxIfInBounds k.place .key
        allowKey := false }
    let l := if l.inFlow then l else l.openBlock k.column k.place .blockMappingStart
    return l.sign 1 .value
  | none =>
    expect (l.inFlow || l.allowKey)
    let l := if l.inFlow then l else l.openHere .blockMappingStart
    let l ← { l with allowKey := !l.inFlow }.dropCandidate
    return l.sign 1 .value

/-- A token that carries a text and may be a key or start one. -/
def carrying {α : Type} (read : Cursor → Except Fault (α × Cursor)) (token : α → Token) (l : Lexer) :
    Except Fault Lexer := do
  let l ← l.saveCandidate
  let (a, c) ← read l.cursor
  return { l with allowKey := false, cursor := c, tokens := l.tokens.push (token a) }

def quoted (isDouble : Bool) : Lexer → Except Fault Lexer :=
  carrying
    (fun c =>
      (readQuoted isDouble (c.rest.length + 1) c.next).map fun (text, c) => (String.ofList text, c))
    (.scalar · false)

def block (isFolded : Bool) (l : Lexer) : Except Fault Lexer := do
  let l ← { l with allowKey := true }.dropCandidate
  let (text, c) ← readBlock isFolded l.indent l.cursor
  return { l with cursor := c, tokens := l.tokens.push (.scalar text false) }

def plain (l : Lexer) : Except Fault Lexer := do
  let l ← l.saveCandidate
  let (text, broke, c) := readPlain l.inFlow (l.indent + 1) (l.cursor.rest.length + 1) l.cursor
  return { l with
    allowKey := broke, cursor := c, tokens := l.tokens.push (.scalar (String.ofList text) true) }

/-- Whether a plain scalar starts here. -/
def startsPlain (l : Lexer) : Bool :=
  let c := l.cursor
  match c.peek with
  | none => false
  | some ch =>
    !(atGap (some ch) || "-?:,[]#&*!|>\x27\"%@\x60\x7b\x7d".toList.contains ch) ||
      (!atGap (c.peekAt 1) && (ch == '-' || (!l.inFlow && (ch == '?' || ch == ':'))))

/-- The next token, together with those that its place calls for. -/
def step (l : Lexer) (ch : Char) : Except Fault Lexer :=
  let c := l.cursor
  if ch == '%' && c.column == 0 then l.directive
  else if ch == '-' && c.column == 0 && c.atDocumentMark then l.documentMark .documentStart
  else if ch == '.' && c.column == 0 && c.atDocumentMark then l.documentMark .documentEnd
  else if ch == '[' then l.openFlow .flowSequenceStart
  else if ch == '{' then l.openFlow .flowMappingStart
  else if ch == ']' then l.closeFlow .flowSequenceEnd
  else if ch == '}' then l.closeFlow .flowMappingEnd
  else if ch == ',' then l.flowEntry
  else if ch == '-' && atGap (c.peekAt 1) then l.blockEntry
  else if ch == '?' && (l.inFlow || atGap (c.peekAt 1)) then l.explicitKey
  else if ch == ':' && (l.inFlow || atGap (c.peekAt 1)) then l.value
  else if ch == '*' then l.carrying readName .alias
  else if ch == '&' then l.carrying readName .anchor
  else if ch == '!' then l.carrying readTag .tag
  else if ch == '|' && !l.inFlow then l.block false
  else if ch == '>' && !l.inFlow then l.block true
  else if ch == '\x27' then l.quoted false
  else if ch == '"' then l.quoted true
  else if l.startsPlain then l.plain
  else malformed

/-- All tokens from a place on. Every step takes at least one character, so a budget of as many steps
as there are characters is never used up. -/
def run : Nat → Lexer → Except Fault (Array Token)
  | 0, _ => malformed
  | budget + 1, l => do
    let l ← (skipGap (l.cursor.rest.length + 1) l.skipMark).dropStale
    let l := l.unwind l.cursor.column
    match l.cursor.peek with
    | none => return (← l.endBlocks).tokens
    | some ch => run budget (← l.step ch)

end Lexer

/-- The characters that a YAML text may hold. -/
def isAllowed (c : Char) : Bool :=
  c == '\t' || c == '\n' || c == '\r' || (0x20 ≤ c.toNat && c.toNat ≤ 0x7E) || c == '\u0085' ||
    (0xA0 ≤ c.toNat && c.toNat ≤ 0xFFFD) || 0x10000 ≤ c.toNat

/-- The tokens of a text. -/
def tokens (text : String) : Except Fault (List Token) := do
  let cs := text.toList
  expect (cs.all isAllowed)
  return (← Lexer.run (cs.length + 2) (.start cs)).toList

end ReviewGate.Yaml
