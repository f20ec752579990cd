/-! The words of a command line as a shell would see them: cut at blanks, with quotes and escapes,
and nothing expanded. -/
namespace ReviewGate.Text.ShellWords

/-- Why a command line has no words. -/
inductive Malformed where
  | unclosedQuote
  | nothingEscaped
  deriving DecidableEq

/-- Where in a command line a reader stands. After an escape it goes back to the quote that the
escape stood in, if it stood in one. -/
inductive Place where
  | outside
  | word
  | quote (mark : Char)
  | escape (within : Option Char)
  deriving DecidableEq

def isGap (c : Char) : Bool :=
  c == ' ' || c == '\t' || c == '\r' || c == '\n'

def isQuote (c : Char) : Bool :=
  c == '\x27' || c == '"'

def finish (word : List Char) (isWord : Bool) (more : List String) : List String :=
  if isWord then String.ofList word.reverse :: more else more

/-- The words from a place on; `word` is the word begun, last character first, and `isWord` says
that there is one, which may be empty if it was quoted. -/
def splitFrom (word : List Char) (isWord : Bool) :
    Place → List Char → Except Malformed (List String)
  | .quote _, [] => .error .unclosedQuote
  | .escape _, [] => .error .nothingEscaped
  | _, [] => .ok (finish word isWord [])
  | .outside, c :: rest =>
    if isGap c then splitFrom [] false .outside rest
    else if c == '\\' then splitFrom [] false (.escape none) rest
    else if isQuote c then splitFrom [] true (.quote c) rest
    else splitFrom [c] true .word rest
  | .word, c :: rest =>
    if isGap c then (splitFrom [] false .outside rest).map (finish word isWord)
    else if c == '\\' then splitFrom word isWord (.escape none) rest
    else if isQuote c then splitFrom word true (.quote c) rest
    else splitFrom (c :: word) true .word rest
  | .quote mark, c :: rest =>
    if c == mark then splitFrom word true .word rest
    else if c == '\\' && mark == '"' then splitFrom word true (.escape (some mark)) rest
    else splitFrom (c :: word) true (.quote mark) rest
  | .escape none, c :: rest => splitFrom (c :: word) true .word rest
  | .escape (some mark), c :: rest =>
    let kept := if c == '\\' || c == mark then word else '\\' :: word
    splitFrom (c :: kept) true (.quote mark) rest

def split (command : String) : Except Malformed (List String) :=
  splitFrom [] false .outside command.toList

end ReviewGate.Text.ShellWords
