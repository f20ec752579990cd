/-! Three ways to cut a text into lines: at line feeds alone, as version control counts lines; after
all line ends have been made line feeds; and at every character that breaks a line on a screen. -/
namespace ReviewGate.Text

/-- A line without the carriage return at its end, of which it may have one. -/
def dropReturn : List Char → List Char
  | [] => []
  | [c] => if c = '\r' then [] else [c]
  | c :: rest => c :: dropReturn rest

/-- The lines of a text as version control numbers them: a line ends at each line feed, and what
follows the last one is a line only if it is not empty. -/
def feedLines : List Char → List (List Char)
  | [] => []
  | c :: rest =>
    if c = '\n' then [] :: feedLines rest
    else
      match feedLines rest with
      | [] => [[c]]
      | line :: more => (c :: line) :: more

/-- Every line end, be it a carriage return, a line feed or the two together, made a line feed. -/
def feedNewlines : List Char → List Char
  | [] => []
  | '\r' :: '\n' :: rest => '\n' :: feedNewlines rest
  | c :: rest => (if c = '\r' then '\n' else c) :: feedNewlines rest

/-- A text as it is read from a file: every line end is a line feed. -/
def unified (s : String) : String :=
  String.ofList (feedNewlines s.toList)

/-- The characters that break a line. -/
def isLineBreak (c : Char) : Bool :=
  c == '\n' || c == '\r' || c == '\x0b' || c == '\x0c' || c == '\x1c' || c == '\x1d' ||
    c == '\x1e' || c == '\u0085' || c == '\u2028' || c == '\u2029'

/-- The lines between all line breaks; a carriage return with its line feed is one break, and what
follows the last break is a line only if it is not empty. -/
def brokenLinesFrom (line : List Char) : List Char → List (List Char)
  | [] => if line.isEmpty then [] else [line.reverse]
  | '\r' :: '\n' :: rest => line.reverse :: brokenLinesFrom [] rest
  | c :: rest =>
    if isLineBreak c then line.reverse :: brokenLinesFrom [] rest
    else brokenLinesFrom (c :: line) rest

def brokenLines (s : String) : List String :=
  (brokenLinesFrom [] s.toList).map String.ofList

end ReviewGate.Text
