import ReviewGate.Text.Capital
import ReviewGate.Text.Search
import ReviewGate.Value.Basic
import ReviewGate.Workspace.Path

/-! The log: levels, the layout of its lines, and where they go. -/
namespace ReviewGate

/-- How serious a message is. -/
inductive LogLevel where
  | debug
  | info
  | warning
  | error
  | critical
  deriving DecidableEq

namespace LogLevel

def all : List LogLevel := [debug, info, warning, error, critical]

def name : LogLevel → String
  | debug => "DEBUG"
  | info => "INFO"
  | warning => "WARNING"
  | error => "ERROR"
  | critical => "CRITICAL"

def weight : LogLevel → Nat
  | debug => 10
  | info => 20
  | warning => 30
  | error => 40
  | critical => 50

/-- The level that a text names in letters of any case. -/
def ofText? (s : String) : Option LogLevel :=
  all.find? fun level => level.name == Text.capitals s

end LogLevel

/-- A message with its level and the name of the part of the program that it comes from. -/
structure LogRecord where
  level : LogLevel
  source : String
  message : String

namespace LogLayout

/-- A place for a part of a record: its name, the flags, and the least and greatest widths. -/
structure Slot where
  name : String
  flags : List Char
  width : Option Nat
  precision : Option Nat
  kind : Char
  deriving DecidableEq

def isWord (c : Char) : Bool :=
  c.isAlphanum || c == '_' || 127 < c.toNat

def isFlag (c : Char) : Bool :=
  c == '#' || c == '0' || c == '+' || c == ' ' || c == '-'

def kinds : List Char := "diouxefgcrsa%".toList

/-- A number at the start, if there is one. -/
def number? (cs : List Char) : Option Nat × List Char :=
  match cs.takeWhile Char.isDigit with
  | [] => (none, cs)
  | digits => (some (Nat.ofDigitChars 10 digits 0), cs.dropWhile Char.isDigit)

/-- What follows the sign that opens a slot, if it is the rest of one. -/
def slot? (cs : List Char) : Option (Slot × List Char) := do
  let .cons '(' rest := cs | none
  let name := rest.takeWhile isWord
  let .cons ')' rest := rest.dropWhile isWord | none
  if name.isEmpty then none
  let flags := rest.takeWhile isFlag
  let (width, rest) := number? (rest.dropWhile isFlag)
  let (precision, rest) :=
    match rest with
    | '.' :: digits =>
      match number? digits with
      | (some n, after) => (some n, after)
      | (none, _) => (none, rest)
    | _ => (none, rest)
  match rest with
  | kind :: rest =>
    if kinds.contains kind.toLower then some (⟨String.ofList name, flags, width, precision, kind⟩, rest)
    else none
  | [] => none

/-- Whether a layout has a slot; one without any is refused. -/
def hasSlot : List Char → Bool
  | [] => false
  | c :: rest => (c == '%' && (slot? rest).isSome) || hasSlot rest

/-- The part of a record with a name. The time is not shown. -/
def part? (r : LogRecord) : String → Option String
  | "message" => some r.message
  | "levelname" => some r.level.name
  | "levelno" => some (toString r.level.weight)
  | "name" => some r.source
  | "asctime" => some "<time>"
  | "module" => (Text.pieces '.' r.source.toList).getLast?.map String.ofList
  | "filename" =>
    (Text.pieces '.' r.source.toList).getLast?.map fun last => String.ofList last ++ ".py"
  | "threadName" => some "MainThread"
  | "processName" => some "MainProcess"
  | _ => none

/-- A text cut and filled up as a slot says. -/
def fill (s : Slot) (text : List Char) : List Char :=
  let text := (s.precision.map text.take).getD text
  let gap := List.replicate (s.width.getD 0 - text.length) ' '
  if s.flags.contains '-' then text ++ gap else gap ++ text

/-- A layout with the parts of a record put into its slots; `none` if it asks for something else.
Each slot takes at least one character of the layout, whose length is the budget. -/
def fillFrom (r : LogRecord) : Nat → List Char → Option (List Char)
  | 0, _ => some []
  | _ + 1, [] => some []
  | budget + 1, c :: rest =>
    if c != '%' then (fillFrom r budget rest).map (c :: ·)
    else
      match rest with
      | '%' :: rest => (fillFrom r budget rest).map ('%' :: ·)
      | _ => do
        let (slot, rest) ← slot? rest
        let text ← part? r slot.name
        let more ← fillFrom r budget rest
        return fill slot text.toList ++ more

/-- The layout of an empty text. -/
def plain : String := "%(message)s"

/-- The layout of lines when nothing is said. -/
def standard : String := "%(asctime)s - %(name)s - %(levelname)s - %(message)s"

/-- The line of a record in a layout. -/
def line? (layout : String) (r : LogRecord) : Option String :=
  (fillFrom r (layout.length + 1) layout.toList).map fun cs => String.ofList cs ++ "\n"

end LogLayout

/-- A file that log lines are added to. When it would grow beyond `maxBytes` its content is moved on to
a row of numbered files, of which there are at most `backups`. -/
structure LogFile where
  path : Path
  maxBytes : Int
  backups : Int

/-- Where log lines go, and the least level that is logged. -/
structure Journal where
  threshold : Nat
  console : Option String
  file : Option (String × LogFile)

/-- Before anything is set up, only warnings count, and no line is shown. -/
def Journal.silent : Journal := ⟨30, none, none⟩

end ReviewGate
