import ReviewGate.CommandLine.Option
import ReviewGate.Text.DecimalDigit

/-! The words of a command line. A word that starts with a dash is an option if it is the name of one
or the start of the name of exactly one; a value may follow after an equals sign. Numbers and words
with spaces are never options, and neither is anything after two dashes. -/
namespace ReviewGate.CommandLine

inductive Word where
  | plain (s : String)
  | separator
  | option (o : Opt) (value : Option String)
  | unknown (s : String)
  deriving DecidableEq

namespace Word

/-- The names of options with the option for each. -/
def namesOf (options : List Opt) : List (String × Opt) :=
  options.flatMap fun o => o.names.map fun name => (name, o)

def named? (options : List Opt) (s : String) : Option Opt :=
  ((namesOf options).find? fun (name, _) => name == s).map Prod.snd

/-- Name and value on the two sides of the first equals sign. -/
def cutValue (s : String) : String × Option String :=
  match Text.cut? '=' s.toList with
  | some (name, value) => (String.ofList name, some (String.ofList value))
  | none => (s, none)

/-- What is ignored after the short name of help, of which there may be several in a row. `isValue`
says that an equals sign came before. -/
def ignoredAfterHelp (isValue : Bool) : List Char → Option String
  | [] => if isValue then some "" else none
  | c :: rest =>
    if isValue || c == '-' then some (String.ofList (c :: rest))
    else if c == 'h' then
      match rest with
      | '=' :: value => some (String.ofList value)
      | _ => ignoredAfterHelp false rest
    else none

/-- All digits, of any script. -/
def isNumeral (cs : List Char) : Bool :=
  cs.all fun c => (Text.digitValue? c).isSome

/-- Whether the characters after a dash are a number: digits, or digits with a point before the last
ones. A line feed may follow. -/
def isNumber (cs : List Char) : Bool :=
  let cs := if cs.getLast? == some '\n' then cs.dropLast else cs
  (!cs.isEmpty && isNumeral cs) ||
    match Text.cut? '.' cs with
    | some (whole, fraction) => isNumeral whole && !fraction.isEmpty && isNumeral fraction
    | none => false

/-- A word with a dash that is not the name of an option as it stands. -/
def ofOther (options : List Opt) (s : String) : Except Mistake Word :=
  let (start, value) := cutValue s
  let candidates :=
    if Text.startsWith s "--" then
      ((namesOf options).filter fun (name, _) => Text.startsWith name start).map
        fun (name, o) => (name, o, value)
    else
      ((namesOf options).filter fun (name, _) => name.toList == s.toList.take 2).map
        fun (name, o) => (name, o, ignoredAfterHelp false (s.toList.drop 2))
  match candidates with
  | [(_, o, value)] => .ok (.option o value)
  | _ :: _ => .error (.ambiguous s (candidates.map Prod.fst))
  | [] => .ok (if isNumber (s.toList.drop 1) || s.toList.contains ' ' then .plain s else .unknown s)

/-- A word before the separator. -/
def ofText (options : List Opt) (s : String) : Except Mistake Word :=
  if !Text.startsWith s "-" || s = "-" then .ok (.plain s)
  else
    match named? options s with
    | some o => .ok (.option o none)
    | none =>
      match cutValue s with
      | (name, some value) =>
        match named? options name with
        | some o => .ok (.option o (some value))
        | none => ofOther options s
      | (_, none) => ofOther options s

/-- The words of a command line. -/
def ofTexts (options : List Opt) : List String → Except Mistake (List Word)
  | [] => .ok []
  | s :: more =>
    if s = "--" then .ok (.separator :: more.map .plain)
    else do return (← ofText options s) :: (← ofTexts options more)

/-- The plain words at the start, and every other word together with the plain words after it. -/
def group : List Word → List String × List (Word × List String)
  | [] => ([], [])
  | .plain s :: more => ((s :: (group more).1), (group more).2)
  | w :: more => ([], (w, (group more).1) :: (group more).2)

end Word

end ReviewGate.CommandLine
