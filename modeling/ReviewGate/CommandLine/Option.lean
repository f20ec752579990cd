import ReviewGate.Text.Quoted
import ReviewGate.Text.Search

/-! The options of the command line, and what can be wrong with a command line. -/
namespace ReviewGate.CommandLine

/-- What follows an option: nothing, one value, or values up to the next option. -/
inductive Arity where
  | nothing
  | one
  | many
  deriving DecidableEq

inductive Opt where
  | help
  | config
  | base
  | head
  | files
  | checkout
  | number
  | testsPassed
  | testsFailed
  | run
  | details
  deriving DecidableEq

namespace Opt

def names : Opt → List String
  | help => ["-h", "--help"]
  | config => ["--config"]
  | base => ["--base"]
  | head => ["--head"]
  | files => ["--files"]
  | checkout => ["--repo-dir"]
  | number => ["--pr-number"]
  | testsPassed => ["--tests-passed"]
  | testsFailed => ["--tests-failed"]
  | run => ["--run-id"]
  | details => ["--details-url"]

def arity : Opt → Arity
  | help | testsPassed | testsFailed => .nothing
  | files => .many
  | _ => .one

/-- An option as messages show it. -/
def text (o : Opt) : String :=
  Text.join "/" o.names

end Opt

/-- What the program is asked to do. -/
inductive CommandName where
  | test
  | analyze
  | post
  deriving DecidableEq

namespace CommandName

def all : List CommandName := [test, analyze, post]

def name : CommandName → String
  | test => "test"
  | analyze => "analyze"
  | post => "post"

def ofName? (s : String) : Option CommandName :=
  all.find? fun c => c.name == s

/-- The options that follow a command. -/
def options : CommandName → List Opt
  | test => [.help]
  | analyze =>
    [.help, .base, .head, .files, .checkout, .number, .testsPassed, .testsFailed]
  | post => [.help, .run, .number, .details]

end CommandName

/-- The options before the command. -/
def generalOptions : List Opt := [.help, .config]

/-- What is wrong with a command line. -/
inductive Mistake where
  | ambiguous (word : String) (candidates : List String)
  | valueMissing (o : Opt)
  | valueIgnored (o : Opt) (value : String)
  | notInteger (o : Opt) (value : String)
  | conflict (o other : Opt)
  | unknownCommand (word : String)
  | commandMissing
  | unrecognized (words : List String)
  deriving DecidableEq

namespace Mistake

def aboutOption (o : Opt) (message : String) : String :=
  "argument " ++ o.text ++ ": " ++ message

def message : Mistake → String
  | ambiguous word candidates =>
    "ambiguous option: " ++ word ++ " could match " ++ Text.join ", " candidates
  | valueMissing o => aboutOption o "expected one argument"
  | valueIgnored o value => aboutOption o ("ignored explicit argument " ++ Text.quoted value)
  | notInteger o value => aboutOption o ("invalid int value: " ++ Text.quoted value)
  | conflict o other => aboutOption o ("not allowed with argument " ++ other.text)
  | unknownCommand word =>
    "argument command: invalid choice: " ++ Text.quoted word ++ " (choose from " ++
      Text.join ", " (CommandName.all.map fun c => Text.quoted c.name) ++ ")"
  | commandMissing => "the following arguments are required: command"
  | unrecognized words => "unrecognized arguments: " ++ Text.join " " words

end Mistake

def program : String := "code-review-trainer"

/-- Why a command line leads to nothing: help was asked for, or there is a mistake in the part that
belongs to the program or to a command. -/
inductive Stop where
  | help
  | mistaken (command : Option CommandName) (m : Mistake)
  deriving DecidableEq

namespace Stop

/-- The exit code of the program. -/
def code : Stop → Nat
  | help => 0
  | mistaken _ _ => 2

/-- What is said about a mistake. -/
def text : Stop → String
  | help => ""
  | mistaken command m =>
    let speaker :=
      match command with
      | none => program
      | some c => program ++ " " ++ c.name
    speaker ++ ": error: " ++ m.message

end Stop

end ReviewGate.CommandLine
