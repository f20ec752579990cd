import ReviewGate.CommandLine.Word
import ReviewGate.Reviewer.Stages

/-! What a command line asks for. -/
namespace ReviewGate.CommandLine

/-- A command with its options. The gate of an analysis says whether the tests passed, if the command
line says it. -/
inductive Task where
  | test
  | analyze (gate : Option Bool) (change : ChangeSelection) (number : Option Int)
  | post (run number : Option Int) (details : Option String)

/-- What to do, and the file with the settings. -/
structure Invocation where
  config : Option String
  task : Task

/-- The values of options as far as they have been read. Of an option that is given again the last
value counts. -/
structure Given where
  base : Option String
  head : Option String
  files : Option (List String)
  checkout : String
  number : Option Int
  gate : Option Bool
  run : Option Int
  details : Option String

namespace Given

def empty : Given := ⟨none, none, none, ".", none, none, none, none⟩

def change (g : Given) : ChangeSelection :=
  ⟨g.checkout, g.files, g.base, g.head⟩

def task (g : Given) : CommandName → Task
  | .test => .test
  | .analyze => .analyze g.gate g.change g.number
  | .post => .post g.run g.number g.details

def integer (o : Opt) (value : String) : Except Mistake Int :=
  match Number.readInt value with
  | .ok n => .ok n
  | .error _ => .error (.notInteger o value)

/-- The gate can be set in one way only. -/
def setGate (g : Given) (passed : Bool) (o other : Opt) : Except Mistake Given :=
  if g.gate = some !passed then .error (.conflict o other) else .ok { g with gate := some passed }

/-- An option with one value. -/
def setOne (g : Given) (o : Opt) (value : String) : Except Mistake Given :=
  match o with
  | .base => .ok { g with base := some value }
  | .head => .ok { g with head := some value }
  | .checkout => .ok { g with checkout := value }
  | .details => .ok { g with details := some value }
  | .number => (integer o value).map fun n => { g with number := some n }
  | .run => (integer o value).map fun n => { g with run := some n }
  | _ => .ok g

/-- An option without a value. -/
def setBare (g : Given) (o : Opt) : Except Mistake Given :=
  match o with
  | .testsPassed => g.setGate true .testsPassed .testsFailed
  | .testsFailed => g.setGate false .testsFailed .testsPassed
  | _ => .ok g

end Given

/-- An option with a value after an equals sign and plain words behind it: what is given then, and the
words that do not belong to the option. -/
def readOption (g : Given) (o : Opt) (value : Option String) (following : List String) :
    Except Mistake (Given × List String) :=
  match o.arity, value, following with
  | .nothing, some v, _ => .error (.valueIgnored o v)
  | .nothing, none, rest => do return (← g.setBare o, rest)
  | .one, some v, rest => do return (← g.setOne o v, rest)
  | .one, none, v :: rest => do return (← g.setOne o v, rest)
  | .one, none, [] => .error (.valueMissing o)
  | .many, some v, rest => .ok ({ g with files := some [v] }, rest)
  | .many, none, vs => .ok ({ g with files := some vs }, [])

/-- The options of a command, and the words that are no part of them. -/
def readGroups (c : CommandName) (g : Given) :
    List (Word × List String) → Except Stop (Given × List String)
  | [] => .ok (g, [])
  | (.option o value, following) :: more =>
    if o = .help && value.isNone then .error .help
    else
      match readOption g o value following with
      | .error m => .error (.mistaken (some c) m)
      | .ok (g, extra) => do
        let (g, extras) ← readGroups c g more
        return (g, extra ++ extras)
  | (.separator, following) :: more => do
    let (g, extras) ← readGroups c g more
    return (g, "--" :: following ++ extras)
  | (.unknown s, following) :: more => do
    let (g, extras) ← readGroups c g more
    return (g, s :: following ++ extras)
  | (.plain s, following) :: more => do
    let (g, extras) ← readGroups c g more
    return (g, s :: following ++ extras)

/-- The words after a command. -/
def readCommand (c : CommandName) (args : List String) : Except Stop (Task × List String) := do
  let words ← (Word.ofTexts c.options args).mapError (.mistaken (some c))
  let (extras, groups) := Word.group words
  let (g, more) ← readGroups c .empty groups
  return (g.task c, extras ++ more)

/-- A mistake in the part of a command line that belongs to no command. -/
def mistake {α : Type} (m : Mistake) : Except Stop α :=
  .error (.mistaken none m)

/-- The command with the name that a word gives, and the words after it. -/
def readTask (config : Option String) (extras : List String) (name : String) (args : List String) :
    Except Stop Invocation :=
  match CommandName.ofName? name with
  | none => mistake (.unknownCommand name)
  | some c => do
    let (task, more) ← readCommand c args
    match extras ++ more with
    | [] => return ⟨config, task⟩
    | words => mistake (.unrecognized words)

/-- The words of a command line, each with the text that it was read from. -/
def readWords (config : Option String) (extras : List String) :
    List (Word × String) → Except Stop Invocation
  | [] => mistake .commandMissing
  | (.plain name, _) :: more => readTask config extras name (more.map Prod.snd)
  | [(.separator, _)] => mistake .commandMissing
  | (.separator, s) :: more => readTask config extras s (more.map Prod.snd)
  | (.unknown s, _) :: more => readWords config (extras ++ [s]) more
  | (.option .config (some path), _) :: more => readWords (some path) extras more
  | (.option .config none, _) :: (.plain path, _) :: more => readWords (some path) extras more
  | (.option .config none, _) :: _ => mistake (.valueMissing .config)
  | (.option .help none, _) :: _ => .error .help
  | (.option o value, _) :: _ => mistake (.valueIgnored o (value.getD ""))

/-- What a command line asks for. -/
def read (args : List String) : Except Stop Invocation := do
  let words ← (Word.ofTexts generalOptions args).mapError (.mistaken none)
  readWords none [] (words.zip args)

end ReviewGate.CommandLine
