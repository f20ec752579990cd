import ReviewGate.Forge.Wire
import ReviewGate.Log
import ReviewGate.Workspace.Basic
import ReviewGate.Yaml.Document

/-! The machine that the program runs on: its platform, its files, its clock, the programs that it starts, the
network, and what it has shown and sent so far. -/
namespace ReviewGate

/-- What the program takes from others: the value of a YAML file, or why it has none, and how many levels of
stored JSON there is room for beyond the two of the program's own files. -/
structure Platform where
  yaml : List UInt8 → Except Fault Value
  spareLevels : Nat

namespace Platform

/-- The room for stored JSON. -/
def room (p : Platform) : Json.Room :=
  .levels (p.spareLevels + 2)

def standard : Platform :=
  ⟨Yaml.read, 900⟩

end Platform

/-- How a program that is started ends. -/
inductive ChildOutcome where
  | exited (code : Int) (output errors : String)
  | timedOut
  | notFound
  | forbidden

/-- A program to start: its arguments, the directory, and the seconds it may take. -/
structure Command where
  args : List String
  directory : Value
  timeout : Option Nat

/-- Refuses what the system cannot take: the character with which its texts end, and a directory that is no
path. -/
def Command.check (c : Command) : Except Fault Unit :=
  if c.args.any fun arg => arg.toList.contains '\x00' then .error (.refused .nulInPath)
  else
    match c.directory with
    | .null => .ok ()
    | .str s => if s.toList.contains '\x00' then .error (.refused .nulInPath) else .ok ()
    | .bytes content => if content.contains 0 then .error (.refused .nulInPath) else .ok ()
    | v => .error (.misuse (.notPath v.shortKind))

/-- The state of the machine. `child` is how the next programs end, `budget` belongs to the client
that sends the requests, and `commands` and `requests` are what has been started and sent. -/
structure Runner where
  platform : Platform
  workspace : Workspace
  now : Int
  child : ChildOutcome
  network : Forge.Network
  budget : Forge.Budget
  journal : Journal
  output : String
  errors : String
  commands : List Command
  requests : List Forge.Request

/-- An action on the machine. What it did before it fails is not undone. -/
abbrev Job (α : Type) := ExceptT Fault (StateM Runner) α

namespace Runner

/-- A machine with an empty working directory and nothing on the network. -/
def fresh (now : Int) : Runner where
  platform := .standard
  workspace := .empty
  now := now
  child := .exited 0 "" ""
  network := .down
  budget := .initial now
  journal := .silent
  output := ""
  errors := ""
  commands := []
  requests := []

end Runner

namespace Job

/-- An action that needs nothing of the machine. -/
def ofExcept {α : Type} : Except Fault α → Job α
  | .ok a => pure a
  | .error e => throw e

/-- A use of a value that may be of the wrong kind. -/
def use {α : Type} : Except Misuse α → Job α
  | .ok a => pure a
  | .error m => throw (.misuse m)

def refuse {α : Type} (r : Refusal) : Job α :=
  throw (.refused r)

/-- The result of an action, or its fault if that is of a family. -/
def catching {α : Type} (family : Fault → Bool) (job : Job α) : Job (Except Fault α) := fun s =>
  match job s with
  | (.ok a, s) => (.ok (.ok a), s)
  | (.error e, s) => if family e then (.ok (.error e), s) else (.error e, s)

/-- An action on the files. -/
def disk {α : Type} (d : Workspace.Disk α) : Job α := fun s =>
  match d s.workspace with
  | (result, w) => (result, { s with workspace := w })

def isFile (p : Path) : Job Bool := do
  ofExcept ((← get).workspace.isFile p)

def isDirectory (p : Path) : Job Bool := do
  ofExcept ((← get).workspace.isDirectory p)

def readFile (p : Path) : Job (List UInt8) := do
  ofExcept ((← get).workspace.read p)

def writeFile (p : Path) (content : List UInt8) : Job Unit := do
  let w ← ofExcept ((← get).workspace.write p content)
  modify fun s => { s with workspace := w }

def makeDirectories (p : Path) : Job Unit :=
  disk (Workspace.makeDirectories p)

/-- Shows a text on the standard output. -/
def print (text : String) : Job Unit :=
  modify fun s => { s with output := s.output ++ text }

/-- Shows a text on the error output. -/
def complain (text : String) : Job Unit :=
  modify fun s => { s with errors := s.errors ++ text }

end Job

namespace LogFile

/-- The file with a number after its name. -/
def numbered (path : Path) (n : Nat) : Path :=
  match path.parts.reverse with
  | [] => path
  | last :: before => ⟨path.root, (last ++ "." ++ toString n) :: before |>.reverse⟩

def content? (w : Workspace) (p : Path) : Option (List UInt8) :=
  (w.read p).toOption

/-- The files with the content of one moved to another. -/
def move (w : Workspace) (source target : Path) : Workspace :=
  match content? w source with
  | none => w
  | some content =>
    match w.write target content with
    | .ok w => ((w.delete source).toOption).getD w
    | .error _ => w

/-- Moves the numbered files on by one, the last of them being lost. -/
def shift (path : Path) : Nat → Workspace → Workspace
  | 0, w => w
  | n + 1, w =>
    let w := move w (numbered path (n + 1)) (numbered path (n + 2))
    shift path n w

/-- Adds a line to a log file, after its content has been moved on if the line is too long for
it. -/
def append (f : LogFile) (line : String) (w : Workspace) : Workspace :=
  match content? w f.path with
  | none => w
  | some content =>
    let isFull := 0 < f.maxBytes && f.maxBytes ≤ (content.length + line.length : Nat)
    if isFull && 0 < f.backups then
      let w := move (shift f.path (f.backups.toNat - 1) w) f.path (numbered f.path 1)
      ((w.write f.path (Text.Utf8.encode line)).toOption).getD w
    else ((w.write f.path (content ++ Text.Utf8.encode line)).toOption).getD w

end LogFile

/-- Logs a message, if its level is high enough. -/
def Job.log (level : LogLevel) (source message : String) : Job Unit :=
  modify fun s =>
    if level.weight < s.journal.threshold then s
    else
      let record : LogRecord := ⟨level, source, message⟩
      let console := (s.journal.console.bind (LogLayout.line? · record)).getD ""
      let workspace :=
        match s.journal.file with
        | none => s.workspace
        | some (layout, file) =>
          match LogLayout.line? layout record with
          | none => s.workspace
          | some line => file.append line s.workspace
      { s with errors := s.errors ++ console, workspace := workspace }

/-- Why a program that was started gave no result. -/
inductive ChildFault where
  | timedOut (program : String)
  | notFound (program : String)
  | forbidden (program : String)

def ChildFault.message : ChildFault → String
  | .timedOut program => "Command \x27" ++ program ++ "\x27 timed out after 5 seconds"
  | .notFound program => "[Errno 2] No such file or directory: " ++ Text.quoted program
  | .forbidden program => "[Errno 13] Permission denied: " ++ Text.quoted program

/-- Notes the start of a program. -/
def Job.note (c : Command) : Job Unit :=
  modify fun s => { s with commands := s.commands ++ [c] }

/-- Starts a program and waits for its end: its exit code, its output and its error output. -/
def Job.start (c : Command) : Job (Except ChildFault (Int × String × String)) := do
  match c.args with
  | [] =>
    note c
    throw (.misuse .emptyList)
  | program :: _ =>
    ofExcept c.check
    note c
    match (← get).child with
    | .exited code output errors => return .ok (code, output, errors)
    | .timedOut => return .error (.timedOut program)
    | .notFound => return .error (.notFound program)
    | .forbidden => return .error (.forbidden program)

end ReviewGate
