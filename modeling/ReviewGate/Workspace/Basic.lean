import ReviewGate.Fault
import ReviewGate.Workspace.Path

/-! The files and directories that actions read and write, below a working directory. The directory
of every file is there too. -/
namespace ReviewGate

/-- What a place holds. -/
inductive Entry where
  | directory
  | file (content : List UInt8)
  deriving DecidableEq

/-- The names from the working directory to a place. Places above it start with steps up, places
elsewhere with the root. -/
abbrev Location := List String

/-- Every place that holds something; no place is listed twice. -/
structure Workspace where
  entries : List (Location × Entry)

namespace Workspace

def empty : Workspace := ⟨[]⟩

/-- Whether a place is a directory whatever has been written: the working directory, those above it
and the root. -/
def isFixed (place : Location) : Bool :=
  place.all (· == "..") || place == ["/"]

def lookup (place : Location) : List (Location × Entry) → Option Entry
  | [] => none
  | (p, e) :: entries => if p = place then some e else lookup place entries

def entryAt? (w : Workspace) (place : Location) : Option Entry :=
  if isFixed place then some .directory else lookup place w.entries

def replace (place : Location) (e : Entry) : List (Location × Entry) → List (Location × Entry)
  | [] => [(place, e)]
  | (p, old) :: entries => if p = place then (p, e) :: entries else (p, old) :: replace place e entries

/-- The workspace with something put at a place. -/
def put (w : Workspace) (place : Location) (e : Entry) : Workspace :=
  ⟨replace place e w.entries⟩

/-- The place one step up. -/
def up (place : Location) : Location :=
  if place.all (· == "..") then place ++ [".."] else if place == ["/"] then place else place.dropLast

/-- The most bytes that a name may have. -/
def nameLimit : Nat := 255

/-- The place that names lead to. All places on the way must be directories; the last one need not
hold anything. -/
def walk (w : Workspace) (place : Location) : List String → Except StorageProblem Location
  | [] => .ok place
  | part :: more =>
    match w.entryAt? place with
    | none => .error .missing
    | some (.file _) => .error .notDirectory
    | some .directory =>
      if part = ".." then walk w (up place) more
      else if nameLimit < part.utf8ByteSize then .error .nameTooLong
      else walk w (place ++ [part]) more

def locate (w : Workspace) (p : Path) : Except StorageProblem Location :=
  w.walk (if p.root = "" then [] else ["/"]) p.parts

/-- A refusal of the file system as a fault about a path. -/
def refused {α : Type} (p : Path) : Except StorageProblem α → Except Fault α
  | .ok a => .ok a
  | .error problem => .error (.storage problem p.text)

/-- What a path leads to, if it leads to anything. -/
def status (w : Workspace) (p : Path) : Except Fault (Option Entry) :=
  if p.hasNul then .ok none
  else
    match w.locate p with
    | .ok place => .ok (w.entryAt? place)
    | .error .nameTooLong => .error (.storage .nameTooLong p.text)
    | .error _ => .ok none

def isFile (w : Workspace) (p : Path) : Except Fault Bool :=
  (w.status p).map fun e =>
    match e with
    | some (.file _) => true
    | _ => false

def isDirectory (w : Workspace) (p : Path) : Except Fault Bool :=
  (w.status p).map fun e => e == some .directory

/-- The bytes of a file. -/
def read (w : Workspace) (p : Path) : Except Fault (List UInt8) :=
  if p.hasNul then .error (.refused .nulInPath)
  else
    refused p do
      match w.entryAt? (← w.locate p) with
      | some (.file content) => .ok content
      | some .directory => .error .directory
      | none => .error .missing

/-- The workspace after a file has been written, whether it was there before or not. -/
def write (w : Workspace) (p : Path) (content : List UInt8) : Except Fault Workspace :=
  if p.hasNul then .error (.refused .nulInPath)
  else
    refused p do
      let place ← w.locate p
      match w.entryAt? place with
      | some .directory => .error .directory
      | _ => .ok (w.put place (.file content))

/-- The workspace with a new directory. -/
def makeDirectory (w : Workspace) (p : Path) : Except StorageProblem Workspace := do
  let place ← w.locate p
  match w.entryAt? place with
  | some _ => .error .exists
  | none => .ok (w.put place .directory)

/-- Whether a directory holds anything. -/
def hasChildren (w : Workspace) (p : Path) : Bool :=
  match w.locate p with
  | .ok place => w.entries.any fun (q, _) => q.dropLast == place && q.length == place.length + 1
  | .error _ => false

/-- The outcome of an action together with the workspace that it leaves behind. -/
abbrev Disk (α : Type) := ExceptT Fault (StateM Workspace) α

/-- Makes a directory, and those on the way to it that are missing, unless they are there already.
The parts of the path are given last one first. -/
def makeDirectoriesFrom (root : String) : List String → Disk Unit
  | [] => pure ()
  | part :: before => do
    let p : Path := ⟨root, (part :: before).reverse⟩
    match (← get).makeDirectory p with
    | .ok w => set w
    | .error .missing =>
      makeDirectoriesFrom root before
      match (← get).makeDirectory p with
      | .ok w => set w
      | .error problem => unlessDirectory p problem
    | .error problem => unlessDirectory p problem
where
  unlessDirectory (p : Path) (problem : StorageProblem) : Disk Unit := do
    match problem with
    | .missing => throw (.storage .missing p.text)
    | _ => if !(← (← get).isDirectory p) then throw (.storage problem p.text)

def makeDirectories (p : Path) : Disk Unit :=
  if p.hasNul then throw (.refused .nulInPath) else makeDirectoriesFrom p.root p.parts.reverse

/-- The workspace with a file or directory put where names lead to from a place, together with the
directories on the way. -/
def install (w : Workspace) (place : Location) (e : Entry) : List String → Workspace
  | [] => w
  | [name] => w.put (place ++ [name]) e
  | name :: more =>
    let next := place ++ [name]
    install (if (w.entryAt? next).isSome then w else w.put next .directory) next e more

/-- The workspace without a place and all that is below it. -/
def delete (w : Workspace) (p : Path) : Except Fault Workspace :=
  refused p do
    let place ← w.locate p
    match w.entryAt? place with
    | some _ => .ok ⟨w.entries.filter fun (q, _) => !place.isPrefixOf q⟩
    | none => .error .missing

/-- All files below the working directory and those directories that hold nothing. -/
def listing (w : Workspace) : List (String × Entry) :=
  w.entries.filterMap fun (place, e) =>
    let shown := (Text.join "/" place, e)
    let isBelow (q : Location) := q.length == place.length + 1 && place.isPrefixOf q
    if place.head? == some ".." || place.head? == some "/" then none
    else if e == .directory && w.entries.any fun (q, _) => isBelow q then none
    else some shown

end Workspace

end ReviewGate
