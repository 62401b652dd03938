import CellMachine.Source.Program

/-! # Storage

The files and directories that paths lead to, seen from the directory in which a program works. A
path is followed step by step and every step is taken from a directory: `.` stays in place, `..`
goes up, any other step goes down to the entry of that name. Of what lies outside the working
directory only the directories above it are there at the start.
-/

namespace CellMachine

/-- A directory that exists whatever is stored. -/
inductive Origin where
  /-- The directory above all others, which is above itself. -/
  | root
  /-- The directory that many levels above the working directory. -/
  | above (levels : Nat)
  deriving DecidableEq, Repr

/-- A place for a file or a directory: the names that lead down to it from an origin, the last
name first. -/
structure Place where
  origin : Origin
  names : List String := []
  deriving DecidableEq, Repr

namespace Place

def parent : Place → Place
  | ⟨origin, _ :: names⟩ => ⟨origin, names⟩
  | ⟨.above levels, []⟩ => ⟨.above (levels + 1), []⟩
  | ⟨.root, []⟩ => ⟨.root, []⟩

def child (place : Place) (name : String) : Place :=
  { place with names := name :: place.names }

def start (path : String) : Place :=
  ⟨if path.toList.head? = some '/' then .root else .above 0, []⟩

end Place

inductive Entry where
  | file (content : List UInt8)
  | directory
  deriving DecidableEq, Repr

structure Storage where
  entries : List (Place × Entry) := []
  deriving Repr

namespace Storage

def pathLimit : Nat := 4095

def nameLimit : Nat := 255

def steps (path : String) : List String :=
  ((path.toList.splitOn '/').filter (· ≠ [])).map String.ofList

def entry? (s : Storage) (place : Place) : Option Entry :=
  if place.names = [] then some .directory else s.entries.lookup place

/-- Takes a step of a path. Whether something stands in the place it leads to is left open. -/
def step (s : Storage) (place : Place) (name : String) : Except OpenProblem Place :=
  match s.entry? place with
  | none => .error .missing
  | some (.file _) => .error .notDirectory
  | some .directory =>
    if name = "." then .ok place
    else if name = ".." then .ok place.parent
    else if name.utf8ByteSize ≤ nameLimit then .ok (place.child name)
    else .error .nameTooLong

/-- The place that a path leads to, which may be free. -/
def locate (s : Storage) (path : String) : Except OpenProblem Place :=
  if path.toList.contains '\x00' then .error .invalidName
  else if path = "" then .error .missing
  else if pathLimit < path.utf8ByteSize then .error .nameTooLong
  else (steps path).foldlM s.step (.start path)

/-- The place that a path leads to, which has to be a directory if a slash ends the path. -/
def locateFile (s : Storage) (path : String) : Except OpenProblem Place := do
  let place ← s.locate path
  if path.toList.getLast? = some '/' then s.step place "." else .ok place

def find (s : Storage) (path : String) : Source.File :=
  match s.locateFile path with
  | .error problem => .unopened problem
  | .ok place =>
    match s.entry? place with
    | none => .unopened .missing
    | some .directory => .directory
    | some (.file content) => .text content

/-- Stores a file under a path. Nothing changes where the path leads nowhere or to a directory. -/
def writeFile (s : Storage) (path : String) (content : List UInt8) : Storage :=
  match s.locateFile path with
  | .error _ => s
  | .ok place =>
    if s.entry? place = some .directory then s else ⟨(place, .file content) :: s.entries⟩

/-- Stores files one after another, from nothing. -/
def ofFiles (files : List (String × List UInt8)) : Storage :=
  files.foldl (fun s file => s.writeFile file.1 file.2) {}

/-- Makes a directory under a path. Nothing changes where the path leads nowhere or to a place that
is taken. -/
def makeDirectory (s : Storage) (path : String) : Storage :=
  match s.locate path with
  | .error _ => s
  | .ok place => if (s.entry? place).isSome then s else ⟨(place, .directory) :: s.entries⟩

end Storage

end CellMachine
