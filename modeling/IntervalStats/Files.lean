import IntervalStats.Binary
import IntervalStats.LoadError
import IntervalStats.Table
import IntervalStats.Text.Pieces

/-!
# Files

A directory tree as a table from paths to files and directories. Paths are relative to the root of the
tree. A file or directory brings the directories above it with it, so these need no entries of their
own.

A path is followed name by name: every name but the last must lead to a directory, also where `..`
takes it back.
-/

namespace IntervalStats

/-- What a path leads to. -/
inductive Node where
  | file (bytes : List UInt8)
  | directory
  deriving DecidableEq, Repr

/-! ## Paths -/

/-- The names that a path goes through, in turn. -/
def pathSteps (path : String) : List String :=
  (Text.pieces '/' path.toList).map String.ofList

/-- The names from the root down after one more step: an empty name and `.` lead nowhere, and `..`
leads back. -/
def descend (here : List String) (name : String) : List String :=
  if name = "" ∨ name = "." then here
  else if name = ".." then here.dropLast
  else here ++ [name]

/-- The names of a path from the root down. -/
def pathNames (path : String) : List String :=
  (pathSteps path).foldl descend []

/-- The path of names from the root down. -/
def pathOf (names : List String) : String :=
  "/".intercalate names

/-- The path of a name in a directory. -/
def joinPath (directory name : String) : String :=
  match directory.toList.getLast? with
  | none | some '/' => directory ++ name
  | some _ => directory ++ "/" ++ name

/-! ## Directory trees -/

/-- A directory tree. -/
structure Files where
  nodes : Table Node

namespace Files

/-- The directory tree of nodes given by path. -/
def ofList (entries : List (String × Node)) : Files :=
  ⟨.ofList (entries.map fun e => (pathOf (pathNames e.1), e.2))⟩

/-- Some entry lies below the names. -/
def hasBelow (files : Files) (names : List String) : Bool :=
  files.nodes.entries.any fun e => (pathOf names ++ "/").toList.isPrefixOf e.1.toList

/-- What names lead to, if anything; the root is a directory. -/
def nodeAt? (files : Files) (names : List String) : Option Node :=
  if names.isEmpty then some .directory
  else match files.nodes.get? (pathOf names) with
    | some node => some node
    | none => if files.hasBelow names then some .directory else none

/-- Goes one step on from a directory. -/
def enter (files : Files) (here : List String) (name : String) : Except IoKind (List String) :=
  match files.nodeAt? here with
  | some .directory => .ok (descend here name)
  | some (.file _) => .error .notADirectory
  | none => .error .notFound

/-- The names of a path all of whose names but the last lead to directories. -/
def resolve (files : Files) (path : String) : Except IoKind (List String) :=
  (pathSteps path).foldlM files.enter []

/-- What a path leads to. -/
def find (files : Files) (path : String) : Except IoKind Node := do
  let names ← files.resolve path
  match files.nodeAt? names with
  | some node => return node
  | none => throw .notFound

/-- The text of a file. -/
def readText (files : Files) (path : String) : Except IoKind String := do
  match ← files.find path with
  | .directory => throw .isADirectory
  | .file bytes =>
    match Binary.ofUtf8? bytes with
    | some text => return text
    | none => throw .invalidData

/-- Makes a file with this content, or gives the file that is there this content. -/
def write (files : Files) (path : String) (bytes : List UInt8) : Except IoKind Files := do
  let names ← files.resolve path
  if files.nodeAt? names = some .directory then throw .isADirectory
  return ⟨files.nodes.insert (pathOf names) (.file bytes)⟩

/-- The bytes of a file, if the path leads to one. -/
def bytes? (files : Files) (path : String) : Option (List UInt8) :=
  match files.find path with
  | .ok (.file bytes) => some bytes
  | _ => none

end Files

end IntervalStats
