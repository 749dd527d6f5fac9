import DotMatrix.Files.Basic

/-! # A file tree as a value

Files and directories by their location, the names that lead to them from the root. A path is
walked from the root or from the working directory, through directories that must be there.
-/
namespace DotMatrix

/-- The names from the root on. -/
abbrev Location := List String

inductive FileNode where
  | directory
  | file (contents : Bytes)
  deriving DecidableEq, Repr

structure FileTree where
  nodes : List (Location × FileNode)
  workingDirectory : Location

namespace FileTree

def empty : FileTree := ⟨[(["work"], .directory)], ["work"]⟩

/-- What is at a location. The root is always there. -/
def node? (t : FileTree) : Location → Option FileNode
  | [] => some .directory
  | place => t.nodes.lookup place

def insert (t : FileTree) (place : Location) (node : FileNode) : FileTree :=
  { t with nodes := (place, node) :: t.nodes.filter (·.1 != place) }

def longestName : Nat := 255

def longestPath : Nat := 4095

/-- Follows segments from a location. Each step starts at a directory; the location that the last
one leads to need not be there. -/
def walk (t : FileTree) (place : Location) : List String → Except FileFault Location
  | [] => .ok place
  | s :: rest =>
    match t.node? place with
    | none => .error .notFound
    | some (.file _) => .error .notDirectory
    | some .directory =>
      if Path.isIdle s then t.walk place rest
      else if s = ".." then t.walk place.dropLast rest
      else if longestName < s.utf8ByteSize then .error .nameTooLong
      else t.walk (place ++ [s]) rest

def locateSegments (t : FileTree) (p : Path) (segments : List String) :
    Except FileFault Location :=
  if p.text.toList.contains '\x00' then .error .nulInPath
  else if p.isEmpty then .error .notFound
  else if longestPath < p.text.utf8ByteSize then .error .nameTooLong
  else t.walk (if p.isAbsolute then [] else t.workingDirectory) segments

def locate (t : FileTree) (p : Path) : Except FileFault Location := t.locateSegments p p.segments

def lookup (t : FileTree) (p : Path) : Option FileNode := (t.locate p).toOption.bind t.node?

def readFile (t : FileTree) (p : Path) : Except FileFault Bytes := do
  match t.node? (← t.locate p) with
  | none => throw .notFound
  | some .directory => throw .isDirectory
  | some (.file contents) => return contents

def writeFile (t : FileTree) (p : Path) (contents : Bytes) : Except FileFault FileTree := do
  let place ← t.locate p
  match t.node? place with
  | some .directory => throw .isDirectory
  | _ => return t.insert place (.file contents)

/-- Slashes behind the name of a new directory do not count. -/
def makeDirectory (t : FileTree) (p : Path) : Except FileFault FileTree := do
  let segments := (p.segments.reverse.dropWhile (· == "")).reverse
  let place ← t.locateSegments p segments
  match t.node? place with
  | some _ => throw .alreadyExists
  | none => return t.insert place .directory

def FileNode.kind : FileNode → FileKind
  | .directory => .directory
  | .file _ => .file

def kind (t : FileTree) (p : Path) : Option FileKind := (t.lookup p).map FileNode.kind

def files (t : FileTree) : List (Location × Bytes) :=
  t.nodes.filterMap fun
    | (place, .file contents) =>
      if t.workingDirectory.isPrefixOf place then
        some (place.drop t.workingDirectory.length, contents)
      else none
    | (_, .directory) => none

/-- Carries out a change of the tree, if it succeeds. -/
def attempt (change : FileTree → Except FileFault FileTree) :
    StateM FileTree (Except FileFault Unit) := fun t =>
  match change t with
  | .ok t => (.ok (), t)
  | .error fault => (.error fault, t)

instance : FileSystem (StateM FileTree) where
  readFile p := return (← get).readFile p
  writeFile p contents := attempt (·.writeFile p contents)
  makeDirectory p := attempt (·.makeDirectory p)
  kind p := return (← get).kind p

end FileTree
end DotMatrix
