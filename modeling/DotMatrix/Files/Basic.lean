import DotMatrix.Fault
import DotMatrix.Files.Path
import DotMatrix.Memory

/-! # Files

What a program asks of a file system, and how a whole chain of directories is made of that.
-/
namespace DotMatrix

inductive FileKind where
  | file | directory
  deriving DecidableEq, Repr

class FileSystem (m : Type → Type) where
  readFile : Path → m (Except FileFault Bytes)
  /-- Replaces the contents of a file, or makes it. -/
  writeFile : Path → Bytes → m (Except FileFault Unit)
  /-- Makes one directory in an existing one. -/
  makeDirectory : Path → m (Except FileFault Unit)
  kind : Path → m (Option FileKind)

namespace FileSystem

variable {m : Type → Type} [Monad m] [FileSystem m]

/-- What making a directory comes to when it may be there already. -/
def tolerate (path : Path) (made : Except FileFault Unit) : m (Except FileFault Unit) := do
  match made with
  | .ok _ => return .ok ()
  | .error fault =>
    if (← kind path) = some .directory then return .ok () else return .error fault

/-- Makes the first of some directories and, should its place be missing, the others before it. -/
def makeFirst : List Path → m (Except FileFault Unit)
  | [] => return .ok ()
  | path :: above => do
    match ← makeDirectory path with
    | .error .notFound =>
      match ← makeFirst above with
      | .error fault => return .error fault
      | .ok _ => tolerate path (← makeDirectory path)
    | made => tolerate path made

/-- Makes a directory and all that is missing above it. The empty path needs none. -/
def makeDirectories (path : Path) : m (Except FileFault Unit) :=
  if path.isEmpty then return .ok () else makeFirst (path :: path.ancestors)

end FileSystem
end DotMatrix
