import DotMatrix.Files.Basic
import DotMatrix.Journal.Terminal
import DotMatrix.Storage.Basic

/-! # A storage in a directory

Every blob is a file of its own, named for the blob. The directory is made when something is first
saved into it.
-/
namespace DotMatrix.Storage

variable {m : Type → Type} [Monad m] [FileSystem m] [Terminal m]

def blobPath (directory : Path) (name : String) : Path := directory.join (name ++ ".sav")

def saveFile (verbosity : Verbosity) (directory : Path) (name : String) (data : Bytes) :
    m (Except Fault Unit) := do
  match ← FileSystem.makeDirectories directory with
  | .error cause => return .error (.file directory.text cause)
  | .ok _ =>
    let path := blobPath directory name
    match ← FileSystem.writeFile path data with
    | .error cause => return .error (.file path.text cause)
    | .ok _ =>
      Terminal.tell verbosity (.storageWrote data.size path.text)
      return .ok ()

def loadFile (verbosity : Verbosity) (directory : Path) (name : String) :
    m (Except Fault (Option Bytes)) := do
  let path := blobPath directory name
  if (← FileSystem.kind path).isNone then return .ok none
  match ← FileSystem.readFile path with
  | .error cause => return .error (.file path.text cause)
  | .ok data =>
    Terminal.tell verbosity (.storageRead data.size path.text)
    return .ok (some data)

def folder (verbosity : Verbosity) (directory : Path) : Storage m where
  save := saveFile verbosity directory
  load := loadFile verbosity directory
  contains name := do return (← FileSystem.kind (blobPath directory name)) = some .file

end DotMatrix.Storage
