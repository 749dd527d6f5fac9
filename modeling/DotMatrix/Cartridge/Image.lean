import DotMatrix.Archive.Zip
import DotMatrix.Files.Basic

/-! # Cartridge images

An image is a file of its own or the first one in an archive.
-/
namespace DotMatrix

structure Image where
  bytes : Bytes
  /-- The name of the archive entry that it was taken from, if any. -/
  entry : Option String

namespace Image

def isImageName (name : String) : Bool :=
  let name := name.toLower
  name.endsWith ".gb" || name.endsWith ".gbc"

def isArchive (p : Path) : Bool := p.extension?.any fun extension => extension.toLower == "zip"

def ofArchive (path : String) (archive : Bytes) : Except Fault Image :=
  match Archive.entries archive >>= Archive.find archive isImageName with
  | .error cause => .error (.archive path cause)
  | .ok none => .error (.noImageInArchive path)
  | .ok (some (e, start)) =>
    match Archive.contents archive e start with
    | .error cause => .error (.file path cause)
    | .ok bytes => .ok ⟨bytes, some e.name⟩

/-- What is told of a file that cannot be read. A directory can be opened, and only what is in it
is then no archive. -/
def readFault (p : Path) (cause : FileFault) : Fault :=
  if isArchive p ∧ cause = .isDirectory then .archive p.text (.unreadable cause)
  else .file p.text cause

def load {m : Type → Type} [Monad m] [FileSystem m] (p : Path) : m (Except Fault Image) := do
  match ← FileSystem.readFile p with
  | .error cause => return .error (readFault p cause)
  | .ok bytes => return if isArchive p then ofArchive p.text bytes else .ok ⟨bytes, none⟩

end Image
end DotMatrix
