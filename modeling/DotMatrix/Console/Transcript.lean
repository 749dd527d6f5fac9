import DotMatrix.Files.Tree
import DotMatrix.Journal.Terminal

/-! # A console session as a value

The files that a program sees, and the lines that it has written so far.
-/
namespace DotMatrix

structure Transcript where
  files : FileTree
  printed : Array String
  complaints : Array String

namespace Transcript

def ofFiles (files : FileTree) : Transcript := ⟨files, #[], #[]⟩

def onFiles {α : Type} (act : StateM FileTree α) : StateM Transcript α := fun t =>
  let (a, files) := act.run t.files
  (a, { t with files })

instance : FileSystem (StateM Transcript) where
  readFile p := onFiles (FileSystem.readFile p)
  writeFile p contents := onFiles (FileSystem.writeFile p contents)
  makeDirectory p := onFiles (FileSystem.makeDirectory p)
  kind p := onFiles (FileSystem.kind p)

instance : Terminal (StateM Transcript) where
  print line := modify fun t => { t with printed := t.printed.push line }
  complain line := modify fun t => { t with complaints := t.complaints.push line }

end Transcript
end DotMatrix
