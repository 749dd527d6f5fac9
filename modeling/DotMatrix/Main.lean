import DotMatrix.Console.Program

/-! # The executable

The program over the files and the standard streams of the machine it runs on.
-/
namespace DotMatrix

/-- The number of an error; some interfaces hand out its negative. -/
def errorNumber (code : UInt32) : UInt32 := min code (0 - code)

def FileFault.ofError : IO.Error → FileFault
  | .noFileOrDirectory .. | .noSuchThing .. => .notFound
  | .alreadyExists .. => .alreadyExists
  | .inappropriateType _ code _ => if errorNumber code = 20 then .notDirectory else .isDirectory
  | .invalidArgument _ code details =>
    if errorNumber code = 36 then .nameTooLong
    else if errorNumber code = 22 then .nulInPath
    else .other details
  | .permissionDenied .. => .other "Permission denied (os error 13)"
  | error => .other (toString error)

def attempt {α : Type} (act : IO α) : IO (Except FileFault α) := do
  try return .ok (← act) catch error => return .error (.ofError error)

def kindOf (path : Path) : IO (Option FileKind) := do
  try
    let place ← IO.FS.realPath path.text
    return some (if ← place.isDir then .directory else .file)
  catch _ => return none

instance : FileSystem IO where
  readFile path := attempt do return (← IO.FS.readBinFile path.text).data
  writeFile path contents := attempt (IO.FS.writeBinFile path.text ⟨contents⟩)
  makeDirectory path := attempt (IO.FS.createDir path.text)
  kind := kindOf

instance : Terminal IO where
  print := IO.println
  complain := IO.eprintln

partial def drive : Stage → IO UInt32
  | .exited code => return code.toUInt32
  | .running session => do drive (← Program.advance session)

end DotMatrix

def main (arguments : List String) : IO UInt32 := do
  DotMatrix.drive (← DotMatrix.Program.start arguments)
