import DotMatrix.Cartridge.Image
import DotMatrix.Console.Session
import DotMatrix.Storage.Folder

/-! # The program

What the command line does, over any file system and terminal: it launches a session, advances it
until it is over, and saves the RAM of the cartridge.
-/
namespace DotMatrix

inductive Stage where
  | running (session : Session)
  | exited (code : UInt8)

namespace Program

variable {m : Type → Type} [Monad m] [FileSystem m] [Terminal m]

/-- Steps of a run without a limit between two looks at its notices. -/
def stepsPerTurn : Nat := 100000

def flush (s : Session) : m Session := do
  let (told, bus) := s.device.machine.bus.takeNotices
  told.forM fun n => Terminal.complain n.line
  return { s with device := s.device.mapBus fun _ => bus }

def fail (fault : Fault) : m Stage := do
  Terminal.complain fault.message
  return .exited 1

def readBoot : Option Path → m (Except Fault (Option Bytes))
  | none => return .ok none
  | some path => do
    match ← FileSystem.readFile path with
    | .error cause => return .error (.file path.text cause)
    | .ok bytes => return .ok (some bytes)

/-- What is told while a cartridge is inserted; a boot image of the wrong size keeps it out. -/
def insertionNotices (verbosity : Verbosity) (boot : Option Bytes) (image : Bytes) :
    List Notice :=
  if boot.any (·.size != Board.bootImageSize) then []
  else match Header.parse image with
    | .error _ => []
    | .ok header => header.insertionNotices verbosity image

def powerOn (o : Options) (boot : Option Bytes) (image : Bytes) :
    m (Except Fault ConsoleDevice) := do
  (insertionNotices o.verbosity boot image).forM (Terminal.tell o.verbosity)
  return Device.powerOn (Narrated.ofBoard o.verbosity) boot image {} ⟨0⟩ o.breakpoints

/-- Battery saves lie beside the cartridge unless another directory is given. -/
def saveDirectory (o : Options) : Path := (o.saveDirectory.or o.rom.parent?).getD ⟨""⟩

/-- Battery saves are named for the cartridge file or, failing that, the program on it. -/
def saveName (o : Options) (header : Header) : String := o.rom.stem?.getD header.title

def storage (verbosity : Verbosity) (s : Session) : Storage m :=
  .folder verbosity s.saveDirectory

/-- Restores the RAM of the cartridge; then the session can run. -/
def begin (o : Options) (device : ConsoleDevice) : m Stage := do
  let s : Session := {
    device := device
    limit := o.cycles
    underway := false
    saveDirectory := saveDirectory o
    saveName := saveName o device.header }
  match ← s.device.loadRam (storage o.verbosity s) s.saveName with
  | (.error fault, _) => fail fault
  | (.ok _, device) => return .running (← flush { s with device })

/-- Loads the cartridge and the boot image, in this order, and begins a session with them. -/
def launch (o : Options) : m Stage := do
  match ← Image.load o.rom with
  | .error fault => fail fault
  | .ok image =>
    image.entry.forM fun entry => Terminal.tell o.verbosity (.extracted entry o.rom.text)
    match ← readBoot o.boot with
    | .error fault => fail fault
    | .ok boot =>
      match ← powerOn o boot image.bytes with
      | .error fault => fail fault
      | .ok device => begin o device

def start (arguments : List String) : m Stage := do
  match CommandLine.read arguments with
  | .ok (.run options) => launch options
  | .ok .version =>
    Terminal.print CommandLine.version
    return .exited 0
  | .ok .help =>
    CommandLine.help.forM Terminal.print
    return .exited 0
  | .error fault =>
    fault.lines.forM Terminal.complain
    return .exited 2

def close (s : Session) : m Stage := do
  let told : Notice := .report s!"Stopped after {s.device.cycles} cycles"
  let s ← flush { s with device := s.device.note told }
  match ← s.device.saveRam (storage s.device.machine.bus.verbosity s) s.saveName with
  | (.error fault, _) => fail fault
  | (.ok _, device) =>
    let _ ← flush { s with device }
    return .exited 0

def advance (s : Session) : m Stage := do
  let (turn, s) := s.turn stepsPerTurn
  let s ← flush s
  match turn with
  | .continues => return .running s
  | .ends => close s
  | .fails fault => fail fault

end Program
end DotMatrix
