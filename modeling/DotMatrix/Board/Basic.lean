import DotMatrix.Board.Dma
import DotMatrix.Board.Joypad
import DotMatrix.Board.Timer
import DotMatrix.Board.Watch
import DotMatrix.Cartridge.Controller
import DotMatrix.Fault
import DotMatrix.Processor.Bus
import DotMatrix.Processor.Interrupt

/-! # The board

Everything around the processor: the address space with the cartridge and the boot image mapped
into it, the timer, the object memory transfer, the joypad and the watch list. Checked accesses are
those a program makes; the watch list sees them, and a checked write to a wired cell has its effect.
-/
namespace DotMatrix

structure Reaction where
  /-- The byte to be stored, if the write is to go through. -/
  stored : Option UInt8
  pokes : List (UInt16 × UInt8) := []
  requests : UInt8 := 0

abbrev Hook := UInt8 → Reaction

structure Board where
  controller : Controller
  memory : Memory
  bootImage : Bytes
  bootMapped : Bool
  hooks : List (UInt16 × Hook)
  dma : Dma
  timer : Timer
  joypad : Joypad
  watch : Watch

namespace Board

def bootImageSize : Nat := 0x100

/-- A board at power-on; without a boot image none is mapped. -/
def new (bootImage : Bytes) (controller : Controller) : Board where
  controller := controller
  memory :=
    (((Memory.cleared.set Cell.joypad 0xcf).set Cell.tac 0xf8).set Cell.requests 0xe0).set Cell.boot
      (if bootImage.isEmpty then 0xff else 0x00)
  bootImage := bootImage
  bootMapped := !bootImage.isEmpty
  hooks := []
  dma := .idle
  timer := .ofCounter 0
  joypad := .released
  watch := .nothing

def postBootCells : List (UInt16 × UInt8) :=
  [(Cell.joypad, 0xcf), (Cell.div, 0xab), (Cell.tac, 0xf8), (Cell.requests, 0xe1),
    (Cell.display, 0x91), (Cell.backgroundPalette, 0xfc), (Cell.objectPalette0, 0xff),
    (Cell.objectPalette1, 0xff), (Cell.boot, 0xff)]

def skipBoot (b : Board) : Board :=
  { b with
    bootMapped := false
    timer := .ofCounter Timer.postBootCounter
    memory := postBootCells.foldl (fun m cell => m.set cell.1 cell.2) b.memory }

/-- What an address shows, without any effect. -/
def peek (b : Board) (address : UInt16) : UInt8 :=
  match Region.of address with
  | .rom =>
    if address < 0x100 ∧ b.bootMapped then b.bootImage.readOpen address.toNat
    else b.controller.read address
  | .external => b.controller.read address
  | .echo => b.memory.get (unecho address)
  | .unusable => 0xff
  | .io =>
    let v := b.memory.get address
    if address = Cell.joypad then b.joypad.read v else v
  | .video | .work | .objects | .high => b.memory.get address

/-- Stores at an address without the effect that a wired cell has on a write. -/
def poke (b : Board) (address : UInt16) (v : UInt8) : Board :=
  match Region.of address with
  | .rom | .external => { b with controller := b.controller.write address v }
  | .echo => { b with memory := b.memory.set (unecho address) v }
  | .unusable => b
  | .video | .work | .objects | .io | .high => { b with memory := b.memory.set address v }

def read (b : Board) (address : UInt16) : UInt8 × Board :=
  let v := b.peek address
  (v, { b with watch := b.watch.noteRead address v })

def request (b : Board) (sources : UInt8) : Board :=
  { b with memory := b.memory.set Cell.requests (b.memory.get Cell.requests ||| sources) }

/-- Runs a part of the timer on the cells that it drives. -/
def driveTimer (b : Board) (f : Timer → TimerCells → Timer × TimerCells) : Board :=
  let (timer, cells) := f b.timer b.memory.timerCells
  { b with timer, memory := b.memory.setTimerCells cells }

def applyReaction (b : Board) (r : Reaction) : Board :=
  let b := r.pokes.foldl (fun b cell => b.poke cell.1 cell.2) b
  if r.requests = 0 then b else b.request r.requests

/-- What a checked write stores, if anything: the hardware has a say in it, and so has a hook. -/
def stored? (b : Board) (address : UInt16) (v : UInt8) : Option UInt8 :=
  if address < Cell.page then some v
  else if address = Cell.joypad then some (Joypad.drive v)
  else if address = Cell.div then some 0
  else if address = Cell.tima then if b.timer.locked then none else some v
  else if address = Cell.tma then some v
  else if address = Cell.tac then some (v ||| 0xf8)
  else if address = Cell.requests then some (v ||| 0xe0)
  else if address = Cell.dma then some v
  else if address = Cell.boot then some 0xff
  else match b.hooks.lookup address with
    | some hook => (hook v).stored
    | none => some v

/-- What else a checked write does, before anything is stored. -/
def trigger (b : Board) (address : UInt16) (v : UInt8) : Board :=
  if address < Cell.page then b
  else if address = Cell.div then b.driveTimer Timer.reset
  else if address = Cell.tma then b.driveTimer fun t p => (t, t.setModulo p v)
  else if address = Cell.tac then b.driveTimer (Timer.setControl · · v)
  else if address = Cell.dma then { b with dma := b.dma.start v }
  else if address = Cell.boot then { b with bootMapped := b.bootMapped && v == 0 }
  else if Cell.wired.contains address then b
  else match b.hooks.lookup address with
    | some hook => b.applyReaction (hook v)
    | none => b

def write (b : Board) (address : UInt16) (v : UInt8) : Board :=
  let b := { b with watch := b.watch.noteWrite address v }
  let stored := b.stored? address v
  let b := b.trigger address v
  match stored with
  | some stored => b.poke address stored
  | none => b

/-- Hooks the writes to a cell of the last page; a wired cell cannot be hooked, nor a cell twice. -/
def addHook (b : Board) (address : UInt16) (hook : Hook) : Except Fault Board :=
  if address < Cell.page then .error (.unhookable address)
  else if Cell.wired.contains address ∨ (b.hooks.lookup address).isSome then
    .error (.hookTaken address)
  else .ok { b with hooks := (address, hook) :: b.hooks }

def transferCycle (b : Board) : Board :=
  match b.dma.transfer? with
  | some (source, target) =>
    let v := b.peek source
    { b with memory := b.memory.set target v, dma := b.dma.advance }
  | none => { b with dma := b.dma.advance }

def transferCycles : Nat → Board → Board
  | 0, b => b
  | n + 1, b => if b.dma.active then transferCycles n b.transferCycle else b

def tick (b : Board) (cycles : Nat) : Board :=
  let b := b.transferCycles cycles
  { b with controller := b.controller.tick cycles }

def tickTimer (b : Board) (cycles : Nat) : Board := b.driveTimer (Timer.run cycles)

def updateButton (b : Board) (button : Button) (pressed : Bool) : Bool × Board :=
  let (pressed, joypad) := b.joypad.update button pressed
  (pressed, { b with joypad })

def takeHit (b : Board) : Option WatchHit × Board :=
  let (hit, watch) := b.watch.take
  (hit, { b with watch })

end Board

/-- A board on its own keeps nothing of what the processor tells it. -/
instance : Bus Board where
  peek := Board.peek
  read := Board.read
  write := Board.write
  poke := Board.poke
  fetched b _ _ := b
  note b _ := b

end DotMatrix
