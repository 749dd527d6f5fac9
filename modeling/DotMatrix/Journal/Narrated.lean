import DotMatrix.Device.Mainboard
import DotMatrix.Journal.Cartridge

/-! # A board that keeps a journal

A narrated board behaves as the board in it does. It also keeps the notices that its verbosity
admits: those of the processor and the device, and those that it can tell of the board itself.
-/
namespace DotMatrix

namespace Board

def triggerNotices (b : Board) (address : UInt16) (v : UInt8) : List Notice :=
  if address = Cell.dma then
    [if b.dma.active then .dmaIgnored v else .dmaStarted (Dma.pageSource v)]
  else if address = Cell.boot ∧ v ≠ 0 ∧ b.bootMapped then [.bootImageUnmapped]
  else []

def pokeNotices (b : Board) (address : UInt16) (v : UInt8) : List Notice :=
  match Region.of address with
  | .rom | .external => (b.controller.writeNotice? address v).toList
  | _ => []

def writeNotices (b : Board) (address : UInt16) (v : UInt8) : List Notice :=
  b.triggerNotices address v ++ match b.stored? address v with
    | some stored => b.pokeNotices address stored
    | none => [.writeDropped v address]

def peekNotices (b : Board) (address : UInt16) : List Notice :=
  if address = Cell.joypad ∧ Joypad.selectsBoth (b.memory.get Cell.joypad) then
    [.bothLinesSelected]
  else []

def timerNotices (b : Board) (cycles : Nat) : List Notice :=
  (Timer.reloadsDuring cycles b.timer b.memory.timerCells).map .timerReloaded

end Board

structure Narrated where
  board : Board
  verbosity : Verbosity
  /-- What has been told, newest first. -/
  notices : List Notice

namespace Narrated

def ofBoard (verbosity : Verbosity) (board : Board) : Narrated := ⟨board, verbosity, []⟩

def tell (b : Narrated) (n : Notice) : Narrated :=
  if b.verbosity.admits n.level then { b with notices := n :: b.notices } else b

def tellAll (b : Narrated) (l : List Notice) : Narrated := l.foldl tell b

def mapBoard (b : Narrated) (f : Board → Board) : Narrated := { b with board := f b.board }

def read (b : Narrated) (address : UInt16) : UInt8 × Narrated :=
  let b := b.tellAll (b.board.peekNotices address)
  let (v, board) := b.board.read address
  (v, { b with board })

def write (b : Narrated) (address : UInt16) (v : UInt8) : Narrated :=
  let told := b.board.writeNotices address v
  (b.mapBoard (·.write address v)).tellAll told

def poke (b : Narrated) (address : UInt16) (v : UInt8) : Narrated :=
  let told := b.board.pokeNotices address v
  (b.mapBoard (·.poke address v)).tellAll told

def fetched (b : Narrated) (address : UInt16) (length : Nat) : Narrated :=
  (List.range length).foldl
    (fun b i => b.tellAll (b.board.peekNotices (address + UInt16.ofNat i))) b

/-- The reloads of the timer are looked for only where they are told. -/
def tickTimer (b : Narrated) (cycles : Nat) : Narrated :=
  let told := if b.verbosity.admits .trace then b.board.timerNotices cycles else []
  (b.mapBoard (·.tickTimer cycles)).tellAll told

def tick (b : Narrated) (cycles : Nat) : Narrated :=
  let running := b.board.dma.active
  let source := b.board.dma.source
  let b := b.mapBoard (·.tick cycles)
  if running && !b.board.dma.active then b.tell (.dmaFinished source) else b

/-- The notices in the order of telling, and the board without them. -/
def takeNotices (b : Narrated) : List Notice × Narrated :=
  (b.notices.reverse, { b with notices := [] })

end Narrated

instance : Mainboard Narrated where
  peek b := b.board.peek
  read := Narrated.read
  write := Narrated.write
  poke := Narrated.poke
  fetched := Narrated.fetched
  note := Narrated.tell
  board := Narrated.board
  modify := Narrated.mapBoard
  tickTimer := Narrated.tickTimer
  tick := Narrated.tick

end DotMatrix
