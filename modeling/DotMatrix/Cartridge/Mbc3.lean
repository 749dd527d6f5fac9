import DotMatrix.Cartridge.Bank
import DotMatrix.Cartridge.RealTimeClock

/-! # The third bank controller

A seven-bit register selects the ROM bank of the upper window. The RAM window shows a RAM bank or,
where there is a clock, one of its registers as they were latched last.
-/
namespace DotMatrix

structure Mbc3 where
  rom : Bytes
  ram : Bytes
  selected : UInt8
  /-- Selects a RAM bank (0 to 3) or a clock register (8 to C). -/
  selector : UInt8
  unlocked : Bool
  /-- The last write to the latch register was a zero. -/
  latchArmed : Bool
  clock : Option RealTimeClock
  battery : Bool
  deriving DecidableEq

namespace Mbc3

def new (rom : Bytes) (ramBanks : Nat) (battery clock : Bool) : Mbc3 where
  rom := rom
  ram := .zeros (ramBanks * Bank.ramSize)
  selected := 1
  selector := 0
  unlocked := false
  latchArmed := false
  clock := if clock then some .zero else none
  battery := battery

def romBank (m : Mbc3) : Nat := m.selected.toNat % Bank.romCount m.rom

def ramOffset? (m : Mbc3) (address : UInt16) : Option Nat :=
  if m.ram.isEmpty || 0x03 < m.selector then none
  else some (Bank.ramOffset (m.selector.toNat % Bank.ramCount m.ram) address)

def readWindow (m : Mbc3) (address : UInt16) : UInt8 :=
  match ClockRegister.ofSelector? m.selector with
  | some register => m.clock.elim 0xff fun c => c.latched.read register
  | none =>
    match m.ramOffset? address with
    | some offset => m.ram.readOpen offset
    | none => 0xff

def writeWindow (m : Mbc3) (address : UInt16) (v : UInt8) : Mbc3 :=
  match ClockRegister.ofSelector? m.selector with
  | some register => { m with clock := m.clock.map (·.write register v) }
  | none =>
    match m.ramOffset? address with
    | some offset => { m with ram := m.ram.setIfInBounds offset v }
    | none => m

/-- Writing 0 and then 1 latches the clock. -/
def writeLatch (m : Mbc3) (v : UInt8) : Mbc3 :=
  { m with
    clock := if m.latchArmed ∧ v = 1 then m.clock.map RealTimeClock.latch else m.clock
    latchArmed := v == 0 }

def read (m : Mbc3) (address : UInt16) : UInt8 :=
  if address < 0x4000 then Bank.romByte m.rom 0 address
  else if address < 0x8000 then Bank.romByte m.rom m.romBank address
  else if 0xa000 ≤ address ∧ address < 0xc000 ∧ m.unlocked then m.readWindow address
  else 0xff

def write (m : Mbc3) (address : UInt16) (v : UInt8) : Mbc3 :=
  if address < 0x2000 then { m with unlocked := Bank.unlocks v }
  else if address < 0x4000 then { m with selected := Bank.nonzero (v &&& 0x7f) }
  else if address < 0x6000 then { m with selector := v &&& 0x0f }
  else if address < 0x8000 then m.writeLatch v
  else if 0xa000 ≤ address ∧ address < 0xc000 ∧ m.unlocked then m.writeWindow address v
  else m

def loadRam (m : Mbc3) (dump : Bytes) : Mbc3 := { m with ram := dump.fit m.ram.size }

def tick (m : Mbc3) (cycles : Nat) : Mbc3 := { m with clock := m.clock.map (·.tick cycles) }

end Mbc3
end DotMatrix
