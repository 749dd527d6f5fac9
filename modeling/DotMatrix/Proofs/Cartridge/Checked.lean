import Mathlib.Algebra.Group.Nat.Defs
import DotMatrix.Proofs.Cartridge.History

/-! # Cartridges that mind their limits

A second way to work a cartridge, in which nothing is silently made to fit. An index outside its
buffer, a remainder by zero, a difference below zero and a sum too large for its field stop the work
with a trap. The banks are those counted when the cartridge was made, whatever its buffers are now.
A ROM smaller than its window may be read past its end; one that fills the window may not.
-/
namespace DotMatrix

inductive Trap where
  | outside (offset size : Nat)
  | zeroDivisor
  | belowZero
  | overflow (bits : Nat)
  deriving DecidableEq, Repr

abbrev Checked := Except Trap

/-- The banks of a cartridge as they were counted when it was made. -/
structure BankCounts where
  rom : Nat
  ram : Nat

namespace Checked

@[simp]
theorem pure_eq_ok {α : Type} (a : α) : (pure a : Checked α) = .ok a := rfl

@[simp]
theorem ok_bind {α β : Type} (a : α) (f : α → Checked β) : ((.ok a : Checked α) >>= f) = f a := rfl

def byteAt (b : Bytes) (offset : Nat) : Checked UInt8 :=
  if h : offset < b.size then .ok b[offset] else .error (.outside offset b.size)

def store (b : Bytes) (offset : Nat) (v : UInt8) : Checked Bytes :=
  if offset < b.size then .ok (b.setIfInBounds offset v) else .error (.outside offset b.size)

def first (length : Nat) (b : Bytes) : Checked Bytes :=
  if length ≤ b.size then .ok (b.extract 0 length) else .error (.outside length b.size)

def remainder (n d : Nat) : Checked Nat := if d = 0 then .error .zeroDivisor else .ok (n % d)

def difference (m n : Nat) : Checked Nat := if n ≤ m then .ok (m - n) else .error .belowZero

def within (bits n : Nat) : Checked Nat := if n < 2 ^ bits then .ok n else .error (.overflow bits)

def nextByte (v : UInt8) : Checked UInt8 := return .ofNat (← within 8 (v.toNat + 1))

def nextWord (w : UInt16) : Checked UInt16 := return .ofNat (← within 16 (w.toNat + 1))

def imageByte (windows : Nat) (image : Bytes) (offset : Nat) : Checked UInt8 :=
  if image.size < windows then .ok (image.readOpen offset) else byteAt image offset

def romByte (image : Bytes) (bank : Nat) (address : UInt16) : Checked UInt8 :=
  imageByte Bank.romSize image (bank * Bank.romSize + address.toNat % Bank.romSize)

/-- A dump put into a buffer: what both have room for is copied, the rest of the buffer cleared. -/
def restore (ram dump : Bytes) : Checked Bytes := do
  let length := min ram.size dump.size
  let _ ← first length ram
  let kept ← first length dump
  return kept ++ Bytes.zeros (ram.size - length)

end Checked

open Checked

namespace ClockReading

def nextDayChecked (c : ClockReading) : Checked ClockReading :=
  if 0x1ff ≤ c.days then return { c with days := 0, carry := true }
  else return { c with days := ← nextWord c.days }

def nextHourChecked (c : ClockReading) : Checked ClockReading := do
  let hours := (← nextByte c.hours) &&& 0x1f
  if hours = 24 then nextDayChecked { c with hours := 0 } else return { c with hours }

def nextMinuteChecked (c : ClockReading) : Checked ClockReading := do
  let minutes := (← nextByte c.minutes) &&& 0x3f
  if minutes = 60 then nextHourChecked { c with minutes := 0 } else return { c with minutes }

def nextSecondChecked (c : ClockReading) : Checked ClockReading := do
  let seconds := (← nextByte c.seconds) &&& 0x3f
  if seconds = 60 then nextMinuteChecked { c with seconds := 0 } else return { c with seconds }

end ClockReading

namespace RealTimeClock

/-- Turns cycles into seconds, one at a time, while there are enough of them. -/
def settleChecked (c : RealTimeClock) : Checked RealTimeClock :=
  if cyclesPerSecond ≤ c.cycles then do
    let _ ← difference c.cycles cyclesPerSecond
    let live ← c.live.nextSecondChecked
    settleChecked { c with live, cycles := c.cycles - cyclesPerSecond }
  else return c
termination_by c.cycles
decreasing_by
  simp only [cyclesPerSecond] at *
  omega

/-- Sums of cycles are kept in fields of so many bits. -/
def tickChecked (bits : Nat) (c : RealTimeClock) (cycles : Nat) : Checked RealTimeClock :=
  if c.live.halted then return c
  else do
    let cycles ← within bits (c.cycles + cycles)
    settleChecked { c with cycles }

end RealTimeClock

namespace Mbc1
variable (counts : BankCounts) (m : Mbc1)

def lowRomBankChecked : Checked Nat :=
  if m.advanced then remainder (m.secondary.toNat * 32) counts.rom else return 0

def romBankChecked : Checked Nat :=
  remainder (m.secondary.toNat * 32 + m.primary.toNat) counts.rom

def ramBankChecked : Checked Nat :=
  if m.advanced ∧ 0 < counts.ram then remainder m.secondary.toNat counts.ram else return 0

def ramOffsetChecked? (address : UInt16) : Checked (Option Nat) :=
  if m.ramEnabled && !m.ram.isEmpty then do
    let bank ← m.ramBankChecked counts
    return some ((← difference address.toNat 0xa000) + bank * Bank.ramSize)
  else return none

def readChecked (address : UInt16) : Checked UInt8 :=
  if address < 0x4000 then do romByte m.rom (← m.lowRomBankChecked counts) address
  else if address < 0x8000 then do romByte m.rom (← m.romBankChecked counts) address
  else if 0xa000 ≤ address ∧ address < 0xc000 then do
    match ← m.ramOffsetChecked? counts address with
    | some offset => byteAt m.ram offset
    | none => return 0xff
  else return 0xff

/-- The banks that a register selects are worked out at once, for the journal. -/
def writeChecked (address : UInt16) (v : UInt8) : Checked Mbc1 :=
  if address < 0x2000 then return { m with ramEnabled := Bank.unlocks v }
  else if address < 0x4000 then do
    let m := { m with primary := Bank.nonzero (v &&& 0x1f) }
    let _ ← m.romBankChecked counts
    return m
  else if address < 0x6000 then do
    let m := { m with secondary := v &&& 0x03 }
    let _ ← m.romBankChecked counts
    let _ ← m.ramBankChecked counts
    return m
  else if address < 0x8000 then return { m with advanced := v &&& 0x01 == 1 }
  else if 0xa000 ≤ address ∧ address < 0xc000 then do
    match ← m.ramOffsetChecked? counts address with
    | some offset => return { m with ram := ← store m.ram offset v }
    | none => return m
  else return m

def loadRamChecked (dump : Bytes) : Checked Mbc1 := return { m with ram := ← restore m.ram dump }

end Mbc1

namespace Mbc2
variable (counts : BankCounts) (m : Mbc2)

def romBankChecked : Checked Nat := remainder m.selected.toNat counts.rom

def refill (ram : Bytes) : Checked Mbc2 :=
  if h : ram.size = 0x200 then .ok { m with ram := ⟨ram, h⟩ } else .error (.outside 0x200 ram.size)

def readChecked (address : UInt16) : Checked UInt8 :=
  if address < 0x4000 then romByte m.rom 0 address
  else if address < 0x8000 then do romByte m.rom (← m.romBankChecked counts) address
  else if 0xa000 ≤ address ∧ address < 0xc000 ∧ m.ramEnabled then
    return (← byteAt m.ram.toArray (address.toNat % 0x200)) ||| 0xf0
  else return 0xff

def writeChecked (address : UInt16) (v : UInt8) : Checked Mbc2 :=
  if address < 0x4000 then
    if address &&& 0x0100 = 0 then return { m with ramEnabled := Bank.unlocks v }
    else do
      let m := { m with selected := Bank.nonzero (v &&& 0x0f) }
      let _ ← m.romBankChecked counts
      return m
  else if 0xa000 ≤ address ∧ address < 0xc000 ∧ m.ramEnabled then do
    m.refill (← store m.ram.toArray (address.toNat % 0x200) (v &&& 0x0f))
  else return m

def loadRamChecked (dump : Bytes) : Checked Mbc2 := do
  m.refill ((← restore m.ram.toArray dump).map (· &&& 0x0f))

end Mbc2

namespace Mbc3
variable (counts : BankCounts) (m : Mbc3)

def romBankChecked : Checked Nat := remainder m.selected.toNat counts.rom

def ramOffsetChecked? (address : UInt16) : Checked (Option Nat) :=
  if m.ram.isEmpty || 0x03 < m.selector then return none
  else do
    let bank ← remainder m.selector.toNat counts.ram
    return some ((← difference address.toNat 0xa000) + bank * Bank.ramSize)

def readWindowChecked (address : UInt16) : Checked UInt8 :=
  match ClockRegister.ofSelector? m.selector with
  | some register => return m.clock.elim 0xff fun c => c.latched.read register
  | none => do
    match ← m.ramOffsetChecked? counts address with
    | some offset => byteAt m.ram offset
    | none => return 0xff

def writeWindowChecked (address : UInt16) (v : UInt8) : Checked Mbc3 :=
  match ClockRegister.ofSelector? m.selector with
  | some register => return { m with clock := m.clock.map (·.write register v) }
  | none => do
    match ← m.ramOffsetChecked? counts address with
    | some offset => return { m with ram := ← store m.ram offset v }
    | none => return m

def readChecked (address : UInt16) : Checked UInt8 :=
  if address < 0x4000 then romByte m.rom 0 address
  else if address < 0x8000 then do romByte m.rom (← m.romBankChecked counts) address
  else if 0xa000 ≤ address ∧ address < 0xc000 ∧ m.unlocked then m.readWindowChecked counts address
  else return 0xff

def writeChecked (address : UInt16) (v : UInt8) : Checked Mbc3 :=
  if address < 0x2000 then return { m with unlocked := Bank.unlocks v }
  else if address < 0x4000 then do
    let m := { m with selected := Bank.nonzero (v &&& 0x7f) }
    let _ ← m.romBankChecked counts
    return m
  else if address < 0x6000 then return { m with selector := v &&& 0x0f }
  else if address < 0x8000 then return m.writeLatch v
  else if 0xa000 ≤ address ∧ address < 0xc000 ∧ m.unlocked then
    m.writeWindowChecked counts address v
  else return m

def loadRamChecked (dump : Bytes) : Checked Mbc3 := return { m with ram := ← restore m.ram dump }

def tickChecked (bits cycles : Nat) : Checked Mbc3 :=
  match m.clock with
  | some c => return { m with clock := some (← c.tickChecked bits cycles) }
  | none => return m

end Mbc3

namespace Controller

/-- What can be asked of a cartridge: to let an event happen to it, or to tell something. -/
inductive Operation where
  | happen (e : Event)
  | read (address : UInt16)
  | dump
  | romBank
  | ramBank

inductive Answer where
  | done
  | byte (v : UInt8)
  | contents (ram : Bytes)
  | bank (n : Nat)

def operate (c : Controller) : Operation → Answer × Controller
  | .happen e => (.done, c.apply e)
  | .read address => (.byte (c.read address), c)
  | .dump => (.contents c.ram, c)
  | .romBank => (.bank c.romBank, c)
  | .ramBank => (.bank c.ramBank, c)

def work : List Operation → Controller → List Answer × Controller
  | [], c => ([], c)
  | operation :: rest, c =>
    let (answer, c) := c.operate operation
    let (answers, c) := work rest c
    (answer :: answers, c)

section Checked
variable (counts : BankCounts)

def readChecked (address : UInt16) : Controller → Checked UInt8
  | .rom image => if address < 0x8000 then imageByte 0x8000 image address.toNat else return 0xff
  | .mbc1 m => m.readChecked counts address
  | .mbc2 m => m.readChecked counts address
  | .mbc3 m => m.readChecked counts address
  | .flat cells => return cells.get address

def writeChecked (address : UInt16) (v : UInt8) : Controller → Checked Controller
  | .rom image => return .rom image
  | .mbc1 m => return .mbc1 (← m.writeChecked counts address v)
  | .mbc2 m => return .mbc2 (← m.writeChecked counts address v)
  | .mbc3 m => return .mbc3 (← m.writeChecked counts address v)
  | .flat cells => return .flat (cells.set address v)

def loadRamChecked (dump : Bytes) : Controller → Checked Controller
  | .rom image => return .rom image
  | .mbc1 m => return .mbc1 (← m.loadRamChecked dump)
  | .mbc2 m => return .mbc2 (← m.loadRamChecked dump)
  | .mbc3 m => return .mbc3 (← m.loadRamChecked dump)
  | .flat cells => return .flat cells

def tickChecked (bits cycles : Nat) : Controller → Checked Controller
  | .mbc3 m => return .mbc3 (← m.tickChecked bits cycles)
  | c => return c

def romBankChecked : Controller → Checked Nat
  | .rom _ => return 1
  | .mbc1 m => do within 16 (← m.romBankChecked counts)
  | .mbc2 m => do within 16 (← m.romBankChecked counts)
  | .mbc3 m => do within 16 (← m.romBankChecked counts)
  | .flat _ => return 1

def ramBankChecked : Controller → Checked Nat
  | .rom _ => return 0
  | .mbc1 m => do within 8 (← m.ramBankChecked counts)
  | .mbc2 _ => return 0
  | .mbc3 m => within 8 m.selector.toNat
  | .flat _ => return 0

def applyChecked (bits : Nat) (c : Controller) : Event → Checked Controller
  | .write address v => c.writeChecked counts address v
  | .tick cycles => c.tickChecked bits cycles
  | .load dump => c.loadRamChecked dump

def operateChecked (bits : Nat) (c : Controller) : Operation → Checked (Answer × Controller)
  | .happen e => return (.done, ← c.applyChecked counts bits e)
  | .read address => return (.byte (← c.readChecked counts address), c)
  | .dump => return (.contents c.ram, c)
  | .romBank => return (.bank (← c.romBankChecked counts), c)
  | .ramBank => return (.bank (← c.ramBankChecked counts), c)

def workChecked (bits : Nat) : List Operation → Controller → Checked (List Answer × Controller)
  | [], c => return ([], c)
  | operation :: rest, c => do
    let (answer, c) ← c.operateChecked counts bits operation
    let (answers, c) ← workChecked bits rest c
    return (answer :: answers, c)

end Checked

end Controller
end DotMatrix
