import DotMatrix.Processor.Bus
import DotMatrix.Processor.Registers

/-! # Processor state -/
namespace DotMatrix

/-- The interrupt master switch. A scheduled enable takes effect after the next instruction. -/
structure MasterEnable where
  enabled : Bool
  scheduled : Bool
  deriving DecidableEq, Repr, Inhabited

namespace MasterEnable

def off : MasterEnable := ⟨false, false⟩

def on : MasterEnable := ⟨true, false⟩

def schedule (m : MasterEnable) : MasterEnable := { m with scheduled := true }

end MasterEnable

structure Cpu where
  registers : Registers
  ime : MasterEnable
  halted : Bool
  stopped : Bool
  /-- Where the instruction executed last began. -/
  instructionStart : UInt16
  cycles : Nat
  deriving DecidableEq, Repr, Inhabited

namespace Cpu

def ofRegisters (r : Registers) : Cpu := ⟨r, .off, false, false, r.pc, 0⟩

def powerOn : Cpu := ofRegisters .cleared

def postBoot : Cpu := ofRegisters .postBoot

def idle (c : Cpu) : Bool := c.halted || c.stopped

def jump (c : Cpu) (address : UInt16) : Cpu := { c with registers.pc := address }

def wake (c : Cpu) : Cpu := { c with halted := false, stopped := false }

def text (c : Cpu) : String :=
  c.registers.text ++
    s!"  IME: {c.ime.enabled.toNat}  HALT: {c.halted.toNat}  CYCLES: {c.cycles}"

end Cpu

structure Machine (β : Type) where
  cpu : Cpu
  bus : β

namespace Machine

variable {β : Type}

@[inline]
def mapCpu (s : Machine β) (f : Cpu → Cpu) : Machine β := { s with cpu := f s.cpu }

@[inline]
def mapRegisters (s : Machine β) (f : Registers → Registers) : Machine β :=
  { s with cpu.registers := f s.cpu.registers }

@[inline]
def setFlags (s : Machine β) (f : Flags) : Machine β := { s with cpu.registers.f := f }

abbrev registers (s : Machine β) : Registers := s.cpu.registers

abbrev flags (s : Machine β) : Flags := s.cpu.registers.f

variable [Bus β]

@[specialize]
def read (s : Machine β) (address : UInt16) : UInt8 × Machine β :=
  let (v, bus) := Bus.read s.bus address
  (v, { s with bus })

@[specialize]
def write (s : Machine β) (address : UInt16) (v : UInt8) : Machine β :=
  { s with bus := Bus.write s.bus address v }

@[inline]
def note (s : Machine β) (n : Notice) : Machine β := { s with bus := Bus.note s.bus n }

/-- The stack grows downwards and `SP` points to its last word. -/
@[specialize]
def push (s : Machine β) (w : UInt16) : Machine β :=
  let sp := s.registers.sp - 2
  { cpu := { s.cpu with registers.sp := sp }, bus := Bus.writeWord s.bus sp w }

@[specialize]
def pop (s : Machine β) : UInt16 × Machine β :=
  let (w, bus) := Bus.readWord s.bus s.registers.sp
  (w, { cpu := { s.cpu with registers.sp := s.registers.sp + 2 }, bus })

end Machine
end DotMatrix
