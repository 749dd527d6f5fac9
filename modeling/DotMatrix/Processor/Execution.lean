import DotMatrix.Fault
import DotMatrix.Processor.Decoder
import DotMatrix.Processor.State

/-! # Executing instructions

`execute` gives the effect of one instruction on a machine whose program counter has already passed
it, and the cycles it took. `step` fetches, advances and executes, or lets time pass while the
processor sleeps; an opcode without an instruction stops it before anything has changed.
-/
namespace DotMatrix

namespace Registers

def ofPair (r : Registers) : Pair → UInt16
  | .bc => r.bc
  | .de => r.de
  | .hl => r.hl
  | .sp => r.sp

def setPair (r : Registers) (p : Pair) (w : UInt16) : Registers :=
  match p with
  | .bc => r.setBc w
  | .de => r.setDe w
  | .hl => r.setHl w
  | .sp => { r with sp := w }

def ofStackPair (r : Registers) : StackPair → UInt16
  | .bc => r.bc
  | .de => r.de
  | .hl => r.hl
  | .af => r.af

def setStackPair (r : Registers) (p : StackPair) (w : UInt16) : Registers :=
  match p with
  | .bc => r.setBc w
  | .de => r.setDe w
  | .hl => r.setHl w
  | .af => r.setAf w

def pointer (r : Registers) : Pointer → UInt16
  | .bc => r.bc
  | .de => r.de
  | .hlUp | .hlDown => r.hl

def movePointer (r : Registers) : Pointer → Registers
  | .bc | .de => r
  | .hlUp => r.setHl (r.hl + 1)
  | .hlDown => r.setHl (r.hl - 1)

end Registers

namespace Arithmetic

def apply (op : ByteOp) (x y : UInt8) (carry : Bool) : UInt8 × Flags :=
  match op with
  | .add => add x y false
  | .adc => add x y carry
  | .sub | .cp => sub x y false
  | .sbc => sub x y carry
  | .and => and x y
  | .xor => xor x y
  | .or => or x y

/-- Comparison sets the flags of a subtraction and keeps the accumulator. -/
def accumulate (op : ByteOp) (y : UInt8) (r : Registers) : Registers :=
  let (result, flags) := apply op r.a y r.f.carry
  if op = .cp then { r with f := flags } else { r with a := result, f := flags }

def rotateAccumulator (op : AccumulatorRotation) (r : Registers) : Registers :=
  let direction : Shift := match op with
    | .rlca => .rlc
    | .rrca => .rrc
    | .rla => .rl
    | .rra => .rr
  let (result, flags) := shift direction r.a r.f.carry
  { r with a := result, f := { flags with zero := false } }

end Arithmetic

namespace Machine

variable {β : Type} [Bus β]

def highPage (offset : UInt8) : UInt16 := Word.join 0xff offset

@[specialize]
def readPlace (s : Machine β) : Place → UInt8 × Machine β
  | .b => (s.registers.b, s)
  | .c => (s.registers.c, s)
  | .d => (s.registers.d, s)
  | .e => (s.registers.e, s)
  | .h => (s.registers.h, s)
  | .l => (s.registers.l, s)
  | .atHl => s.read s.registers.hl
  | .a => (s.registers.a, s)

@[specialize]
def writePlace (s : Machine β) (p : Place) (v : UInt8) : Machine β :=
  match p with
  | .b => { s with cpu.registers.b := v }
  | .c => { s with cpu.registers.c := v }
  | .d => { s with cpu.registers.d := v }
  | .e => { s with cpu.registers.e := v }
  | .h => { s with cpu.registers.h := v }
  | .l => { s with cpu.registers.l := v }
  | .atHl => s.write s.registers.hl v
  | .a => { s with cpu.registers.a := v }

/-- Replaces an operand by a function of it and of the flags, which become the flags it gives. -/
@[specialize]
def updatePlace (s : Machine β) (p : Place) (f : UInt8 → Flags → UInt8 × Flags) : Machine β :=
  let (v, s) := s.readPlace p
  let (result, flags) := f v s.flags
  (s.writePlace p result).setFlags flags

/-- The operand with one bit replaced; no flag changes. -/
@[specialize]
def mapPlace (s : Machine β) (p : Place) (f : UInt8 → UInt8) : Machine β :=
  let (v, s) := s.readPlace p
  s.writePlace p (f v)

def bitMask (n : Fin 8) : UInt8 := 1 <<< UInt8.ofNat n

def meets (s : Machine β) (condition : Option Condition) : Bool :=
  condition.all (Condition.holds s.flags)

def jump (s : Machine β) (address : UInt16) : Machine β := s.mapCpu (Cpu.jump · address)

@[specialize]
def loadA (s : Machine β) (address : UInt16) : Machine β :=
  let (v, s) := s.read address
  s.mapRegisters ({ · with a := v })

@[specialize]
def call (s : Machine β) (target : UInt16) : Machine β := (s.push s.registers.pc).jump target

@[specialize]
def ret (s : Machine β) : Machine β :=
  let (target, s) := s.pop
  s.jump target

/-- The effect of an instruction, given that its condition, if it has one, holds. -/
@[specialize]
def perform (s : Machine β) : Instruction → Machine β
  | .nop => s
  | .halt => s.mapCpu ({ · with halted := true })
  | .stop _ =>
    let s := s.mapCpu ({ · with stopped := true })
    s.note (.enteredStop s.cpu.instructionStart)
  | .disableInterrupts => s.mapCpu ({ · with ime := .off })
  | .enableInterrupts => s.mapCpu fun c => { c with ime := c.ime.schedule }
  | .rotateA op => s.mapRegisters (Arithmetic.rotateAccumulator op)
  | .decimalAdjust => s.mapRegisters fun r =>
    let (result, flags) := Arithmetic.decimalAdjust r.a r.f
    { r with a := result, f := flags }
  | .complement => s.mapRegisters fun r =>
    { r with a := ~~~r.a, f := { r.f with subtract := true, halfCarry := true } }
  | .setCarry => s.mapRegisters fun r =>
    { r with f := { r.f with subtract := false, halfCarry := false, carry := true } }
  | .flipCarry => s.mapRegisters fun r =>
    { r with f := { r.f with subtract := false, halfCarry := false, carry := !r.f.carry } }
  | .load target source =>
    let (v, s) := s.readPlace source
    s.writePlace target v
  | .loadImmediate target v => s.writePlace target v
  | .loadWord target w => s.mapRegisters (·.setPair target w)
  | .storeA target =>
    (s.write (s.registers.pointer target) s.registers.a).mapRegisters (·.movePointer target)
  | .fetchA source =>
    let (v, s) := s.read (s.registers.pointer source)
    s.mapRegisters fun r => { r.movePointer source with a := v }
  | .storeAAt address => s.write address s.registers.a
  | .fetchAAt address => s.loadA address
  | .storeAHigh offset => s.write (highPage offset) s.registers.a
  | .fetchAHigh offset => s.loadA (highPage offset)
  | .storeAHighC => s.write (highPage s.registers.c) s.registers.a
  | .fetchAHighC => s.loadA (highPage s.registers.c)
  | .storeSp address => { s with bus := Bus.writeWord s.bus address s.registers.sp }
  | .loadSpHl => s.mapRegisters fun r => { r with sp := r.hl }
  | .loadHlSp e => s.mapRegisters fun r =>
    let (result, flags) := Arithmetic.displace r.sp e
    { r.setHl result with f := flags }
  | .inc target => s.updatePlace target Arithmetic.inc
  | .dec target => s.updatePlace target Arithmetic.dec
  | .incWord target => s.mapRegisters fun r => r.setPair target (r.ofPair target + 1)
  | .decWord target => s.mapRegisters fun r => r.setPair target (r.ofPair target - 1)
  | .addHl source => s.mapRegisters fun r =>
    let (result, flags) := Arithmetic.addWord r.hl (r.ofPair source) r.f
    { r.setHl result with f := flags }
  | .addSp e => s.mapRegisters fun r =>
    let (result, flags) := Arithmetic.displace r.sp e
    { r with sp := result, f := flags }
  | .byteOp op source =>
    let (v, s) := s.readPlace source
    s.mapRegisters (Arithmetic.accumulate op v)
  | .byteOpImmediate op v => s.mapRegisters (Arithmetic.accumulate op v)
  | .shift op target => s.updatePlace target fun v f => Arithmetic.shift op v f.carry
  | .testBit n source =>
    let (v, s) := s.readPlace source
    s.mapRegisters fun r =>
      let zero := v &&& bitMask n == 0
      { r with f := { r.f with zero, subtract := false, halfCarry := true } }
  | .resetBit n target => s.mapPlace target (· &&& ~~~bitMask n)
  | .setBit n target => s.mapPlace target (· ||| bitMask n)
  | .jumpRelative _ e => s.jump (s.registers.pc + Word.displacement e)
  | .jump _ target => s.jump target
  | .jumpHl => s.jump s.registers.hl
  | .call _ target => s.call target
  | .ret _ => s.ret
  | .reti => s.ret.mapCpu ({ · with ime := .on })
  | .restart slot => s.call (Instruction.restartTarget slot).toUInt16
  | .push source => s.push (s.registers.ofStackPair source)
  | .pop target =>
    let (w, s) := s.pop
    s.mapRegisters (·.setStackPair target w)

end Machine

def Instruction.condition : Instruction → Option Condition
  | .jumpRelative c _ | .jump c _ | .call c _ | .ret c => c
  | _ => none

namespace Machine

variable {β : Type} [Bus β]

@[specialize]
def execute (s : Machine β) (i : Instruction) : Nat × Machine β :=
  if s.meets i.condition then (i.cost.taken, s.perform i)
  else (i.cost.notTaken.getD i.cost.taken, s)

def idleCycles : Nat := 4

/-- A scheduled enable that was there before the instruction, and that the instruction did not
cancel, takes effect after it. -/
def settleIme (before after : MasterEnable) : MasterEnable :=
  if before.scheduled && after.scheduled then .on else after

@[specialize]
def executeAt (s : Machine β) (address : UInt16) (i : Instruction) : Nat × Machine β :=
  let ime := s.cpu.ime
  let s : Machine β :=
    { s with
      cpu.instructionStart := address
      cpu.registers.pc := address + UInt16.ofNat i.length }
  let (cycles, s) := s.execute i
  (cycles, s.mapCpu fun c => { c with ime := settleIme ime c.ime, cycles := c.cycles + cycles })

@[specialize]
def decode (bus : β) (address : UInt16) : Except Fault Instruction :=
  match Instruction.at? (Bus.peek bus) address with
  | some i => .ok i
  | none => .error (.undecodable (Bus.peek bus address) address)

theorem decode_eq_ok_iff {bus : β} {address : UInt16} {i : Instruction} :
    decode bus address = .ok i ↔ Instruction.at? (Bus.peek bus) address = some i := by
  unfold decode
  cases Instruction.at? (Bus.peek bus) address <;> simp

/-- What the next step will execute: nothing while the processor sleeps. -/
@[specialize]
def fetch (s : Machine β) : Except Fault (Option Instruction) :=
  if s.cpu.idle then .ok none else (decode s.bus s.registers.pc).map some

/-- Executes what has been fetched, or lets an idle period pass, and gives the cycles it took. -/
@[specialize]
def proceed (s : Machine β) : Option Instruction → Nat × Machine β
  | none => (idleCycles, s.mapCpu fun c => { c with cycles := c.cycles + idleCycles })
  | some i =>
    let address := s.registers.pc
    let bus := Bus.fetched s.bus address i.length
    let bus := Bus.note bus (.executing address i)
    executeAt { s with bus } address i

/-- One instruction, or one idle period of a sleeping processor, and the cycles it took.
Interrupts are left to the caller. -/
@[specialize]
def step (s : Machine β) : Except Fault (Nat × Machine β) := s.fetch.map s.proceed

end Machine
end DotMatrix
