import DotMatrix.Fault
import DotMatrix.Processor.Execution

/-! # Routines

A second way to execute, by the listing of an instruction alone: its mnemonic picks a routine, which
resolves whatever operands it is given. A routine refuses a listing whose operands it has no use
for, and by then the program counter has moved. A fault therefore comes with the machine it leaves
behind.
-/
namespace DotMatrix

abbrev Routine (β : Type) := EStateM Fault (Machine β)

namespace Routine
variable {β : Type}

def refuse {α : Type} (l : Listing) : Routine β α := throw (.unexecutable l)

section Operands
variable (s : Machine β)

/-- The address that a memory operand refers to; registers and immediate values have none. -/
def address? : Operand → Option UInt16
  | .byteRegister r m =>
    if m.indirect then some (0xff00 + (s.registers.readByte r).toUInt16) else none
  | .wordRegister r m => if m.indirect then some (s.registers.readWord r) else none
  | .byte v m => if m.indirect then some (0xff00 + v.toUInt16) else none
  | .word v m => if m.indirect then some v else none
  | _ => none

def movePointer : Operand → Machine β
  | .wordRegister r m =>
    let w := s.registers.readWord r
    if m.increment then s.mapRegisters (·.writeWord r (w + 1))
    else if m.decrement then s.mapRegisters (·.writeWord r (w - 1))
    else s
  | _ => s

def meets : Operand → Bool
  | .condition c => c.all (Condition.holds s.flags)
  | _ => true

end Operands

def setFlags (f : Flags) : Routine β Unit := modify (·.setFlags f)

def writeByte (r : Register) (v : UInt8) : Routine β Unit :=
  modify (·.mapRegisters (·.writeByte r v))

def writeWord (r : Register) (w : UInt16) : Routine β Unit :=
  modify (·.mapRegisters (·.writeWord r w))

def jump (target : UInt16) : Routine β Unit := modify (·.jump target)

def left (l : Listing) : Routine β Operand :=
  match l.left with
  | some o => return o
  | none => refuse l

def operands (l : Listing) : Routine β (Operand × Operand) :=
  match l.left, l.right with
  | some o, some p => return (o, p)
  | _, _ => refuse l

/-- The cycles of an instruction that is skipped; only some can be. -/
def notTaken (l : Listing) (c : Cost) : Routine β Nat :=
  match c.notTaken with
  | some cycles => return cycles
  | none => refuse l

variable [Bus β]

def readOperand (l : Listing) (o : Operand) : Routine β UInt16 := do
  let s ← get
  match address? s o with
  | some address =>
    let (v, s) := s.read address
    set (movePointer s o)
    return v.toUInt16
  | none =>
    match o with
    | .byteRegister r _ => return (s.registers.readByte r).toUInt16
    | .wordRegister r _ => return s.registers.readWord r
    | .byte v _ => return v.toUInt16
    | .word v _ => return v
    | .bit n => return n.toUInt16
    | _ => refuse l

def writeOperand (l : Listing) (o : Operand) (w : UInt16) : Routine β Unit := do
  let s ← get
  match address? s o with
  | some address => set (movePointer (s.write address w.toUInt8) o)
  | none =>
    match o with
    | .byteRegister r _ => writeByte r w.toUInt8
    | .wordRegister r _ => writeWord r w
    | _ => refuse l

def pushWord (w : UInt16) : Routine β Unit := modify (·.push w)

def popWord : Routine β UInt16 := modifyGet fun s => s.pop

def load (l : Listing) : Routine β Unit := do
  match ← operands l with
  | (.word address ⟨_, true, _, _⟩, .wordRegister .sp _) =>
    modify fun s => { s with bus := Bus.writeWord s.bus address (s.registers.readWord .sp) }
  | (.wordRegister r _, .displaced base e _) =>
    let (result, flags) := Arithmetic.displace ((← get).registers.readWord base) e
    writeWord r result
    setFlags flags
  | (target, source) => writeOperand l target (← readOperand l source)

/-- A step up or down by one: of a word register named directly, or of a byte with its flags. -/
def moveByOne (l : Listing) (word : UInt16 → UInt16) (byte : UInt8 → Flags → UInt8 × Flags) :
    Routine β Unit := do
  match ← left l with
  | .wordRegister r ⟨true, _, _, _⟩ => writeWord r (word ((← get).registers.readWord r))
  | o =>
    let v := (← readOperand l o).toUInt8
    let (result, flags) := byte v (← get).flags
    writeOperand l o result.toUInt16
    setFlags flags

/-- The result of a byte operation and whether it is kept. -/
def byteOperation? (m : Mnemonic) (a v : UInt8) (carry : Bool) : Option (UInt8 × Flags) :=
  match m with
  | .add => some (Arithmetic.add a v false)
  | .adc => some (Arithmetic.add a v carry)
  | .sub | .cp => some (Arithmetic.sub a v false)
  | .sbc => some (Arithmetic.sub a v carry)
  | .and => some (Arithmetic.and a v)
  | .xor => some (Arithmetic.xor a v)
  | .or => some (Arithmetic.or a v)
  | _ => none

def accumulate (l : Listing) : Routine β Unit := do
  let (_, source) ← operands l
  let a := (← get).registers.readByte .a
  let v := (← readOperand l source).toUInt8
  match byteOperation? l.mnemonic a v (← get).flags.carry with
  | none => refuse l
  | some (result, flags) =>
    if l.mnemonic ≠ .cp then writeByte .a result
    setFlags flags

def add (l : Listing) : Routine β Unit := do
  match ← operands l with
  | (.wordRegister .sp _, .offset e) =>
    let (result, flags) := Arithmetic.displace ((← get).registers.readWord .sp) e
    writeWord .sp result
    setFlags flags
  | (.wordRegister r ⟨true, _, _, _⟩, source) =>
    let w ← readOperand l source
    let s ← get
    let (result, flags) := Arithmetic.addWord (s.registers.readWord r) w s.flags
    writeWord r result
    setFlags flags
  | _ => accumulate l

def rotateAccumulator (op : Shift) : Routine β Unit := do
  let s ← get
  let (result, flags) := Arithmetic.shift op (s.registers.readByte .a) s.flags.carry
  writeByte .a result
  setFlags { flags with zero := false }

def shift (l : Listing) (op : Shift) : Routine β Unit := do
  let o ← left l
  let v := (← readOperand l o).toUInt8
  let (result, flags) := Arithmetic.shift op v (← get).flags.carry
  writeOperand l o result.toUInt16
  setFlags flags

def testBit (l : Listing) : Routine β Unit := do
  let (bit, source) ← operands l
  let n ← readOperand l bit
  let v ← readOperand l source
  setFlags { (← get).flags with zero := v &&& 1 <<< n == 0, subtract := false, halfCarry := true }

def changeBit (l : Listing) (change : UInt16 → UInt16 → UInt16) : Routine β Unit := do
  let (bit, target) ← operands l
  let n ← readOperand l bit
  let v ← readOperand l target
  writeOperand l target (change v (1 <<< n))

/-- Where a jump or a call goes: an offset is added to the program counter. -/
def destination (l : Listing) (pc : UInt16) : Operand → Routine β UInt16
  | .offset e => return pc + Word.displacement e
  | target => readOperand l target

def branch (l : Listing) (c : Cost) (calling : Bool) : Routine β Nat := do
  let (condition, target) ← operands l
  if meets (← get) condition then
    let pc := (← get).registers.readWord .pc
    let address ← destination l pc target
    if calling then pushWord pc
    jump address
    return c.taken
  else notTaken l c

def ret (l : Listing) (c : Cost) : Routine β Nat := do
  if meets (← get) (← left l) then
    jump (← popWord)
    return c.taken
  else notTaken l c

def restart (l : Listing) : Routine β Unit := do
  match ← left l with
  | .byte vector _ =>
    pushWord ((← get).registers.readWord .pc)
    jump vector.toUInt16
  | _ => refuse l

def push (l : Listing) : Routine β Unit := do
  match ← left l with
  | .wordRegister r _ => pushWord ((← get).registers.readWord r)
  | _ => refuse l

def pop (l : Listing) : Routine β Unit := do
  match ← left l with
  | .wordRegister r _ => writeWord r (← popWord)
  | _ => refuse l

def decimalAdjust : Routine β Unit := do
  let s ← get
  let (result, flags) := Arithmetic.decimalAdjust (s.registers.readByte .a) s.flags
  writeByte .a result
  setFlags flags

def complement : Routine β Unit := do
  let s ← get
  writeByte .a (~~~s.registers.readByte .a)
  setFlags { s.flags with subtract := true, halfCarry := true }

def carryFlag (carry : Bool → Bool) : Routine β Unit := do
  let f := (← get).flags
  setFlags { f with subtract := false, halfCarry := false, carry := carry f.carry }

def stop : Routine β Unit := do
  modify (·.mapCpu ({ · with stopped := true }))
  modify fun s => s.note (.enteredStop s.cpu.instructionStart)

def ofListing (l : Listing) (c : Cost) : Routine β Nat :=
  match l.mnemonic with
  | .nop => return c.taken
  | .ld | .ldh => do load l; return c.taken
  | .inc => do moveByOne l (· + 1) Arithmetic.inc; return c.taken
  | .dec => do moveByOne l (· - 1) Arithmetic.dec; return c.taken
  | .add => do add l; return c.taken
  | .adc | .sub | .sbc | .and | .xor | .or | .cp => do accumulate l; return c.taken
  | .rlca => do rotateAccumulator .rlc; return c.taken
  | .rla => do rotateAccumulator .rl; return c.taken
  | .rrca => do rotateAccumulator .rrc; return c.taken
  | .rra => do rotateAccumulator .rr; return c.taken
  | .rlc => do shift l .rlc; return c.taken
  | .rrc => do shift l .rrc; return c.taken
  | .rl => do shift l .rl; return c.taken
  | .rr => do shift l .rr; return c.taken
  | .sla => do shift l .sla; return c.taken
  | .sra => do shift l .sra; return c.taken
  | .srl => do shift l .srl; return c.taken
  | .swap => do shift l .swap; return c.taken
  | .bit => do testBit l; return c.taken
  | .res => do changeBit l fun v mask => v &&& ~~~mask; return c.taken
  | .set => do changeBit l fun v mask => v ||| mask; return c.taken
  | .jp | .jr => branch l c false
  | .call => branch l c true
  | .ret => ret l c
  | .reti => do jump (← popWord); modify (·.mapCpu ({ · with ime := .on })); return c.taken
  | .rst => do restart l; return c.taken
  | .push => do push l; return c.taken
  | .pop => do pop l; return c.taken
  | .daa => do decimalAdjust; return c.taken
  | .cpl => do complement; return c.taken
  | .scf => do carryFlag fun _ => true; return c.taken
  | .ccf => do carryFlag not; return c.taken
  | .di => do modify (·.mapCpu ({ · with ime := .off })); return c.taken
  | .ei => do modify (·.mapCpu fun c => { c with ime := c.ime.schedule }); return c.taken
  | .halt => do modify (·.mapCpu ({ · with halted := true })); return c.taken
  | .stop => do stop; return c.taken

/-- How a step ends in terms of routines, if a fault leaves the machine behind as it was. -/
def ofStep (s : Machine β) : Except Fault (Nat × Machine β) → EStateM.Result Fault (Machine β) Nat
  | .ok (cycles, t) => .ok cycles t
  | .error fault => .error fault s

/-- One step by routines: the instruction at the program counter is decoded, the program counter
moves behind it, and the routine of its listing runs. -/
def step : Routine β Nat := do
  let s ← get
  if s.cpu.idle then
    set (s.mapCpu fun c => { c with cycles := c.cycles + Machine.idleCycles })
    return Machine.idleCycles
  let pc := s.registers.pc
  match Machine.decode s.bus pc with
  | .error fault => throw fault
  | .ok i =>
    let bus := Bus.note (Bus.fetched s.bus pc i.length) (.executing pc i)
    let ime := s.cpu.ime
    set { s with
      bus
      cpu.instructionStart := pc
      cpu.registers.pc := pc + UInt16.ofNat i.length }
    let cycles ← ofListing i.listing i.cost
    modify (·.mapCpu fun c =>
      { c with ime := Machine.settleIme ime c.ime, cycles := c.cycles + cycles })
    return cycles

end Routine
end DotMatrix
