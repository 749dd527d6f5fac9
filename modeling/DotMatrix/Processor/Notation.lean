import DotMatrix.Processor.Instruction

/-! # Assembler notation

A listing is a mnemonic with at most two operands. The notation leaves out the absent condition of
an unconditional jump, and shows a memory operand in parentheses.
-/
namespace DotMatrix

inductive Mnemonic where
  | nop | ld | inc | dec | rlc | rrc | swap | rr | srl | bit | res | set | jp | jr | call | ret
  | rst | push | pop | add | adc | sub | sbc | and | xor | or | cp | reti | halt | stop | di | ei
  | ldh | rl | sla | sra | ccf | scf | cpl | daa | rra | rla | rrca | rlca
  deriving DecidableEq, Repr

/-- How an operand reaches its value; a pointer may move by one after its use. -/
structure Addressing where
  direct : Bool
  indirect : Bool
  increment : Bool
  decrement : Bool
  deriving DecidableEq, Repr

inductive Operand where
  | byteRegister (register : Register) (mode : Addressing)
  | wordRegister (register : Register) (mode : Addressing)
  | byte (value : UInt8) (mode : Addressing)
  | word (value : UInt16) (mode : Addressing)
  | condition (condition : Option Condition)
  | displaced (register : Register) (displacement : Int8) (mode : Addressing)
  | offset (displacement : Int8)
  | bit (number : UInt8)
  deriving DecidableEq, Repr

structure Listing where
  mnemonic : Mnemonic
  left : Option Operand
  right : Option Operand
  deriving DecidableEq, Repr

namespace Mnemonic

def all : List Mnemonic :=
  [.nop, .ld, .inc, .dec, .rlc, .rrc, .swap, .rr, .srl, .bit, .res, .set, .jp, .jr, .call, .ret,
    .rst, .push, .pop, .add, .adc, .sub, .sbc, .and, .xor, .or, .cp, .reti, .halt, .stop, .di,
    .ei, .ldh, .rl, .sla, .sra, .ccf, .scf, .cpl, .daa, .rra, .rla, .rrca, .rlca]

def text : Mnemonic → String
  | .nop => "nop"
  | .ld => "ld"
  | .inc => "inc"
  | .dec => "dec"
  | .rlc => "rlc"
  | .rrc => "rrc"
  | .swap => "swap"
  | .rr => "rr"
  | .srl => "srl"
  | .bit => "bit"
  | .res => "res"
  | .set => "set"
  | .jp => "jp"
  | .jr => "jr"
  | .call => "call"
  | .ret => "ret"
  | .rst => "rst"
  | .push => "push"
  | .pop => "pop"
  | .add => "add"
  | .adc => "adc"
  | .sub => "sub"
  | .sbc => "sbc"
  | .and => "and"
  | .xor => "xor"
  | .or => "or"
  | .cp => "cp"
  | .reti => "reti"
  | .halt => "halt"
  | .stop => "stop"
  | .di => "di"
  | .ei => "ei"
  | .ldh => "ldh"
  | .rl => "rl"
  | .sla => "sla"
  | .sra => "sra"
  | .ccf => "ccf"
  | .scf => "scf"
  | .cpl => "cpl"
  | .daa => "daa"
  | .rra => "rra"
  | .rla => "rla"
  | .rrca => "rrca"
  | .rlca => "rlca"

end Mnemonic

namespace Addressing

def immediate : Addressing := ⟨true, false, false, false⟩

def memory : Addressing := ⟨false, true, false, false⟩

def memoryUp : Addressing := ⟨false, true, true, false⟩

def memoryDown : Addressing := ⟨false, true, false, true⟩

def bits (m : Addressing) : Nat :=
  m.direct.toNat + 2 * m.indirect.toNat + 4 * m.increment.toNat + 8 * m.decrement.toNat

def ofBits (n : Nat) : Addressing :=
  ⟨n.testBit 0, n.testBit 1, n.testBit 2, n.testBit 3⟩

@[simp]
theorem ofBits_bits (m : Addressing) : ofBits m.bits = m := by
  rcases m with ⟨_ | _, _ | _, _ | _, _ | _⟩ <;> rfl

end Addressing

def Register.text : Register → String
  | .a => "a"
  | .b => "b"
  | .c => "c"
  | .d => "d"
  | .e => "e"
  | .h => "h"
  | .l => "l"
  | .f => "f"
  | .af => "af"
  | .bc => "bc"
  | .de => "de"
  | .hl => "hl"
  | .sp => "sp"
  | .pc => "pc"

def Condition.text : Condition → String
  | .nz => "nz"
  | .z => "z"
  | .nc => "nc"
  | .c => "c"

def signedText (e : Int8) : String :=
  if 0 ≤ e.toInt then "+" ++ toString e.toInt.toNat else "-" ++ toString e.toInt.natAbs

def enclosed (text : String) : String := "(" ++ text ++ ")"

namespace Operand

def text : Operand → String
  | .byteRegister r m => if m.indirect then enclosed r.text else r.text
  | .wordRegister r m =>
    if m.increment then enclosed (r.text ++ "+")
    else if m.decrement then enclosed (r.text ++ "-")
    else if m.indirect then enclosed r.text
    else r.text
  | .byte v m => let shown := "$" ++ Hex.byte v; if m.indirect then enclosed shown else shown
  | .word v m => let shown := "$" ++ Hex.word v; if m.indirect then enclosed shown else shown
  | .condition c => c.elim "" Condition.text
  | .displaced r e _ => r.text ++ signedText e
  | .offset e => signedText e
  | .bit n => toString n.toNat

end Operand

namespace Listing

def text (l : Listing) : String :=
  let (head, separator) := match l.left with
    | none => (l.mnemonic.text, ", ")
    | some (.condition none) => (l.mnemonic.text, " ")
    | some left => (l.mnemonic.text ++ " " ++ left.text, ", ")
  match l.right with
  | none => head
  | some right => head ++ separator ++ right.text

end Listing

def Place.operand : Place → Operand
  | .b => .byteRegister .b .immediate
  | .c => .byteRegister .c .immediate
  | .d => .byteRegister .d .immediate
  | .e => .byteRegister .e .immediate
  | .h => .byteRegister .h .immediate
  | .l => .byteRegister .l .immediate
  | .atHl => .wordRegister .hl .memory
  | .a => .byteRegister .a .immediate

def Pair.operand : Pair → Operand
  | .bc => .wordRegister .bc .immediate
  | .de => .wordRegister .de .immediate
  | .hl => .wordRegister .hl .immediate
  | .sp => .wordRegister .sp .immediate

def StackPair.operand : StackPair → Operand
  | .bc => .wordRegister .bc .immediate
  | .de => .wordRegister .de .immediate
  | .hl => .wordRegister .hl .immediate
  | .af => .wordRegister .af .immediate

def Pointer.operand : Pointer → Operand
  | .bc => .wordRegister .bc .memory
  | .de => .wordRegister .de .memory
  | .hlUp => .wordRegister .hl .memoryUp
  | .hlDown => .wordRegister .hl .memoryDown

def ByteOp.mnemonic : ByteOp → Mnemonic
  | .add => .add
  | .adc => .adc
  | .sub => .sub
  | .sbc => .sbc
  | .and => .and
  | .xor => .xor
  | .or => .or
  | .cp => .cp

def Shift.mnemonic : Shift → Mnemonic
  | .rlc => .rlc
  | .rrc => .rrc
  | .rl => .rl
  | .rr => .rr
  | .sla => .sla
  | .sra => .sra
  | .swap => .swap
  | .srl => .srl

def AccumulatorRotation.mnemonic : AccumulatorRotation → Mnemonic
  | .rlca => .rlca
  | .rrca => .rrca
  | .rla => .rla
  | .rra => .rra

namespace Instruction

def listing : Instruction → Listing
  | .nop => ⟨.nop, none, none⟩
  | .halt => ⟨.halt, none, none⟩
  | .stop v => ⟨.stop, some (.byte v .immediate), none⟩
  | .disableInterrupts => ⟨.di, none, none⟩
  | .enableInterrupts => ⟨.ei, none, none⟩
  | .rotateA op => ⟨op.mnemonic, none, none⟩
  | .decimalAdjust => ⟨.daa, none, none⟩
  | .complement => ⟨.cpl, none, none⟩
  | .setCarry => ⟨.scf, none, none⟩
  | .flipCarry => ⟨.ccf, none, none⟩
  | .load t s => ⟨.ld, some t.operand, some s.operand⟩
  | .loadImmediate t v => ⟨.ld, some t.operand, some (.byte v .immediate)⟩
  | .loadWord t v => ⟨.ld, some t.operand, some (.word v .immediate)⟩
  | .storeA t => ⟨.ld, some t.operand, some (.byteRegister .a .immediate)⟩
  | .fetchA s => ⟨.ld, some (.byteRegister .a .immediate), some s.operand⟩
  | .storeAAt v => ⟨.ld, some (.word v .memory), some (.byteRegister .a .immediate)⟩
  | .fetchAAt v => ⟨.ld, some (.byteRegister .a .immediate), some (.word v .memory)⟩
  | .storeAHigh v => ⟨.ldh, some (.byte v .memory), some (.byteRegister .a .immediate)⟩
  | .fetchAHigh v => ⟨.ldh, some (.byteRegister .a .immediate), some (.byte v .memory)⟩
  | .storeAHighC => ⟨.ld, some (.byteRegister .c .memory), some (.byteRegister .a .immediate)⟩
  | .fetchAHighC => ⟨.ld, some (.byteRegister .a .immediate), some (.byteRegister .c .memory)⟩
  | .storeSp v => ⟨.ld, some (.word v .memory), some (.wordRegister .sp .immediate)⟩
  | .loadSpHl => ⟨.ld, some (.wordRegister .sp .immediate), some (.wordRegister .hl .immediate)⟩
  | .loadHlSp e => ⟨.ld, some (.wordRegister .hl .immediate), some (.displaced .sp e .immediate)⟩
  | .inc t => ⟨.inc, some t.operand, none⟩
  | .dec t => ⟨.dec, some t.operand, none⟩
  | .incWord t => ⟨.inc, some t.operand, none⟩
  | .decWord t => ⟨.dec, some t.operand, none⟩
  | .addHl s => ⟨.add, some (.wordRegister .hl .immediate), some s.operand⟩
  | .addSp e => ⟨.add, some (.wordRegister .sp .immediate), some (.offset e)⟩
  | .byteOp op s => ⟨op.mnemonic, some (.byteRegister .a .immediate), some s.operand⟩
  | .byteOpImmediate op v =>
    ⟨op.mnemonic, some (.byteRegister .a .immediate), some (.byte v .immediate)⟩
  | .shift op t => ⟨op.mnemonic, some t.operand, none⟩
  | .testBit n s => ⟨.bit, some (.bit (UInt8.ofNat n)), some s.operand⟩
  | .resetBit n t => ⟨.res, some (.bit (UInt8.ofNat n)), some t.operand⟩
  | .setBit n t => ⟨.set, some (.bit (UInt8.ofNat n)), some t.operand⟩
  | .jumpRelative c e => ⟨.jr, some (.condition c), some (.offset e)⟩
  | .jump c v => ⟨.jp, some (.condition c), some (.word v .immediate)⟩
  | .jumpHl => ⟨.jp, some (.condition none), some (.wordRegister .hl .immediate)⟩
  | .call c v => ⟨.call, some (.condition c), some (.word v .immediate)⟩
  | .ret c => ⟨.ret, some (.condition c), none⟩
  | .reti => ⟨.reti, none, none⟩
  | .restart n => ⟨.rst, some (.byte (restartTarget n) .immediate), none⟩
  | .push s => ⟨.push, some s.operand, none⟩
  | .pop t => ⟨.pop, some t.operand, none⟩

def text (i : Instruction) : String := i.listing.text

end Instruction
end DotMatrix
