import DotMatrix.Processor.Arithmetic
import DotMatrix.Processor.Registers

/-! # The instruction set

One constructor per row of the opcode map, with the operands that its columns pick. `length` is the
number of bytes an instruction occupies and `cost` the clock cycles it takes.
-/
namespace DotMatrix

/-- Where an eight-bit operand lives: a byte register, or the memory cell that `HL` points to. -/
inductive Place where
  | b | c | d | e | h | l | atHl | a
  deriving DecidableEq, Repr

inductive Pair where
  | bc | de | hl | sp
  deriving DecidableEq, Repr

inductive StackPair where
  | bc | de | hl | af
  deriving DecidableEq, Repr

/-- The memory cell that an accumulator transfer goes through; `HL` moves by one afterwards. -/
inductive Pointer where
  | bc | de | hlUp | hlDown
  deriving DecidableEq, Repr

inductive Condition where
  | nz | z | nc | c
  deriving DecidableEq, Repr

inductive ByteOp where
  | add | adc | sub | sbc | and | xor | or | cp
  deriving DecidableEq, Repr

/-- The one-byte rotations of the accumulator, which clear the zero flag. -/
inductive AccumulatorRotation where
  | rlca | rrca | rla | rra
  deriving DecidableEq, Repr

inductive Instruction where
  | nop
  | halt
  | stop (operand : UInt8)
  | disableInterrupts
  | enableInterrupts
  | rotateA (op : AccumulatorRotation)
  | decimalAdjust
  | complement
  | setCarry
  | flipCarry
  | load (target source : Place)
  | loadImmediate (target : Place) (value : UInt8)
  | loadWord (target : Pair) (value : UInt16)
  | storeA (target : Pointer)
  | fetchA (source : Pointer)
  | storeAAt (address : UInt16)
  | fetchAAt (address : UInt16)
  | storeAHigh (offset : UInt8)
  | fetchAHigh (offset : UInt8)
  | storeAHighC
  | fetchAHighC
  | storeSp (address : UInt16)
  | loadSpHl
  | loadHlSp (displacement : Int8)
  | inc (target : Place)
  | dec (target : Place)
  | incWord (target : Pair)
  | decWord (target : Pair)
  | addHl (source : Pair)
  | addSp (displacement : Int8)
  | byteOp (op : ByteOp) (source : Place)
  | byteOpImmediate (op : ByteOp) (value : UInt8)
  | shift (op : Shift) (target : Place)
  | testBit (bit : Fin 8) (source : Place)
  | resetBit (bit : Fin 8) (target : Place)
  | setBit (bit : Fin 8) (target : Place)
  | jumpRelative (condition : Option Condition) (displacement : Int8)
  | jump (condition : Option Condition) (target : UInt16)
  | jumpHl
  | call (condition : Option Condition) (target : UInt16)
  | ret (condition : Option Condition)
  | reti
  | restart (slot : Fin 8)
  | push (source : StackPair)
  | pop (target : StackPair)
  deriving DecidableEq, Repr

/-- Clock cycles of an instruction; `notTaken` is there for those that a condition can skip. -/
structure Cost where
  taken : Nat
  notTaken : Option Nat
  deriving DecidableEq, Repr

namespace Condition

def holds (f : Flags) : Condition → Bool
  | .nz => !f.zero
  | .z => f.zero
  | .nc => !f.carry
  | .c => f.carry

end Condition

namespace Instruction

def restartTarget (slot : Fin 8) : UInt8 := 8 * UInt8.ofNat slot

def length : Instruction → Nat
  | .storeSp _ | .loadWord .. | .storeAAt _ | .fetchAAt _ | .jump .. | .call .. => 3
  | .stop _ | .loadImmediate .. | .storeAHigh _ | .fetchAHigh _ | .loadHlSp _ | .addSp _
  | .byteOpImmediate .. | .shift .. | .testBit .. | .resetBit .. | .setBit ..
  | .jumpRelative .. => 2
  | _ => 1

/-- `plain` cycles for a register operand, `memory` cycles when the operand is in memory. -/
def placeCost (p : Place) (plain memory : Nat) : Nat :=
  if p = .atHl then memory else plain

def branchCost (condition : Option Condition) (plain taken skipped : Nat) : Cost :=
  match condition with
  | none => ⟨plain, none⟩
  | some _ => ⟨taken, some skipped⟩

def cost : Instruction → Cost
  | .nop | .halt | .stop _ | .disableInterrupts | .enableInterrupts | .rotateA _ | .decimalAdjust
  | .complement | .setCarry | .flipCarry | .jumpHl => ⟨4, none⟩
  | .load target source => ⟨max (placeCost target 4 8) (placeCost source 4 8), none⟩
  | .loadImmediate target _ => ⟨placeCost target 8 12, none⟩
  | .inc target | .dec target => ⟨placeCost target 4 12, none⟩
  | .byteOp _ source => ⟨placeCost source 4 8, none⟩
  | .shift _ target | .resetBit _ target | .setBit _ target => ⟨placeCost target 8 16, none⟩
  | .testBit _ source => ⟨placeCost source 8 12, none⟩
  | .storeA _ | .fetchA _ | .storeAHighC | .fetchAHighC | .loadSpHl | .incWord _ | .decWord _
  | .addHl _ | .byteOpImmediate .. => ⟨8, none⟩
  | .loadWord .. | .storeAHigh _ | .fetchAHigh _ | .loadHlSp _ | .pop _ => ⟨12, none⟩
  | .storeAAt _ | .fetchAAt _ | .addSp _ | .push _ | .restart _ | .reti => ⟨16, none⟩
  | .storeSp _ => ⟨20, none⟩
  | .jumpRelative condition _ => branchCost condition 12 12 8
  | .jump condition _ => branchCost condition 16 16 12
  | .call condition _ => branchCost condition 24 24 12
  | .ret condition => branchCost condition 16 20 8

end Instruction
end DotMatrix
