import DotMatrix.Processor.Instruction

/-! # The opcode map

An opcode byte splits into a block (bits 7-6), a row (bits 5-3) and a column (bits 2-0). `ofBytes?`
reads the instruction that starts with three given bytes; eleven opcodes have none.
-/
namespace DotMatrix

def Place.ofCode (n : Nat) : Place :=
  match n % 8 with
  | 0 => .b
  | 1 => .c
  | 2 => .d
  | 3 => .e
  | 4 => .h
  | 5 => .l
  | 6 => .atHl
  | _ => .a

def Pair.ofCode (n : Nat) : Pair :=
  match n % 4 with
  | 0 => .bc
  | 1 => .de
  | 2 => .hl
  | _ => .sp

def StackPair.ofCode (n : Nat) : StackPair :=
  match n % 4 with
  | 0 => .bc
  | 1 => .de
  | 2 => .hl
  | _ => .af

def Pointer.ofCode (n : Nat) : Pointer :=
  match n % 4 with
  | 0 => .bc
  | 1 => .de
  | 2 => .hlUp
  | _ => .hlDown

def Condition.ofCode (n : Nat) : Condition :=
  match n % 4 with
  | 0 => .nz
  | 1 => .z
  | 2 => .nc
  | _ => .c

def ByteOp.ofCode (n : Nat) : ByteOp :=
  match n % 8 with
  | 0 => .add
  | 1 => .adc
  | 2 => .sub
  | 3 => .sbc
  | 4 => .and
  | 5 => .xor
  | 6 => .or
  | _ => .cp

def Shift.ofCode (n : Nat) : Shift :=
  match n % 8 with
  | 0 => .rlc
  | 1 => .rrc
  | 2 => .rl
  | 3 => .rr
  | 4 => .sla
  | 5 => .sra
  | 6 => .swap
  | _ => .srl

namespace Instruction

/-- The seventh column of the first block: accumulator and flag operations. -/
def accumulatorRow (row : Nat) : Instruction :=
  match row with
  | 0 => .rotateA .rlca
  | 1 => .rotateA .rrca
  | 2 => .rotateA .rla
  | 3 => .rotateA .rra
  | 4 => .decimalAdjust
  | 5 => .complement
  | 6 => .setCarry
  | _ => .flipCarry

/-- Opcodes `00`-`3F`, with the next byte and the next word as operands. -/
def firstBlock (row column : Nat) (byte : UInt8) (word : UInt16) : Instruction :=
  match column with
  | 0 =>
    match row with
    | 0 => .nop
    | 1 => .storeSp word
    | 2 => .stop byte
    | 3 => .jumpRelative none byte.toInt8
    | row => .jumpRelative (some (.ofCode row)) byte.toInt8
  | 1 => if row % 2 = 0 then .loadWord (.ofCode (row / 2)) word else .addHl (.ofCode (row / 2))
  | 2 => if row % 2 = 0 then .storeA (.ofCode (row / 2)) else .fetchA (.ofCode (row / 2))
  | 3 => if row % 2 = 0 then .incWord (.ofCode (row / 2)) else .decWord (.ofCode (row / 2))
  | 4 => .inc (.ofCode row)
  | 5 => .dec (.ofCode row)
  | 6 => .loadImmediate (.ofCode row) byte
  | _ => accumulatorRow row

/-- Opcodes `C0`-`FF` other than the `CB` escape. -/
def lastBlock? (row column : Nat) (byte : UInt8) (word : UInt16) : Option Instruction :=
  match column with
  | 0 =>
    match row with
    | 4 => some (.storeAHigh byte)
    | 5 => some (.addSp byte.toInt8)
    | 6 => some (.fetchAHigh byte)
    | 7 => some (.loadHlSp byte.toInt8)
    | row => some (.ret (some (.ofCode row)))
  | 1 =>
    match row with
    | 1 => some (.ret none)
    | 3 => some .reti
    | 5 => some .jumpHl
    | 7 => some .loadSpHl
    | row => some (.pop (.ofCode (row / 2)))
  | 2 =>
    match row with
    | 4 => some .storeAHighC
    | 5 => some (.storeAAt word)
    | 6 => some .fetchAHighC
    | 7 => some (.fetchAAt word)
    | row => some (.jump (some (.ofCode row)) word)
  | 3 =>
    match row with
    | 0 => some (.jump none word)
    | 6 => some .disableInterrupts
    | 7 => some .enableInterrupts
    | _ => none
  | 4 => if row < 4 then some (.call (some (.ofCode row)) word) else none
  | 5 =>
    if row % 2 = 0 then some (.push (.ofCode (row / 2)))
    else if row = 1 then some (.call none word) else none
  | 6 => some (.byteOpImmediate (.ofCode row) byte)
  | _ => some (.restart (Fin.ofNat 8 row))

def escaped (code : UInt8) : Instruction :=
  let row := code.toNat / 8 % 8
  let place := Place.ofCode code.toNat
  match code.toNat / 64 with
  | 0 => .shift (.ofCode row) place
  | 1 => .testBit (Fin.ofNat 8 row) place
  | 2 => .resetBit (Fin.ofNat 8 row) place
  | _ => .setBit (Fin.ofNat 8 row) place

/-- The instruction whose first three bytes are given; one that is shorter ignores the rest. -/
def ofBytes? (opcode second third : UInt8) : Option Instruction :=
  let row := opcode.toNat / 8 % 8
  let column := opcode.toNat % 8
  let word := Word.join third second
  if opcode = 0xcb then some (escaped second)
  else match opcode.toNat / 64 with
    | 0 => some (firstBlock row column second word)
    | 1 => some (if opcode = 0x76 then .halt else .load (.ofCode row) (.ofCode column))
    | 2 => some (.byteOp (.ofCode row) (.ofCode column))
    | _ => lastBlock? row column second word

/-- The instruction that starts at `address` in a memory; addresses wrap at sixteen bits. -/
def at? (memory : UInt16 → UInt8) (address : UInt16) : Option Instruction :=
  ofBytes? (memory address) (memory (address + 1)) (memory (address + 2))

end Instruction
end DotMatrix
