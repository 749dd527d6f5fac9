import DotMatrix.Word
import DotMatrix.Processor.Flags

/-! # The arithmetic unit

Every operation is a function of its operands that gives the result together with all four flags.
Half carries leave bit 3 of a byte and bit 11 of a word.
-/
namespace DotMatrix

inductive Shift where
  | rlc | rrc | rl | rr | sla | sra | swap | srl
  deriving DecidableEq, Repr

namespace Arithmetic

def add (x y : UInt8) (carry : Bool) : UInt8 × Flags :=
  let result := x + y + carry.toUInt8
  (result, {
    zero := result == 0
    subtract := false
    halfCarry := decide (x.toNat % 16 + y.toNat % 16 + carry.toNat > 0x0f)
    carry := decide (x.toNat + y.toNat + carry.toNat > 0xff) })

def sub (x y : UInt8) (borrow : Bool) : UInt8 × Flags :=
  let result := x - y - borrow.toUInt8
  (result, {
    zero := result == 0
    subtract := true
    halfCarry := decide (x.toNat % 16 < y.toNat % 16 + borrow.toNat)
    carry := decide (x.toNat < y.toNat + borrow.toNat) })

def and (x y : UInt8) : UInt8 × Flags :=
  let result := x &&& y
  (result, ⟨result == 0, false, true, false⟩)

def or (x y : UInt8) : UInt8 × Flags :=
  let result := x ||| y
  (result, ⟨result == 0, false, false, false⟩)

def xor (x y : UInt8) : UInt8 × Flags :=
  let result := x ^^^ y
  (result, ⟨result == 0, false, false, false⟩)

/-- Increments leave the carry flag as it is. -/
def inc (x : UInt8) (before : Flags) : UInt8 × Flags :=
  let result := x + 1
  (result, ⟨result == 0, false, x &&& 0x0f == 0x0f, before.carry⟩)

def dec (x : UInt8) (before : Flags) : UInt8 × Flags :=
  let result := x - 1
  (result, ⟨result == 0, true, x &&& 0x0f == 0x00, before.carry⟩)

/-- Word addition carries out of bits 11 and 15 and leaves the zero flag as it is. -/
def addWord (x y : UInt16) (before : Flags) : UInt16 × Flags :=
  (x + y, {
    zero := before.zero
    subtract := false
    halfCarry := decide (x.toNat % 0x1000 + y.toNat % 0x1000 > 0x0fff)
    carry := decide (x.toNat + y.toNat > 0xffff) })

/-- A signed displacement moves the word, but its flags are those of adding the unsigned low
bytes. -/
def displace (x : UInt16) (e : Int8) : UInt16 × Flags :=
  (x + Word.displacement e, {
    zero := false
    subtract := false
    halfCarry := decide (x.toNat % 0x10 + e.toUInt8.toNat % 0x10 > 0x0f)
    carry := decide (x.toNat % 0x100 + e.toUInt8.toNat > 0xff) })

/-- Corrects a sum or difference of two packed decimals: 6 is added to or taken from each digit
that left its range. -/
def decimalAdjust (x : UInt8) (before : Flags) : UInt8 × Flags :=
  let units := before.halfCarry || (!before.subtract && decide (x &&& 0x0f > 0x09))
  let tens := before.carry || (!before.subtract && decide (x > 0x99))
  let correction := (if units then 0x06 else 0) ||| (if tens then 0x60 else 0)
  let result := if before.subtract then x - correction else x + correction
  (result, ⟨result == 0, before.subtract, false, tens⟩)

def shift (op : Shift) (x : UInt8) (carry : Bool) : UInt8 × Flags :=
  let top := x &&& 0x80 != 0
  let bottom := x &&& 0x01 != 0
  let (result, out) := match op with
    | .rlc => (x <<< 1 ||| x >>> 7, top)
    | .rrc => (x >>> 1 ||| x <<< 7, bottom)
    | .rl => (x <<< 1 ||| carry.toUInt8, top)
    | .rr => (x >>> 1 ||| carry.toUInt8 <<< 7, bottom)
    | .sla => (x <<< 1, top)
    | .sra => (x >>> 1 ||| x &&& 0x80, bottom)
    | .swap => (x <<< 4 ||| x >>> 4, false)
    | .srl => (x >>> 1, bottom)
  (result, ⟨result == 0, false, false, out⟩)

end Arithmetic
end DotMatrix
