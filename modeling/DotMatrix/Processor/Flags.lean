/-! # The four processor flags

They occupy the upper nibble of a byte; the lower nibble does not exist and reads as zero.
-/
namespace DotMatrix

structure Flags where
  zero : Bool
  subtract : Bool
  halfCarry : Bool
  carry : Bool
  deriving DecidableEq, Repr, Inhabited

namespace Flags

def none : Flags := ⟨false, false, false, false⟩

def toByte (f : Flags) : UInt8 :=
  f.zero.toUInt8 <<< 7 ||| f.subtract.toUInt8 <<< 6 ||| f.halfCarry.toUInt8 <<< 5 |||
    f.carry.toUInt8 <<< 4

def ofByte (v : UInt8) : Flags :=
  ⟨v &&& 0x80 != 0, v &&& 0x40 != 0, v &&& 0x20 != 0, v &&& 0x10 != 0⟩

def contains (f mask : Flags) : Bool :=
  (f.zero || !mask.zero) && (f.subtract || !mask.subtract) &&
    (f.halfCarry || !mask.halfCarry) && (f.carry || !mask.carry)

def assign (f mask : Flags) (on : Bool) : Flags where
  zero := if mask.zero then on else f.zero
  subtract := if mask.subtract then on else f.subtract
  halfCarry := if mask.halfCarry then on else f.halfCarry
  carry := if mask.carry then on else f.carry

@[simp]
theorem ofByte_toByte (f : Flags) : ofByte f.toByte = f := by
  rcases f with ⟨_ | _, _ | _, _ | _, _ | _⟩ <;> rfl

theorem toByte_ofByte (v : UInt8) : (ofByte v).toByte = v &&& 0xf0 := by
  have key : ∀ n : Fin 256, (ofByte (UInt8.ofFin n)).toByte = UInt8.ofFin n &&& 0xf0 := by
    decide +kernel
  exact key v.toFin

end Flags
end DotMatrix
