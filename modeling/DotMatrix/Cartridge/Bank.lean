import DotMatrix.Memory

/-! # Banks

Cartridge memories are larger than their windows in the address space and show through them one
bank at a time: 16 KiB of ROM, 8 KiB of RAM.
-/
namespace DotMatrix

namespace Bank

def romSize : Nat := 0x4000

def ramSize : Nat := 0x2000

/-- Whole ROM banks in an image; even the shortest image counts as one. -/
def romCount (image : Bytes) : Nat := max (image.size / romSize) 1

def ramCount (ram : Bytes) : Nat := ram.size / ramSize

def romByte (image : Bytes) (bank : Nat) (address : UInt16) : UInt8 :=
  image.readOpen (bank * romSize + address.toNat % romSize)

def ramOffset (bank : Nat) (address : UInt16) : Nat := (address.toNat - 0xa000) + bank * ramSize

theorem romCount_pos (image : Bytes) : 0 < romCount image := by
  simp only [romCount]
  omega

/-- A write of 0 to a bank register selects bank 1. -/
def nonzero (v : UInt8) : UInt8 := if v = 0 then 1 else v

def unlocks (v : UInt8) : Bool := v &&& 0x0f == 0x0a

end Bank
end DotMatrix
