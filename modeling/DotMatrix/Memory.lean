/-! # Bytes and the address space

A blob of bytes reads as `FF`, the open bus, past its end. The address space is a row of 64 Ki
cells, one for every sixteen-bit address.
-/
namespace DotMatrix

abbrev Bytes := Array UInt8

namespace Bytes

/-- The byte at an offset, or what an unconnected bus shows. -/
def readOpen (b : Bytes) (offset : Nat) : UInt8 := b.getD offset 0xff

def zeros (size : Nat) : Bytes := Array.replicate size 0

/-- The contents of `source` cut, or continued with zeros, to `size` bytes. -/
def fit (size : Nat) (source : Bytes) : Bytes := Array.ofFn fun i : Fin size => source.getD i 0

@[simp]
theorem size_zeros (size : Nat) : (zeros size).size = size := Array.size_replicate

@[simp]
theorem size_fit (size : Nat) (source : Bytes) : (fit size source).size = size := Array.size_ofFn

theorem fit_size (b : Bytes) : fit b.size b = b := by
  apply Array.ext
  · simp
  · intro i h _
    simp at h
    simp [fit]

end Bytes

structure Memory where
  cells : Vector UInt8 UInt16.size

namespace Memory

def cleared : Memory := ⟨Vector.replicate _ 0⟩

def get (m : Memory) (address : UInt16) : UInt8 := m.cells[address.toFin]

def set (m : Memory) (address : UInt16) (v : UInt8) : Memory :=
  ⟨m.cells.set address.toNat v address.toNat_lt⟩

@[simp]
theorem get_cleared (address : UInt16) : cleared.get address = 0 := by
  simp [get, cleared]

theorem get_set (m : Memory) (a b : UInt16) (v : UInt8) :
    (m.set a v).get b = if a = b then v else m.get b := by
  by_cases h : a = b
  · subst h
    simp [get, set]
  · have hne : a.toNat ≠ b.toNat := fun e => h (UInt16.toNat_inj.1 e)
    simp [get, set, h, hne]

@[simp]
theorem get_set_self (m : Memory) (a : UInt16) (v : UInt8) : (m.set a v).get a = v := by
  simp [get_set]

theorem get_set_ne (m : Memory) {a b : UInt16} (v : UInt8) (h : a ≠ b) :
    (m.set a v).get b = m.get b := by
  simp [get_set, h]

end Memory
end DotMatrix
