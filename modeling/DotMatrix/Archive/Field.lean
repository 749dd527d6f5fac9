import DotMatrix.Memory

/-! # Fields of a record

Numbers lie in a record with their lowest byte first. Nothing can be read past the end of the
bytes.
-/
namespace DotMatrix.Bytes

def number? (b : Bytes) (offset : Nat) : Nat → Option Nat
  | 0 => some 0
  | width + 1 => do
    let low ← b[offset]?
    let rest ← number? b (offset + 1) width
    return low.toNat + 256 * rest

def slice? (b : Bytes) (offset size : Nat) : Option Bytes :=
  if offset + size ≤ b.size then some (b.extract offset (offset + size)) else none

def holds (b : Bytes) (offset : Nat) : List UInt8 → Bool
  | [] => true
  | v :: rest => b[offset]? == some v && holds b (offset + 1) rest

end DotMatrix.Bytes
