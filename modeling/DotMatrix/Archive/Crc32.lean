import DotMatrix.Memory

/-! # The cyclic redundancy check of 32 bits

The remainder of the bytes, lowest bit first, by a polynomial over the field of two elements. It
starts from all ones, and its complement is the checksum.
-/
namespace DotMatrix.Crc32

/-- The polynomial, its highest power left out. -/
def polynomial : UInt32 := 0xedb88320

def shift (remainder : UInt32) : UInt32 :=
  if remainder &&& 1 = 0 then remainder >>> 1 else (remainder >>> 1) ^^^ polynomial

def addByte (remainder : UInt32) (v : UInt8) : UInt32 :=
  Nat.repeat shift 8 (remainder ^^^ v.toUInt32)

def checksum (b : Bytes) : UInt32 := ~~~(b.foldl addByte 0xffffffff)

end DotMatrix.Crc32
