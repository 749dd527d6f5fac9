/-! # Sixteen-bit words as pairs of bytes

The processor is an eight-bit one: every word is moved as a high and a low byte.
-/
namespace DotMatrix.Word

def high (w : UInt16) : UInt8 := (w >>> 8).toUInt8

def low (w : UInt16) : UInt8 := w.toUInt8

def join (hi lo : UInt8) : UInt16 := hi.toUInt16 * 256 + lo.toUInt16

theorem toNat_high (w : UInt16) : (high w).toNat = w.toNat / 256 := by
  have := w.toNat_lt
  simp [high, Nat.shiftRight_eq_div_pow]
  omega

theorem toNat_low (w : UInt16) : (low w).toNat = w.toNat % 256 := by
  simp [low]

theorem toNat_join (hi lo : UInt8) : (join hi lo).toNat = hi.toNat * 256 + lo.toNat := by
  have := hi.toNat_lt
  have := lo.toNat_lt
  simp [join]
  omega

@[simp]
theorem high_join (hi lo : UInt8) : high (join hi lo) = hi := by
  have := lo.toNat_lt
  apply UInt8.toNat_inj.1
  rw [toNat_high, toNat_join]
  omega

@[simp]
theorem low_join (hi lo : UInt8) : low (join hi lo) = lo := by
  have := lo.toNat_lt
  apply UInt8.toNat_inj.1
  rw [toNat_low, toNat_join]
  omega

@[simp]
theorem join_high_low (w : UInt16) : join (high w) (low w) = w := by
  apply UInt16.toNat_inj.1
  rw [toNat_join, toNat_high, toNat_low]
  omega

/-- The displacement `e` read as a signed byte and widened, to be added modulo `2 ^ 16`. -/
def displacement (e : Int8) : UInt16 := e.toInt16.toUInt16

end DotMatrix.Word
