import DotMatrix.Proofs.Arithmetic.Chain

/-! # Decimal numbers of many bytes

With two decimal digits packed into every byte, the arithmetic unit adds and subtracts in base 16
and puts the result right by the decimal correction. In one column that comes to adding and
subtracting in base 100, and the carry flag that the correction leaves behind is the carry of that
base.
-/
namespace DotMatrix.Arithmetic

def Packed (v : UInt8) : Prop := v.toNat / 16 ≤ 9 ∧ v.toNat % 16 ≤ 9

def packedValue (v : UInt8) : Nat := 10 * (v.toNat / 16) + v.toNat % 16

def decimal (bytes : List UInt8) : Nat := number 100 packedValue bytes

def adjusted (column : UInt8 × UInt8 → Flags → UInt8 × Flags) (p : UInt8 × UInt8) (flags : Flags) :
    UInt8 × Flags :=
  let (v, between) := column p flags
  decimalAdjust v between

theorem Packed.value_lt {v : UInt8} (h : Packed v) : packedValue v < 100 := by
  obtain ⟨htens, hunits⟩ := h
  simp only [packedValue]
  omega

theorem packed_of_digits {v : UInt8} {t u : Nat} (h : v.toNat = 16 * t + u) (ht : t ≤ 9)
    (hu : u ≤ 9) : Packed v ∧ packedValue v = 10 * t + u := by
  simp only [Packed, packedValue, h]
  omega

section Columns
variable {x y : UInt8} (flags : Flags)

/-- The correction of a sum: six for units, and six times sixteen for tens, that make a carry in
decimals. -/
theorem adjusted_sums (hx : Packed x) (hy : Packed y) :
    let units := decide (10 ≤ x.toNat % 16 + y.toNat % 16 + flags.carry.toNat)
    let tens := decide (100 ≤ packedValue x + packedValue y + flags.carry.toNat)
    (adjusted sums (x, y) flags).1.toNat =
        (x.toNat + y.toNat + flags.carry.toNat + 6 * units.toNat + 96 * tens.toNat) % 256 ∧
      (adjusted sums (x, y) flags).2.carry = tens := by
  intro units tens
  obtain ⟨hx, hx'⟩ := hx
  obtain ⟨hy, hy'⟩ := hy
  have hc := flags.carry.toNat_le
  have hunits : (decide (16 ≤ x.toNat % 16 + y.toNat % 16 + flags.carry.toNat) ||
      decide (9 < (x.toNat + y.toNat + flags.carry.toNat) % 2 ^ 8 % 16)) = units := by
    rw [← Bool.decide_or]
    exact decide_eq_decide.2 (by omega)
  have htens : (decide (256 ≤ x.toNat + y.toNat + flags.carry.toNat) ||
      decide (0x99 < (x.toNat + y.toNat + flags.carry.toNat) % 2 ^ 8)) = tens := by
    rw [← Bool.decide_or]
    simp only [tens, packedValue]
    exact decide_eq_decide.2 (by omega)
  simp only [adjusted, sums, ← Grid.sum_eq_add, ← Grid.daa_eq_decimalAdjust, Grid.sum, Grid.daa,
    UInt8.toNat_ofNat', Bool.not_false, Bool.true_and, hunits, htens, Bool.false_eq_true, if_false,
    and_true]
  omega

/-- The correction of a difference takes the sixes away again that borrowing has brought. -/
theorem adjusted_differences (hx : Packed x) (hy : Packed y) :
    let units := decide (x.toNat % 16 < y.toNat % 16 + flags.carry.toNat)
    let tens := decide (packedValue x < packedValue y + flags.carry.toNat)
    ((adjusted differences (x, y) flags).1.toNat : Int) =
        (x.toNat - y.toNat - flags.carry.toNat - 6 * units.toNat - 96 * tens.toNat) % 256 ∧
      (adjusted differences (x, y) flags).2.carry = tens := by
  intro units tens
  obtain ⟨hx, hx'⟩ := hx
  obtain ⟨hy, hy'⟩ := hy
  have hc := flags.carry.toNat_le
  have hunits : decide ((x.toNat : Int) % 16 - (y.toNat : Int) % 16 - flags.carry.toNat < 0) =
      units := decide_eq_decide.2 (by omega)
  have htens : decide ((x.toNat : Int) - y.toNat - flags.carry.toNat < 0) = tens := by
    simp only [tens, packedValue]
    exact decide_eq_decide.2 (by omega)
  simp only [adjusted, differences, ← Grid.difference_eq_sub, ← Grid.daa_eq_decimalAdjust,
    Grid.difference, Grid.daa, UInt8.toNat_ofNat', Bool.not_true, Bool.false_and, Bool.or_false,
    hunits, htens, if_true, and_true]
  omega

/-- A column of a sum holds decimal digits again, and what it carries on makes up for the rest. -/
theorem packed_sums (hx : Packed x) (hy : Packed y) :
    Packed (adjusted sums (x, y) flags).1 ∧
      packedValue (adjusted sums (x, y) flags).1 +
          100 * (adjusted sums (x, y) flags).2.carry.toNat =
        packedValue x + packedValue y + flags.carry.toNat := by
  obtain ⟨hbyte, hcarry⟩ := adjusted_sums flags hx hy
  obtain ⟨hx, hx'⟩ := hx
  obtain ⟨hy, hy'⟩ := hy
  have hc := flags.carry.toNat_le
  have hunits := carry_bounds (m := 10)
    (s := x.toNat % 16 + y.toNat % 16 + flags.carry.toNat) (by omega)
  have htens := carry_bounds (m := 100)
    (s := packedValue x + packedValue y + flags.carry.toNat) (by simp only [packedValue]; omega)
  rw [hcarry]
  generalize adjusted sums (x, y) flags = result at *
  generalize (decide (10 ≤ _)).toNat = units at *
  generalize (decide (100 ≤ _)).toNat = tens at *
  simp only [packedValue] at htens
  obtain ⟨hpacked, hvalue⟩ := packed_of_digits (v := result.1)
    (t := x.toNat / 16 + y.toNat / 16 + units - 10 * tens)
    (u := x.toNat % 16 + y.toNat % 16 + flags.carry.toNat - 10 * units)
    (by omega) (by omega) (by omega)
  refine ⟨hpacked, ?_⟩
  rw [hvalue, packedValue, packedValue]
  omega

/-- So does a column of a difference, and what it borrows makes up for what it lacks. -/
theorem packed_differences (hx : Packed x) (hy : Packed y) :
    Packed (adjusted differences (x, y) flags).1 ∧
      packedValue (adjusted differences (x, y) flags).1 + packedValue y + flags.carry.toNat =
        packedValue x + 100 * (adjusted differences (x, y) flags).2.carry.toNat := by
  obtain ⟨hbyte, hcarry⟩ := adjusted_differences flags hx hy
  obtain ⟨hx, hx'⟩ := hx
  obtain ⟨hy, hy'⟩ := hy
  have hc := flags.carry.toNat_le
  have hunits := borrow_bounds (m := 10) (s := x.toNat % 16)
    (t := y.toNat % 16 + flags.carry.toNat) (by omega) (by omega)
  have htens := borrow_bounds (m := 100) (s := packedValue x)
    (t := packedValue y + flags.carry.toNat) (by simp only [packedValue]; omega)
    (by simp only [packedValue]; omega)
  rw [hcarry]
  generalize adjusted differences (x, y) flags = result at *
  generalize (decide (x.toNat % 16 < _)).toNat = units at *
  generalize (decide (packedValue x < _)).toNat = tens at *
  simp only [packedValue] at htens
  obtain ⟨hpacked, hvalue⟩ := packed_of_digits (v := result.1)
    (t := x.toNat / 16 + 10 * tens - y.toNat / 16 - units)
    (u := x.toNat % 16 + 10 * units - y.toNat % 16 - flags.carry.toNat)
    (by omega) (by omega) (by omega)
  refine ⟨hpacked, ?_⟩
  rw [hvalue, packedValue, packedValue]
  omega

theorem balanced_adjusted_sums (hx : Packed x) (hy : Packed y) :
    Balanced 100 packedValue 1 (pairValue packedValue 1) (adjusted sums) (x, y) := by
  intro flags
  obtain ⟨hpacked, hvalue⟩ := packed_sums flags hx hy
  refine ⟨hpacked.value_lt, ?_⟩
  simp only [pairValue]
  omega

theorem balanced_adjusted_differences (hx : Packed x) (hy : Packed y) :
    Balanced 100 packedValue (-1) (pairValue packedValue (-1)) (adjusted differences) (x, y) := by
  intro flags
  obtain ⟨hpacked, hvalue⟩ := packed_differences flags hx hy
  refine ⟨hpacked.value_lt, ?_⟩
  simp only [pairValue]
  omega

end Columns

/-- With the decimal correction after every byte, the arithmetic unit adds and subtracts numbers of
packed decimals, of any length and with a carry, and its results are packed decimals again. -/
theorem bytewise_is_decimal (xs ys : List UInt8) (hlen : xs.length = ys.length)
    (hxs : ∀ v ∈ xs, Packed v) (hys : ∀ v ∈ ys, Packed v) (flags : Flags) :
    let n := xs.length
    let x := decimal xs
    let y := decimal ys
    let c := flags.carry.toNat
    let sum := chain (adjusted sums) (xs.zip ys) flags
    let difference := chain (adjusted differences) (xs.zip ys) flags
    ((∀ v ∈ sum.1, Packed v) ∧
        Yields 100 packedValue sum n (x + y + c) (100 ^ n ≤ x + y + c)) ∧
      ((∀ v ∈ difference.1, Packed v) ∧
        Yields 100 packedValue difference n (x - y - c) (x < y + c)) := by
  intro n x y c sum difference
  have hzip : ∀ p ∈ xs.zip ys, Packed p.1 ∧ Packed p.2 := by
    intro p hp
    obtain ⟨hfirst, hsecond⟩ := List.of_mem_zip hp
    exact ⟨hxs _ hfirst, hys _ hsecond⟩
  refine ⟨⟨?_, ?_⟩, ⟨?_, ?_⟩⟩
  · exact forall_mem_chain
      (fun p hp flags => (packed_sums flags (hzip p hp).1 (hzip p hp).2).1) flags
  · exact chain_sum (by decide) hlen
      (fun p hp => balanced_adjusted_sums (hzip p hp).1 (hzip p hp).2) flags
  · exact forall_mem_chain
      (fun p hp flags => (packed_differences flags (hzip p hp).1 (hzip p hp).2).1) flags
  · exact chain_difference (by decide) hlen
      (fun p hp => balanced_adjusted_differences (hzip p hp).1 (hzip p hp).2) flags

theorem bytewise_is_decimal_four_digits :
    let flags : Flags := { Flags.none with carry := true }
    let sum := chain (adjusted sums) ([0x98, 0x49].zip [0x01, 0x50]) flags
    let difference := chain (adjusted differences) ([0x98, 0x49].zip [0x01, 0x50]) flags
    [0x98, 0x49].length = [(0x01 : UInt8), 0x50].length ∧
      (∀ v ∈ [0x98, 0x49], Packed v) ∧ (∀ v ∈ [0x01, 0x50], Packed v) ∧
      decimal [0x98, 0x49] = 4998 ∧ decimal [0x01, 0x50] = 5001 ∧
      decimal sum.1 = 0 ∧ sum.2.carry = true ∧
      decimal difference.1 = 9996 ∧ difference.2.carry = true := by
  intro flags sum difference
  have hxs : ∀ v ∈ [0x98, 0x49], Packed v := by simp [Packed]
  have hys : ∀ v ∈ [0x01, 0x50], Packed v := by simp [Packed]
  obtain ⟨⟨-, hsum⟩, ⟨-, hdifference⟩⟩ :=
    bytewise_is_decimal [0x98, 0x49] [0x01, 0x50] rfl hxs hys flags
  have hsumValue : (decimal sum.1 : Int) = 0 := hsum.value.trans (by decide)
  have hdifferenceValue : (decimal difference.1 : Int) = 9996 :=
    hdifference.value.trans (by decide)
  exact ⟨rfl, hxs, hys, rfl, rfl, mod_cast hsumValue, hsum.carry.2 (by decide),
    mod_cast hdifferenceValue, hdifference.carry.2 (by decide)⟩

end DotMatrix.Arithmetic
