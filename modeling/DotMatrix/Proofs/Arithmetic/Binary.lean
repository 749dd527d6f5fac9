import DotMatrix.Proofs.Arithmetic.Chain

/-! # Binary numbers of many bytes

Sums, differences and doubles go from the lowest byte upwards, halves from the highest one down.
Each operation has its law of one column, in which the carry flag has the weight of the next column,
and what it does to a whole number follows from that.
-/
namespace DotMatrix.Arithmetic

def binary (bytes : List UInt8) : Nat := number 256 UInt8.toNat bytes

def signed (bytes : List UInt8) : Int := Int.bmod (binary bytes) (256 ^ bytes.length)

def shifts (op : Shift) (x : UInt8) (flags : Flags) : UInt8 × Flags := shift op x flags.carry

/-- Shifts one byte, and then the rest by the operation that brings in what fell out before. -/
def shiftChain (first next : Shift) : List UInt8 → Flags → List UInt8 × Flags
  | [], flags => ([], flags)
  | x :: rest, flags =>
    let (v, between) := shifts first x flags
    let (vs, last) := chain (shifts next) rest between
    (v :: vs, last)

def shiftLeft (xs : List UInt8) (flags : Flags) : List UInt8 × Flags :=
  shiftChain .sla .rl xs flags

def shiftRight (first : Shift) (xs : List UInt8) (flags : Flags) : List UInt8 × Flags :=
  let (vs, last) := shiftChain first .rr xs.reverse flags
  (vs.reverse, last)

theorem binary_lt (xs : List UInt8) : binary xs < 256 ^ xs.length :=
  number_lt (by decide) fun x _ => x.toNat_lt

theorem balanced_sums (p : UInt8 × UInt8) :
    Balanced 256 UInt8.toNat 1 (pairValue UInt8.toNat 1) sums p := by
  intro flags
  have hx := p.1.toNat_lt
  have hy := p.2.toNat_lt
  have hc := flags.carry.toNat_le
  have hcarry := carry_bounds (m := 256)
    (s := p.1.toNat + p.2.toNat + flags.carry.toNat) (by omega)
  refine ⟨UInt8.toNat_lt _, ?_⟩
  simp only [sums, ← Grid.sum_eq_add, Grid.sum, UInt8.toNat_ofNat', pairValue]
  omega

theorem balanced_differences (p : UInt8 × UInt8) :
    Balanced 256 UInt8.toNat (-1) (pairValue UInt8.toNat (-1)) differences p := by
  intro flags
  have hx := p.1.toNat_lt
  have hy := p.2.toNat_lt
  have hc := flags.carry.toNat_le
  have hborrow := borrow_bounds (t := p.2.toNat + flags.carry.toNat) hx (by omega)
  have hbelow : decide ((p.1.toNat : Int) - p.2.toNat - flags.carry.toNat < 0) =
      decide (p.1.toNat < p.2.toNat + flags.carry.toNat) := decide_eq_decide.2 (by omega)
  refine ⟨UInt8.toNat_lt _, ?_⟩
  simp only [differences, ← Grid.difference_eq_sub, Grid.difference, UInt8.toNat_ofNat', pairValue,
    hbelow]
  omega

theorem balanced_shifts (x : UInt8) :
    Balanced 256 UInt8.toNat 1 (fun x => 2 * x.toNat) (shifts .rl) x := by
  intro flags
  refine ⟨UInt8.toNat_lt _, ?_⟩
  have h := Grid.forall_byte (P := fun x => ∀ c, (shift .rl x c).1.toNat +
    256 * (shift .rl x c).2.carry.toNat = 2 * x.toNat + c.toNat) (by decide +kernel) x flags.carry
  simp only [shifts, one_mul]
  exact_mod_cast h

theorem shift_rr (x : UInt8) (c : Bool) :
    2 * (shift .rr x c).1.toNat + (shift .rr x c).2.carry.toNat = 256 * c.toNat + x.toNat :=
  Grid.forall_byte (P := fun x => ∀ c, 2 * (shift .rr x c).1.toNat +
    (shift .rr x c).2.carry.toNat = 256 * c.toNat + x.toNat) (by decide +kernel) x c

/-- The operation on the first byte shifts in a bit of its own: none, or a copy of the sign. -/
theorem shift_first (x : UInt8) (c : Bool) :
    shift .sla x c = shift .rl x false ∧ shift .srl x c = shift .rr x false ∧
      shift .sra x c = shift .rr x (x.toNat.testBit 7) :=
  Grid.forall_byte (P := fun x => ∀ c, shift .sla x c = shift .rl x false ∧
    shift .srl x c = shift .rr x false ∧ shift .sra x c = shift .rr x (x.toNat.testBit 7))
    (by decide +kernel) x c

section Top
variable {xs : List UInt8}

def top (xs : List UInt8) : Bool := (binary xs).testBit (8 * xs.length - 1)

theorem top_iff (hpos : 0 < xs.length) : top xs = true ↔ 256 ^ xs.length ≤ 2 * binary xs := by
  have hlt := binary_lt xs
  obtain ⟨k, hk⟩ : ∃ k, 8 * xs.length = k + 1 :=
    Nat.exists_eq_succ_of_ne_zero (by omega)
  have hpow : 256 ^ xs.length = 2 * 2 ^ k := by
    rw [show (256 : Nat) = 2 ^ 8 from rfl, ← pow_mul, hk, pow_succ']
  rw [hpow] at hlt ⊢
  have hquotient : binary xs / 2 ^ k < 2 := Nat.div_lt_of_lt_mul (by omega)
  have hle : 1 ≤ binary xs / 2 ^ k ↔ 2 ^ k ≤ binary xs := by
    rw [Nat.le_div_iff_mul_le (by positivity), one_mul]
  rw [top, hk, Nat.add_sub_cancel, Nat.testBit_eq_decide_div_mod_eq, decide_eq_true_iff,
    Nat.mod_eq_of_lt hquotient]
  omega

theorem top_eq (hne : xs ≠ []) : top xs = (xs.getLast hne).toNat.testBit 7 := by
  have hlt : binary xs.dropLast < 2 ^ (8 * xs.dropLast.length) := by
    rw [pow_mul]
    exact binary_lt xs.dropLast
  have hbinary : binary xs =
      2 ^ (8 * xs.dropLast.length) * (xs.getLast hne).toNat + binary xs.dropLast := by
    conv_lhs => rw [← List.dropLast_concat_getLast hne]
    rw [pow_mul]
    simp only [binary, number_append, number_cons, number_nil, mul_zero, add_zero]
    exact Nat.add_comm _ _
  have hplace : 8 * xs.length - 1 = 8 * xs.dropLast.length + 7 := by
    have hpos := List.length_pos_iff.2 hne
    rw [List.length_dropLast]
    omega
  rw [top, hbinary, hplace, Nat.testBit_two_pow_mul_add _ hlt, if_neg (by omega),
    Nat.add_sub_cancel_left]

theorem even_pow (hpos : 0 < xs.length) : ∃ m, 256 ^ xs.length = 2 * m :=
  (by decide : 2 ∣ 256).trans (dvd_pow_self 256 hpos.ne')

theorem signed_eq (hpos : 0 < xs.length) :
    signed xs = binary xs - 256 ^ xs.length * (top xs).toNat := by
  have hlt := binary_lt xs
  have htop := top_iff hpos
  obtain ⟨m, hm⟩ := even_pow hpos
  have hmod : (binary xs : Int) % (2 * m : Nat) = binary xs := by
    norm_cast
    exact Nat.mod_eq_of_lt (hm ▸ hlt)
  have hcast : (256 : Int) ^ xs.length = 2 * m := mod_cast hm
  rw [hm] at hlt htop
  rw [signed, hm, Int.bmod_def, hmod, hcast]
  cases h : top xs with
  | false =>
    have hlow : ¬ 2 * m ≤ 2 * binary xs := by simpa [h] using htop
    rw [if_pos (by omega)]
    simp
  | true =>
    have hhigh : 2 * m ≤ 2 * binary xs := htop.1 h
    rw [if_neg (by omega)]
    simp

end Top

section Shifts
variable {xs : List UInt8}

theorem shiftChain_of_first {first next : Shift} {x : UInt8} {bit : Bool} {flags : Flags}
    (rest : List UInt8) (h : shift first x flags.carry = shift next x bit) :
    shiftChain first next (x :: rest) flags =
      chain (shifts next) (x :: rest) { flags with carry := bit } := by
  simp [shiftChain, chain, shifts, h]

theorem worth_double (xs : List UInt8) : worth 256 (fun x => 2 * x.toNat) xs = 2 * binary xs := by
  induction xs with
  | nil => rfl
  | cons x xs ih =>
    simp only [worth, binary, number_cons] at ih ⊢
    push_cast
    linear_combination 256 * ih

theorem shiftLeft_yields (hpos : 0 < xs.length) (flags : Flags) :
    Yields 256 UInt8.toNat (shiftLeft xs flags) xs.length (2 * binary xs) (top xs = true) := by
  have htop := top_iff hpos
  obtain ⟨x, rest, rfl⟩ := List.exists_cons_of_length_pos hpos
  have hshift : shiftLeft (x :: rest) flags =
      chain (shifts .rl) (x :: rest) { flags with carry := false } :=
    shiftChain_of_first rest (shift_first x flags.carry).1
  have hyields := chain_yields_up (by decide)
    (fun y (_ : y ∈ x :: rest) => balanced_shifts y) { flags with carry := false }
  rw [← hshift, worth_double] at hyields
  simp only [Bool.toNat_false, Nat.cast_zero, add_zero] at hyields
  exact ⟨hyields.length, hyields.value, hyields.carry.trans (by rw [htop]; norm_cast)⟩

/-- The bits that move down through the bytes halve the number. By induction from the highest byte,
which takes in the bit from outside: what falls out of it is worth half of a unit of its own. -/
theorem chain_rr (ds : List UInt8) (flags : Flags) :
    2 * binary (chain (shifts .rr) ds flags).1.reverse +
        (chain (shifts .rr) ds flags).2.carry.toNat =
      256 ^ ds.length * flags.carry.toNat + binary ds.reverse := by
  induction ds generalizing flags with
  | nil => simp [chain, binary]
  | cons d ds ih =>
    have hfirst := shift_rr d flags.carry
    have hrest := ih (shifts .rr d flags).2
    simp only [binary, chain, List.reverse_cons, number_append, List.length_reverse, length_chain,
      number_cons, number_nil, List.length_cons, pow_succ, shifts] at hrest ⊢
    linear_combination hrest + 256 ^ ds.length * hfirst

/-- What a right shift leaves behind is worth the bit that comes in from above and the number. -/
theorem shiftRight_value (hne : xs ≠ []) {first : Shift} {bit : Bool} {flags : Flags}
    (h : shift first (xs.getLast hne) flags.carry = shift .rr (xs.getLast hne) bit) :
    (shiftRight first xs flags).1.length = xs.length ∧
      2 * binary (shiftRight first xs flags).1 + (shiftRight first xs flags).2.carry.toNat =
        256 ^ xs.length * bit.toNat + binary xs := by
  have hreverse : xs.reverse = xs.getLast hne :: xs.dropLast.reverse := by
    rw [← List.reverse_concat, List.dropLast_concat_getLast]
  have hshift : shiftRight first xs flags =
      ((chain (shifts .rr) xs.reverse { flags with carry := bit }).1.reverse,
        (chain (shifts .rr) xs.reverse { flags with carry := bit }).2) := by
    rw [shiftRight, hreverse, shiftChain_of_first _ h]
  have hvalue := chain_rr xs.reverse { flags with carry := bit }
  rw [List.reverse_reverse, List.length_reverse] at hvalue
  rw [hshift]
  exact ⟨by simp, hvalue⟩

/-- What is left over of two halves is the lowest bit. -/
theorem testBit_zero_of_halves {v x k : Nat} {out : Bool} (h : 2 * v + out.toNat = 2 * k + x) :
    out = x.testBit 0 := by
  rw [Nat.testBit_zero]
  cases out with
  | false =>
    rw [Bool.toNat_false] at h
    exact (decide_eq_false (by omega)).symm
  | true =>
    rw [Bool.toNat_true] at h
    exact (decide_eq_true (by omega)).symm

theorem shiftRight_logical (hpos : 0 < xs.length) (flags : Flags) :
    (shiftRight .srl xs flags).1.length = xs.length ∧
      binary (shiftRight .srl xs flags).1 = binary xs / 2 ∧
      (shiftRight .srl xs flags).2.carry = (binary xs).testBit 0 := by
  obtain ⟨hlength, hvalue⟩ :=
    shiftRight_value (List.length_pos_iff.1 hpos) (shift_first _ flags.carry).2.1
  have hout := (shiftRight .srl xs flags).2.carry.toNat_le
  rw [Bool.toNat_false, mul_zero] at hvalue
  exact ⟨hlength, by omega, testBit_zero_of_halves (k := 0) hvalue⟩

/-- The sign bit that comes in from above keeps the sign. -/
theorem top_of_halves {ys : List UInt8} {out : Bool} (hpos : 0 < xs.length)
    (hlen : ys.length = xs.length)
    (h : 2 * binary ys + out.toNat = 256 ^ xs.length * (top xs).toNat + binary xs) :
    top ys = top xs := by
  have hout := out.toNat_le
  have htop := top_iff (hlen ▸ hpos)
  rw [hlen] at htop
  rw [Bool.eq_iff_iff, htop]
  cases hxs : top xs with
  | false =>
    have hlt := binary_lt xs
    simp only [hxs, Bool.toNat_false, mul_zero, zero_add] at h
    simp only [Bool.false_eq_true, iff_false]
    omega
  | true =>
    have hle := (top_iff hpos).1 hxs
    simp only [hxs, Bool.toNat_true, mul_one] at h
    simp only [iff_true]
    omega

theorem shiftRight_arithmetic (hpos : 0 < xs.length) (flags : Flags) :
    (shiftRight .sra xs flags).1.length = xs.length ∧
      signed (shiftRight .sra xs flags).1 = signed xs / 2 ∧
      (shiftRight .sra xs flags).2.carry = (binary xs).testBit 0 := by
  have hne := List.length_pos_iff.1 hpos
  obtain ⟨hlength, hvalue⟩ := shiftRight_value hne (shift_first _ flags.carry).2.2
  rw [← top_eq hne] at hvalue
  refine ⟨hlength, ?_, ?_⟩
  · have hout := (shiftRight .sra xs flags).2.carry.toNat_le
    rw [signed_eq hpos, signed_eq (hlength ▸ hpos), hlength, top_of_halves hpos hlength hvalue]
    have htwice : (2 * binary (shiftRight .sra xs flags).1 +
        (shiftRight .sra xs flags).2.carry.toNat : Int) =
        256 ^ xs.length * (top xs).toNat + binary xs := mod_cast hvalue
    omega
  · obtain ⟨m, hm⟩ := even_pow hpos
    rw [hm, Nat.mul_assoc] at hvalue
    exact testBit_zero_of_halves hvalue

end Shifts

/-- The addition of words is that of their two bytes. -/
theorem addWord_eq_chain (w v : UInt16) (before flags : Flags) :
    let bytes := chain sums [(Word.low w, Word.low v), (Word.high w, Word.high v)]
      { flags with carry := false }
    let word := addWord w v before
    bytes.1 = [Word.low word.1, Word.high word.1] ∧
      bytes.2.halfCarry = word.2.halfCarry ∧ bytes.2.carry = word.2.carry := by
  have hw := w.toNat_lt
  have hv := v.toNat_lt
  have hbetween : (decide (256 ≤ w.toNat % 256 + v.toNat % 256)).toNat =
      (w.toNat % 256 + v.toNat % 256) / 256 := by
    have hcarry := carry_bounds (m := 256) (s := w.toNat % 256 + v.toNat % 256) (by omega)
    omega
  simp only [chain, sums, ← Grid.sum_eq_add, ← Grid.wordSum_eq_addWord, Grid.sum, Grid.wordSum,
    Word.toNat_low, Word.toNat_high, Bool.toNat_false, Nat.add_zero, hbetween]
  refine ⟨?_, ?_, ?_⟩
  · congr 1
    · apply UInt8.toNat_inj.1
      simp only [Word.toNat_low, UInt8.toNat_ofNat', UInt16.toNat_ofNat']
      omega
    · congr 1
      apply UInt8.toNat_inj.1
      simp only [Word.toNat_high, UInt8.toNat_ofNat', UInt16.toNat_ofNat']
      omega
  · exact decide_eq_decide.2 (by omega)
  · exact decide_eq_decide.2 (by omega)

/-- Byte by byte, the arithmetic unit works on whole numbers: it adds and subtracts with a carry,
doubles, and halves numbers without and with a sign; and word addition is a sum of two bytes. -/
theorem bytewise_is_binary (xs ys : List UInt8) (hlen : xs.length = ys.length) (flags : Flags) :
    let n := xs.length
    let x := binary xs
    let y := binary ys
    let c := flags.carry.toNat
    let half := shiftRight .srl xs flags
    let signedHalf := shiftRight .sra xs flags
    Yields 256 UInt8.toNat (chain sums (xs.zip ys) flags) n (x + y + c) (256 ^ n ≤ x + y + c) ∧
      Yields 256 UInt8.toNat (chain differences (xs.zip ys) flags) n (x - y - c) (x < y + c) ∧
      (0 < n →
        Yields 256 UInt8.toNat (shiftLeft xs flags) n (2 * x) (x.testBit (8 * n - 1)) ∧
        (half.1.length = n ∧ binary half.1 = x / 2 ∧ half.2.carry = x.testBit 0) ∧
        (signedHalf.1.length = n ∧ signed signedHalf.1 = signed xs / 2 ∧
          signedHalf.2.carry = x.testBit 0)) ∧
      ∀ (w v : UInt16) (before : Flags),
        let bytes := chain sums [(Word.low w, Word.low v), (Word.high w, Word.high v)]
          { flags with carry := false }
        let word := addWord w v before
        bytes.1 = [Word.low word.1, Word.high word.1] ∧
          bytes.2.halfCarry = word.2.halfCarry ∧ bytes.2.carry = word.2.carry := by
  intro n x y c half signedHalf
  refine ⟨?_, ?_, fun hpos => ⟨?_, ?_, ?_⟩, ?_⟩
  · exact chain_sum (by decide) hlen (fun p _ => balanced_sums p) flags
  · exact chain_difference (by decide) hlen (fun p _ => balanced_differences p) flags
  · exact shiftLeft_yields hpos flags
  · exact shiftRight_logical hpos flags
  · exact shiftRight_arithmetic hpos flags
  · exact fun w v before => addWord_eq_chain w v before flags

theorem bytewise_is_binary_two_bytes :
    [0xff, 0x80].length = [(0x01 : UInt8), 0x7f].length ∧ 0 < 2 ∧
      (chain sums ([0xff, 0x80].zip [0x01, 0x7f]) Flags.none).2.carry = true ∧
      binary (chain sums ([0xff, 0x80].zip [0x01, 0x7f]) Flags.none).1 = 0 ∧
      signed [0xff, 0x80] = -32513 ∧
      signed (shiftRight .sra [0xff, 0x80] Flags.none).1 = -16257 := by
  have h := bytewise_is_binary [0xff, 0x80] [0x01, 0x7f] rfl Flags.none
  have hsigned : signed [0xff, 0x80] = -32513 := by decide
  refine ⟨rfl, by decide, h.1.carry.2 (by decide), ?_, hsigned, ?_⟩
  · exact_mod_cast h.1.value
  · have hhalf := (h.2.2.1 (by decide)).2.2.2.1
    rwa [hsigned] at hhalf

end DotMatrix.Arithmetic
