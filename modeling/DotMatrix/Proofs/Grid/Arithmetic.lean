import DotMatrix.Processor.Execution

/-! # Arithmetic by numbers

The operations of the opcode grid on plain numbers: a result is what is left modulo the size of its
register, a carry is a sum that has outgrown the register and a borrow is a difference below zero.
The arithmetic unit, which works on machine words and their bits, agrees with every one of them.
-/
namespace DotMatrix.Grid

def word (upper lower : UInt8) : UInt16 := UInt16.ofNat (256 * upper.toNat + lower.toNat)

def upper (w : UInt16) : UInt8 := UInt8.ofNat (w.toNat / 256)

def lower (w : UInt16) : UInt8 := UInt8.ofNat (w.toNat % 256)

def signed (e : UInt8) : Int := if e.toNat < 128 then e.toNat else (e.toNat : Int) - 256

/-- The flag byte: `Z N H C` in the upper nibble. -/
def packed (f : Flags) : UInt8 :=
  UInt8.ofNat (128 * f.zero.toNat + 64 * f.subtract.toNat + 32 * f.halfCarry.toNat +
    16 * f.carry.toNat)

def unpacked (v : UInt8) : Flags :=
  ⟨v.toNat.testBit 7, v.toNat.testBit 6, v.toNat.testBit 5, v.toNat.testBit 4⟩

def sum (x y carry : Nat) : UInt8 × Flags :=
  (UInt8.ofNat (x + y + carry),
    { zero := (x + y + carry) % 256 == 0
      subtract := false
      halfCarry := decide (16 ≤ x % 16 + y % 16 + carry)
      carry := decide (256 ≤ x + y + carry) })

def difference (x y borrow : Int) : UInt8 × Flags :=
  (UInt8.ofNat ((x - y - borrow) % 256).toNat,
    { zero := (x - y - borrow) % 256 == 0
      subtract := true
      halfCarry := decide (x % 16 - y % 16 - borrow < 0)
      carry := decide (x - y - borrow < 0) })

def bitwise (result : UInt8) (halfCarry : Bool) : UInt8 × Flags :=
  (result, ⟨result == 0, false, halfCarry, false⟩)

/-- `alu[i]`: ADD ADC SUB SBC AND XOR OR CP. Comparing gives back what was in the accumulator. -/
def alu (i : Nat) (a v : UInt8) (carry : Bool) : UInt8 × Flags :=
  match i with
  | 0 => sum a.toNat v.toNat 0
  | 1 => sum a.toNat v.toNat carry.toNat
  | 2 => difference a.toNat v.toNat 0
  | 3 => difference a.toNat v.toNat carry.toNat
  | 4 => bitwise (a &&& v) true
  | 5 => bitwise (a ^^^ v) false
  | 6 => bitwise (a ||| v) false
  | _ => (a, (difference a.toNat v.toNat 0).2)

/-- `rot[i]`: RLC RRC RL RR SLA SRA SWAP SRL on a number below 256, and the bit that falls out. -/
def rotated (i v carry : Nat) : Nat × Nat :=
  match i with
  | 0 => (2 * v % 256 + v / 128, v / 128)
  | 1 => (v / 2 + 128 * (v % 2), v % 2)
  | 2 => (2 * v % 256 + carry, v / 128)
  | 3 => (v / 2 + 128 * carry, v % 2)
  | 4 => (2 * v % 256, v / 128)
  | 5 => (v / 2 + 128 * (v / 128), v % 2)
  | 6 => (v % 16 * 16 + v / 16, 0)
  | _ => (v / 2, v % 2)

def rot (i : Nat) (v : UInt8) (carry : Bool) : UInt8 × Flags :=
  let (result, out) := rotated i v.toNat carry.toNat
  (UInt8.ofNat result, ⟨result == 0, false, false, out == 1⟩)

def incremented (v : UInt8) (f : Flags) : UInt8 × Flags :=
  let (result, flags) := sum v.toNat 1 0
  (result, { flags with carry := f.carry })

def decremented (v : UInt8) (f : Flags) : UInt8 × Flags :=
  let (result, flags) := difference v.toNat 1 0
  (result, { flags with carry := f.carry })

def daa (a : UInt8) (f : Flags) : UInt8 × Flags :=
  let units := f.halfCarry || (!f.subtract && decide (9 < a.toNat % 16))
  let tens := f.carry || (!f.subtract && decide (0x99 < a.toNat))
  let correction : Int := 6 * units.toNat + 96 * tens.toNat
  let result := (if f.subtract then a.toNat - correction else a.toNat + correction) % 256
  (UInt8.ofNat result.toNat, ⟨result == 0, f.subtract, false, tens⟩)

def wordSum (x y : Nat) (f : Flags) : UInt16 × Flags :=
  (UInt16.ofNat (x + y),
    { zero := f.zero
      subtract := false
      halfCarry := decide (4096 ≤ x % 4096 + y % 4096)
      carry := decide (65536 ≤ x + y) })

/-- A word moved by a signed byte; the flags are the carries of the unsigned lower bytes. -/
def moved (x : UInt16) (e : UInt8) : UInt16 × Flags :=
  (UInt16.ofNat ((x.toNat + signed e) % 65536).toNat,
    { zero := false
      subtract := false
      halfCarry := decide (16 ≤ x.toNat % 16 + e.toNat % 16)
      carry := decide (256 ≤ x.toNat % 256 + e.toNat) })

/-- A property of all bytes, checked value by value. -/
theorem forall_byte {P : UInt8 → Prop} (h : ∀ n : Fin 256, P (UInt8.ofFin n)) (v : UInt8) : P v :=
  h v.toFin

@[simp]
theorem word_eq_join (hi lo : UInt8) : word hi lo = Word.join hi lo := by
  apply UInt16.toNat_inj.1
  have h := hi.toNat_lt
  have l := lo.toNat_lt
  rw [Word.toNat_join, word, UInt16.toNat_ofNat']
  omega

@[simp]
theorem upper_eq_high (w : UInt16) : upper w = Word.high w := by
  apply UInt8.toNat_inj.1
  have h := w.toNat_lt
  rw [Word.toNat_high, upper, UInt8.toNat_ofNat']
  omega

@[simp]
theorem lower_eq_low (w : UInt16) : lower w = Word.low w := by
  apply UInt8.toNat_inj.1
  rw [Word.toNat_low, lower, UInt8.toNat_ofNat']
  omega

@[simp]
theorem packed_eq_toByte (f : Flags) : packed f = f.toByte := by
  rcases f with ⟨_ | _, _ | _, _ | _, _ | _⟩ <;> rfl

@[simp]
theorem unpacked_eq_ofByte (v : UInt8) : unpacked v = Flags.ofByte v :=
  forall_byte (P := fun v => unpacked v = Flags.ofByte v) (by decide +kernel) v

theorem toNat_ofBool (c : Bool) : c.toUInt8.toNat = c.toNat := by cases c <;> rfl

theorem sum_eq_add (x y : UInt8) (c : Bool) :
    sum x.toNat y.toNat c.toNat = Arithmetic.add x y c := by
  have hr : UInt8.ofNat (x.toNat + y.toNat + c.toNat) = x + y + c.toUInt8 := by
    apply UInt8.toNat_inj.1
    simp [toNat_ofBool]
  have hz : ((x.toNat + y.toNat + c.toNat) % 256 == 0) = (x + y + c.toUInt8 == 0) := by
    rw [← hr, Bool.eq_iff_iff, beq_iff_eq, beq_iff_eq, ← UInt8.toNat_inj, UInt8.toNat_ofNat']
    rfl
  simp only [sum, Arithmetic.add, hr, hz]
  rfl

theorem difference_eq_sub (x y : UInt8) (c : Bool) :
    difference x.toNat y.toNat c.toNat = Arithmetic.sub x y c := by
  have hx := x.toNat_lt
  have hy := y.toNat_lt
  have hc : c.toNat ≤ 1 := by cases c <;> decide
  have hn : (x - y - c.toUInt8).toNat = ((x.toNat - y.toNat - c.toNat : Int) % 256).toNat := by
    rw [UInt8.toNat_sub, UInt8.toNat_sub, toNat_ofBool]
    omega
  have hr : UInt8.ofNat ((x.toNat - y.toNat - c.toNat : Int) % 256).toNat = x - y - c.toUInt8 := by
    rw [← hn, UInt8.ofNat_toNat]
  have hz : ((x.toNat - y.toNat - c.toNat : Int) % 256 == 0) = (x - y - c.toUInt8 == 0) := by
    rw [Bool.eq_iff_iff, beq_iff_eq, beq_iff_eq, ← UInt8.toNat_inj, hn]
    change _ ↔ _ = 0
    omega
  have hh : decide ((x.toNat : Int) % 16 - (y.toNat : Int) % 16 - c.toNat < 0) =
      decide (x.toNat % 16 < y.toNat % 16 + c.toNat) := decide_eq_decide.2 (by omega)
  have hb : decide ((x.toNat : Int) - y.toNat - c.toNat < 0) =
      decide (x.toNat < y.toNat + c.toNat) := decide_eq_decide.2 (by omega)
  simp only [difference, Arithmetic.sub, hr, hz, hh, hb]

/-- Comparison keeps the accumulator; every other operation replaces it by its result. -/
theorem alu_eq_apply (i : Fin 8) (a v : UInt8) (c : Bool) :
    alu i a v c =
      (if ByteOp.ofCode i = .cp then a else (Arithmetic.apply (ByteOp.ofCode i) a v c).1,
        (Arithmetic.apply (ByteOp.ofCode i) a v c).2) := by
  have hs := sum_eq_add a v
  have hd := difference_eq_sub a v
  match i with
  | 0 => exact hs false
  | 1 => exact hs c
  | 2 => exact hd false
  | 3 => exact hd c
  | 4 | 5 | 6 => rfl
  | 7 => exact congrArg (fun r => (a, r.2)) (hd false)

theorem rot_eq_shift (i : Fin 8) (v : UInt8) (c : Bool) :
    rot i v c = Arithmetic.shift (Shift.ofCode i) v c :=
  forall_byte (P := fun v => ∀ (i : Fin 8) (c : Bool),
    rot i v c = Arithmetic.shift (Shift.ofCode i) v c) (by decide +kernel) v i c

theorem incremented_eq_inc : incremented = Arithmetic.inc := by
  funext v f
  exact forall_byte (P := fun v => ∀ c, incremented v { Flags.none with carry := c } =
    Arithmetic.inc v { Flags.none with carry := c }) (by decide +kernel) v f.carry

theorem decremented_eq_dec : decremented = Arithmetic.dec := by
  funext v f
  exact forall_byte (P := fun v => ∀ c, decremented v { Flags.none with carry := c } =
    Arithmetic.dec v { Flags.none with carry := c }) (by decide +kernel) v f.carry

theorem daa_eq_decimalAdjust (v : UInt8) (f : Flags) : daa v f = Arithmetic.decimalAdjust v f :=
  forall_byte (P := fun v => ∀ n h c, daa v ⟨false, n, h, c⟩ =
    Arithmetic.decimalAdjust v ⟨false, n, h, c⟩) (by decide +kernel) v f.subtract f.halfCarry
    f.carry

theorem wordSum_eq_addWord (x y : UInt16) (f : Flags) :
    wordSum x.toNat y.toNat f = Arithmetic.addWord x y f := by
  have hr : UInt16.ofNat (x.toNat + y.toNat) = x + y := by
    apply UInt16.toNat_inj.1
    simp
  simp only [wordSum, Arithmetic.addWord, hr]
  rfl

/-- Read as a signed number, a byte moves a word by its displacement. -/
theorem toNat_displacement (e : UInt8) :
    ((Word.displacement e.toInt8).toNat : Int) = signed e % 65536 :=
  forall_byte (P := fun e => ((Word.displacement e.toInt8).toNat : Int) = signed e % 65536)
    (by decide +kernel) e

theorem ofNat_add_signed (x : UInt16) (e : UInt8) :
    UInt16.ofNat ((x.toNat + signed e) % 65536).toNat = x + Word.displacement e.toInt8 := by
  apply UInt16.toNat_inj.1
  have h := toNat_displacement e
  rw [UInt16.toNat_add, UInt16.toNat_ofNat']
  omega

theorem moved_eq_displace (x : UInt16) (e : UInt8) :
    moved x e = Arithmetic.displace x e.toInt8 := by
  simp only [moved, Arithmetic.displace, ofNat_add_signed]
  rfl

end DotMatrix.Grid
