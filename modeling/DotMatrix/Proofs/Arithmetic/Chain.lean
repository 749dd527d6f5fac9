import Mathlib.Data.Nat.Digits.Defs
import Mathlib.Tactic.LinearCombination
import Mathlib.Tactic.Ring
import DotMatrix.Proofs.Grid.Arithmetic

/-! # Numbers of many bytes

A number that does not fit in a byte is worked on byte by byte, and what carries out of one byte
goes into the next one by way of the carry flag. Where every column of such a calculation comes out
even, counting what it carries on, so does the whole of it.
-/
namespace DotMatrix.Arithmetic

/-- Works on one column after the other, each with the flags that the one before has left. -/
def chain {α : Type} (column : α → Flags → UInt8 × Flags) : List α → Flags → List UInt8 × Flags
  | [], flags => ([], flags)
  | a :: rest, flags =>
    let (v, next) := column a flags
    let (vs, last) := chain column rest next
    (v :: vs, last)

def sums (p : UInt8 × UInt8) (flags : Flags) : UInt8 × Flags := add p.1 p.2 flags.carry

def differences (p : UInt8 × UInt8) (flags : Flags) : UInt8 × Flags := sub p.1 p.2 flags.carry

/-- The number that bytes stand for, the lowest one first, if each is a digit in a base. -/
def number (base : Nat) (digit : UInt8 → Nat) (bytes : List UInt8) : Nat :=
  Nat.ofDigits base (bytes.map digit)

section Number
variable {base : Nat} {digit : UInt8 → Nat}

@[simp]
theorem number_nil : number base digit [] = 0 := rfl

@[simp]
theorem number_cons (v : UInt8) (vs : List UInt8) :
    number base digit (v :: vs) = digit v + base * number base digit vs := Nat.ofDigits_cons

theorem number_append (vs ws : List UInt8) :
    number base digit (vs ++ ws) =
      number base digit vs + base ^ vs.length * number base digit ws := by
  simp [number, Nat.ofDigits_append]

theorem number_lt (hbase : 1 < base) {vs : List UInt8} (h : ∀ v ∈ vs, digit v < base) :
    number base digit vs < base ^ vs.length := by
  have hlt := Nat.ofDigits_lt_base_pow_length (l := vs.map digit) hbase (by simpa using h)
  rwa [List.length_map] at hlt

end Number

/-- A carry stands for what is too much, where the sum is less than twice the room for it. -/
theorem carry_bounds {m s : Nat} (h : s < 2 * m) :
    m * (decide (m ≤ s)).toNat ≤ s ∧ s < m * (decide (m ≤ s)).toNat + m := by
  by_cases hle : m ≤ s
  · simp [hle]
    omega
  · simp [hle]
    omega

/-- A borrow stands for what is missing. -/
theorem borrow_bounds {m s t : Nat} (hs : s < m) (ht : t ≤ m) :
    t ≤ s + m * (decide (s < t)).toNat ∧ s + m * (decide (s < t)).toNat < t + m := by
  by_cases hlt : s < t
  · simp [hlt]
    omega
  · simp [hlt]
    omega

section Chain
variable {α : Type} {column : α → Flags → UInt8 × Flags} {as : List α}

@[simp]
theorem length_chain (as : List α) (flags : Flags) :
    (chain column as flags).1.length = as.length := by
  induction as generalizing flags with
  | nil => rfl
  | cons a as ih => simp [chain, ih]

theorem forall_mem_chain {P : UInt8 → Prop} (h : ∀ a ∈ as, ∀ flags, P (column a flags).1)
    (flags : Flags) : ∀ v ∈ (chain column as flags).1, P v := by
  induction as generalizing flags with
  | nil => simp [chain]
  | cons a as ih =>
    intro v hv
    rcases List.mem_cons.1 hv with rfl | hv
    · exact h a List.mem_cons_self flags
    · exact ih (fun a ha => h a (List.mem_cons_of_mem _ ha)) _ v hv

variable {base : Nat} {digit : UInt8 → Nat} {sign : Int} {value : α → Int}

def worth (base : Nat) (value : α → Int) : List α → Int
  | [] => 0
  | a :: rest => value a + base * worth base value rest

/-- A column of this value comes out even: what it writes is a digit, and with what it carries on,
which counts `base` times and with a sign, makes its value and what was carried into it. -/
def Balanced (base : Nat) (digit : UInt8 → Nat) (sign : Int) (value : α → Int)
    (column : α → Flags → UInt8 × Flags) (a : α) : Prop :=
  ∀ flags, digit (column a flags).1 < base ∧
    (digit (column a flags).1 : Int) + sign * (base * (column a flags).2.carry.toNat) =
      value a + sign * flags.carry.toNat

/-- A calculation comes out even if its columns do, by induction on them: what one column carries on
is what the next one takes in, and the weights make them cancel. -/
theorem balanced_chain (h : ∀ a ∈ as, Balanced base digit sign value column a) (flags : Flags) :
    (number base digit (chain column as flags).1 : Int) +
        sign * (base ^ as.length * (chain column as flags).2.carry.toNat) =
      worth base value as + sign * flags.carry.toNat := by
  induction as generalizing flags with
  | nil => simp [chain, worth]
  | cons a as ih =>
    have hfirst := (h a List.mem_cons_self flags).2
    have hrest := ih (fun a ha => h a (List.mem_cons_of_mem _ ha)) (column a flags).2
    simp only [chain, worth, number_cons, List.length_cons, pow_succ]
    push_cast
    linear_combination hfirst + (base : Int) * hrest

/-- The outcome of a calculation in a base: so many bytes, which hold a total but for what they have
no room for, and a carry. -/
structure Yields (base : Nat) (digit : UInt8 → Nat) (result : List UInt8 × Flags) (n : Nat)
    (total : Int) (carries : Prop) : Prop where
  length : result.1.length = n
  value : (number base digit result.1 : Int) = total % base ^ n
  carry : result.2.carry = true ↔ carries

theorem number_chain_lt (hbase : 1 < base)
    (h : ∀ a ∈ as, Balanced base digit sign value column a) (flags : Flags) :
    number base digit (chain column as flags).1 < base ^ as.length := by
  have hdigit := forall_mem_chain (P := (digit · < base)) fun a ha flags => (h a ha flags).1
  simpa using number_lt hbase (hdigit flags)

/-- Whichever way the carry counts, it takes away what there is no room for. -/
theorem number_chain (hbase : 1 < base) (h : ∀ a ∈ as, Balanced base digit sign value column a)
    (flags : Flags) : (number base digit (chain column as flags).1 : Int) =
      (worth base value as + sign * flags.carry.toNat) % base ^ as.length := by
  have hlt : (number base digit (chain column as flags).1 : Int) < base ^ as.length :=
    mod_cast number_chain_lt hbase h flags
  rw [← balanced_chain h flags, mul_left_comm, Int.add_mul_emod_self_left,
    Int.emod_eq_of_lt (Int.natCast_nonneg _) hlt]

/-- A calculation whose columns carry upwards has carried if its total is too large. -/
theorem chain_yields_up (hbase : 1 < base) (h : ∀ a ∈ as, Balanced base digit 1 value column a)
    (flags : Flags) : Yields base digit (chain column as flags) as.length
      (worth base value as + flags.carry.toNat)
      (base ^ as.length ≤ worth base value as + flags.carry.toNat) where
  length := length_chain as flags
  value := by simpa using number_chain hbase h flags
  carry := by
    have hlt : (number base digit (chain column as flags).1 : Int) < base ^ as.length :=
      mod_cast number_chain_lt hbase h flags
    have hbalanced := balanced_chain h flags
    rw [one_mul, one_mul] at hbalanced
    rw [← hbalanced]
    cases (chain column as flags).2.carry with
    | false => simpa using hlt
    | true => simp

/-- A calculation whose columns borrow has borrowed if its total is below zero. -/
theorem chain_yields_down (hbase : 1 < base)
    (h : ∀ a ∈ as, Balanced base digit (-1) value column a) (flags : Flags) :
    Yields base digit (chain column as flags) as.length
      (worth base value as - flags.carry.toNat)
      (worth base value as - flags.carry.toNat < 0) where
  length := length_chain as flags
  value := by simpa [sub_eq_add_neg] using number_chain hbase h flags
  carry := by
    have hlt : (number base digit (chain column as flags).1 : Int) < base ^ as.length :=
      mod_cast number_chain_lt hbase h flags
    have hbalanced := balanced_chain h flags
    simp only [neg_one_mul, ← sub_eq_add_neg] at hbalanced
    rw [← hbalanced]
    cases (chain column as flags).2.carry with
    | false => simp
    | true => simpa using hlt

end Chain

section Pairs
variable {base : Nat} {digit : UInt8 → Nat} {column : UInt8 × UInt8 → Flags → UInt8 × Flags}
  {xs ys : List UInt8}

def pairValue (digit : UInt8 → Nat) (sign : Int) (p : UInt8 × UInt8) : Int :=
  digit p.1 + sign * digit p.2

theorem worth_zip (sign : Int) (h : xs.length = ys.length) :
    worth base (pairValue digit sign) (xs.zip ys) =
      number base digit xs + sign * number base digit ys := by
  induction xs generalizing ys with
  | nil =>
    have hys : ys = [] := List.eq_nil_of_length_eq_zero h.symm
    simp [hys, worth]
  | cons x xs ih =>
    cases ys with
    | nil => simp at h
    | cons y ys =>
      have hrest := ih (Nat.succ.inj h)
      simp only [List.zip_cons_cons, worth, pairValue, number_cons]
      push_cast
      linear_combination (base : Int) * hrest

/-- Adding in the columns of a base adds the numbers. -/
theorem chain_sum (hbase : 1 < base) (hlen : xs.length = ys.length)
    (h : ∀ p ∈ xs.zip ys, Balanced base digit 1 (pairValue digit 1) column p) (flags : Flags) :
    Yields base digit (chain column (xs.zip ys) flags) xs.length
      (number base digit xs + number base digit ys + flags.carry.toNat)
      (base ^ xs.length ≤ number base digit xs + number base digit ys + flags.carry.toNat) := by
  have hzip : (xs.zip ys).length = xs.length := by simp [hlen]
  have hyields := chain_yields_up hbase h flags
  rw [worth_zip 1 hlen, hzip, one_mul] at hyields
  exact ⟨hyields.length, hyields.value, hyields.carry.trans (by norm_cast)⟩

/-- Subtracting in the columns of a base subtracts the numbers. -/
theorem chain_difference (hbase : 1 < base) (hlen : xs.length = ys.length)
    (h : ∀ p ∈ xs.zip ys, Balanced base digit (-1) (pairValue digit (-1)) column p)
    (flags : Flags) :
    Yields base digit (chain column (xs.zip ys) flags) xs.length
      (number base digit xs - number base digit ys - flags.carry.toNat)
      (number base digit xs < number base digit ys + flags.carry.toNat) := by
  have hzip : (xs.zip ys).length = xs.length := by simp [hlen]
  have hyields := chain_yields_down hbase h flags
  rw [worth_zip (-1) hlen, hzip, neg_one_mul, ← sub_eq_add_neg] at hyields
  exact ⟨hyields.length, hyields.value, hyields.carry.trans (by omega)⟩

end Pairs
end DotMatrix.Arithmetic
