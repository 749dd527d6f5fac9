/-! # Hexadecimal text

Lower-case digits of a fixed width for bytes and words, and the digits of either case on reading.
-/
namespace DotMatrix.Hex

def digit (n : Nat) : Char :=
  if n < 10 then Char.ofNat (48 + n) else Char.ofNat (87 + n)

/-- The last `width` digits of `n`, most significant first. -/
def digits : Nat → Nat → List Char
  | 0, _ => []
  | width + 1, n => digits width (n / 16) ++ [digit (n % 16)]

def byte (v : UInt8) : String := String.ofList (digits 2 v.toNat)

def word (v : UInt16) : String := String.ofList (digits 4 v.toNat)

def natural (n : Nat) : String := String.ofList (Nat.toDigits 16 n)

def value? (c : Char) : Option Nat :=
  if '0' ≤ c ∧ c ≤ '9' then some (c.toNat - 48)
  else if 'a' ≤ c ∧ c ≤ 'f' then some (c.toNat - 87)
  else if 'A' ≤ c ∧ c ≤ 'F' then some (c.toNat - 55)
  else none

theorem length_digits (width n : Nat) : (digits width n).length = width := by
  induction width generalizing n with
  | zero => rfl
  | succ width ih => simp [digits, ih]

theorem value?_digit (n : Nat) (h : n < 16) : value? (digit n) = some n := by
  have key : ∀ k : Fin 16, value? (digit k.val) = some k.val := by decide
  exact key ⟨n, h⟩

end DotMatrix.Hex
