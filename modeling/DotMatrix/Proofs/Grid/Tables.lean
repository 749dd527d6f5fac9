import DotMatrix.Proofs.Grid.Basic
import DotMatrix.Proofs.Processor.Switch

/-! # The tables of the opcode grid

What an opcode fixes without its operands: length, cost, condition and the move of the interrupt
master switch. The decoder agrees with the tables of the grid on every opcode, and finds no
instruction behind the holes alone.
-/
namespace DotMatrix

/-- What is known of an instruction before its operands are. -/
structure Traits where
  length : Nat
  cost : Cost
  condition : Option Condition
  switched : MasterEnable
  deriving DecidableEq

def Instruction.traits (m : MasterEnable) (i : Instruction) : Traits :=
  ⟨i.length, i.cost, i.condition, i.switch m⟩

namespace Grid
open Instruction

theorem traits_firstBlock (m : MasterEnable) (row column : Nat) (n : UInt8) (nn : UInt16) :
    (firstBlock row column n nn).traits m = (firstBlock row column 0 0).traits m := by
  match column with
  | 0 =>
    match row with
    | 0 | 1 | 2 | 3 | _ + 4 => rfl
  | 1 =>
    by_cases h : row % 2 = 0
    · simp only [firstBlock, if_pos h]
      rfl
    · simp only [firstBlock, if_neg h]
  | 2 | 3 | 4 | 5 | 6 | _ + 7 => rfl

theorem traits_lastBlock? (m : MasterEnable) (row column : Nat) (n : UInt8) (nn : UInt16) :
    (lastBlock? row column n nn).map (traits m) = (lastBlock? row column 0 0).map (traits m) := by
  match column with
  | 0 | 1 | 2 | 3 =>
    match row with
    | 0 | 1 | 2 | 3 | 4 | 5 | 6 | 7 | _ + 8 => rfl
  | 4 =>
    by_cases h : row < 4
    · simp only [lastBlock?, if_pos h]
      rfl
    · simp only [lastBlock?, if_neg h]
  | 5 =>
    by_cases h : row % 2 = 0
    · simp only [lastBlock?, if_pos h]
    · by_cases h1 : row = 1
      · simp only [lastBlock?, if_neg h, if_pos h1]
        rfl
      · simp only [lastBlock?, if_neg h, if_neg h1]
  | 6 | _ + 7 => rfl

/-- But for the escape, the operand bytes have no part in the traits. -/
theorem traits_ofBytes? (m : MasterEnable) (op b c : UInt8) (h : op ≠ 0xcb) :
    (ofBytes? op b c).map (traits m) = (ofBytes? op 0 0).map (traits m) := by
  simp only [ofBytes?, if_neg h]
  split
  · exact congrArg some (traits_firstBlock m _ _ b _)
  · rfl
  · rfl
  · exact traits_lastBlock? m _ _ b _

def traits (m : MasterEnable) (op n : UInt8) : Traits where
  length := lengths.getD op.toNat 1
  cost :=
    if condition? op = none then ⟨cycles op n true, none⟩
    else ⟨cycles op n true, some (cycles op n false)⟩
  condition := (condition? op).map .ofCode
  switched :=
    if op = 0xf3 then .off
    else if op = 0xd9 then .on
    else ⟨m.enabled, m.scheduled || op == 0xfb⟩

theorem traits_table (m : MasterEnable) (op : UInt8) (h : op ≠ 0xcb) :
    (ofBytes? op 0 0).map (Instruction.traits m) =
      if op ∈ holes then none else some (traits m op 0) :=
  forall_byte (P := fun op => op ≠ 0xcb → ∀ e p,
    (ofBytes? op 0 0).map (Instruction.traits ⟨e, p⟩) =
      if op ∈ holes then none else some (traits ⟨e, p⟩ op 0))
    (by decide +kernel) op h m.enabled m.scheduled

theorem traits_escaped (m : MasterEnable) (code : UInt8) :
    (Instruction.escaped code).traits m = traits m 0xcb code :=
  forall_byte (P := fun code => ∀ e p,
    (Instruction.escaped code).traits ⟨e, p⟩ = traits ⟨e, p⟩ 0xcb code)
    (by decide +kernel) code m.enabled m.scheduled

theorem ofBytes?_of_hole {op : UInt8} (b c : UInt8) (h : op ∈ holes) : ofBytes? op b c = none := by
  have hcb : op ≠ 0xcb := by
    rintro rfl
    exact absurd h (by decide)
  have ht := (traits_ofBytes? .off op b c hcb).trans (traits_table .off op hcb)
  rw [if_pos h] at ht
  exact Option.map_eq_none_iff.1 ht

/-- Every other opcode begins an instruction with the traits of the tables, whatever follows. -/
theorem exists_ofBytes? {op : UInt8} (b c : UInt8) (h : op ∉ holes) :
    ∃ i, ofBytes? op b c = some i ∧ ∀ m, i.traits m = traits m op b := by
  by_cases hcb : op = 0xcb
  · subst hcb
    exact ⟨.escaped b, rfl, fun m => traits_escaped m b⟩
  · have ht (m : MasterEnable) := (traits_ofBytes? m op b c hcb).trans (traits_table m op hcb)
    simp only [if_neg h] at ht
    obtain ⟨i, hi, -⟩ := Option.map_eq_some_iff.1 (ht .off)
    refine ⟨i, hi, fun m => ?_⟩
    have hm := ht m
    rw [hi] at hm
    have hb : traits m op b = traits m op 0 := by simp only [traits, cycles, if_neg hcb]
    rw [hb]
    exact Option.some.inj hm

theorem ofBytes?_eq_none_iff (op b c : UInt8) : ofBytes? op b c = none ↔ op ∈ holes := by
  constructor
  · intro hn
    refine Decidable.byContradiction fun h => ?_
    obtain ⟨i, hi, -⟩ := exists_ofBytes? b c h
    rw [hn] at hi
    cases hi
  · exact ofBytes?_of_hole b c

/-- The switch of the tables, settled, is the switch of the grid. -/
theorem settleIme_switched (m : MasterEnable) (op n : UInt8) :
    Machine.settleIme m (traits m op n).switched = imeAfter op m := by
  rcases m with ⟨e, p⟩
  by_cases h1 : op = 0xf3
  · subst h1
    cases p <;> rfl
  · by_cases h2 : op = 0xd9
    · subst h2
      cases p <;> rfl
    · simp only [traits, imeAfter, if_neg h1, if_neg h2]
      cases p with
      | true =>
        rw [if_pos (Or.inr rfl)]
        rfl
      | false =>
        rw [if_neg (by simp [h2])]
        rfl

theorem condition?_lt {op : UInt8} {k : Nat} (h : condition? op = some k) : k < 4 := by
  have hy : y op < 8 := y_lt op
  unfold condition? at h
  split at h
  · cases h
    omega
  · split at h
    · rename_i hc
      cases h
      exact hc.2.2
    · cases h

end Grid
end DotMatrix
