import DotMatrix.Proofs.Cartridge.Registers

/-! # Cartridge RAM holds what was stored last

A byte of RAM is the last one stored in its cell, whatever banks, modes and locks came in between,
and a RAM window shows the cells that the history maps into it.
-/
namespace DotMatrix

open Controller (Event)

namespace Banking
variable {kind : Banking} {rom : Bytes} {banks : Nat} {battery : Bool} {past : List Event}

section Cells

theorem ramBank?_lt {bank : Nat} (hk : kind ≠ .mbc2) (h : kind.ramBank? past banks = some bank) :
    bank < banks := by
  have hpos : 0 < banks := by
    rw [Nat.pos_iff_ne_zero]
    rintro rfl
    cases kind with
    | mbc2 => exact hk rfl
    | _ => simp [ramBank?] at h
  cases kind with
  | mbc1 =>
    simp only [ramBank?, Nat.ne_of_gt hpos, if_false] at h
    split at h
    all_goals cases h
    · exact Nat.mod_lt _ hpos
    · exact hpos
  | mbc2 => exact absurd rfl hk
  | mbc3 clock =>
    simp only [ramBank?] at h
    split at h
    · cases h
    · cases h
      exact Nat.mod_lt _ hpos

theorem cell?_lt {address : UInt16} {cell : Nat}
    (h : kind.cell? banks past address = some cell) : cell < kind.ramSize banks := by
  unfold cell? at h
  split at h
  case isFalse => cases h
  case isTrue hw =>
    have hl : 0xa000 ≤ address.toNat := UInt16.le_iff_toNat_le.1 hw.1
    have hu : address.toNat < 0xc000 := UInt16.lt_iff_toNat_lt.1 hw.2.1
    split at h
    · cases h
      exact Nat.mod_lt _ (by decide)
    · rename_i hk
      obtain ⟨bank, hbank, rfl⟩ := Option.map_eq_some_iff.1 h
      have hlt := ramBank?_lt hk hbank
      have hsize : kind.ramSize banks = banks * 0x2000 := by
        cases kind with
        | mbc2 => exact absurd rfl hk
        | _ => rfl
      rw [hsize]
      omega

/-- The clock and a cell are never mapped at once. -/
theorem showsClock_of_cell? {address : UInt16} {cell : Nat}
    (h : kind.cell? banks past address = some cell) : kind.showsClock past = false := by
  cases kind with
  | mbc3 clock => grind [cell?, ramBank?, showsClock]
  | _ => rfl

theorem ram_build (kind : Banking) (rom : Bytes) (banks : Nat) (battery : Bool) :
    (kind.build rom banks battery).ram = .zeros (kind.ramSize banks) := by
  cases kind <;> rfl

theorem getElem?_fit (kind : Banking) {size cell : Nat} (dump : Bytes) (h : cell < size) :
    ((Bytes.fit size dump).map kind.kept)[cell]? = some (kind.kept (dump.getD cell 0)) := by
  rw [Array.getElem?_map, Bytes.fit, Array.getElem?_ofFn, dif_pos h]
  rfl

end Cells

/-- One cell of RAM along a history, by induction on it: what remembers the older part of the
history tells where the newest write went. -/
theorem getElem?_ram {cell : Nat} (h : cell < kind.ramSize banks) (past : List Event) :
    ((kind.build rom banks battery).after past).ram[cell]? =
      some (kind.contents banks cell past) := by
  induction past with
  | nil =>
    have hz : ((kind.build rom banks battery).after []).ram = .zeros (kind.ramSize banks) :=
      ram_build kind rom banks battery
    rw [hz, Bytes.zeros, Array.getElem?_replicate, if_pos h]
    rfl
  | cons e past ih =>
    have now := kind.remembers rom banks battery past
    have hcell : cell < ((kind.build rom banks battery).after past).ram.size := by
      rw [now.size_ram]
      exact h
    cases e with
    | write address v =>
      have hw := Bytes.getElem?_store _ (kind.cell? banks past address) (kind.kept v) hcell
      rw [← now.ram_write, ih] at hw
      rw [contents, apply_ite some]
      exact hw
    | tick cycles =>
      have ht := now.ram_tick cycles
      rw [contents, ← ih, ← ht]
      rfl
    | load dump =>
      have hl := now.ram_load dump
      rw [contents, ← getElem?_fit kind dump hcell, ← hl]
      rfl

/-- A byte of cartridge RAM is the one last stored in its cell, and 0 before the first store. The
RAM window shows it wherever the history maps that cell, and the open bus where it maps none. Only
writes to the window change RAM. -/
theorem ram_keeps_last_stores (kind : Banking) (rom : Bytes) (banks : Nat) (battery : Bool)
    (past : List Event) :
    let c := (kind.build rom banks battery).after past
    c.ram.size = kind.ramSize banks ∧
    (∀ cell < kind.ramSize banks, c.ram[cell]? = some (kind.contents banks cell past)) ∧
    (∀ address, 0xa000 ≤ address → address < 0xc000 →
      (∀ cell, kind.cell? banks past address = some cell →
        cell < kind.ramSize banks ∧
          c.read address = kind.shown (kind.contents banks cell past)) ∧
      (kind.cell? banks past address = none → kind.showsClock past = false →
        c.read address = 0xff)) ∧
    (∀ address v, ¬(0xa000 ≤ address ∧ address < 0xc000) → (c.write address v).ram = c.ram) ∧
    ∀ cycles, (c.tick cycles).ram = c.ram := by
  intro c
  have now : kind.Remembers rom banks past c := kind.remembers rom banks battery past
  have hram {cell : Nat} (h : cell < kind.ramSize banks) :
      c.ram[cell]? = some (kind.contents banks cell past) := getElem?_ram h past
  refine ⟨now.size_ram, fun _ => hram, ?_, ?_, now.ram_tick⟩
  · intro address hl hu
    constructor
    · intro cell hcell
      have hlt := cell?_lt hcell
      have hclock := showsClock_of_cell? hcell
      have hread : c.ram.readOpen cell = kind.contents banks cell past := by
        rw [Bytes.readOpen, Array.getD_eq_getD_getElem?, hram hlt, Option.getD_some]
      rw [now.read_window address hl hu hclock, hcell, Option.elim_some, hread]
      exact ⟨hlt, rfl⟩
    · intro hcell hclock
      rw [now.read_window address hl hu hclock, hcell, Option.elim_none]
  · intro address v hw
    rw [now.ram_write, cell?_outside hw]
    rfl

/-- In mode 1 with six asked for of four banks, bank 2 takes the store; locked RAM keeps it, and
back in mode 0 the same address shows bank 0. -/
theorem ram_keeps_last_stores_six_of_four :
    let stored : List Event :=
      [.write 0xa001 0x55, .write 0x6000 0x01, .write 0x4000 0x06, .write 0x0000 0x0a]
    let locked := .write 0x0000 0x00 :: stored
    let back := .write 0x6000 0x00 :: stored
    let c := fun past => (mbc1.build #[] 4 true).after past
    ((c locked).ram[0x4001]? = some 0x55 ∧ (c locked).read 0xa001 = 0xff) ∧
      (c stored).read 0xa001 = 0x55 ∧ (c back).read 0xa001 = 0x00 ∧
      ((c stored).write 0x6000 0x00).ram = (c stored).ram := by
  intro stored locked back c
  obtain ⟨-, kept, shown, -, -⟩ := ram_keeps_last_stores mbc1 #[] 4 true locked
  obtain ⟨-, -, here, others, -⟩ := ram_keeps_last_stores mbc1 #[] 4 true stored
  obtain ⟨-, -, there, -, -⟩ := ram_keeps_last_stores mbc1 #[] 4 true back
  refine ⟨⟨kept 0x4001 (by decide), ?_⟩, ?_, ?_, others 0x6000 0x00 (by decide)⟩
  · exact (shown 0xa001 (by decide) (by decide)).2 (by decide) rfl
  · exact ((here 0xa001 (by decide) (by decide)).1 0x4001 (by decide)).2
  · exact ((there 0xa001 (by decide) (by decide)).1 0x0001 (by decide)).2

end Banking
end DotMatrix
