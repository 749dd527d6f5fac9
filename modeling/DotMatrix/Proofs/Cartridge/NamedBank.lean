import DotMatrix.Proofs.Cartridge.Latch
import DotMatrix.Proofs.Cartridge.Ram

/-! # The RAM bank that a controller names

While the RAM window shows RAM, the controller can be asked which bank that is. The first controller
answers with the bank in the window. The third one answers with its selector as it stands, and where
there are fewer banks than the selector can ask for, the window wraps and the answer does not.
-/
namespace DotMatrix

open Controller (Event last)

namespace Banking
variable {kind : Banking} {rom : Bytes} {banks : Nat} {battery : Bool} {past : List Event}

section Named

theorem exists_mbc1 (rom : Bytes) (banks : Nat) (battery : Bool) (past : List Event) :
    ∃ m : Mbc1, (mbc1.build rom banks battery).after past = .mbc1 m ∧
      m.Recalls rom banks past := by
  exact ⟨_, Controller.after_eq Controller.apply_mbc1 (.new rom banks battery) past,
    Mbc1.recalls rom banks battery past⟩

/-- The first controller names the bank in the window. -/
theorem ramBank_mbc1 (rom : Bytes) (battery : Bool) (past : List Event) (hb : 0 < banks) :
    some ((mbc1.build rom banks battery).after past).ramBank = mbc1.ramBank? past banks := by
  obtain ⟨m, hm, h⟩ := exists_mbc1 rom banks battery past
  have hcount := Bank.ramCount_eq h.size_ram
  rw [hm, Controller.ramBank, Mbc1.ramBank, hcount, h.advanced, h.secondary, Banking.ramBank?,
    if_neg (Nat.ne_of_gt hb)]
  simp only [hb, and_true]
  split <;> rfl

/-- The third controller names its selector. -/
theorem ramBank_mbc3 (clock : Bool) :
    (((mbc3 clock).build rom banks battery).after past).ramBank = selector past := by
  obtain ⟨m, hm, h, -⟩ := exists_mbc3 clock rom banks battery past
  rw [hm]
  exact h.selector

/-- RAM is what the window shows: it is unlocked, there is some, and the third controller selects a
bank and no part of the clock. -/
def MapsRam (kind : Banking) (banks : Nat) (past : List Event) : Prop :=
  kind.unlocked past = true ∧ 0 < banks ∧ (kind = .mbc1 ∨ selector past ≤ 3)

/-- The bank in the window is the named one, wrapped to the banks there are. -/
theorem ramBank?_of_mapsRam (rom : Bytes) (battery : Bool) (hk : kind ≠ .mbc2)
    (h : kind.MapsRam banks past) :
    kind.ramBank? past banks =
      some (((kind.build rom banks battery).after past).ramBank % banks) := by
  obtain ⟨-, hb, hs⟩ := h
  cases kind with
  | mbc1 =>
    have hnamed := ramBank_mbc1 rom battery past hb
    have hlt := ramBank?_lt hk hnamed.symm
    rw [← hnamed, Nat.mod_eq_of_lt hlt]
  | mbc2 => exact absurd rfl hk
  | mbc3 clock =>
    have hselector : selector past ≤ 3 := hs.resolve_left (fun he => by cases he)
    rw [ramBank_mbc3, ramBank?, if_neg]
    omega

/-- What the window shows at an offset is that byte of the bank in it. -/
theorem getElem?_ram_of_mapsRam (rom : Bytes) (battery : Bool) (hk : kind ≠ .mbc2)
    (h : kind.MapsRam banks past) {bank : Nat} (hbank : kind.ramBank? past banks = some bank)
    {offset : Nat} (ho : offset < 0x2000) :
    ((kind.build rom banks battery).after past).ram[bank * 0x2000 + offset]? =
      some (((kind.build rom banks battery).after past).read (0xa000 + .ofNat offset)) := by
  have now := kind.remembers rom banks battery past
  have haddress : (0xa000 + UInt16.ofNat offset).toNat = 0xa000 + offset := by
    rw [UInt16.toNat_add, UInt16.toNat_ofNat']
    simp only [UInt16.reduceToNat]
    omega
  have hl : 0xa000 ≤ 0xa000 + UInt16.ofNat offset := by
    rw [UInt16.le_iff_toNat_le, haddress]
    exact Nat.le_add_right _ _
  have hu : 0xa000 + UInt16.ofNat offset < 0xc000 := by
    rw [UInt16.lt_iff_toNat_lt, haddress]
    simp only [UInt16.reduceToNat]
    omega
  have hcell : kind.cell? banks past (0xa000 + UInt16.ofNat offset) =
      some (bank * 0x2000 + offset) := by
    unfold cell?
    rw [if_pos ⟨hl, hu, h.1⟩, haddress]
    split
    · exact absurd rfl hk
    · rw [hbank, Option.map_some, Nat.add_sub_cancel_left, Nat.add_comm]
  have hlt := cell?_lt hcell
  have hshown : ∀ v, kind.shown v = v := by
    cases kind with
    | mbc2 => exact absurd rfl hk
    | mbc1 | mbc3 => exact fun _ => rfl
  rw [now.read_window _ hl hu (showsClock_of_cell? hcell), hcell, Option.elim_some, hshown,
    Bytes.readOpen_of_lt _ (now.size_ram.symm ▸ hlt)]
  exact Array.getElem?_eq_getElem _

/-- While the window shows RAM it shows the named bank, wrapped to the banks there are. So the named
bank itself is the one shown exactly where there is such a bank: always with the first controller,
and with the third one unless its selector asks for more banks than there are. -/
theorem named_bank_wraps (kind : Banking) (hk : kind ≠ .mbc2) (rom : Bytes) (banks : Nat)
    (battery : Bool) (past : List Event) (h : kind.MapsRam banks past) :
    let c := (kind.build rom banks battery).after past
    (∀ offset < 0x2000, c.ram[c.ramBank % banks * 0x2000 + offset]? =
      some (c.read (0xa000 + .ofNat offset))) ∧
    ((∀ offset < 0x2000, c.ram[c.ramBank * 0x2000 + offset]? =
        some (c.read (0xa000 + .ofNat offset))) ↔ c.ramBank < banks) ∧
    (kind = .mbc1 → c.ramBank < banks) ∧ (kind ≠ .mbc1 → c.ramBank = selector past) := by
  intro c
  have hbank : kind.ramBank? past banks = some (c.ramBank % banks) :=
    ramBank?_of_mapsRam rom battery hk h
  have shows {bank : Nat} (hb : kind.ramBank? past banks = some bank) :
      ∀ offset < 0x2000, c.ram[bank * 0x2000 + offset]? =
        some (c.read (0xa000 + .ofNat offset)) := fun _ =>
      getElem?_ram_of_mapsRam rom battery hk h hb
  refine ⟨shows hbank, ⟨?_, ?_⟩, ?_, ?_⟩
  · intro hnamed
    obtain ⟨hlt, -⟩ := Array.getElem?_eq_some_iff.1 (hnamed 0 (by decide))
    have hsize : c.ram.size = kind.ramSize banks :=
      (kind.remembers rom banks battery past).size_ram
    have hbanks : kind.ramSize banks = banks * 0x2000 := by
      cases kind with
      | mbc2 => exact absurd rfl hk
      | mbc1 | mbc3 => rfl
    omega
  · intro hlt
    rw [Nat.mod_eq_of_lt hlt] at hbank
    exact shows hbank
  · rintro rfl
    exact ramBank?_lt hk (ramBank_mbc1 rom battery past h.2.1).symm
  · intro hne
    cases kind with
    | mbc1 => exact absurd rfl hne
    | mbc2 => exact absurd rfl hk
    | mbc3 clock => exact ramBank_mbc3 clock

/-- Selecting bank 2 of a single one and storing a byte there. -/
def storedPastLast : List Event :=
  [.write 0xa000 0x42, .write 0x4000 0x02, .write 0x0000 0x0a]

/-- The window shows the byte stored in the only bank, and the named bank lies behind all RAM. -/
theorem named_bank_lies_behind :
    let c := ((mbc3 false).build #[] 1 true).after storedPastLast
    (mbc3 false).MapsRam 1 storedPastLast ∧ c.ramBank = 2 ∧ c.read 0xa000 = 0x42 ∧
      c.ram[0]? = some 0x42 ∧ c.ram[c.ramBank * 0x2000]? = none := by
  intro c
  have hmaps : (mbc3 false).MapsRam 1 storedPastLast := by
    unfold MapsRam
    decide
  have hnamed : c.ramBank = 2 := ramBank_mbc3 false
  have hsize : c.ram.size = 0x2000 := ((mbc3 false).remembers #[] 1 true storedPastLast).size_ram
  have hstored : c.ram[0]? = some 0x42 := getElem?_ram (by decide) storedPastLast
  have hbank : (mbc3 false).ramBank? storedPastLast 1 = some 0 := by decide
  have hread : c.ram[0 * 0x2000 + 0]? = some (c.read (0xa000 + .ofNat 0)) :=
    getElem?_ram_of_mapsRam #[] true (by decide) hmaps hbank (by decide)
  have haddress : (0xa000 : UInt16) + .ofNat 0 = 0xa000 := by decide
  rw [Nat.zero_mul, Nat.zero_add, haddress] at hread
  refine ⟨hmaps, hnamed, Option.some.inj (hread.symm.trans hstored), hstored, ?_⟩
  rw [hnamed]
  exact Array.getElem?_eq_none (by omega)

/-- The same selector with three banks names the bank shown, and so does the first controller that
has been asked for bank 2 of a single one. -/
theorem named_bank_wraps_two :
    let past : List Event := [.write 0x4000 0x02, .write 0x6000 0x01, .write 0x0000 0x0a]
    let c := ((mbc3 false).build #[] 3 true).after past
    let d := (mbc1.build #[] 1 true).after past
    (mbc3 false).MapsRam 3 past ∧ mbc1.MapsRam 1 past ∧ c.ramBank = 2 ∧
      c.ram[c.ramBank * 0x2000 + 7]? = some (c.read 0xa007) ∧ d.ramBank < 1 ∧
      d.ram[d.ramBank % 1 * 0x2000 + 7]? = some (d.read 0xa007) := by
  intro past c d
  have hmaps : (mbc3 false).MapsRam 3 past := by
    unfold MapsRam
    decide
  have hmaps' : mbc1.MapsRam 1 past := by
    unfold MapsRam
    decide
  obtain ⟨-, hiff, -, hselector⟩ := named_bank_wraps (mbc3 false) (by decide) #[] 3 true past hmaps
  obtain ⟨shown, -, hlt, -⟩ := named_bank_wraps mbc1 (by decide) #[] 1 true past hmaps'
  have hnamed : c.ramBank = 2 := hselector (by decide)
  refine ⟨hmaps, hmaps', hnamed, ?_, hlt rfl, shown 7 (by decide)⟩
  exact hiff.2 (hnamed ▸ (by decide : 2 < 3)) 7 (by decide)

end Named
end Banking
end DotMatrix
