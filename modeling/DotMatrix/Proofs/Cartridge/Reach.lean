import Mathlib.Algebra.Group.Nat.Defs
import DotMatrix.Proofs.Cartridge.Windows

/-! # Every bank is within reach

A bank register never asks for bank 0 in its own bits, and what it asks for wraps within the image.
Still a program can bring each bank of a full-sized image into a window, from wherever the registers
stand: most of them into the upper one, and those that the upper one passes over into the lower.
-/
namespace DotMatrix

open Controller (Event last last_cons)

def Controller.Event.ToRegister : Event → Prop
  | .write address _ => address < 0x8000
  | .tick _ | .load _ => False

namespace Banking

/-- The banks of the largest image that the registers of a controller can tell apart. -/
def capacity : Banking → Nat
  | .mbc2 => 16
  | .mbc1 | .mbc3 _ => 128

/-- The upper window can show a bank: its number is not one that the bank register replaces. -/
def above (bank : Nat) : Banking → Bool
  | .mbc1 => bank % 32 != 0
  | .mbc2 | .mbc3 _ => bank != 0

/-- The writes that bring a bank into a window, the last one first. -/
def bringing (bank : Nat) (kind : Banking) : List Event :=
  match kind, kind.above bank with
  | .mbc1, true => [.write 0x4000 (.ofNat (bank / 32)), .write 0x2000 (.ofNat (bank % 32))]
  | .mbc1, false => [.write 0x4000 (.ofNat (bank / 32)), .write 0x6000 0x01]
  | .mbc2, true => [.write 0x2100 (.ofNat bank)]
  | .mbc3 _, true => [.write 0x2000 (.ofNat bank)]
  | .mbc2, false | .mbc3 _, false => []

def showing (bank offset : Nat) (kind : Banking) : UInt16 :=
  .ofNat (if kind.above bank then 0x4000 + offset else offset)

section Selection
variable {kind : Banking} {bank n : Nat} {past : List Event}

theorem toRegister_bringing {e : Event} (h : e ∈ kind.bringing bank) : e.ToRegister := by
  have toRegister (address : UInt16) (v : UInt8) (ha : address < 0x8000) :
      (Event.write address v).ToRegister := ha
  unfold bringing at h
  split at h
  all_goals
    simp only [List.mem_cons, List.not_mem_nil, or_false] at h
  · rcases h with rfl | rfl
    all_goals exact toRegister _ _ (by decide)
  · rcases h with rfl | rfl
    all_goals exact toRegister _ _ (by decide)
  all_goals
    subst h
    exact toRegister _ _ (by decide)

/-- A register that is wide enough holds the number written to it. -/
theorem toNat_ofNat_and {v mask : Nat} (bits : Nat) (hb : bits ≤ 8) (hm : mask = 2 ^ bits - 1)
    (hv : v < 2 ^ bits) : (UInt8.ofNat v).toNat &&& mask = v := by
  have hbyte : v < 2 ^ 8 := Nat.lt_of_lt_of_le hv (Nat.pow_le_pow_right (by decide) hb)
  rw [hm, UInt8.toNat_ofNat', Nat.mod_eq_of_lt hbyte, Nat.and_two_pow_sub_one_eq_mod,
    Nat.mod_eq_of_lt hv]

/-- The second register of the first controller is wide enough for its blocks of 32 banks. -/
theorem toNat_block (hc : bank < Banking.mbc1.capacity) :
    (UInt8.ofNat (bank / 32)).toNat &&& 3 = bank / 32 :=
  toNat_ofNat_and 2 (by decide) rfl (Nat.div_lt_of_lt_mul hc)

/-- A bank that the upper window can show is the one selected there. -/
theorem selected_bringing (ha : kind.above bank = true) (hc : bank < kind.capacity) :
    kind.selected (kind.bringing bank ++ past) = bank := by
  cases kind with
  | mbc1 =>
    have hlow : bank % 32 ≠ 0 := bne_iff_ne.1 ha
    have hfive : bank % 32 < 2 ^ 5 := Nat.mod_lt bank (by decide)
    have hsecond : last second (Banking.mbc1.bringing bank ++ past) = .ofNat (bank / 32) := by
      simp only [bringing, ha]
      rfl
    have hfirst : last Banking.mbc1.selecting (Banking.mbc1.bringing bank ++ past) =
        .ofNat (bank % 32) := by
      simp only [bringing, ha]
      rfl
    have hrest : (UInt8.ofNat (bank % 32)).toNat &&& 0x1f = bank % 32 :=
      toNat_ofNat_and 5 (by decide) rfl hfive
    rw [selected, hsecond, hfirst, toNat_block hc, hrest, orOne, if_neg hlow,
      ← Nat.shiftLeft_add_eq_or_of_lt hfive, Nat.shiftLeft_eq]
    exact Nat.div_add_mod' bank 32
  | mbc2 =>
    have hfirst : last Banking.mbc2.selecting (Banking.mbc2.bringing bank ++ past) =
        .ofNat bank := by
      simp only [bringing, ha]
      rfl
    have hnumber : (UInt8.ofNat bank).toNat &&& 0x0f = bank :=
      toNat_ofNat_and 4 (by decide) rfl hc
    rw [selected, hfirst, hnumber]
    exact if_neg (bne_iff_ne.1 ha)
  | mbc3 clock =>
    have hfirst : last (Banking.mbc3 clock).selecting
        ((Banking.mbc3 clock).bringing bank ++ past) = .ofNat bank := by
      simp only [bringing, ha]
      rfl
    have hnumber : (UInt8.ofNat bank).toNat &&& 0x7f = bank :=
      toNat_ofNat_and 7 (by decide) rfl hc
    rw [selected, hfirst, hnumber]
    exact if_neg (bne_iff_ne.1 ha)

/-- Any other bank is the one in the lower window. -/
theorem low_bringing (ha : kind.above bank = false) (hc : bank < kind.capacity) (hn : bank < n) :
    kind.low (kind.bringing bank ++ past) n = bank := by
  cases kind with
  | mbc1 =>
    have hlow : bank % 32 = 0 := bne_eq_false_iff_eq.1 ha
    have hsecond : last second (Banking.mbc1.bringing bank ++ past) = .ofNat (bank / 32) := by
      simp only [bringing, ha]
      rfl
    have hmode : advanced (Banking.mbc1.bringing bank ++ past) = true := by
      simp only [bringing, ha]
      rfl
    rw [low, if_pos hmode, hsecond, toNat_block hc, Nat.shiftLeft_eq,
      Nat.div_mul_cancel (Nat.dvd_of_mod_eq_zero hlow)]
    exact Nat.mod_eq_of_lt hn
  | mbc2 | mbc3 => exact (bne_eq_false_iff_eq.1 ha).symm

end Selection

section Showing
variable {kind : Banking} {rom : Bytes} {bank offset : Nat}

theorem toNat_showing (kind : Banking) (bank : Nat) (ho : offset < 0x4000) :
    (kind.showing bank offset).toNat = if kind.above bank then 0x4000 + offset else offset := by
  rw [showing, UInt16.toNat_ofNat']
  split
  all_goals exact Nat.mod_eq_of_lt (by omega)

/-- What the writes bring in shows the bytes of the bank. -/
theorem read_showing (banks : Nat) (battery : Bool) (past : List Event)
    (hc : bank < kind.capacity) (hb : bank < rom.size / 0x4000) (ho : offset < 0x4000) :
    rom[bank * 0x4000 + offset]? =
      some (((kind.build rom banks battery).after (kind.bringing bank ++ past)).read
        (kind.showing bank offset)) := by
  have now := kind.remembers rom banks battery (kind.bringing bank ++ past)
  have hn : Bank.romCount rom = rom.size / 0x4000 :=
    Nat.max_eq_left (Nat.lt_of_le_of_lt (Nat.zero_le _) hb)
  have haddress := toNat_showing kind bank ho
  have hbyte := Bank.getElem?_eq_romByte (kind.showing bank offset) hb
  cases ha : kind.above bank with
  | true =>
    rw [ha, if_pos rfl] at haddress
    have hl : 0x4000 ≤ kind.showing bank offset := by
      rw [UInt16.le_iff_toNat_le, haddress]
      exact Nat.le_add_right _ _
    have hu : kind.showing bank offset < 0x8000 := by
      rw [UInt16.lt_iff_toNat_lt, haddress]
      simp only [UInt16.reduceToNat]
      omega
    rw [now.read_high _ hl hu, selected_bringing ha hc, hn, Nat.mod_eq_of_lt hb, ← hbyte, haddress,
      Nat.add_mod_left, Nat.mod_eq_of_lt ho]
  | false =>
    rw [ha, if_neg Bool.false_ne_true] at haddress
    have hu : kind.showing bank offset < 0x4000 := by
      rw [UInt16.lt_iff_toNat_lt, haddress]
      exact ho
    rw [now.read_low _ hu, hn, low_bringing ha hc hb, ← hbyte, haddress, Nat.mod_eq_of_lt ho]

/-- No byte of a full-sized image is out of reach: from whatever its registers hold, some writes to
them bring its bank into a window. Which writes, and where it shows, depend on the controller and on
the place of the byte only. -/
theorem every_bank_is_within_reach (kind : Banking) {n i : Nat} (hn : n ≤ kind.capacity)
    (hi : i < n * 0x4000) :
    ∃ recent : List Event, (∀ e ∈ recent, e.ToRegister) ∧ ∃ address : UInt16, address < 0x8000 ∧
      ∀ rom : Bytes, rom.size = n * 0x4000 → ∀ banks battery past,
        rom[i]? = some (((kind.build rom banks battery).after (recent ++ past)).read address) := by
  have hbank : i / 0x4000 < n := Nat.div_lt_of_lt_mul (Nat.mul_comm n _ ▸ hi)
  have ho : i % 0x4000 < 0x4000 := Nat.mod_lt i (by decide)
  refine ⟨kind.bringing (i / 0x4000), fun _ => toRegister_bringing,
    kind.showing (i / 0x4000) (i % 0x4000), ?_, ?_⟩
  · rw [UInt16.lt_iff_toNat_lt, toNat_showing kind _ ho]
    simp only [UInt16.reduceToNat]
    split <;> omega
  · intro rom hrom banks battery past
    have hb : i / 0x4000 < rom.size / 0x4000 := by
      rw [hrom, Nat.mul_div_cancel _ (by decide)]
      exact hbank
    have hread := read_showing banks battery past (Nat.lt_of_lt_of_le hbank hn) hb ho
    rw [Nat.div_add_mod'] at hread
    exact hread

/-- In an image whose bytes tell their banks, bank 60 of the first controller shows up although the
bank register has just been asked for bank 0 in mode 1. -/
theorem every_bank_is_within_reach_sixty :
    let rom : Bytes := Array.ofFn fun k : Fin (128 * 0x4000) => UInt8.ofNat (k / 0x4000)
    let past : List Event := [.write 0x2000 0x00, .write 0x6000 0x01]
    128 ≤ mbc1.capacity ∧ 0x60 * 0x4000 + 5 < 128 * 0x4000 ∧ rom.size = 128 * 0x4000 ∧
      ∃ recent : List Event, (∀ e ∈ recent, e.ToRegister) ∧ ∃ address : UInt16, address < 0x8000 ∧
        ((mbc1.build rom 0 false).after (recent ++ past)).read address = 0x60 := by
  intro rom past
  have hsize : rom.size = 128 * 0x4000 := Array.size_ofFn
  have hi : 0x60 * 0x4000 + 5 < 128 * 0x4000 := by decide
  have hbyte : rom[0x60 * 0x4000 + 5]? = some 0x60 := by
    have hbank : (0x60 * 0x4000 + 5) / 0x4000 = 0x60 := by decide
    rw [Array.getElem?_ofFn, dif_pos hi]
    exact congrArg (fun bank => some (UInt8.ofNat bank)) hbank
  obtain ⟨recent, registers, address, ha, shows⟩ :=
    every_bank_is_within_reach mbc1 (by decide : 128 ≤ mbc1.capacity) hi
  refine ⟨by decide, hi, hsize, recent, registers, address, ha, ?_⟩
  exact Option.some.inj ((shows rom hsize 0 false past).symm.trans hbyte)

end Showing
end Banking
end DotMatrix
