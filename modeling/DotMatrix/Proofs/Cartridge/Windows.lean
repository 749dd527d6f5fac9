import DotMatrix.Proofs.Cartridge.Registers

/-! # The ROM windows follow the bank registers

What a ROM window shows lies within the image, in the bank that the last writes to the bank
registers ask for, and nothing but a write to one of them moves it.
-/
namespace DotMatrix

open Controller (Event last)

namespace Bank

/-- A bank below the number of banks shows bytes of the image. -/
theorem getElem?_eq_romByte {rom : Bytes} {bank : Nat} (address : UInt16)
    (h : bank < rom.size / 0x4000) :
    rom[bank * 0x4000 + address.toNat % 0x4000]? = some (romByte rom bank address) := by
  have hlt : bank * 0x4000 + address.toNat % 0x4000 < rom.size := by omega
  have hbyte : romByte rom bank address = rom[bank * 0x4000 + address.toNat % 0x4000] :=
    Bytes.readOpen_of_lt rom hlt
  rw [hbyte]
  exact Array.getElem?_eq_getElem hlt

end Bank

namespace Controller

/-- What writes to none of some registers writes to none of a part of them. -/
theorem Event.written?_eq_none {part whole : UInt16 → Bool} {e : Event}
    (hpart : ∀ address, part address = true → whole address = true)
    (h : e.written? whole = none) : e.written? part = none := by
  cases e with
  | write address v => grind [Event.written?]
  | _ => rfl

end Controller

namespace Banking
variable {kind : Banking} {rom : Bytes} {e : Event} {past : List Event}

theorem low_lt {n : Nat} (h : 0 < n) (kind : Banking) (past : List Event) :
    kind.low past n < n := by
  cases kind with
  | mbc1 =>
    rw [low]
    split
    · exact Nat.mod_lt _ h
    · exact h
  | _ => exact h

theorem selected_cons (h : e.written? kind.steering = none) :
    kind.selected (e :: past) = kind.selected past := by
  have hselecting : e.written? kind.selecting = none := by
    apply Event.written?_eq_none _ h
    cases kind <;> grind [selecting, steering]
  have hlast := Controller.last_cons_of_none hselecting past
  -- Only the first controller puts the bank together from two registers.
  cases kind with
  | mbc1 =>
    have hsecond : e.written? second = none :=
      Event.written?_eq_none (by grind [second, steering]) h
    rw [selected, selected, hlast, Controller.last_cons_of_none hsecond past]
  | _ => rw [selected, selected, hlast]

theorem low_cons (h : e.written? kind.steering = none) (n : Nat) :
    kind.low (e :: past) n = kind.low past n := by
  cases kind with
  | mbc1 =>
    have hsecond : e.written? second = none :=
      Event.written?_eq_none (by grind [second, steering]) h
    have hmode : e.written? mode = none :=
      Event.written?_eq_none (by grind [mode, steering]) h
    rw [low, low, advanced, advanced, Controller.last_cons_of_none hsecond past,
      Controller.last_cons_of_none hmode past]
  | _ => rfl

/-- After any writes, passing time and restored RAM the upper ROM window shows the selected bank of
the image, and the lower one bank 0 or, in mode 1 of the first controller, the bank that the second
register asks for. Both wrap within the image, and events that write to no register that steers the
windows leave them as they are. -/
theorem windows_follow_registers (kind : Banking) (rom : Bytes) (banks : Nat) (battery : Bool)
    (past : List Event) (hrom : 0x4000 ≤ rom.size) :
    let c := (kind.build rom banks battery).after past
    let n := rom.size / 0x4000
    (c.romBank = kind.selected past % n ∧ c.romBank < n ∧ kind.low past n < n) ∧
    (∀ address, 0x4000 ≤ address → address < 0x8000 →
      rom[c.romBank * 0x4000 + (address.toNat - 0x4000)]? = some (c.read address)) ∧
    (∀ address < 0x4000,
      rom[kind.low past n * 0x4000 + address.toNat]? = some (c.read address)) ∧
    ∀ e, e.written? kind.steering = none → ∀ address < 0x8000,
      (c.apply e).read address = c.read address := by
  intro c n
  have now : kind.Remembers rom banks past c := kind.remembers rom banks battery past
  have hpos : 0 < n := Nat.div_pos hrom (by decide)
  have hn : Bank.romCount rom = n := Nat.max_eq_left hpos
  have hbank : c.romBank = kind.selected past % n := hn ▸ now.romBank
  have hlt : c.romBank < n := hbank ▸ Nat.mod_lt _ hpos
  refine ⟨⟨hbank, hlt, low_lt hpos kind past⟩, ?_, ?_, ?_⟩
  · intro address hl hu
    have hmod : address.toNat % 0x4000 = address.toNat - 0x4000 := by
      have := UInt16.le_iff_toNat_le.1 hl
      have := UInt16.lt_iff_toNat_lt.1 hu
      simp only [UInt16.reduceToNat] at *
      omega
    rw [now.read_high address hl hu, hn, ← hbank, ← hmod]
    exact Bank.getElem?_eq_romByte address hlt
  · intro address hu
    have hmod : address.toNat % 0x4000 = address.toNat :=
      Nat.mod_eq_of_lt (UInt16.lt_iff_toNat_lt.1 hu)
    rw [now.read_low address hu, hn, ← Bank.getElem?_eq_romByte address (low_lt hpos kind past),
      hmod]
  · intro e he address ha
    have later : kind.Remembers rom banks (e :: past) (c.apply e) :=
      kind.remembers rom banks battery (e :: past)
    rcases UInt16.lt_or_le address 0x4000 with hlow | hhigh
    · rw [now.read_low address hlow, later.read_low address hlow, low_cons he]
    · rw [now.read_high address hhigh ha, later.read_high address hhigh ha, selected_cons he]

/-- Three banks: 33 is asked for by both registers of the first controller and wraps to bank 0, and
its mode 1 puts bank 32, which is bank 2, into the lower window. -/
theorem windows_follow_registers_three_banks :
    let rom : Bytes := .zeros (3 * 0x4000)
    let past : List Event := [.write 0x6000 0x01, .write 0x4000 0x01, .write 0x2000 0x20]
    let c := (mbc1.build rom 0 false).after past
    0x4000 ≤ rom.size ∧ c.romBank = 0 ∧
      rom[0x0001]? = some (c.read 0x4001) ∧ rom[2 * 0x4000 + 1]? = some (c.read 0x0001) ∧
      (c.apply (.write 0xa000 0x05)).read 0x4001 = c.read 0x4001 := by
  intro rom past c
  have hsize : rom.size = 3 * 0x4000 := Bytes.size_zeros _
  have hrom : 0x4000 ≤ rom.size := by
    rw [hsize]
    decide
  have hn : rom.size / 0x4000 = 3 := by
    rw [hsize]
  obtain ⟨⟨hbank, -, -⟩, high, low, others⟩ := windows_follow_registers mbc1 rom 0 false past hrom
  have hzero : c.romBank = 0 := by
    rw [hbank, hn]
    decide
  have htwo : mbc1.low past (rom.size / 0x4000) = 2 := by
    rw [hn]
    decide
  have hhigh := high 0x4001 (by decide) (by decide)
  have hlow := low 0x0001 (by decide)
  rw [hzero] at hhigh
  rw [htwo] at hlow
  exact ⟨hrom, hzero, hhigh, hlow, others _ (by decide) 0x4001 (by decide)⟩

end Banking
end DotMatrix
