import DotMatrix.Proofs.Cartridge.History
import DotMatrix.Proofs.Grid.Arithmetic

/-! # What a cartridge remembers

Every part of the three controllers is set by the writes to one register or by none, so after any
history it holds what the last of them has left. From there the windows of a controller are those
that its history calls for.
-/
namespace DotMatrix

open Controller (Event last)

namespace Bytes

theorem readOpen_of_lt (b : Bytes) {offset : Nat} (h : offset < b.size) :
    b.readOpen offset = b[offset] := by
  simp [readOpen, h]

def store (b : Bytes) (cell? : Option Nat) (v : UInt8) : Bytes :=
  cell?.elim b fun cell => b.setIfInBounds cell v

theorem getElem?_store (b : Bytes) (cell? : Option Nat) (v : UInt8) {i : Nat} (h : i < b.size) :
    (b.store cell? v)[i]? = if cell? = some i then some v else b[i]? := by
  cases cell? with
  | none => rfl
  | some cell =>
    rw [store, Option.elim_some, Array.getElem?_setIfInBounds]
    grind

end Bytes

namespace Bank

theorem unlocks_eq (v : UInt8) : unlocks v = (v.toNat % 16 == 0xa) := by
  revert v
  apply Grid.forall_byte
  decide +kernel

theorem lowest_eq (v : UInt8) : (v &&& 0x01 == 1) = (v.toNat % 2 == 1) := by
  revert v
  apply Grid.forall_byte
  decide +kernel

theorem toNat_nonzero (v : UInt8) : (nonzero v).toNat = Banking.orOne v.toNat := by
  revert v
  apply Grid.forall_byte
  decide +kernel

theorem ramCount_eq {ram : Bytes} {banks : Nat} (h : ram.size = banks * 0x2000) :
    ramCount ram = banks := by
  rw [ramCount, h, ramSize, Nat.mul_div_cancel _ (by decide)]

theorem isEmpty_eq {ram : Bytes} {banks : Nat} (h : ram.size = banks * 0x2000) :
    ram.isEmpty = decide (banks = 0) := by
  rw [Array.isEmpty, h]
  grind

end Bank

namespace Banking

theorem orOne_and_lt (v : UInt8) : orOne (v.toNat &&& 0x1f) < 0x20 := by
  revert v
  apply Grid.forall_byte
  decide +kernel

theorem cell?_outside {kind : Banking} {banks : Nat} {past : List Event} {address : UInt16}
    (h : ¬(0xa000 ≤ address ∧ address < 0xc000)) : kind.cell? banks past address = none :=
  if_neg fun hw => h ⟨hw.1, hw.2.1⟩

/-- A cartridge as its history has it: the banks in its ROM windows, the contents of its RAM window
and where a byte written there goes. -/
structure Remembers (kind : Banking) (rom : Bytes) (banks : Nat) (past : List Event)
    (c : Controller) : Prop where
  romBank : c.romBank = kind.selected past % Bank.romCount rom
  read_low : ∀ address < 0x4000,
    c.read address = Bank.romByte rom (kind.low past (Bank.romCount rom)) address
  read_high : ∀ address, 0x4000 ≤ address → address < 0x8000 →
    c.read address = Bank.romByte rom (kind.selected past % Bank.romCount rom) address
  read_window : ∀ address, 0xa000 ≤ address → address < 0xc000 → kind.showsClock past = false →
    c.read address =
      (kind.cell? banks past address).elim 0xff fun cell => kind.shown (c.ram.readOpen cell)
  size_ram : c.ram.size = kind.ramSize banks
  ram_write : ∀ address v,
    (c.write address v).ram = c.ram.store (kind.cell? banks past address) (kind.kept v)
  ram_tick : ∀ cycles, (c.tick cycles).ram = c.ram
  ram_load : ∀ dump, (c.loadRam dump).ram = (Bytes.fit c.ram.size dump).map kind.kept

end Banking

namespace Mbc1

def apply (m : Mbc1) : Event → Mbc1
  | .write address v => m.write address v
  | .tick _ => m
  | .load dump => m.loadRam dump

section Step
variable (m : Mbc1) (e : Event)

theorem rom_apply : (m.apply e).rom = m.rom := by
  cases e with
  | write address v => grind [apply, write]
  | _ => rfl

theorem size_ram_apply : (m.apply e).ram.size = m.ram.size := by
  cases e with
  | write address v => grind [apply, write]
  | load dump => exact Bytes.size_fit _ dump
  | tick _ => rfl

theorem ramEnabled_apply :
    (m.apply e).ramEnabled =
      (e.written? Banking.mbc1.unlocking).elim m.ramEnabled Bank.unlocks := by
  cases e with
  | write address v => grind [apply, write, Event.written?, Banking.unlocking]
  | _ => rfl

theorem primary_apply :
    (m.apply e).primary =
      (e.written? Banking.mbc1.selecting).elim m.primary fun v => Bank.nonzero (v &&& 0x1f) := by
  cases e with
  | write address v => grind [apply, write, Event.written?, Banking.selecting]
  | _ => rfl

theorem secondary_apply :
    (m.apply e).secondary = (e.written? Banking.second).elim m.secondary (· &&& 0x03) := by
  cases e with
  | write address v => grind [apply, write, Event.written?, Banking.second]
  | _ => rfl

theorem advanced_apply :
    (m.apply e).advanced = (e.written? Banking.mode).elim m.advanced (· &&& 0x01 == 1) := by
  cases e with
  | write address v => grind [apply, write, Event.written?, Banking.mode]
  | _ => rfl

end Step

structure Recalls (m : Mbc1) (rom : Bytes) (banks : Nat) (past : List Event) : Prop where
  rom : m.rom = rom
  size_ram : m.ram.size = banks * 0x2000
  ramEnabled : m.ramEnabled = Banking.mbc1.unlocked past
  primary : m.primary.toNat = Banking.orOne ((last Banking.mbc1.selecting past).toNat &&& 0x1f)
  secondary : m.secondary.toNat = (last Banking.second past).toNat &&& 3
  advanced : m.advanced = Banking.advanced past

theorem recalls (rom : Bytes) (banks : Nat) (battery : Bool) (past : List Event) :
    (past.foldr (fun e m => apply m e) (.new rom banks battery)).Recalls rom banks past where
  rom := Controller.eq_start Mbc1.rom rom_apply past
  size_ram := (Controller.eq_start (fun m : Mbc1 => m.ram.size) size_ram_apply past).trans
    (Bytes.size_zeros _)
  ramEnabled := by
    rw [Controller.eq_last Mbc1.ramEnabled ramEnabled_apply rfl past, Bank.unlocks_eq]
    rfl
  primary := by
    rw [Controller.eq_last Mbc1.primary primary_apply rfl past, Bank.toNat_nonzero,
      UInt8.toNat_and]
    rfl
  secondary := by
    rw [Controller.eq_last Mbc1.secondary secondary_apply rfl past, UInt8.toNat_and]
    rfl
  advanced := by
    rw [Controller.eq_last Mbc1.advanced advanced_apply rfl past, Bank.lowest_eq]
    rfl

section Windows
variable {m : Mbc1} {rom : Bytes} {banks : Nat} {past : List Event}

theorem Recalls.romBank (h : m.Recalls rom banks past) :
    m.romBank = Banking.mbc1.selected past % Bank.romCount rom := by
  have hlow : Banking.orOne ((last Banking.mbc1.selecting past).toNat &&& 0x1f) < 2 ^ 5 :=
    Banking.orOne_and_lt _
  rw [Mbc1.romBank, h.rom, h.secondary, h.primary, Banking.selected,
    ← Nat.shiftLeft_add_eq_or_of_lt hlow, Nat.shiftLeft_eq]

theorem Recalls.lowRomBank (h : m.Recalls rom banks past) :
    m.lowRomBank = Banking.mbc1.low past (Bank.romCount rom) := by
  rw [Mbc1.lowRomBank, h.rom, h.secondary, h.advanced, Banking.low, Nat.shiftLeft_eq]

theorem Recalls.ramOffset? (h : m.Recalls rom banks past) {address : UInt16}
    (hl : 0xa000 ≤ address) (hu : address < 0xc000) :
    m.ramOffset? address = Banking.mbc1.cell? banks past address := by
  -- The size of RAM never changes; what is left to compare are the registers.
  unfold Mbc1.ramOffset? Mbc1.ramBank Bank.ramOffset Banking.cell? Banking.ramBank?
  rw [Bank.ramCount_eq h.size_ram, Bank.isEmpty_eq h.size_ram, h.ramEnabled, h.secondary,
    h.advanced]
  grind [Bank.ramSize]

theorem Recalls.remembers (h : m.Recalls rom banks past) :
    Banking.mbc1.Remembers rom banks past (.mbc1 m) where
  romBank := h.romBank
  read_low address ha := by
    rw [← h.lowRomBank, ← h.rom]
    exact if_pos ha
  read_high address hl hu := by
    rw [← h.romBank, ← h.rom]
    exact (if_neg (UInt16.not_lt.2 hl)).trans (if_pos hu)
  read_window address hl hu _ := by
    rw [← h.ramOffset? hl hu]
    grind [Controller.read, Mbc1.read, Controller.ram, Banking.shown]
  size_ram := h.size_ram
  ram_write address v := by
    by_cases hw : 0xa000 ≤ address ∧ address < 0xc000
    · rw [← h.ramOffset? hw.1 hw.2]
      grind [Controller.write, Mbc1.write, Controller.ram, Bytes.store, Banking.kept]
    · rw [Banking.cell?_outside hw]
      grind [Controller.write, Mbc1.write, Controller.ram, Bytes.store]
  ram_tick _ := rfl
  ram_load dump := (Array.map_id _).symm

end Windows

end Mbc1

namespace Mbc2

def apply (m : Mbc2) : Event → Mbc2
  | .write address v => m.write address v
  | .tick _ => m
  | .load dump => m.loadRam dump

section Step
variable (m : Mbc2) (e : Event)

theorem rom_apply : (m.apply e).rom = m.rom := by
  cases e with
  | write address v =>
    simp only [apply, write]
    grind
  | tick _ => rfl
  | load _ => simp only [apply, loadRam]

theorem ramEnabled_apply :
    (m.apply e).ramEnabled =
      (e.written? Banking.mbc2.unlocking).elim m.ramEnabled Bank.unlocks := by
  cases e with
  | write address v =>
    simp only [apply, write, Event.written?, Banking.unlocking]
    grind
  | tick _ => rfl
  | load _ => simp only [apply, loadRam, Event.written?, Option.elim_none]

theorem selected_apply :
    (m.apply e).selected =
      (e.written? Banking.mbc2.selecting).elim m.selected fun v => Bank.nonzero (v &&& 0x0f) := by
  cases e with
  | write address v =>
    simp only [apply, write, Event.written?, Banking.selecting]
    grind
  | tick _ => rfl
  | load _ => simp only [apply, loadRam, Event.written?, Option.elim_none]

end Step

structure Recalls (m : Mbc2) (rom : Bytes) (past : List Event) : Prop where
  rom : m.rom = rom
  ramEnabled : m.ramEnabled = Banking.mbc2.unlocked past
  selected : m.selected.toNat = Banking.mbc2.selected past

theorem recalls (rom : Bytes) (battery : Bool) (past : List Event) :
    (past.foldr (fun e m => apply m e) (.new rom battery)).Recalls rom past where
  rom := Controller.eq_start Mbc2.rom rom_apply past
  ramEnabled := by
    rw [Controller.eq_last Mbc2.ramEnabled ramEnabled_apply rfl past, Bank.unlocks_eq]
    rfl
  selected := by
    rw [Controller.eq_last Mbc2.selected selected_apply rfl past, Bank.toNat_nonzero,
      UInt8.toNat_and]
    rfl

section Windows
variable {m : Mbc2} {rom : Bytes} {banks : Nat} {past : List Event}

theorem Recalls.romBank (h : m.Recalls rom past) :
    m.romBank = Banking.mbc2.selected past % Bank.romCount rom := by
  rw [Mbc2.romBank, h.rom, h.selected]

theorem Recalls.cell? (h : m.Recalls rom past) {address : UInt16}
    (hl : 0xa000 ≤ address) (hu : address < 0xc000) :
    Banking.mbc2.cell? banks past address =
      if m.ramEnabled then some (cell address).val else none := by
  rw [h.ramEnabled]
  grind [Banking.cell?, cell, Fin.ofNat]

theorem Recalls.remembers (h : m.Recalls rom past) :
    Banking.mbc2.Remembers rom banks past (.mbc2 m) where
  romBank := h.romBank
  read_low address ha := by
    rw [← h.rom]
    exact if_pos ha
  read_high address hl hu := by
    rw [← h.romBank, ← h.rom]
    exact (if_neg (UInt16.not_lt.2 hl)).trans (if_pos hu)
  read_window address hl hu _ := by
    have hcell : Bytes.readOpen m.ram.toArray (cell address).val = m.ram[cell address] := by
      rw [Bytes.readOpen_of_lt _ (by simp)]
      rfl
    rw [h.cell? hl hu]
    grind [Controller.read, Mbc2.read, Controller.ram, Banking.shown]
  size_ram := m.ram.size_toArray
  ram_write address v := by
    by_cases hw : 0xa000 ≤ address ∧ address < 0xc000
    · rw [h.cell? hw.1 hw.2]
      grind [Controller.write, Mbc2.write, Controller.ram, Bytes.store, Banking.kept]
    · rw [Banking.cell?_outside hw]
      grind [Controller.write, Mbc2.write, Controller.ram, Bytes.store]
  ram_tick _ := rfl
  ram_load dump := by
    have hsize : (Controller.mbc2 m).ram.size = 0x200 := m.ram.size_toArray
    rw [hsize, Bytes.fit, Array.map_ofFn]
    exact Vector.toArray_ofFn

end Windows

end Mbc2

namespace Mbc3

def apply (m : Mbc3) : Event → Mbc3
  | .write address v => m.write address v
  | .tick cycles => m.tick cycles
  | .load dump => m.loadRam dump

section Step
variable (m : Mbc3) (e : Event)

theorem writeWindow_eq (address : UInt16) (v : UInt8) :
    m.writeWindow address v =
      { m with
        ram := (m.writeWindow address v).ram
        clock := (m.writeWindow address v).clock } := by
  unfold writeWindow
  repeat' split
  all_goals rfl

theorem size_writeWindow (address : UInt16) (v : UInt8) :
    (m.writeWindow address v).ram.size = m.ram.size := by
  unfold writeWindow
  repeat' split
  all_goals simp

theorem rom_apply : (m.apply e).rom = m.rom := by
  cases e with
  | write address v => grind [apply, write, writeLatch, writeWindow_eq]
  | _ => rfl

theorem size_ram_apply : (m.apply e).ram.size = m.ram.size := by
  cases e with
  | write address v => grind [apply, write, writeLatch, size_writeWindow]
  | load dump => exact Bytes.size_fit _ dump
  | tick _ => rfl

theorem isSome_clock_writeWindow (address : UInt16) (v : UInt8) :
    (m.writeWindow address v).clock.isSome = m.clock.isSome := by
  unfold writeWindow
  repeat' split
  all_goals simp

theorem isSome_clock_writeLatch (v : UInt8) :
    (m.writeLatch v).clock.isSome = m.clock.isSome := by
  simp only [writeLatch]
  split <;> simp

theorem isSome_clock_apply : (m.apply e).clock.isSome = m.clock.isSome := by
  cases e with
  | write address v =>
    grind [apply, write, isSome_clock_writeLatch, isSome_clock_writeWindow]
  | tick _ => exact Option.isSome_map
  | load _ => rfl

theorem unlocked_apply (clock : Bool) :
    (m.apply e).unlocked =
      (e.written? (Banking.mbc3 clock).unlocking).elim m.unlocked Bank.unlocks := by
  cases e with
  | write address v =>
    grind [apply, write, writeLatch, writeWindow_eq, Event.written?, Banking.unlocking]
  | _ => rfl

theorem selected_apply (clock : Bool) :
    (m.apply e).selected =
      (e.written? (Banking.mbc3 clock).selecting).elim m.selected fun v =>
        Bank.nonzero (v &&& 0x7f) := by
  cases e with
  | write address v =>
    grind [apply, write, writeLatch, writeWindow_eq, Event.written?, Banking.selecting]
  | _ => rfl

theorem selector_apply :
    (m.apply e).selector = (e.written? Banking.second).elim m.selector (· &&& 0x0f) := by
  cases e with
  | write address v =>
    grind [apply, write, writeLatch, writeWindow_eq, Event.written?, Banking.second]
  | _ => rfl

end Step

structure Recalls (m : Mbc3) (clock : Bool) (rom : Bytes) (banks : Nat) (past : List Event) :
    Prop where
  rom : m.rom = rom
  size_ram : m.ram.size = banks * 0x2000
  isSome_clock : m.clock.isSome = clock
  unlocked : m.unlocked = (Banking.mbc3 clock).unlocked past
  selected : m.selected.toNat = (Banking.mbc3 clock).selected past
  selector : m.selector.toNat = Banking.selector past

theorem recalls (clock : Bool) (rom : Bytes) (banks : Nat) (battery : Bool) (past : List Event) :
    (past.foldr (fun e m => apply m e) (.new rom banks battery clock)).Recalls clock rom banks past
    where
  rom := Controller.eq_start Mbc3.rom rom_apply past
  size_ram := (Controller.eq_start (fun m : Mbc3 => m.ram.size) size_ram_apply past).trans
    (Bytes.size_zeros _)
  isSome_clock := by
    rw [Controller.eq_start (fun m : Mbc3 => m.clock.isSome) isSome_clock_apply past]
    cases clock <;> rfl
  unlocked := by
    rw [Controller.eq_last Mbc3.unlocked (unlocked_apply · · clock) rfl past, Bank.unlocks_eq]
    rfl
  selected := by
    rw [Controller.eq_last Mbc3.selected (selected_apply · · clock) rfl past, Bank.toNat_nonzero,
      UInt8.toNat_and]
    rfl
  selector := by
    rw [Controller.eq_last Mbc3.selector selector_apply rfl past, UInt8.toNat_and]
    exact Nat.and_two_pow_sub_one_eq_mod _ 4

section Windows
variable {m : Mbc3} {clock : Bool} {rom : Bytes} {banks : Nat} {past : List Event}

theorem Recalls.romBank (h : m.Recalls clock rom banks past) :
    m.romBank = (Banking.mbc3 clock).selected past % Bank.romCount rom := by
  rw [Mbc3.romBank, h.rom, h.selected]

theorem bounds_of_ofSelector? {v : UInt8} {register : ClockRegister}
    (h : ClockRegister.ofSelector? v = some register) : 8 ≤ v.toNat ∧ v.toNat ≤ 0xc := by
  have hall : ∀ v, (ClockRegister.ofSelector? v).isSome = true → 8 ≤ v.toNat ∧ v.toNat ≤ 0xc := by
    apply Grid.forall_byte
    decide +kernel
  exact hall v (by rw [h, Option.isSome_some])

/-- A selector of the clock selects no bank of RAM. -/
theorem ramOffset?_of_ofSelector? {register : ClockRegister} {address : UInt16}
    (h : ClockRegister.ofSelector? m.selector = some register) : m.ramOffset? address = none := by
  have hlt : 0x03 < m.selector :=
    UInt8.lt_iff_toNat_lt.2 (Nat.lt_of_lt_of_le (by decide) (bounds_of_ofSelector? h).1)
  simp [Mbc3.ramOffset?, hlt]

theorem ram_writeWindow (address : UInt16) (v : UInt8) :
    (m.writeWindow address v).ram = m.ram.store (m.ramOffset? address) v := by
  unfold writeWindow
  cases h : ClockRegister.ofSelector? m.selector with
  | none => cases m.ramOffset? address <;> rfl
  | some register =>
    rw [ramOffset?_of_ofSelector? h]
    rfl

theorem Recalls.cell? (h : m.Recalls clock rom banks past) {address : UInt16}
    (hl : 0xa000 ≤ address) (hu : address < 0xc000) :
    (Banking.mbc3 clock).cell? banks past address =
      if m.unlocked then m.ramOffset? address else none := by
  have hselector : 0x03 < m.selector ↔ 3 < Banking.selector past := by
    rw [UInt8.lt_iff_toNat_lt, h.selector]
    rfl
  unfold Mbc3.ramOffset? Bank.ramOffset Banking.cell? Banking.ramBank?
  rw [Bank.ramCount_eq h.size_ram, Bank.isEmpty_eq h.size_ram, h.unlocked, h.selector]
  grind [Bank.ramSize]

/-- Where no clock is shown, an unlocked window shows RAM or the open bus. -/
theorem Recalls.readWindow (h : m.Recalls clock rom banks past) (address : UInt16)
    (hc : (Banking.mbc3 clock).showsClock past = false) (hu : m.unlocked = true) :
    m.readWindow address =
      (m.ramOffset? address).elim 0xff fun cell => m.ram.readOpen cell := by
  unfold Mbc3.readWindow
  cases hr : ClockRegister.ofSelector? m.selector with
  | none => cases m.ramOffset? address <;> rfl
  | some register =>
    have hs := bounds_of_ofSelector? hr
    rw [h.selector] at hs
    -- A part of the clock is selected and the window unlocked, so there is no clock to show.
    have hclock : clock = false := by
      simpa [Banking.showsClock, ← h.unlocked, hu, hs] using hc
    have hnone : m.clock = none :=
      Option.not_isSome_iff_eq_none.1 (by rw [h.isSome_clock, hclock]; decide)
    rw [ramOffset?_of_ofSelector? hr, hnone]
    rfl

theorem Recalls.remembers (h : m.Recalls clock rom banks past) :
    (Banking.mbc3 clock).Remembers rom banks past (.mbc3 m) where
  romBank := h.romBank
  read_low address ha := by
    rw [← h.rom]
    exact if_pos ha
  read_high address hl hu := by
    rw [← h.romBank, ← h.rom]
    exact (if_neg (UInt16.not_lt.2 hl)).trans (if_pos hu)
  read_window address hl hu hc := by
    have hw := h.readWindow address hc
    rw [h.cell? hl hu]
    grind [Controller.read, Mbc3.read, Controller.ram, Banking.shown]
  size_ram := h.size_ram
  ram_write address v := by
    by_cases hw : 0xa000 ≤ address ∧ address < 0xc000
    · rw [h.cell? hw.1 hw.2]
      grind [Controller.write, Mbc3.write, Controller.ram, ram_writeWindow, Bytes.store,
        Banking.kept]
    · rw [Banking.cell?_outside hw]
      grind [Controller.write, Mbc3.write, writeLatch, Controller.ram, Bytes.store]
  ram_tick _ := rfl
  ram_load dump := (Array.map_id _).symm

end Windows

end Mbc3

namespace Controller

theorem apply_mbc1 (m : Mbc1) (e : Event) : (Controller.mbc1 m).apply e = .mbc1 (m.apply e) := by
  cases e <;> rfl

theorem apply_mbc2 (m : Mbc2) (e : Event) : (Controller.mbc2 m).apply e = .mbc2 (m.apply e) := by
  cases e <;> rfl

theorem apply_mbc3 (m : Mbc3) (e : Event) : (Controller.mbc3 m).apply e = .mbc3 (m.apply e) := by
  cases e <;> rfl

end Controller

/-- A cartridge that starts from power-on remembers its history. -/
theorem Banking.remembers (kind : Banking) (rom : Bytes) (banks : Nat) (battery : Bool)
    (past : List Event) :
    kind.Remembers rom banks past ((kind.build rom banks battery).after past) := by
  cases kind with
  | mbc1 =>
    rw [build, Controller.after_eq Controller.apply_mbc1]
    exact (Mbc1.recalls rom banks battery past).remembers
  | mbc2 =>
    rw [build, Controller.after_eq Controller.apply_mbc2]
    exact (Mbc2.recalls rom battery past).remembers
  | mbc3 clock =>
    rw [build, Controller.after_eq Controller.apply_mbc3]
    exact (Mbc3.recalls clock rom banks battery past).remembers

end DotMatrix
