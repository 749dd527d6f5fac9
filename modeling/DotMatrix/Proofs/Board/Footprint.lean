import DotMatrix.Proofs.Board.Clock
import DotMatrix.Proofs.Cartridge.Registers

/-! # What a write shows in

A write goes to one address, but more than one address may read differently after it: echoes share
cells, the registers of the timer share a counter, the cartridge answers in two windows and the
boot image covers one of them. What a write shows in is its footprint.
-/
namespace DotMatrix

section Cartridge
variable {address : UInt16} (v : UInt8) (ha : 0xa000 ≤ address)
include ha

theorem Mbc1.write_window (m : Mbc1) : ∃ ram, m.write address v = { m with ram } := by
  refine ⟨(m.write address v).ram, ?_⟩
  cases m
  grind [write]

theorem Mbc2.write_window (m : Mbc2) : ∃ ram, m.write address v = { m with ram } := by
  refine ⟨(m.write address v).ram, ?_⟩
  cases m
  simp only [write]
  grind

theorem Mbc3.write_window (m : Mbc3) :
    ∃ ram clock, m.write address v = { m with ram, clock } := by
  refine ⟨(m.write address v).ram, (m.write address v).clock, ?_⟩
  cases m
  grind [write, writeWindow_eq]

/-- A write to the RAM window moves no ROM window. -/
theorem Controller.read_write_window (c : Controller) {cell : UInt16} (hc : cell < 0x8000) :
    (c.write address v).read cell = c.read cell := by
  cases c with
  | rom image => rfl
  | mbc1 m =>
    obtain ⟨ram, hw⟩ := m.write_window v ha
    simp only [write, read, hw, Mbc1.read, if_pos hc]
    rfl
  | mbc2 m =>
    obtain ⟨ram, hw⟩ := m.write_window v ha
    simp only [write, read, hw, Mbc2.read, if_pos hc]
    rfl
  | mbc3 m =>
    obtain ⟨ram, clock, hw⟩ := m.write_window v ha
    simp only [write, read, hw, Mbc3.read, if_pos hc]
    rfl
  | flat cells =>
    apply Memory.get_set_ne
    rintro rfl
    exact absurd (UInt16.lt_of_le_of_lt ha hc) (by decide)

end Cartridge

namespace Region
variable {address cell : UInt16}

theorem lt_of_rom (h : Region.of address = .rom) : address < 0x8000 :=
  UInt16.lt_iff_toNat_lt.2 (of_eq_iff.1 h)

theorem bounds_of_external (h : Region.of address = .external) :
    0xa000 ≤ address ∧ address < 0xc000 := by
  obtain ⟨hl, hu⟩ := of_eq_iff.1 h
  exact ⟨UInt16.le_iff_toNat_le.2 hl, UInt16.lt_iff_toNat_lt.2 hu⟩

def behind? (address : UInt16) : Option UInt16 :=
  match Region.of address with
  | .rom | .external | .unusable => none
  | .echo => some (unecho address)
  | .video | .work | .objects | .io | .high => some address

theorem behind?_eq_some_iff {target : UInt16} :
    behind? address = some target ↔
      0xe000 ≤ address.toNat ∧ address.toNat < 0xfe00 ∧ target.toNat + 0x2000 = address.toNat ∨
        target.toNat = address.toNat ∧
          (0x8000 ≤ address.toNat ∧ address.toNat < 0xa000 ∨
            0xc000 ≤ address.toNat ∧ address.toNat < 0xe000 ∨
            0xfe00 ≤ address.toNat ∧ address.toNat < 0xfea0 ∨ 0xff00 ≤ address.toNat) := by
  have hn := holds_of address
  have := target.toNat_lt
  unfold behind?
  cases hr : Region.of address
  all_goals
    simp only [hr, Holds] at hn
    simp only [reduceCtorEq, false_iff, Option.some.injEq, unecho, ← UInt16.toNat_inj,
      UInt16.toNat_sub, UInt16.reduceToNat]
    omega

end Region

namespace Board

section Peek
variable {b c : Board} {cell : UInt16}

/-- Two boards read alike at an address if what is mapped there and the cell behind it agree. -/
theorem peek_congr (hi : c.bootImage = b.bootImage) (hj : c.joypad = b.joypad)
    (hb : cell < 0x100 → c.bootMapped = b.bootMapped)
    (hc : Region.of cell = .rom ∨ Region.of cell = .external →
      ¬(cell < 0x100 ∧ b.bootMapped = true) → c.controller.read cell = b.controller.read cell)
    (hm : ∀ target, Region.behind? cell = some target →
      c.memory.get target = b.memory.get target) :
    c.peek cell = b.peek cell := by
  unfold peek
  cases hr : Region.of cell <;> simp only [Region.behind?, hr] at hc hm ⊢
  case rom =>
    by_cases hx : cell < 0x100 ∧ b.bootMapped = true
    · rw [hb hx.1, hi, if_pos hx, if_pos hx]
    · have hx' : ¬(cell < 0x100 ∧ c.bootMapped = true) := fun h => hx ⟨h.1, hb h.1 ▸ h.2⟩
      rw [if_neg hx, if_neg hx', hc (.inl trivial) hx]
  case external =>
    refine hc (.inr trivial) fun hx => ?_
    have hrom : Region.of cell = .rom := if_pos (UInt16.lt_trans hx.1 (by decide))
    rw [hr] at hrom
    cases hrom
  case io => rw [hm cell rfl, hj]
  case echo => exact hm _ rfl
  all_goals exact hm cell rfl

/-- A cell of memory is what its addresses show, the joypad aside. -/
theorem peek_eq_get {target : UInt16} (hc : Region.behind? cell = some target)
    (hj : target ≠ Cell.joypad) : b.peek cell = b.memory.get target := by
  unfold peek
  cases hr : Region.of cell <;> simp only [Region.behind?, hr] at hc ⊢
  all_goals cases hc
  case io => exact if_neg hj
  all_goals rfl

end Peek

section Reach
variable {b : Board} {address : UInt16} (v : UInt8)

def reached (address : UInt16) : List UInt16 :=
  if address = Cell.div ∨ address = Cell.tma ∨ address = Cell.tac then [address, Cell.tima]
  else (Region.behind? address).toList

omit v in
theorem behind?_of_page_le (h : Cell.page ≤ address) : Region.behind? address = some address := by
  unfold Region.behind?
  rcases Region.of_of_page_le h with hr | hr <;> rw [hr]

theorem poke_of_behind? {target : UInt16} (h : Region.behind? address = some target) :
    b.poke address v = { b with memory := b.memory.set target v } := by
  unfold poke
  cases hr : Region.of address <;> simp only [Region.behind?, hr] at h ⊢
  all_goals
    cases h
    try rfl

theorem memory_poke {target : UInt16} (h : Region.behind? address = some target) :
    (b.poke address v).memory = b.memory.set target v := by
  rw [poke_of_behind? v h]

theorem get_poke_of_ne_behind {target : UInt16} (h : Region.behind? address ≠ some target) :
    (b.poke address v).memory.get target = b.memory.get target := by
  unfold poke
  cases hr : Region.of address <;> simp only [Region.behind?, hr] at h ⊢
  all_goals exact Memory.get_set_ne _ _ fun e => h (congrArg some e)

theorem get_write_of_not_reached (hb : b.hooks = []) {target : UInt16}
    (h : target ∉ reached address) :
    (b.write address v).memory.get target = b.memory.get target := by
  -- Driving the timer with its own cells would change nothing, and these two differ from them.
  have driven {f : Timer → TimerCells → Timer × TimerCells}
      (hf : ((b.noted address v).driveTimer f).memory.get target =
        (b.memory.setTimerCells b.memory.timerCells).get target) :
      ((b.noted address v).driveTimer f).memory.get target = b.memory.get target :=
    hf.trans (congrArg (·.get target) (Memory.setTimerCells_timerCells b.memory))
  by_cases ho : address ∈ timerOwned
  · simp only [timerOwned, List.mem_cons, List.not_mem_nil, or_false] at ho
    rcases ho with rfl | rfl | rfl | rfl
    · have hn : target ≠ Cell.div ∧ target ≠ Cell.tima := by simpa [reached] using h
      rw [write_div]
      apply driven
      simp only [driveTimer, Timer.reset_eq, Memory.get_setTimerCells, hn, if_false]
      rfl
    · have hn : target ≠ Cell.tima := by
        rintro rfl
        exact h (by decide)
      rw [write_tima]
      dsimp only
      split
      · rfl
      · exact Memory.get_set_ne _ _ hn.symm
    · have hn : target ≠ Cell.tma ∧ target ≠ Cell.tima := by simpa [reached] using h
      rw [write_tma]
      apply driven
      simp only [driveTimer, Timer.setModulo, Memory.get_setTimerCells, hn, if_false]
      rfl
    · have hn : target ≠ Cell.tac ∧ target ≠ Cell.tima := by simpa [reached] using h
      rw [write_tac]
      apply driven
      simp only [driveTimer, Timer.setControl_eq, Memory.get_setTimerCells, hn, if_false]
      rfl
  have hr : reached address = (Region.behind? address).toList := by
    refine if_neg ?_
    simp only [timerOwned, List.mem_cons, List.not_mem_nil, or_false, not_or] at ho
    simp [ho]
  rw [hr, Option.mem_toList] at h
  by_cases ha : address < Cell.page
  · rw [write_of_lt_page v ha]
    exact get_poke_of_ne_behind v h
  · have hp := UInt16.not_lt.1 ha
    obtain ⟨stored, hm, -⟩ := write_of_page_le v hb hp ho
    rw [hm]
    refine Memory.get_set_ne _ _ ?_
    rintro rfl
    exact h (behind?_of_page_le hp)

/-- No write moves a button or replaces the boot image. -/
theorem joypad_write (hb : b.hooks = []) (address : UInt16) :
    (b.write address v).joypad = b.joypad ∧ (b.write address v).bootImage = b.bootImage := by
  by_cases ha : address < Cell.page
  · rw [write_of_lt_page v ha]
    unfold poke
    split <;> exact ⟨rfl, rfl⟩
  by_cases hw : address ∈ Cell.wired
  · simp only [Cell.wired, List.mem_cons, List.not_mem_nil, or_false] at hw
    rcases hw with rfl | rfl | rfl | rfl | rfl | rfl | rfl | rfl
    · exact write_joypad v ▸ ⟨rfl, rfl⟩
    · exact write_div v ▸ ⟨rfl, rfl⟩
    · exact write_tima v ▸ ⟨rfl, rfl⟩
    · exact write_tma v ▸ ⟨rfl, rfl⟩
    · exact write_tac v ▸ ⟨rfl, rfl⟩
    · exact write_requests v ▸ ⟨rfl, rfl⟩
    · exact write_dma v ▸ ⟨rfl, rfl⟩
    · exact write_boot v ▸ ⟨rfl, rfl⟩
  · rw [write_unwired v hb (UInt16.not_lt.1 ha) hw]
    exact ⟨rfl, rfl⟩

end Reach

/-- The addresses that a write can change the reading of, by the address it goes to. While the boot
image is `mapped` no write to the cartridge shows through it. -/
def footprint (mapped : Bool) (address cell : UInt16) : Prop :=
  if address < 0x8000 then
    (cell < 0x8000 ∨ 0xa000 ≤ cell ∧ cell < 0xc000) ∧ ¬(cell < 0x100 ∧ mapped = true)
  else if address < 0xa000 then cell = address
  else if address < 0xc000 then 0xa000 ≤ cell ∧ cell < 0xc000
  else if address < 0xde00 then cell = address ∨ cell = address + 0x2000
  else if address < 0xe000 then cell = address
  else if address < 0xfe00 then cell = address ∨ cell = address - 0x2000
  else if address < 0xfea0 then cell = address
  else if address < 0xff00 then False
  else if address = Cell.div ∨ address = Cell.tma ∨ address = Cell.tac then
    cell = address ∨ cell = Cell.tima
  else if address = Cell.boot then cell = address ∨ cell < 0x100
  else cell = address

/-- Addresses of memory without any effect of its own: video, work and high memory, object memory,
echoes, and the cells of the last page that nothing is wired to. -/
def Plain (address : UInt16) : Prop :=
  0x8000 ≤ address ∧ ¬(0xa000 ≤ address ∧ address < 0xc000) ∧
    ¬(0xfea0 ≤ address ∧ address < 0xff00) ∧ address ∉ Cell.wired

section Footprint
variable {mapped : Bool} {address cell target : UInt16}

/-- Whatever shows a cell that a write can change lies in its footprint. -/
theorem footprint_of_reached (hc : Region.behind? cell = some target)
    (ht : target ∈ reached address) : footprint mapped address cell := by
  have := address.toNat_lt
  have hc := Region.behind?_eq_some_iff.1 hc
  unfold reached at ht
  split at ht
  · rename_i hw
    -- Nothing but the cell itself shows a cell of the last page.
    have hcell : cell = target := by
      have hpage : Cell.page ≤ target := by
        rcases hw with rfl | rfl | rfl
        all_goals
          simp only [List.mem_cons, List.not_mem_nil, or_false] at ht
          rcases ht with rfl | rfl
        all_goals decide
      have := UInt16.le_iff_toNat_le.1 hpage
      simp only [Cell.page, UInt16.reduceToNat] at this
      rw [← UInt16.toNat_inj]
      omega
    subst hcell
    rcases hw with rfl | rfl | rfl
    all_goals simpa [footprint, Cell.div, Cell.tma, Cell.tac] using ht
  · rw [Option.mem_toList, Region.behind?_eq_some_iff] at ht
    unfold footprint
    simp only [UInt16.lt_iff_toNat_lt, UInt16.le_iff_toNat_le, UInt16.reduceToNat,
      ← UInt16.toNat_inj, UInt16.toNat_add, UInt16.toNat_sub] at *
    repeat' split
    all_goals omega

/-- Beyond the address itself, only echoes lie in the footprint of plain memory. -/
theorem echo_of_footprint (hp : Plain address) (h : footprint mapped address cell) :
    cell.toNat = address.toNat ∨
      0xc000 ≤ address.toNat ∧ address.toNat < 0xde00 ∧ cell.toNat = address.toNat + 0x2000 ∨
      0xe000 ≤ address.toNat ∧ address.toNat < 0xfe00 ∧ cell.toNat + 0x2000 = address.toNat := by
  obtain ⟨hl, hx, hu, hw⟩ := hp
  simp only [Cell.wired, List.mem_cons, List.not_mem_nil, or_false, not_or] at hw
  unfold footprint at h
  simp only [hw, or_self, if_false] at h
  simp only [UInt16.lt_iff_toNat_lt, UInt16.le_iff_toNat_le, UInt16.reduceToNat,
    ← UInt16.toNat_inj, UInt16.toNat_add, UInt16.toNat_sub] at h hl hx hu
  clear hw
  have := cell.toNat_lt
  repeat' split at h
  all_goals omega

theorem behind?_of_footprint (hp : Plain address) (ha : Region.behind? address = some target)
    (h : footprint mapped address cell) : Region.behind? cell = some target := by
  have hs := echo_of_footprint hp h
  rw [Region.behind?_eq_some_iff] at ha ⊢
  clear h hp
  omega

end Footprint

section Write
variable {b : Board} (hb : b.hooks = []) {address cell : UInt16} (v : UInt8)
include hb

omit hb in
/-- A write to the cartridge shows in what the cartridge shows, and in no more than its RAM window
if it goes there. -/
theorem peek_write_cartridge (ha : Region.of address = .rom ∨ Region.of address = .external)
    (h : ¬footprint b.bootMapped address cell) :
    (b.write address v).peek cell = b.peek cell := by
  have hpage : address < Cell.page := by
    rcases ha with ha | ha
    · exact UInt16.lt_trans (Region.lt_of_rom ha) (by decide)
    · exact UInt16.lt_trans (Region.bounds_of_external ha).2 (by decide)
  have hw : b.write address v =
      { b.noted address v with controller := b.controller.write address v } := by
    rw [write_of_lt_page v hpage]
    unfold poke
    rcases ha with ha | ha <;> rw [ha] <;> rfl
  rw [hw]
  refine peek_congr rfl rfl (fun _ => rfl) (fun hr hx => ?_) (fun _ _ => rfl)
  have hshown : cell < 0x8000 ∨ 0xa000 ≤ cell ∧ cell < 0xc000 :=
    hr.imp Region.lt_of_rom Region.bounds_of_external
  rcases ha with ha | ha
  · rw [footprint, if_pos (Region.lt_of_rom ha)] at h
    exact absurd ⟨hshown, hx⟩ h
  · obtain ⟨hl, hu⟩ := Region.bounds_of_external ha
    have hle {bound : UInt16} (hb : bound ≤ 0xa000) : ¬address < bound :=
      UInt16.not_lt.2 (UInt16.le_trans hb hl)
    rw [footprint, if_neg (hle (by decide)), if_neg (hle (by decide)), if_pos hu] at h
    exact Controller.read_write_window v hl _ (hshown.resolve_right h)

theorem peek_write_of_not_footprint (h : ¬footprint b.bootMapped address cell) :
    (b.write address v).peek cell = b.peek cell := by
  by_cases hc : Region.of address = .rom ∨ Region.of address = .external
  · exact peek_write_cartridge v hc h
  rw [not_or] at hc
  obtain ⟨hj, hi⟩ := joypad_write v hb address
  have hm : ∀ target, Region.behind? cell = some target →
      (b.write address v).memory.get target = b.memory.get target := fun target ht =>
    get_write_of_not_reached v hb fun hr => h (footprint_of_reached ht hr)
  by_cases hboot : address = Cell.boot
  · subst hboot
    have hcell : ¬cell < 0x100 := fun hlt => h <| by
      simp [footprint, Cell.boot, Cell.div, Cell.tma, Cell.tac, hlt]
    refine peek_congr hi hj (absurd · hcell) (fun _ _ => ?_) hm
    rw [write_boot]
    rfl
  · obtain ⟨hcart, hmap, -⟩ := mapping_write hb address v hc.1 hc.2 hboot
    refine peek_congr hi hj (fun _ => hmap) (fun _ _ => ?_) hm
    rw [hcart]

omit hb in
theorem exists_behind? (hp : Plain address) : ∃ target, Region.behind? address = some target := by
  obtain ⟨hl, hx, hu, -⟩ := hp
  have hn := Region.holds_of address
  simp only [UInt16.lt_iff_toNat_lt, UInt16.le_iff_toNat_le, UInt16.reduceToNat] at hl hx hu
  unfold Region.behind?
  cases hr : Region.of address
  all_goals
    simp only [hr, Region.Holds] at hn
    first
      | exact ⟨_, rfl⟩
      | omega

theorem peek_write_plain (hp : Plain address) (h : footprint b.bootMapped address cell) :
    (b.write address v).peek cell = v := by
  obtain ⟨target, ht⟩ := exists_behind? hp
  have hm : (b.write address v).memory = b.memory.set target v := by
    by_cases hpage : address < Cell.page
    · rw [write_of_lt_page v hpage]
      exact memory_poke v ht
    · rw [behind?_of_page_le (UInt16.not_lt.1 hpage)] at ht
      cases ht
      rw [write_unwired v hb (UInt16.not_lt.1 hpage) hp.2.2.2]
  have hj : target ≠ Cell.joypad := by
    rintro rfl
    have hn := Region.behind?_eq_some_iff.1 ht
    have haddress : address = Cell.joypad := by
      rw [← UInt16.toNat_inj]
      simp only [Cell.joypad, UInt16.reduceToNat] at hn ⊢
      omega
    exact hp.2.2.2 (haddress ▸ List.mem_cons_self)
  rw [peek_eq_get (behind?_of_footprint hp ht h) hj, hm, Memory.get_set_self]

end Write

/-- A write changes what is read at the addresses of its footprint only, and a write to plain memory
is read back at all of them. -/
theorem write_stays_in_footprint (b : Board) (hb : b.hooks = []) (address : UInt16) (v : UInt8) :
    (∀ cell, ¬footprint b.bootMapped address cell →
      (b.write address v).peek cell = b.peek cell) ∧
    (Plain address → ∀ cell, footprint b.bootMapped address cell →
      (b.write address v).peek cell = v) :=
  ⟨fun _ => peek_write_of_not_footprint hb v, fun hp _ => peek_write_plain hb v hp⟩

/-- The top of work RAM has no echo, although object memory lies at the same distance. -/
theorem write_stays_in_footprint_without_echo :
    let b := Board.new #[0x31] (.rom #[])
    b.hooks = [] ∧ Plain 0xde10 ∧ ¬footprint b.bootMapped 0xde10 0xfe10 ∧
      (b.write 0xde10 0x42).peek 0xfe10 = b.peek 0xfe10 ∧
      (b.write 0xde10 0x42).peek 0xde10 = 0x42 := by
  have hf : ¬footprint true 0xde10 0xfe10 := by unfold footprint; decide
  have hp : Plain 0xde10 := by unfold Plain; decide
  have hs : footprint true 0xde10 0xde10 := by unfold footprint; decide
  obtain ⟨hkept, hshown⟩ := write_stays_in_footprint (Board.new #[0x31] (.rom #[])) rfl 0xde10 0x42
  exact ⟨rfl, hp, hf, hkept 0xfe10 hf, hshown hp 0xde10 hs⟩

end Board
end DotMatrix
