import DotMatrix.Proofs.Board.Run

/-! # What a checked write leaves alone

On a board without hooks a checked write reaches the cell it names and, where that cell is wired,
the part of the hardware behind it. The other cells of the last page that the timer does not own,
and the transfer, do not notice.
-/
namespace DotMatrix

namespace Region

def onCartridge : Region → Bool
  | .rom | .external => true
  | _ => false

theorem lt_page_of_onCartridge {address : UInt16} (h : (Region.of address).onCartridge = true) :
    address < Cell.page := by
  apply UInt16.not_le.1
  intro hp
  rcases of_of_page_le hp with hr | hr
  all_goals
    rw [hr] at h
    cases h

end Region

namespace Board

section Driven
variable (b : Board) (f : Timer → TimerCells → Timer × TimerCells)

/-- Driving the timer reaches its own cells and the requests, nothing else. -/
theorem get_driveTimer {cell : UInt16} (ho : cell ∉ timerOwned) (hr : cell ≠ Cell.requests) :
    (b.driveTimer f).memory.get cell = b.memory.get cell := by
  simp only [timerOwned, List.mem_cons, List.not_mem_nil, or_false, not_or] at ho
  simp only [driveTimer, Memory.get_setTimerCells, ho, hr, if_false]

theorem get_requests_driveTimer :
    (b.driveTimer f).memory.get Cell.requests = (f b.timer b.memory.timerCells).2.requests :=
  congrArg TimerCells.requests (timerCells_driveTimer b f)

end Driven

section Write
variable {b : Board} (hb : b.hooks = []) (address : UInt16) (v : UInt8)

theorem get_requests_driving {f : Timer → TimerCells → Timer × TimerCells}
    (hf : ∀ t c, (f t c).2.requests = c.requests) :
    ((b.noted address v).driveTimer f).memory.get Cell.requests = b.memory.get Cell.requests := by
  rw [get_requests_driveTimer, hf]
  rfl

/-- A write to a cell that the timer owns leaves the rest of the page to itself. -/
theorem get_write_owned (ha : address ∈ timerOwned) {cell : UInt16} (hc : cell ∉ timerOwned) :
    (b.write address v).memory.get cell = b.memory.get cell ∧
      (b.write address v).hooks = b.hooks ∧ (b.write address v).dma = b.dma := by
  have driven {f : Timer → TimerCells → Timer × TimerCells}
      (hf : ∀ t c, (f t c).2.requests = c.requests) :
      ((b.noted address v).driveTimer f).memory.get cell = b.memory.get cell := by
    by_cases hr : cell = Cell.requests
    · rw [hr]
      exact get_requests_driving address v hf
    · exact get_driveTimer _ _ hc hr
  simp only [timerOwned, List.mem_cons, List.not_mem_nil, or_false] at ha
  rcases ha with rfl | rfl | rfl | rfl
  · rw [write_div]
    refine ⟨driven ?_, rfl, rfl⟩
    intro t c
    rw [Timer.reset_eq]
  · have hne : Cell.tima ≠ cell := by
      rintro rfl
      exact hc (by decide)
    rw [write_tima]
    refine ⟨?_, rfl, rfl⟩
    dsimp only
    split
    · rfl
    · exact Memory.get_set_ne _ _ hne
  · rw [write_tma]
    exact ⟨driven fun _ _ => rfl, rfl, rfl⟩
  · rw [write_tac]
    refine ⟨driven ?_, rfl, rfl⟩
    intro t c
    rw [Timer.setControl_eq]

include hb

/-- The cells above that the timer does not own keep what they hold until they are written. -/
theorem get_write_of_ne {cell : UInt16} (hp : Cell.page ≤ cell) (hc : cell ∉ timerOwned)
    (hne : address ≠ cell) : (b.write address v).memory.get cell = b.memory.get cell := by
  by_cases ho : address ∈ timerOwned
  · exact (get_write_owned address v ho hc).1
  by_cases ha : address < Cell.page
  · rw [write_of_lt_page v ha]
    exact get_poke_of_lt_page _ _ ha hp
  · obtain ⟨stored, hm, -⟩ := write_of_page_le v hb (UInt16.not_lt.1 ha) ho
    rw [hm]
    exact Memory.get_set_ne _ _ hne

/-- So do the cells below, echoes aside. -/
theorem get_write_apart {cell : UInt16} (hp : cell < Cell.page) (hne : address ≠ cell)
    (hecho : Region.of address = .echo → unecho address ≠ cell) :
    (b.write address v).memory.get cell = b.memory.get cell := by
  by_cases ho : address ∈ timerOwned
  · have hnot : cell ∉ timerOwned := fun hm =>
      absurd hp (UInt16.not_lt.2 (page_le_of_timerOwned hm))
    exact (get_write_owned address v ho hnot).1
  by_cases ha : address < Cell.page
  · rw [write_of_lt_page v ha]
    unfold poke
    split
    · rfl
    · rfl
    · exact Memory.get_set_ne _ _ (hecho ‹_›)
    · rfl
    all_goals exact Memory.get_set_ne _ _ hne
  · obtain ⟨stored, hm, -⟩ := write_of_page_le v hb (UInt16.not_lt.1 ha) ho
    rw [hm]
    exact Memory.get_set_ne _ _ hne

/-- What is mapped where changes by writes to the cartridge and to the boot cell only. -/
theorem mapping_write (hr : Region.of address ≠ .rom) (hx : Region.of address ≠ .external)
    (hboot : address ≠ Cell.boot) :
    (b.write address v).controller = b.controller ∧
      (b.write address v).bootMapped = b.bootMapped ∧
        (b.write address v).bootImage = b.bootImage := by
  by_cases ha : address < Cell.page
  · rw [write_of_lt_page v ha]
    unfold poke
    split
    all_goals first
      | contradiction
      | exact ⟨rfl, rfl, rfl⟩
  by_cases hw : address ∈ Cell.wired
  · simp only [Cell.wired, List.mem_cons, List.not_mem_nil, or_false] at hw
    rcases hw with rfl | rfl | rfl | rfl | rfl | rfl | rfl | rfl
    · exact write_joypad v ▸ ⟨rfl, rfl, rfl⟩
    · exact write_div v ▸ ⟨rfl, rfl, rfl⟩
    · exact write_tima v ▸ ⟨rfl, rfl, rfl⟩
    · exact write_tma v ▸ ⟨rfl, rfl, rfl⟩
    · exact write_tac v ▸ ⟨rfl, rfl, rfl⟩
    · exact write_requests v ▸ ⟨rfl, rfl, rfl⟩
    · exact write_dma v ▸ ⟨rfl, rfl, rfl⟩
    · exact absurd rfl hboot
  · rw [write_unwired v hb (UInt16.not_lt.1 ha) hw]
    exact ⟨rfl, rfl, rfl⟩

/-- The boot image leaves by a write to its own cell and never comes back. -/
theorem bootMapped_write :
    (b.write address v).bootMapped =
      if address = Cell.boot then b.bootMapped && v == 0 else b.bootMapped := by
  by_cases hboot : address = Cell.boot
  · subst hboot
    rw [write_boot, if_pos rfl]
  rw [if_neg hboot]
  by_cases hc : Region.of address = .rom ∨ Region.of address = .external
  · have ha : address < Cell.page := by
      apply Region.lt_page_of_onCartridge
      rcases hc with hr | hr
      all_goals
        rw [hr]
        rfl
    rw [write_of_lt_page v ha]
    unfold poke
    split <;> rfl
  · rw [not_or] at hc
    exact (mapping_write hb address v hc.1 hc.2 hboot).2.1

/-- A cartridge sees the writes to its own two regions and no others. -/
theorem controller_write :
    (b.write address v).controller =
      if (Region.of address).onCartridge then b.controller.write address v else b.controller := by
  by_cases hboot : address = Cell.boot
  · subst hboot
    rw [write_boot]
    rfl
  cases hr : (Region.of address).onCartridge with
  | true =>
    have ha : address < Cell.page := Region.lt_page_of_onCartridge hr
    rw [write_of_lt_page v ha, if_pos rfl]
    unfold poke
    split
    · rfl
    · rfl
    all_goals
      rename_i hother
      rw [hother] at hr
      cases hr
  | false =>
    have elsewhere {r : Region} (hon : r.onCartridge = true) : Region.of address ≠ r := by
      rintro rfl
      rw [hr] at hon
      cases hon
    exact (mapping_write hb address v (elsewhere rfl) (elsewhere rfl) hboot).1

theorem hooks_write : (b.write address v).hooks = [] := by
  have hd : Cell.dma ∉ timerOwned := by decide
  by_cases ho : address ∈ timerOwned
  · exact (get_write_owned address v ho hd).2.1.trans hb
  by_cases ha : address < Cell.page
  · rw [write_of_lt_page v ha]
    exact (hooks_poke _ _ _).trans hb
  · obtain ⟨-, -, -, hh, -⟩ := write_of_page_le v hb (UInt16.not_lt.1 ha) ho
    exact hh.trans hb

/-- A transfer is started by its own cell and disturbed by none. -/
theorem dma_write :
    (b.write address v).dma = if address = Cell.dma then b.dma.start v else b.dma := by
  have hd : Cell.dma ∉ timerOwned := by decide
  by_cases ho : address ∈ timerOwned
  · have hne : address ≠ Cell.dma := by
      rintro rfl
      exact hd ho
    rw [if_neg hne]
    exact (get_write_owned address v ho hd).2.2
  by_cases ha : address < Cell.page
  · have hne : address ≠ Cell.dma := by
      rintro rfl
      exact absurd ha (by decide)
    rw [if_neg hne, write_of_lt_page v ha]
    exact dma_poke _ _ _
  · obtain ⟨-, -, -, -, hd⟩ := write_of_page_le v hb (UInt16.not_lt.1 ha) ho
    exact hd

theorem bounded_write (h : b.dma.Bounded) : (b.write address v).dma.Bounded := by
  rw [dma_write hb]
  split
  · exact bounded_start v h
  · exact h

end Write

end Board
end DotMatrix
