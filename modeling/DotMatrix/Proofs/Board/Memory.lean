import DotMatrix.Board.Basic

/-! # Cells of a board

What the operations of a board do to the cells of the last page and to the timer. The rest of the
address space lies below that page, and no access below it reaches a cell there.
-/
namespace DotMatrix

namespace Memory

theorem ext_get {m n : Memory} (h : ∀ address, m.get address = n.get address) : m = n := by
  have hc : m.cells = n.cells := by
    apply Vector.ext
    intro i hi
    have hg := h ⟨⟨i, hi⟩⟩
    exact hg
  cases m
  cases n
  exact congrArg Memory.mk hc

theorem set_of_get_eq {m : Memory} {address : UInt16} {v : UInt8} (h : m.get address = v) :
    m.set address v = m := by
  apply ext_get
  intro a
  rw [get_set]
  split
  · subst_vars
    rfl
  · rfl

theorem get_setTimerCells (m : Memory) (c : TimerCells) (address : UInt16) :
    (m.setTimerCells c).get address =
      if address = Cell.requests then c.requests
      else if address = Cell.tac then c.tac
      else if address = Cell.tma then c.tma
      else if address = Cell.tima then c.tima
      else if address = Cell.div then c.div
      else m.get address := by
  simp only [setTimerCells, get_set, eq_comm (b := address)]

theorem setTimerCells_timerCells (m : Memory) : m.setTimerCells m.timerCells = m := by
  apply ext_get
  intro address
  rw [get_setTimerCells]
  repeat' split
  all_goals simp_all [timerCells]

theorem setTimerCells_setTimerCells (m : Memory) (c d : TimerCells) :
    (m.setTimerCells c).setTimerCells d = m.setTimerCells d := by
  apply ext_get
  intro address
  rw [get_setTimerCells, get_setTimerCells m d]
  repeat' split
  all_goals first
    | rfl
    | rw [get_setTimerCells]
      simp_all

end Memory

namespace Region

def Holds : Region → Nat → Prop
  | .rom, n => n < 0x8000
  | .video, n => 0x8000 ≤ n ∧ n < 0xa000
  | .external, n => 0xa000 ≤ n ∧ n < 0xc000
  | .work, n => 0xc000 ≤ n ∧ n < 0xe000
  | .echo, n => 0xe000 ≤ n ∧ n < 0xfe00
  | .objects, n => 0xfe00 ≤ n ∧ n < 0xfea0
  | .unusable, n => 0xfea0 ≤ n ∧ n < 0xff00
  | .io, n => 0xff00 ≤ n ∧ n < 0xff80
  | .high, n => 0xff80 ≤ n

theorem holds_of (address : UInt16) : (Region.of address).Holds address.toNat := by
  unfold Region.of
  simp only [UInt16.lt_iff_toNat_lt, UInt16.reduceToNat]
  repeat' split
  all_goals simp only [Holds]
  all_goals omega

theorem eq_of_holds {r s : Region} {n : Nat} (hr : r.Holds n) (hs : s.Holds n) : r = s := by
  cases r <;> cases s
  all_goals simp only [Holds] at hr hs
  all_goals first
    | rfl
    | omega

theorem of_eq_iff {address : UInt16} {r : Region} :
    Region.of address = r ↔ r.Holds address.toNat := by
  constructor
  · rintro rfl
    exact holds_of address
  · exact eq_of_holds (holds_of address)

variable {address : UInt16}

theorem of_of_page_le (h : Cell.page ≤ address) :
    Region.of address = .io ∨ Region.of address = .high := by
  have hn : 0xff00 ≤ address.toNat := UInt16.le_iff_toNat_le.1 h
  rw [of_eq_iff, of_eq_iff]
  simp only [Holds]
  omega

theorem unecho_lt_page (h : Region.of address = .echo) : unecho address < Cell.page := by
  obtain ⟨hl, hu⟩ := of_eq_iff.1 h
  simp only [unecho, UInt16.lt_iff_toNat_lt, UInt16.toNat_sub, UInt16.reduceToNat, Cell.page]
  omega

end Region

namespace Board
variable (b : Board)

section Timer
variable (f g : Timer → TimerCells → Timer × TimerCells)

@[simp]
theorem timerCells_driveTimer :
    (b.driveTimer f).memory.timerCells = (f b.timer b.memory.timerCells).2 :=
  Memory.timerCells_setTimerCells _ _

theorem driveTimer_driveTimer :
    (b.driveTimer f).driveTimer g =
      b.driveTimer fun t c => g (f t c).1 (f t c).2 := by
  have hm (c d : TimerCells) := Memory.setTimerCells_setTimerCells b.memory c d
  simp only [driveTimer, Memory.timerCells_setTimerCells, hm]

theorem tickTimer_zero : b.tickTimer 0 = b := by
  have hm := Memory.setTimerCells_timerCells b.memory
  simp only [tickTimer, driveTimer, Timer.run, hm]

theorem tickTimer_succ (n : Nat) : b.tickTimer (n + 1) = (b.tickTimer 1).tickTimer n := by
  rw [tickTimer, tickTimer, tickTimer, driveTimer_driveTimer]
  rfl

end Timer

section Poke
variable (address : UInt16) (v : UInt8)

@[simp]
theorem timer_poke : (b.poke address v).timer = b.timer := by
  unfold poke
  split <;> rfl

@[simp]
theorem hooks_poke : (b.poke address v).hooks = b.hooks := by
  unfold poke
  split <;> rfl

@[simp]
theorem dma_poke : (b.poke address v).dma = b.dma := by
  unfold poke
  split <;> rfl

variable {address}

theorem poke_of_page_le (h : Cell.page ≤ address) :
    b.poke address v = { b with memory := b.memory.set address v } := by
  unfold poke
  rcases Region.of_of_page_le h with hr | hr <;> rw [hr]

theorem get_poke_of_lt_page (h : address < Cell.page) {cell : UInt16} (hc : Cell.page ≤ cell) :
    (b.poke address v).memory.get cell = b.memory.get cell := by
  have below {a : UInt16} (ha : a < Cell.page) :
      (b.memory.set a v).get cell = b.memory.get cell := by
    apply Memory.get_set_ne
    rintro rfl
    exact absurd ha (UInt16.not_lt.2 hc)
  unfold poke
  split
  · rfl
  · rfl
  · exact below (Region.unecho_lt_page ‹_›)
  · rfl
  all_goals exact below h

end Poke

end Board
end DotMatrix
