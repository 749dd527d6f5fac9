import DotMatrix.Proofs.Board.Clock
import DotMatrix.Proofs.Timer.Edge

/-! # The timer on its own

A program lets cycles pass and writes cells. What either makes of the timer depends on the timer and
the cells it drives alone, so both can be followed there, without a board around them.
-/
namespace DotMatrix

structure Clockwork where
  timer : Timer
  cells : TimerCells
  deriving DecidableEq, Repr

inductive Timer.Act where
  | cycle
  | write (address : UInt16) (v : UInt8)
  deriving DecidableEq, Repr

namespace Timer.Act

def event : Act → Board.Event
  | .cycle => .timer 1
  | .write address v => .write address v

def pulses : Act → Bool
  | .cycle => true
  | .write address _ => address == Cell.div || address == Cell.tac

def avoids (cell : UInt16) : Act → Bool
  | .cycle => true
  | .write address _ => address != cell

end Timer.Act

namespace Clockwork
variable (w : Clockwork)

def drive (f : Timer → TimerCells → Timer × TimerCells) : Clockwork :=
  ⟨(f w.timer w.cells).1, (f w.timer w.cells).2⟩

def write (address : UInt16) (v : UInt8) : Clockwork :=
  if address = Cell.div then w.drive Timer.reset
  else if address = Cell.tima then if w.timer.locked then w else { w with cells.tima := v }
  else if address = Cell.tma then { w with cells := w.timer.setModulo w.cells v }
  else if address = Cell.tac then w.drive (Timer.setControl · · v)
  else if address = Cell.requests then { w with cells.requests := v ||| 0xe0 }
  else w

def act : Timer.Act → Clockwork
  | .cycle => w.drive Timer.cycle
  | .write address v => w.write address v

def run (acts : List Timer.Act) : Clockwork := acts.foldl act w

def signal : Bool := Timer.gatedBit w.timer.counter w.cells.tac

def falls (a : Timer.Act) : Bool := a.pulses && w.timer.latch && !(w.act a).signal

/-- The value that an increment starts from: in a cycle a reload that is due comes first. -/
def before : Timer.Act → UInt8
  | .cycle => if w.timer.delay = 1 then w.cells.tma else w.cells.tima
  | .write _ _ => w.cells.tima

def delayBefore : Timer.Act → Nat
  | .cycle => w.timer.delay - 1
  | .write _ _ => w.timer.delay

/-- The act increments the timer counter from its last value. -/
def overflows (a : Timer.Act) : Bool := w.falls a && w.before a == 0xff

section Act
variable {w} {a : Timer.Act}

/-- An edge counts once, and the latch follows the signal. -/
theorem act_of_pulses (h : a.pulses = true) :
    ((w.act a).cells.tima, (w.act a).timer.delay) =
        Timer.counted (w.falls a) (w.before a) (w.delayBefore a) ∧
      (w.act a).timer.latch = (w.act a).signal := by
  unfold falls
  rw [h, Bool.true_and]
  cases a with
  | cycle =>
    have hr : w.timer.reloads = decide (w.timer.delay = 1) := rfl
    simp only [act, drive, signal, before, delayBefore, Timer.cycle_eq, hr, decide_eq_true_eq,
      and_self]
  | write address v =>
    rw [Timer.Act.pulses, Bool.or_eq_true, beq_iff_eq, beq_iff_eq] at h
    rcases h with rfl | rfl
    · simp only [act, write, if_pos, drive, signal, before, delayBefore, Timer.reset_eq,
        and_self]
    · have hdiv : Cell.tac ≠ Cell.div := by decide
      have htima : Cell.tac ≠ Cell.tima := by decide
      have htma : Cell.tac ≠ Cell.tma := by decide
      simp only [act, write, if_neg hdiv, if_neg htima, if_neg htma, if_pos, drive, signal, before,
        delayBefore, Timer.setControl_eq, and_self]

theorem write_unpulsed {address : UInt16} {v : UInt8}
    (h : (Timer.Act.write address v).pulses = false) :
    (w.write address v).timer = w.timer ∧ (w.write address v).cells.tac = w.cells.tac ∧
      (w.write address v).cells.tima =
        if address = Cell.tima ∧ w.timer.locked = false ∨ address = Cell.tma ∧ 0 < w.timer.guard
        then v else w.cells.tima := by
  obtain ⟨hdiv, htac⟩ : address ≠ Cell.div ∧ address ≠ Cell.tac := by
    simpa [Timer.Act.pulses] using h
  unfold write
  rw [if_neg hdiv, if_neg htac]
  by_cases htima : address = Cell.tima
  · have hne : Cell.tima ≠ Cell.tma := by decide
    subst htima
    cases hl : w.timer.locked with
    | true => simp [hne]
    | false => simp
  by_cases htma : address = Cell.tma
  · subst htma
    simp [htima, Timer.setModulo]
  · rw [if_neg htima, if_neg htma]
    split
    all_goals simp [htima, htma]

theorem tima_write_tima (w : Clockwork) (v : UInt8) :
    (w.write Cell.tima v).cells.tima = if w.timer.locked then w.cells.tima else v := by
  have hne : Cell.tima ≠ Cell.tma := by decide
  rw [(write_unpulsed (w := w) rfl).2.2]
  cases w.timer.locked with
  | true => simp [hne]
  | false => simp

theorem tima_write_tma (w : Clockwork) (v : UInt8) :
    (w.write Cell.tma v).cells.tima = if 0 < w.timer.guard then v else w.cells.tima := by
  have hne : Cell.tma ≠ Cell.tima := by decide
  rw [(write_unpulsed (w := w) rfl).2.2]
  simp [hne]

/-- Every act leaves the delay as it was before the increment, or starts it. -/
theorem delay_act (w : Clockwork) (a : Timer.Act) :
    (w.act a).timer.delay = if w.overflows a then 4 else w.delayBefore a := by
  cases hp : a.pulses with
  | true =>
    have hc := congrArg Prod.snd (act_of_pulses (w := w) hp).1
    unfold overflows
    refine hc.trans ?_
    unfold Timer.counted
    cases w.falls a with
    | true => simp
    | false => simp
  | false =>
    cases a with
    | cycle => cases hp
    | write address v =>
      have hf : w.overflows (.write address v) = false := by
        simp [overflows, falls, hp]
      rw [hf]
      exact congrArg Timer.delay (write_unpulsed hp).1

theorem cycle_fields (w : Clockwork) :
    (w.act .cycle).timer.guard = (if w.timer.delay = 1 then 4 else w.timer.guard - 1) ∧
      (w.act .cycle).cells.requests =
        (if w.timer.delay = 1 then w.cells.requests ||| 0x04 else w.cells.requests) ∧
      (w.act .cycle).cells.tma = w.cells.tma ∧ (w.act .cycle).cells.tac = w.cells.tac ∧
      (w.act .cycle).timer.counter = w.timer.counter + 1 := by
  have hr : w.timer.reloads = decide (w.timer.delay = 1) := rfl
  simp only [act, drive, Timer.cycle_eq, hr, decide_eq_true_eq, Timer.reloadGuard, and_self]

/-- A write does not run the guard down, and reaches the modulo and the requests under their own
addresses only. -/
theorem write_fields (w : Clockwork) (address : UInt16) (v : UInt8) :
    (w.write address v).timer.guard = w.timer.guard ∧
      (w.write address v).cells.tma = (if address = Cell.tma then v else w.cells.tma) ∧
      (address ≠ Cell.requests → (w.write address v).cells.requests = w.cells.requests) := by
  have hdiv : Cell.div ≠ Cell.tma := by decide
  have htima : Cell.tima ≠ Cell.tma := by decide
  unfold write
  split
  · subst address
    rw [if_neg hdiv, drive, Timer.reset_eq]
    exact ⟨rfl, rfl, fun _ => rfl⟩
  split
  · subst address
    rw [if_neg htima]
    split
    all_goals exact ⟨rfl, rfl, fun _ => rfl⟩
  split
  · exact ⟨rfl, rfl, fun _ => rfl⟩
  split
  · rw [drive, Timer.setControl_eq]
    exact ⟨rfl, rfl, fun _ => rfl⟩
  split
  · exact ⟨rfl, rfl, fun hne => absurd ‹_› hne⟩
  · exact ⟨rfl, rfl, fun _ => rfl⟩

end Act

end Clockwork

namespace Board

def clockwork (b : Board) : Clockwork := ⟨b.timer, b.memory.timerCells⟩

theorem clockwork_driveTimer (b : Board) (f : Timer → TimerCells → Timer × TimerCells) :
    (b.driveTimer f).clockwork = b.clockwork.drive f := by
  unfold clockwork
  rw [timerCells_driveTimer]
  rfl

theorem timerCells_set_tima (m : Memory) (v : UInt8) :
    (m.set Cell.tima v).timerCells = { m.timerCells with tima := v } := by
  simp [Memory.timerCells, Memory.get_set, Cell.div, Cell.tima, Cell.tma, Cell.tac, Cell.requests]

theorem timerCells_set_requests (m : Memory) (v : UInt8) :
    (m.set Cell.requests v).timerCells = { m.timerCells with requests := v } := by
  simp [Memory.timerCells, Memory.get_set, Cell.div, Cell.tima, Cell.tma, Cell.tac, Cell.requests]

section Write
variable {b : Board} (hb : b.hooks = [])
include hb

/-- A write elsewhere does not reach the timer. -/
theorem clockwork_write_of_ne {address : UInt16} (v : UInt8) (ho : address ∉ timerOwned)
    (hr : address ≠ Cell.requests) : (b.write address v).clockwork = b.clockwork := by
  have hkept : TimerKept b (b.write address v) := by
    by_cases ha : address < Cell.page
    · rw [write_of_lt_page v ha]
      exact ⟨timer_poke _ _ _,
        fun cell hc => get_poke_of_lt_page _ _ ha (page_le_of_timerOwned hc)⟩
    · obtain ⟨stored, hm, ht, -⟩ := write_of_page_le v hb (UInt16.not_lt.1 ha) ho
      exact .of_set ht hm ho
  have hrequests : (b.write address v).memory.get Cell.requests = b.memory.get Cell.requests :=
    get_write_of_ne hb address v (by decide) (by decide) hr
  unfold clockwork Memory.timerCells
  rw [hkept.timer, hkept.cells Cell.div (by decide), hkept.cells Cell.tima (by decide),
    hkept.cells Cell.tma (by decide), hkept.cells Cell.tac (by decide), hrequests]

theorem clockwork_write (address : UInt16) (v : UInt8) :
    (b.write address v).clockwork = b.clockwork.write address v := by
  unfold Clockwork.write
  split
  · subst address
    rw [write_div, clockwork_driveTimer]
    rfl
  split
  · subst address
    have hl : b.clockwork.timer.locked = b.timer.locked := rfl
    rw [write_tima, hl]
    cases b.timer.locked with
    | true => rfl
    | false => exact congrArg (Clockwork.mk b.timer) (timerCells_set_tima b.memory v)
  split
  · subst address
    rw [write_tma, clockwork_driveTimer]
    rfl
  split
  · subst address
    rw [write_tac, clockwork_driveTimer]
    rfl
  split
  · subst address
    rw [write_requests]
    exact congrArg (Clockwork.mk b.timer) (timerCells_set_requests b.memory (v ||| 0xe0))
  · rename_i hdiv htima htma htac hr
    apply clockwork_write_of_ne hb v _ hr
    simp [timerOwned, hdiv, htima, htma, htac]

theorem clockwork_apply (a : Timer.Act) : (b.apply a.event).clockwork = b.clockwork.act a := by
  cases a with
  | cycle => exact clockwork_driveTimer b (Timer.run 1)
  | write address v => exact clockwork_write hb address v

theorem clockwork_run (acts : List Timer.Act) :
    (b.run (acts.map Timer.Act.event)).clockwork = b.clockwork.run acts := by
  induction acts generalizing b with
  | nil => rfl
  | cons a acts ih =>
    have hnext : (b.apply a.event).hooks = [] := hooks_apply hb a.event
    exact (ih hnext).trans (congrArg (Clockwork.run · acts) (clockwork_apply hb a))

end Write

theorem clockwork_start (bootImage : Bytes) (controller : Controller) :
    (start bootImage controller false).clockwork = ⟨.ofCounter 0, ⟨0, 0, 0, 0xf8, 0xe0⟩⟩ := by
  simp [clockwork, start, new, Memory.timerCells, Memory.get_set, Cell.joypad, Cell.div, Cell.tima,
    Cell.tma, Cell.tac, Cell.requests, Cell.boot]

section Peek
variable (b : Board)

theorem peek_tima : b.peek Cell.tima = b.clockwork.cells.tima := rfl

theorem peek_tma : b.peek Cell.tma = b.clockwork.cells.tma := rfl

theorem peek_requests : b.peek Cell.requests = b.clockwork.cells.requests := rfl

end Peek

end Board
end DotMatrix
