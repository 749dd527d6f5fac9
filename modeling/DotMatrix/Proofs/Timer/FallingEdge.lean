import DotMatrix.Proofs.Timer.Reload

/-! # The timer counter counts falling edges

A cycle, a write to the divider and a write to the control cell are the events that can let the
signal fall. Each of them increments the timer counter exactly if it does, and nothing else does.
-/
namespace DotMatrix.Board

inductive Pulse where
  | cycle
  | div (v : UInt8)
  | tac (v : UInt8)

def Pulse.event : Pulse → Event
  | .cycle => .timer 1
  | .div v => .write Cell.div v
  | .tac v => .write Cell.tac v

def Event.pulses : Event → Bool
  | .timer _ => true
  | .write address _ => address == Cell.div || address == Cell.tac
  | _ => false

def count (b : Board) : UInt8 × Nat := (b.memory.get Cell.tima, b.timer.delay)

/-- What an increment starts from: in a cycle a reload that is due comes first. -/
def countBefore (b : Board) : Pulse → UInt8 × Nat
  | .cycle =>
    (if b.timer.delay = 1 then b.memory.get Cell.tma else b.memory.get Cell.tima, b.timer.delay - 1)
  | _ => b.count

/-- What an event without an edge makes of the timer counter: only stores reach it. -/
def countStored (b : Board) : Event → UInt8 × Nat
  | .write address v =>
    if address = Cell.tima ∧ b.timer.delay = 0 ∧ b.timer.guard = 0 ∨
        address = Cell.tma ∧ 0 < b.timer.guard then
      (v, b.timer.delay)
    else b.count
  | _ => b.count

section Pulses
variable {b : Board}

theorem count_driveTimer (f : Timer → TimerCells → Timer × TimerCells) :
    (b.driveTimer f).count =
      ((f b.timer b.memory.timerCells).2.tima, (f b.timer b.memory.timerCells).1.delay) :=
  Prod.ext (congrArg TimerCells.tima (timerCells_driveTimer b f)) rfl

theorem signal_driveTimer (f : Timer → TimerCells → Timer × TimerCells) :
    (b.driveTimer f).signal =
      Timer.gatedBit (f b.timer b.memory.timerCells).1.counter
        (f b.timer b.memory.timerCells).2.tac := by
  have ht : (b.driveTimer f).memory.get Cell.tac = (f b.timer b.memory.timerCells).2.tac :=
    congrArg TimerCells.tac (timerCells_driveTimer b f)
  rw [signal, ht]
  rfl

theorem count_pulse (h : b.Synced) (p : Pulse) :
    (b.apply p.event).count =
      Timer.counted (b.signal && !(b.apply p.event).signal) (b.countBefore p).1
        (b.countBefore p).2 := by
  have hl : b.timer.latch = b.signal := h.inStep.latch
  cases p with
  | cycle =>
    have hc : b.apply Pulse.cycle.event = b.driveTimer Timer.cycle := rfl
    have hr : b.timer.reloads = decide (b.timer.delay = 1) := rfl
    rw [hc, count_driveTimer, signal_driveTimer, Timer.cycle_eq, hl, hr]
    simp only [decide_eq_true_eq]
    rfl
  | div v =>
    have hd : b.apply (Pulse.div v).event = b.write Cell.div v := rfl
    rw [hd, write_div, count_driveTimer, signal_driveTimer, Timer.reset_eq, timer_noted, hl]
    rfl
  | tac v =>
    have hd : b.apply (Pulse.tac v).event = b.write Cell.tac v := rfl
    rw [hd, write_tac, count_driveTimer, signal_driveTimer, Timer.setControl_eq, timer_noted, hl]
    rfl

theorem count_of_kept {c : Board} (h : TimerKept b c) : c.count = b.count := by
  have ht : c.memory.get Cell.tima = b.memory.get Cell.tima := h.cells _ (by decide)
  rw [count, count, ht, h.timer]

theorem locked_eq_false_iff (t : Timer) : t.locked = false ↔ t.delay = 0 ∧ t.guard = 0 := by
  simp [Timer.locked]

theorem count_write (h : b.Synced) {address : UInt16} (v : UInt8) (hd : address ≠ Cell.div)
    (hc : address ≠ Cell.tac) :
    (b.write address v).count = b.countStored (.write address v) := by
  by_cases ho : address ∈ timerOwned
  · simp only [timerOwned, List.mem_cons, List.not_mem_nil, or_false, hd, hc, false_or] at ho
    rcases ho with rfl | rfl
    · have hm : Cell.tima ≠ Cell.tma := by decide
      rw [write_tima]
      simp only [count, countStored, true_and, hm, false_and, or_false, ← locked_eq_false_iff]
      cases b.timer.locked with
      | true => rfl
      | false => exact Prod.ext (Memory.get_set_self _ _ _) rfl
    · have hm : Cell.tma ≠ Cell.tima := by decide
      rw [write_tma, count_driveTimer, timer_noted]
      simp only [countStored, hm, false_and, false_or, true_and, Timer.setModulo]
      by_cases hg : 0 < b.timer.guard
      · rw [if_pos hg, if_pos hg]
      · rw [if_neg hg, if_neg hg]
        rfl
  · have hk := (h.write_unowned v ho).2
    simp only [timerOwned, List.mem_cons, List.not_mem_nil, or_false, not_or] at ho
    rw [count_of_kept hk]
    simp only [countStored, ho, false_and, or_false, if_false]

theorem count_apply (h : b.Synced) {e : Event} (he : e.pulses = false) :
    (b.apply e).count = b.countStored e := by
  cases e with
  | write address v =>
    obtain ⟨hd, hc⟩ : address ≠ Cell.div ∧ address ≠ Cell.tac := by
      simpa [Event.pulses] using he
    exact count_write h v hd hc
  | timer n => cases he
  | tick n => exact count_of_kept (h.tick n).2
  | request sources => exact count_of_kept (request_kept b sources)
  | button k pressed => rfl

theorem apply_timer (b : Board) (n : Nat) :
    b.apply (.timer n) = b.run (List.replicate n Pulse.cycle.event) := by
  induction n generalizing b with
  | zero => exact tickTimer_zero b
  | succ n ih => exact (tickTimer_succ b n).trans (ih _)

end Pulses

/-- In every run the latch is at the signal and the divider shows the counter. An event that can
let the signal fall increments the timer counter if the signal falls and leaves it alone otherwise;
a number of cycles is that many events, and no other event increments. The signal is bit 9, 3, 5 or
7 of the counter, by the lower two bits of the control, while the third bit lets it through. -/
theorem counts_falling_edges (bootImage : Bytes) (controller : Controller) (skipped : Bool)
    (events : List Event) :
    let b := (start bootImage controller skipped).run events
    b.timer.latch = b.signal ∧ b.memory.get Cell.div = (b.timer.counter >>> 8).toUInt8 ∧
      (∀ p : Pulse, (b.apply p.event).count =
        Timer.counted (b.signal && !(b.apply p.event).signal) (b.countBefore p).1
          (b.countBefore p).2) ∧
      (∀ n, b.apply (.timer n) = b.run (List.replicate n Pulse.cycle.event)) ∧
      (∀ e : Event, e.pulses = false → (b.apply e).count = b.countStored e) := by
  intro b
  have h : b.Synced := (synced_start bootImage controller skipped).run events
  refine ⟨h.inStep.latch, h.inStep.div, count_pulse h, apply_timer b, ?_⟩
  intro e he
  exact count_apply h he

/-- The counter goes from 47 to 48, so that bit 3 falls, and the timer counter from its last value
to zero. A store takes its place if it comes first. -/
theorem counts_falling_edges_overflow :
    ∃ b, b = (start #[] (.rom #[]) false).run (brink.map Timer.Act.event) ∧
      b.timer.counter = 47 ∧ b.memory.get Cell.tac = 0xfd ∧ b.count = (0xff, 0) ∧
      b.signal = true ∧ (b.apply Pulse.cycle.event).signal = false ∧
      (b.apply Pulse.cycle.event).count = (0, 4) ∧
      (Event.write Cell.tima 0x42).pulses = false ∧
      (b.apply (.write Cell.tima 0x42)).count = (0x42, 0) := by
  obtain ⟨b, hrun, -, -, -, hnext⟩ := exists_brink
  have hclockwork : b.clockwork = ⟨⟨47, true, 0, 0⟩, ⟨0, 0xff, 0x20, 0xfd, 0xe0⟩⟩ :=
    hrun ▸ clockwork_brink
  obtain ⟨-, -, pulse, -, other⟩ :=
    counts_falling_edges #[] (.rom #[]) false (brink.map Timer.Act.event)
  rw [← hrun] at pulse other
  obtain ⟨htimer, hcells⟩ := Clockwork.mk.inj hclockwork
  have hcount : b.count = (0xff, 0) :=
    Prod.ext (congrArg TimerCells.tima hcells) (congrArg Timer.delay htimer)
  have htac : b.memory.get Cell.tac = 0xfd := congrArg TimerCells.tac hcells
  have hhigh : b.signal = true := by
    rw [signal, htimer, htac]
    decide
  have hlow : (b.apply Pulse.cycle.event).signal = false := by
    have hsignal : (b.apply (.timer 1)).clockwork.signal = false := by
      rw [hnext]
      decide
    exact hsignal
  have hbefore : b.countBefore .cycle = (0xff, 0) := by
    rw [countBefore, htimer, if_neg (by decide)]
    exact Prod.ext (congrArg TimerCells.tima hcells) rfl
  have hstored : b.countStored (.write Cell.tima 0x42) = (0x42, 0) := by
    rw [countStored, htimer]
    exact if_pos (.inl ⟨rfl, rfl, rfl⟩)
  have hfallen := pulse .cycle
  rw [hhigh, hlow, hbefore] at hfallen
  exact ⟨b, hrun, congrArg Timer.counter htimer, htac, hcount, hhigh, hlow, hfallen, rfl,
    (other _ rfl).trans hstored⟩

end DotMatrix.Board
