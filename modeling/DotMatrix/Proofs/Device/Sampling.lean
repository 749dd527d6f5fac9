import Mathlib.Logic.Function.Iterate
import DotMatrix.Proofs.Board.Footprint
import DotMatrix.Proofs.Cartridge.Calendar
import DotMatrix.Proofs.Device.Log

/-! # What time brings to the processor

Between two instructions only a sample of the keypad reaches the processor, and only one that finds
a new press: it takes the processor out of STOP. The timer, the transfer and the cartridge see the
time pass whatever the peripherals request.
-/
namespace DotMatrix

theorem Controller.clock?_tick (c : Controller) (n : Nat) :
    (c.tick n).clock? = c.clock?.map (·.tick n) := by
  cases c <;> rfl

namespace Board

structure Alike (b c : Board) : Prop where
  timer : c.timer = b.timer
  dma : c.dma = b.dma
  controller : c.controller = b.controller
  cells : ∀ cell, cell ≠ Cell.requests → c.memory.get cell = b.memory.get cell

theorem quiet_alike (b : Board) : Quiet (Alike b) where
  request h sources := by
    refine ⟨h.timer, h.dma, h.controller, ?_⟩
    intro cell hne
    exact (Memory.get_set_ne _ _ hne.symm).trans (h.cells cell hne)
  button h _ _ := ⟨h.timer, h.dma, h.controller, h.cells⟩

theorem Alike.trans {a b c : Board} (hab : a.Alike b) (hbc : b.Alike c) : a.Alike c where
  timer := hbc.timer.trans hab.timer
  dma := hbc.dma.trans hab.dma
  controller := hbc.controller.trans hab.controller
  cells cell hne := (hbc.cells cell hne).trans (hab.cells cell hne)

theorem joypad_transferCycles (n : Nat) (b : Board) : (transferCycles n b).joypad = b.joypad := by
  induction n generalizing b with
  | zero => rfl
  | succ n ih =>
    rw [transferCycles_succ, ih]
    unfold transferCycle
    split <;> rfl

theorem dma_transferCycles (n : Nat) (b : Board) :
    (transferCycles n b).dma = Dma.advance^[n] b.dma := by
  induction n generalizing b with
  | zero => rfl
  | succ n ih => rw [transferCycles_succ, ih, dma_transferCycle, Function.iterate_succ_apply]

/-- The second board is the first one some cycles later: its timer, its transfer and its cartridge
have moved on by as many. A clock on the cartridge that is in range has counted them, and one that
is halted stands where it was. -/
structure Later (n : Nat) (b c : Board) : Prop where
  timer : c.timer = (Timer.run n b.timer b.memory.timerCells).1
  dma : c.dma = Dma.advance^[n] b.dma
  controller : c.controller = b.controller.tick n
  clock : ∀ t, b.controller.clock? = some t → ∃ t', c.controller.clock? = some t' ∧
    (t.Running → t'.Running ∧ t'.elapsed = (t.elapsed + n) % RealTimeClock.range) ∧
    (t.live.halted = true → t' = t)
  cells : ∀ cell, cell ≠ Cell.requests →
    c.memory.get cell = ((b.tickTimer n).tick n).memory.get cell

theorem Later.of_alike {b c : Board} {n : Nat} (hs : b.Synced)
    (h : ((b.tickTimer n).tick n).Alike c) : Later n b c := by
  have hcontroller : c.controller = b.controller.tick n := by
    have hc : ((b.tickTimer n).tick n).controller =
        (transferCycles n (b.tickTimer n)).controller.tick n := rfl
    rw [h.controller, hc, controller_transferCycles]
    rfl
  refine ⟨h.timer.trans ((hs.tickTimer n).tick n).2.timer,
    h.dma.trans (dma_transferCycles n (b.tickTimer n)), hcontroller, ?_, h.cells⟩
  intro t ht
  refine ⟨t.tick n, ?_, fun hr => hr.tick n, fun hh => RealTimeClock.tick_of_halted hh n⟩
  rw [hcontroller, Controller.clock?_tick, ht]
  rfl

end Board

namespace Device
variable {ι ρ π : Type}

section Press
variable [Keypad ι]

/-- A button is held that counts as released so far. -/
def Presses (keypad : ι) (j : Joypad) : Prop :=
  ∃ button, Keypad.held keypad button = true ∧ j.held button = false

def Pressed (d : Device Board ι ρ π) : Prop :=
  (Keypad.refresh d.keypad).1 = true ∧ Presses (Keypad.refresh d.keypad).2 d.board.joypad

/-- No button hides the press of another one, as each is sampled once. -/
theorem foldl_updateButton (keypad : ι) {l : List Button} (hl : l.Nodup) (pressed : Bool)
    (b : Board) :
    (l.foldl (fun (r : Bool × Board) button =>
      (r.1 || (r.2.updateButton button (Keypad.held keypad button)).1,
        (r.2.updateButton button (Keypad.held keypad button)).2)) (pressed, b)).1 = true ↔
      pressed = true ∨
        ∃ button ∈ l, Keypad.held keypad button = true ∧ b.joypad.held button = false := by
  induction l generalizing pressed b with
  | nil => simp
  | cons button l ih =>
    obtain ⟨hnew, hl⟩ := List.nodup_cons.1 hl
    have hfirst : (b.updateButton button (Keypad.held keypad button)).1 = true ↔
        Keypad.held keypad button = true ∧ b.joypad.held button = false := by
      simp [Board.updateButton, Joypad.update]
    have hothers : ∀ other ∈ l,
        (b.joypad.set button (Keypad.held keypad button)).held other = b.joypad.held other := by
      intro other hm
      rw [Joypad.held_set, if_neg]
      rintro rfl
      exact hnew hm
    have hrest : (∃ other ∈ l, Keypad.held keypad other = true ∧
        (b.updateButton button (Keypad.held keypad button)).2.joypad.held other = false) ↔
          ∃ other ∈ l, Keypad.held keypad other = true ∧ b.joypad.held other = false := by
      refine exists_congr fun other => and_congr_right fun hm => ?_
      rw [← hothers other hm]
      rfl
    rw [List.foldl_cons, ih hl, Bool.or_eq_true, hfirst, hrest, or_assoc]
    simp only [List.mem_cons, exists_eq_or_imp]

theorem sampleButtons_iff (keypad : ι) (b : Board) :
    (sampleButtons keypad b).1 = true ↔ Presses keypad b.joypad := by
  refine (foldl_updateButton keypad (l := Button.all) (by decide) false b).trans ?_
  constructor
  · rintro (hf | ⟨button, -, hp⟩)
    · cases hf
    · exact ⟨button, hp⟩
  · rintro ⟨button, hp⟩
    exact .inr ⟨button, by cases button <;> decide, hp⟩

variable {d : Device Board ι ρ π}

theorem cpu_sampled (keypad : ι) (s : Machine Board) :
    (sampled keypad s).cpu =
      if (sampleButtons keypad s.bus).1 && s.cpu.stopped then s.cpu.wake else s.cpu := by
  unfold sampled
  dsimp only
  cases (sampleButtons keypad s.bus).1 with
  | false => rfl
  | true =>
    cases s.cpu.stopped with
    | false => rfl
    | true => rfl

theorem cpu_pollInput_of_pressed (h : d.Pressed) :
    d.pollInput.cpu = if d.cpu.stopped then d.cpu.wake else d.cpu := by
  have hp : (sampleButtons (Keypad.refresh d.keypad).2 d.machine.bus).1 = true :=
    (sampleButtons_iff _ _).2 h.2
  have hs := cpu_sampled (Keypad.refresh d.keypad).2 d.machine
  rw [hp, Bool.true_and] at hs
  rw [pollInput_eq, if_pos h.1]
  exact hs

theorem cpu_pollInput_of_not_pressed (h : ¬d.Pressed) : d.pollInput.cpu = d.cpu := by
  rw [pollInput_eq]
  by_cases hc : (Keypad.refresh d.keypad).1 = true
  · have hp : (sampleButtons (Keypad.refresh d.keypad).2 d.machine.bus).1 = false := by
      rw [← Bool.not_eq_true]
      exact fun hs => h ⟨hc, (sampleButtons_iff _ _).1 hs⟩
    have hs := cpu_sampled (Keypad.refresh d.keypad).2 d.machine
    rw [hp, Bool.false_and] at hs
    rw [if_pos hc]
    exact hs
  · rw [if_neg hc]
    rfl

/-- A sample can end STOP and nothing else about the processor. -/
theorem stopped_pollInput (h : d.cpu.stopped = true) :
    d.pollInput.cpu.stopped = false ↔ d.Pressed := by
  constructor
  · intro hs
    refine Classical.byContradiction fun hp => ?_
    rw [cpu_pollInput_of_not_pressed hp, h] at hs
    cases hs
  · intro hp
    rw [cpu_pollInput_of_pressed hp, h]
    rfl

theorem cpu_pollInput_of_running (h : d.cpu.stopped = false) : d.pollInput.cpu = d.cpu := by
  by_cases hp : d.Pressed
  · rw [cpu_pollInput_of_pressed hp, h]
    rfl
  · exact cpu_pollInput_of_not_pressed hp

def PressedWithin (d : Device Board ι ρ π) (n : Nat) : Prop := d.inputCountdown ≤ n ∧ d.Pressed

end Press

section Time
variable [Keypad ι] [Screen ρ] [Peripheral π Board] {d : Device Board ι ρ π}

omit [Keypad ι] in
theorem joypad_afterPeripherals (hπ : Requesting π) (d : Device Board ι ρ π) (n : Nat) :
    (d.afterPeripherals n).board.joypad = d.board.joypad := by
  have hkeeping : Keeping π fun b => b.joypad = d.board.joypad := by
    intro q b cycles hb
    obtain ⟨sources, hr⟩ := hπ q b cycles
    rw [hr]
    exact hb
  have htime : ((d.board.tickTimer n).tick n).joypad = d.board.joypad :=
    Board.joypad_transferCycles n (d.board.tickTimer n)
  exact kept_tickPeripherals hkeeping n d.peripherals htime d.screen

/-- The processor after some time: that of a sample, if one was due. -/
theorem cpu_passTime (d : Device Board ι ρ π) (n : Nat) :
    (d.passTime n).cpu =
      if d.inputCountdown ≤ n then (d.afterPeripherals n).pollInput.cpu else d.cpu := by
  have hp : (d.passTime n).cpu = ((d.afterPeripherals n).countInput n).cpu := rfl
  have hi : (d.afterPeripherals n).inputCountdown = d.inputCountdown := rfl
  rw [hp, countInput_eq, hi]
  by_cases hn : d.inputCountdown ≤ n
  · rw [if_pos hn, if_pos (Nat.sub_eq_zero_of_le hn)]
  · rw [if_neg hn, if_neg (by omega)]
    rfl

theorem pressed_afterPeripherals (hπ : Requesting π) (n : Nat) :
    (d.afterPeripherals n).Pressed ↔ d.Pressed := by
  unfold Pressed
  rw [joypad_afterPeripherals hπ]
  rfl

theorem stopped_passTime (hπ : Requesting π) (h : d.cpu.stopped = true) (n : Nat) :
    (d.passTime n).cpu.stopped = false ↔ d.PressedWithin n := by
  rw [cpu_passTime]
  by_cases hn : d.inputCountdown ≤ n
  · have hs := stopped_pollInput (d := d.afterPeripherals n) h
    rw [if_pos hn, hs, pressed_afterPeripherals hπ]
    exact (and_iff_right hn).symm
  · rw [if_neg hn, h]
    constructor
    · intro hf
      cases hf
    · intro hw
      exact absurd hw.1 hn

theorem cpu_passTime_of_running (h : d.cpu.stopped = false) (n : Nat) :
    (d.passTime n).cpu = d.cpu := by
  have hs := cpu_pollInput_of_running (d := d.afterPeripherals n) h
  rw [cpu_passTime, hs]
  exact ite_self _

theorem alike_passTime (hπ : Requesting π) (d : Device Board ι ρ π) (n : Nat) :
    ((d.board.tickTimer n).tick n).Alike (d.passTime n).board := by
  have hquiet := Board.quiet_alike ((d.board.tickTimer n).tick n)
  have hp : ((d.board.tickTimer n).tick n).Alike (d.afterPeripherals n).board :=
    kept_tickPeripherals (hπ.keeping hquiet) n d.peripherals ⟨rfl, rfl, rfl, fun _ _ => rfl⟩
      d.screen
  exact kept_countInput hquiet n hp

omit [Keypad ι] [Screen ρ] [Peripheral π Board] in
theorem settleWatch_kept (address : UInt16) (n : Nat) :
    (d.settleWatch address n).2.cpu = d.cpu ∧ d.board.Alike (d.settleWatch address n).2.board := by
  unfold settleWatch
  split
  all_goals exact ⟨rfl, rfl, rfl, rfl, fun _ _ => rfl⟩

end Time

end Device
end DotMatrix
