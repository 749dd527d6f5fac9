import DotMatrix.Proofs.Board.Clock
import DotMatrix.Proofs.Device.Invariant
import DotMatrix.Proofs.Device.Pace

/-! # What a run leaves on record

A step that carries something out leaves a record of its cost and its data writes; a pause before an
instruction and a fault leave none. Where the cycles of a device, the counter of its timer and its
cartridge stand is a function of these records alone, as long as the peripherals do no more than
request interrupts.
-/
namespace DotMatrix

theorem Timer.counter_run (n : Nat) (t : Timer) (c : TimerCells) :
    (run n t c).1.counter = t.counter + UInt16.ofNat n := by
  induction n generalizing t c with
  | zero => exact (UInt16.add_zero t.counter).symm
  | succ n ih =>
    have hcycle : (t.cycle c).1.counter = t.counter + 1 := by rw [cycle_eq]
    change (run n (t.cycle c).1 (t.cycle c).2).1.counter = _
    rw [ih, hcycle, UInt16.add_assoc, UInt16.add_comm 1, UInt16.ofNat_add]
    rfl

def slotEvents (writes : List (UInt16 × UInt8)) : List Controller.Event :=
  (writes.filter fun w => (Region.of w.1).onCartridge).map fun w => .write w.1 w.2

def clearsCounter (writes : List (UInt16 × UInt8)) : Bool := writes.any (·.1 == Cell.div)

namespace Board

/-- The timer is in step with its cells, and its counter and the cartridge stand at given values. -/
structure Standing (counter : UInt16) (slot : Controller) (b : Board) : Prop where
  synced : b.Synced
  counter : b.timer.counter = counter
  slot : b.controller = slot

section Standing
variable {b : Board} {counter : UInt16} {slot : Controller}

theorem quiet_standing (counter : UInt16) (slot : Controller) : Quiet (Standing counter slot) where
  request h sources := ⟨h.synced.apply (.request sources), h.counter, h.slot⟩
  button h button pressed := ⟨h.synced.apply (.button button pressed), h.counter, h.slot⟩

theorem counter_write (h : b.Synced) (address : UInt16) (v : UInt8) :
    (b.write address v).timer.counter = if address = Cell.div then 0 else b.timer.counter := by
  by_cases hd : address = Cell.div
  · rw [if_pos hd, hd, write_div]
    change (Timer.reset _ _).1.counter = 0
    rw [Timer.reset_eq]
  rw [if_neg hd]
  by_cases ho : address ∈ timerOwned
  · simp only [timerOwned, List.mem_cons, List.not_mem_nil, or_false, hd, false_or] at ho
    rcases ho with rfl | rfl | rfl
    · exact write_tima v ▸ rfl
    · exact write_tma v ▸ rfl
    · rw [write_tac]
      change (Timer.setControl _ _ v).1.counter = _
      rw [Timer.setControl_eq]
      rfl
  · rw [(h.write_unowned v ho).2.timer]

theorem Standing.tick (h : Standing counter slot b) (n : Nat) :
    Standing (counter + UInt16.ofNat n) (slot.tick n) ((b.tickTimer n).tick n) := by
  obtain ⟨hs, hk⟩ := (h.synced.tickTimer n).tick n
  refine ⟨hs, ?_, ?_⟩
  · rw [hk.timer, ← h.counter]
    exact Timer.counter_run n _ _
  · have hc : ((b.tickTimer n).tick n).controller =
        (transferCycles n (b.tickTimer n)).controller.tick n := rfl
    rw [hc, controller_transferCycles, ← h.slot]
    rfl

end Standing

section Booked

def Booked (start : Board) (r : Recorded Board) : Prop :=
  Standing (if clearsCounter r.writes then 0 else start.timer.counter)
    (start.controller.after (slotEvents r.writes)) r.bus

theorem busInvariant_booked (start : Board) : BusInvariant (Booked start) where
  read h _ := ⟨h.synced.watched _, h.counter, h.slot⟩
  write {r} h address v := by
    refine ⟨h.synced.write address v, ?_, ?_⟩
    · refine (counter_write h.synced address v).trans ?_
      change _ = if (address == Cell.div || clearsCounter r.writes) then 0 else _
      by_cases ha : address = Cell.div
      · rw [if_pos ha, ha]
        rfl
      · have hne : (address == Cell.div) = false := by simpa using ha
        rw [if_neg ha, hne, Bool.false_or]
        exact h.counter
    · refine (controller_write h.synced.unhooked address v).trans ?_
      rw [h.slot]
      simp only [Bus.write, slotEvents, List.filter_cons]
      cases (Region.of address).onCartridge with
      | true => rfl
      | false => rfl
  fetched h _ _ := h
  note h _ := h

theorem booked_poke {start : Board} {r : Recorded Board} (h : Booked start r) (v : UInt8) :
    Booked start (Bus.poke r Cell.requests v) := by
  have hp : (Bus.poke r Cell.requests v).bus =
      { r.bus with memory := r.bus.memory.set Cell.requests v } :=
    poke_of_page_le r.bus v (show Cell.page ≤ Cell.requests by decide)
  unfold Booked
  rw [hp]
  have hk : TimerKept r.bus { r.bus with memory := r.bus.memory.set Cell.requests v } :=
    .of_set rfl rfl (by decide)
  exact ⟨h.synced.of_kept hk rfl h.synced.transferring, h.counter, h.slot⟩

end Booked

end Board

namespace Machine
variable {β γ : Type} [Bus β] [Bus γ] (s : Machine β)

theorem carryOut_mapBus {f : β → γ} (h : BusMap f) (fetched : Option Instruction) :
    (s.mapBus f).carryOut fetched =
      ((s.carryOut fetched).1, (s.carryOut fetched).2.mapBus f) := by
  unfold carryOut
  rw [proceed_mapBus h]
  dsimp only
  rw [service_mapBus h]

theorem recorded_carryOut (fetched : Option Instruction) :
    s.carryOut fetched =
      ((s.recorded.carryOut fetched).1, (s.recorded.carryOut fetched).2.mapBus Recorded.bus) :=
  s.recorded.carryOut_mapBus busMap_recorded fetched

theorem booked_carryOut {s : Machine Board} (h : s.bus.Synced) (fetched : Option Instruction) :
    Board.Booked s.bus (s.recorded.carryOut fetched).2.bus := by
  have hstart : Board.Booked s.bus s.recorded.bus := ⟨h, rfl, rfl⟩
  have hinv := Board.busInvariant_booked s.bus
  exact kept_service hinv (kept_proceed hinv hstart fetched) Board.booked_poke

end Machine

/-- What a step that was carried out leaves on record. -/
structure Executed where
  /-- Cycles of the instruction and the interrupt check together. -/
  cost : Nat
  /-- The data writes, the last one first. -/
  writes : List (UInt16 × UInt8)

namespace Executed

def spent : List Executed → Nat
  | [] => 0
  | x :: log => spent log + x.cost

/-- The counter of the timer after a log, the last record first. -/
def counter (start : UInt16) : List Executed → UInt16
  | [] => start
  | x :: log =>
    (if clearsCounter x.writes then 0 else counter start log) + UInt16.ofNat x.cost

/-- What the cartridge sees of a step: the time comes after the writes. -/
def events (x : Executed) : List Controller.Event := .tick x.cost :: slotEvents x.writes

def history (log : List Executed) : List Controller.Event := log.flatMap events

end Executed

/-- Peripherals that do no more than request interrupts. -/
def Requesting (π : Type) [Peripheral π Board] : Prop :=
  ∀ (q : π) (b : Board) (cycles : Nat),
    ∃ sources, (Peripheral.tick q b cycles).2.2 = b.request sources

theorem Requesting.keeping {π : Type} [Peripheral π Board] (hπ : Requesting π) {p : Board → Prop}
    (h : Board.Quiet p) : Keeping π p := by
  intro q b cycles hb
  obtain ⟨sources, hr⟩ := hπ q b cycles
  rw [hr]
  exact h.request hb sources

namespace Device
open Executed
variable {ι ρ π : Type}

/-- What the next step will leave on record, if it carries something out. -/
def executed? (d : Device Board ι ρ π) : Option Executed :=
  match d.breakEvent?, d.machine.fetch with
  | none, .ok fetched =>
    some ⟨(d.machine.carryOut fetched).1, (d.machine.recorded.carryOut fetched).2.bus.writes⟩
  | _, _ => none

/-- The device after its processor has gone on, before time passes for anything else. -/
def processed (d : Device Board ι ρ π) (fetched : Option Instruction) : Device Board ι ρ π :=
  { d with machine := (d.machine.carryOut fetched).2, resumeAt := none }

section Run
variable [Keypad ι] [Screen ρ] [Peripheral π Board]

def steps : Nat → Device Board ι ρ π → Device Board ι ρ π
  | 0, d => d
  | n + 1, d => (steps n d).step.2

def log : Nat → Device Board ι ρ π → List Executed
  | 0, _ => []
  | n + 1, d => (steps n d).executed?.toList ++ log n d

end Run

section Step
variable [Keypad ι] [Screen ρ] [Peripheral π Board] {d : Device Board ι ρ π}

/-- Without a record the step was a pause before an instruction or a fault, and nothing moves but
the place to resume. -/
theorem step_of_executed?_none (h : d.executed? = none) :
    (pausedBefore d.step.1 = true ∨ fault? d.step.1 ≠ none) ∧
      ∃ resumeAt, d.step.2 = { d with resumeAt } := by
  unfold executed? at h
  cases hb : d.breakEvent? with
  | some event =>
    rw [step_of_breakEvent hb]
    exact ⟨.inl (pausedBefore_breakEvent hb), _, rfl⟩
  | none =>
    cases hf : d.machine.fetch with
    | error fault =>
      rw [step_of_fetch_error hb hf]
      exact ⟨.inr (Option.some_ne_none fault), _, rfl⟩
    | ok fetched =>
      rw [hb, hf] at h
      cases h

/-- A recorded step lets its cost pass for the whole device and collects the watched access. -/
theorem step_of_executed?_some {x : Executed} (h : d.executed? = some x) :
    ∃ fetched, x.cost = (d.machine.carryOut fetched).1 ∧
      x.writes = (d.machine.recorded.carryOut fetched).2.bus.writes ∧
      let settled := ((d.processed fetched).passTime x.cost).settleWatch d.pc x.cost
      d.step = (.ok settled.1, settled.2) := by
  unfold executed? at h
  cases hb : d.breakEvent? with
  | some event =>
    rw [hb] at h
    cases h
  | none =>
    cases hf : d.machine.fetch with
    | error fault =>
      rw [hb, hf] at h
      cases h
    | ok fetched =>
      rw [hb, hf] at h
      cases h
      exact ⟨fetched, rfl, rfl, step_of_fetch_ok hb hf⟩

end Step

section Account
variable [Keypad ι] [Screen ρ] [Peripheral π Board] {d start : Device Board ι ρ π}
  {counter : UInt16} {slot : Controller}

omit [Keypad ι] [Screen ρ] [Peripheral π Board] in
theorem standing_settleWatch (h : d.board.Standing counter slot) (address : UInt16) (n : Nat) :
    (d.settleWatch address n).2.board.Standing counter slot := by
  unfold settleWatch
  split
  · exact h
  · exact ⟨h.synced.watched _, h.counter, h.slot⟩

theorem standing_passTime (hπ : Requesting π) (h : d.board.Standing counter slot) (n : Nat) :
    (d.passTime n).board.Standing (counter + UInt16.ofNat n) (slot.tick n) := by
  have hquiet := Board.quiet_standing (counter + UInt16.ofNat n) (slot.tick n)
  have hq : Board.Standing _ _ (d.afterPeripherals n).board :=
    kept_tickPeripherals (hπ.keeping hquiet) n d.peripherals (h.tick n) d.screen
  exact kept_countInput hquiet n hq

structure Accounted (start : Device Board ι ρ π) (log : List Executed) (d : Device Board ι ρ π) :
    Prop where
  cycles : d.cycles = start.cycles + spent log
  board : d.board.Standing (Executed.counter start.board.timer.counter log)
    (start.board.controller.after (history log))

omit [Keypad ι] [Screen ρ] [Peripheral π Board] in
theorem standing_processed (h : d.board.Standing counter slot) {fetched : Option Instruction}
    {writes : List (UInt16 × UInt8)}
    (hw : writes = (d.machine.recorded.carryOut fetched).2.bus.writes) :
    (d.processed fetched).board.Standing (if clearsCounter writes then 0 else counter)
      (slot.after (slotEvents writes)) := by
  have hbus : (d.processed fetched).board = (d.machine.recorded.carryOut fetched).2.bus.bus :=
    congrArg (·.2.bus) (d.machine.recorded_carryOut fetched)
  have hbooked : Board.Booked d.board (d.machine.recorded.carryOut fetched).2.bus :=
    Machine.booked_carryOut h.synced fetched
  rw [hbus, hw, ← h.counter, ← h.slot]
  exact hbooked

theorem accounted_step (hπ : Requesting π) {log : List Executed} (h : Accounted start log d) :
    Accounted start (d.executed?.toList ++ log) d.step.2 := by
  cases hx : d.executed? with
  | none =>
    obtain ⟨-, resumeAt, hs⟩ := step_of_executed?_none hx
    rw [hs]
    exact ⟨h.cycles, h.board⟩
  | some x =>
    obtain ⟨fetched, -, hwrites, hs⟩ := step_of_executed?_some hx
    have hprocessed := standing_processed h.board hwrites
    rw [← Controller.after_append] at hprocessed
    have hpassed := (steady_passTime (d.processed fetched) x.cost).cycles
    have hsettled :=
      (steady_settleWatch ((d.processed fetched).passTime x.cost) d.pc x.cost).1.cycles
    rw [hs]
    refine ⟨?_, standing_settleWatch (standing_passTime hπ hprocessed x.cost) d.pc x.cost⟩
    change (((d.processed fetched).passTime x.cost).settleWatch d.pc x.cost).2.cycles =
      start.cycles + spent (x :: log)
    rw [hsettled, hpassed]
    change d.cycles + x.cost = start.cycles + (spent log + x.cost)
    rw [h.cycles, Nat.add_assoc]

/-- Every number of steps is accounted for by its records. -/
theorem accounted_steps (hπ : Requesting π) (h : d.board.Synced) (n : Nat) :
    Accounted d (d.log n) (d.steps n) := by
  induction n with
  | zero => exact ⟨rfl, h, rfl, rfl⟩
  | succ n ih => exact accounted_step hπ ih

end Account

end Device
end DotMatrix
