import DotMatrix.Proofs.Board.Image
import DotMatrix.Proofs.Device.Sampling
import DotMatrix.Proofs.Device.TimeBase
import DotMatrix.Proofs.Interrupt.Enabling

/-! # HALT and STOP

A processor sleeps in one of two ways, never in both. HALT ends at an interrupt check that finds a
source enabled and requested; STOP ends at a sample of the keypad that finds a new press. While the
processor sleeps the rest of the device goes on.
-/
namespace DotMatrix

def Cpu.Wakeable (c : Cpu) : Prop := ¬(c.halted = true ∧ c.stopped = true)

theorem Cpu.wakeable_of_halted_eq_false {c : Cpu} (h : c.halted = false) : c.Wakeable := by
  rintro ⟨hh, -⟩
  rw [h] at hh
  cases hh

theorem Cpu.wakeable_of_stopped_eq_false {c : Cpu} (h : c.stopped = false) : c.Wakeable := by
  rintro ⟨-, hs⟩
  rw [h] at hs
  cases hs

namespace Machine
variable {s : Machine Board}

/-- The two instructions that put the processor to sleep are only carried out by one that is
awake. -/
theorem wakeable_proceed {fetched : Option Instruction} (h : s.cpu.Wakeable)
    (hf : s.fetch = .ok fetched) : (s.proceed fetched).2.cpu.Wakeable := by
  cases fetched with
  | none => exact h
  | some i =>
    by_cases hi : i = .halt
    · subst hi
      have hawake := idle_of_fetch hf
      exact Cpu.wakeable_of_stopped_eq_false (Bool.or_eq_false_iff.1 hawake).2
    · exact Cpu.wakeable_of_halted_eq_false (halted_proceed hf hi)

theorem wakeable_service (h : s.cpu.Wakeable) : s.service.2.cpu.Wakeable := by
  rintro ⟨hh, hs⟩
  rw [halted_service, Bool.and_eq_true] at hh
  rw [stopped_service] at hs
  exact h ⟨hh.1, hs⟩

theorem service_of_stopped (h : s.cpu.stopped = true) :
    s.dispatched? = none ∧ s.service = (0, s) := by
  have hd : s.dispatched? = none := by
    unfold dispatched?
    rw [h, Bool.not_true, Bool.and_false]
    rfl
  have hr : s.rouses = false := by
    unfold rouses
    rw [h, Bool.not_true, Bool.and_false, Bool.false_and]
  rw [service_eq, hd, hr]
  refine ⟨rfl, ?_⟩
  unfold roused
  rw [hr]
  rfl

/-- In HALT the check wakes the processor if a source is enabled and requested, whether or not it
can dispatch it, and the program counter moves only for a dispatch. -/
theorem service_of_halted (h : s.cpu.halted = true) (hs : s.cpu.stopped = false) :
    (s.service.2.cpu.halted = false ↔ s.waiting ≠ 0) ∧
      (s.dispatched?.isSome = true ↔ s.waiting ≠ 0 ∧ s.cpu.ime.enabled = true) := by
  rw [halted_service, isSome_dispatched?, h, hs]
  by_cases hw : s.waiting = 0
  · simp [hw]
  · simp [hw]

end Machine

theorem Board.invariant_synced : Board.Invariant Board.Synced where
  bus := {
    read := fun h _ => h.watched _
    write := fun h address v => h.write address v
    fetched := fun h _ _ => h
    note := fun h _ => h }
  poke {b} h v := by
    have hp : b.poke Cell.requests v = { b with memory := b.memory.set Cell.requests v } :=
      poke_of_page_le b v (by decide)
    rw [hp]
    exact h.of_kept (.of_set rfl rfl (by decide)) rfl h.transferring
  event h e := h.apply e
  hit h := h.watched _

theorem Board.busInvariant_joypad (j : Joypad) :
    BusInvariant fun b : Board => b.hooks = [] ∧ b.joypad = j where
  read h _ := h
  write h address v :=
    ⟨hooks_write h.1 address v, ((joypad_write v h.1 address).1).trans h.2⟩
  fetched h _ _ := h
  note h _ := h

namespace Device
variable {ι ρ π : Type} [Keypad ι] [Screen ρ] [Peripheral π Board]

/-- What a device becomes by steps and samples of its keypad, peripherals being attached at will. -/
inductive Driven (start : Device Board ι ρ π) : Device Board ι ρ π → Prop where
  | start : Driven start start
  | attach {d : Device Board ι ρ π} (before : Driven start d) (q : π) : Driven start (d.attach q)
  | step {d : Device Board ι ρ π} (before : Driven start d) : Driven start d.step.2
  | poll {d : Device Board ι ρ π} (before : Driven start d) : Driven start d.pollInput

variable {d start : Device Board ι ρ π}

theorem kept_driven {p : Board → Prop} (h : Board.Invariant p) (hπ : Requesting π)
    (hstart : p start.board) (hd : Driven start d) : p d.board := by
  induction hd with
  | start => exact hstart
  | attach _ q ih => exact ih
  | step _ ih => exact kept_step h (hπ.keeping h.quiet) ih
  | poll _ ih => exact kept_pollInput h.quiet ih

section Processor
variable {fetched : Option Instruction}

omit [Screen ρ] [Peripheral π Board] in
theorem wakeable_pollInput (h : d.cpu.Wakeable) : d.pollInput.cpu.Wakeable := by
  cases hs : d.cpu.stopped with
  | false => exact cpu_pollInput_of_running hs ▸ h
  | true =>
    by_cases hp : d.Pressed
    · rw [cpu_pollInput_of_pressed hp, hs]
      exact Cpu.wakeable_of_halted_eq_false rfl
    · exact cpu_pollInput_of_not_pressed hp ▸ h

theorem wakeable_passTime (h : d.cpu.Wakeable) (n : Nat) : (d.passTime n).cpu.Wakeable := by
  have hp := wakeable_pollInput (d := d.afterPeripherals n) h
  rw [cpu_passTime]
  split
  · exact hp
  · exact h

theorem cpu_carryOut (d : Device Board ι ρ π) (fetched : Option Instruction) :
    (d.carryOut fetched).2.cpu =
      ((d.processed fetched).passTime (d.machine.carryOut fetched).1).cpu :=
  (settleWatch_kept d.pc _).1

theorem wakeable_step (h : d.cpu.Wakeable) : d.step.2.cpu.Wakeable := by
  cases hb : d.breakEvent? with
  | some event =>
    rw [step_of_breakEvent hb]
    exact h
  | none =>
    cases hf : d.machine.fetch with
    | error fault =>
      rw [step_of_fetch_error hb hf]
      exact h
    | ok fetched =>
      have hs := Machine.wakeable_service (Machine.wakeable_proceed h hf)
      rw [step_of_fetch_ok hb hf, cpu_carryOut]
      exact wakeable_passTime (d := d.processed fetched) hs _

/-- In no run is the processor halted and stopped. -/
theorem Driven.wakeable (hd : Driven start d) (h : start.cpu.Wakeable) : d.cpu.Wakeable := by
  induction hd with
  | start => exact h
  | attach _ q ih => exact ih
  | step _ ih => exact wakeable_step ih
  | poll _ ih => exact wakeable_pollInput ih

omit [Keypad ι] [Screen ρ] [Peripheral π Board] in
theorem joypad_processed (hb : d.board.hooks = []) (fetched : Option Instruction) :
    (d.processed fetched).board.joypad = d.board.joypad := by
  have hinv := Board.busInvariant_joypad d.board.joypad
  have hproceed := Machine.kept_proceed hinv (s := d.machine) ⟨hb, rfl⟩ fetched
  exact (Machine.kept_service hinv hproceed fun {b} h v =>
    ⟨(Board.hooks_poke b Cell.requests v).trans h.1, h.2⟩).2

omit [Screen ρ] [Peripheral π Board] in
theorem pressed_processed (hb : d.board.hooks = []) :
    (d.processed fetched).Pressed ↔ d.Pressed := by
  unfold Pressed
  rw [joypad_processed hb]
  rfl

theorem later_carryOut (hπ : Requesting π) (hs : d.board.Synced) (fetched : Option Instruction) :
    Board.Later (d.machine.carryOut fetched).1 (d.machine.carryOut fetched).2.bus
      (d.carryOut fetched).2.board := by
  have hproceed := Machine.kept_proceed Board.invariant_synced.bus (s := d.machine) hs fetched
  have hservice : (d.machine.carryOut fetched).2.bus.Synced :=
    Machine.kept_service Board.invariant_synced.bus hproceed Board.invariant_synced.poke
  have hpassed := alike_passTime hπ (d.processed fetched) (d.machine.carryOut fetched).1
  exact .of_alike hservice (hpassed.trans (settleWatch_kept d.pc _).2)

end Processor

section Idle

/-- A processor that sleeps spends its step without an instruction, and no breakpoint stops it. -/
theorem step_of_idle (hπ : Requesting π) (hs : d.board.Synced) (hidle : d.cpu.idle = true) :
    let s := d.machine.mapCpu fun c => { c with cycles := c.cycles + 4 }
    d.machine.fetch = .ok none ∧ d.machine.proceed none = (4, s) ∧
      d.machine.step = .ok (4, s) ∧ d.breakEvent? = none ∧
      pausedBefore d.step.1 = false ∧ fault? d.step.1 = none ∧
      d.step.2.cycles = d.cycles + (4 + s.service.1) ∧
      Board.Later (4 + s.service.1) s.service.2.bus d.step.2.board := by
  intro s
  have hf : d.machine.fetch = .ok none := Machine.fetch_of_idle hidle
  have hb : d.breakEvent? = none := by
    unfold breakEvent? breakable
    rw [hidle, Bool.not_true, Bool.and_false]
    rfl
  have hstep := step_of_fetch_ok hb hf
  have hcycles : (d.carryOut none).2.cycles = d.cycles + (4 + s.service.1) := by
    have hpassed := (steady_passTime (d.processed none) (4 + s.service.1)).cycles
    exact (steady_settleWatch ((d.processed none).passTime (4 + s.service.1)) d.pc _).1.cycles.trans
      hpassed
  refine ⟨hf, rfl, Machine.step_of_fetch hf, hb, pausedBefore_of_breakEvent_none hb, ?_, ?_, ?_⟩
  · rw [hstep]
    rfl
  · rw [hstep]
    exact hcycles
  · rw [hstep]
    exact later_carryOut hπ hs none

/-- HALT in a step that carries something out. -/
theorem step_of_halted {fetched : Option Instruction} (hb : d.breakEvent? = none)
    (hf : d.machine.fetch = .ok fetched)
    (hh : (d.machine.proceed fetched).2.cpu.halted = true)
    (hs : (d.machine.proceed fetched).2.cpu.stopped = false) :
    (d.step.2.cpu.halted = false ↔ (d.machine.proceed fetched).2.waiting ≠ 0) ∧
      d.step.2.pc = ((d.machine.proceed fetched).2.dispatched?.map Interrupt.vector).getD
        (d.machine.proceed fetched).2.registers.pc := by
  have hrunning : (d.processed fetched).cpu.stopped = false :=
    (Machine.stopped_service _).trans hs
  have hcpu : d.step.2.cpu = (d.processed fetched).cpu := by
    rw [step_of_fetch_ok hb hf, cpu_carryOut]
    exact cpu_passTime_of_running hrunning _
  have hpc : d.step.2.pc = (d.processed fetched).cpu.registers.pc :=
    congrArg (·.registers.pc) hcpu
  rw [hcpu, hpc]
  exact ⟨(Machine.service_of_halted hh hs).1, Machine.pc_service _⟩

/-- STOP in a step that carries something out. -/
theorem step_of_stopped (hπ : Requesting π) {fetched : Option Instruction}
    (hunhooked : d.board.hooks = []) (hb : d.breakEvent? = none)
    (hf : d.machine.fetch = .ok fetched)
    (hs : (d.machine.proceed fetched).2.cpu.stopped = true) :
    d.step.2.cpu.stopped = false ↔ d.PressedWithin (d.machine.carryOut fetched).1 := by
  have hstopped : (d.processed fetched).cpu.stopped = true := (Machine.stopped_service _).trans hs
  rw [step_of_fetch_ok hb hf, cpu_carryOut, stopped_passTime hπ hstopped]
  exact and_congr_right' (pressed_processed hunhooked)

omit [Keypad ι] [Peripheral π Board] in
theorem wakeable_powerOn {bootImage : Option Bytes} {image : Bytes} {keypad : ι} {screen : ρ}
    {l : Breakpoints} {d₀ : Device Board ι ρ π}
    (h : powerOn id bootImage image keypad screen l = .ok d₀) : d₀.cpu.Wakeable := by
  rw [powerOn_eq] at h
  cases hf : fitted bootImage image with
  | error fault =>
    rw [hf] at h
    cases h
  | ok parts =>
    rw [hf] at h
    cases h
    cases bootImage with
    | none => exact Cpu.wakeable_of_halted_eq_false rfl
    | some bytes => exact Cpu.wakeable_of_halted_eq_false rfl

end Idle

section Start

/-- A keypad on which nothing has changed at the first sample; from the second one on Start is
held. -/
structure LateStart where
  samples : Nat

instance : Keypad LateStart where
  refresh k := (k.samples == 1, ⟨k.samples + 1⟩)
  held k button := button = .start ∧ 2 ≤ k.samples

/-- A sample that is due and finds the keypad unchanged is only counted. -/
theorem input_step (hπ : Requesting π) {fetched : Option Instruction} (hb : d.breakEvent? = none)
    (hf : d.machine.fetch = .ok fetched) (hunhooked : d.board.hooks = [])
    (hdue : d.inputCountdown = 0) (hc : (Keypad.refresh d.keypad).1 = false) :
    d.step.2.keypad = (Keypad.refresh d.keypad).2 ∧ d.step.2.inputCountdown = inputPollCycles ∧
      d.step.2.board.joypad = d.board.joypad := by
  let n := (d.machine.carryOut fetched).1
  let e := (d.processed fetched).afterPeripherals n
  have hcounted : e.countInput n =
      { e with keypad := (Keypad.refresh d.keypad).2, inputCountdown := inputPollCycles } := by
    have hzero : e.inputCountdown - n = 0 := by
      change d.inputCountdown - n = 0
      rw [hdue, Nat.zero_sub]
    have hunchanged : ¬(Keypad.refresh e.keypad).1 = true := by
      change ¬(Keypad.refresh d.keypad).1 = true
      rw [hc]
      exact Bool.false_ne_true
    rw [countInput_eq, if_pos hzero, pollInput_eq, if_neg hunchanged]
    rfl
  have hstep : d.step.2 =
      (({ e.countInput n with
          cycles := (e.countInput n).cycles + n } : Device Board ι ρ π).settleWatch d.pc n).2 := by
    rw [step_of_fetch_ok hb hf]
    rfl
  have hsettled (e : Device Board ι ρ π) (address : UInt16) (n : Nat) :
      (e.settleWatch address n).2.keypad = e.keypad ∧
        (e.settleWatch address n).2.inputCountdown = e.inputCountdown ∧
        (e.settleWatch address n).2.board.joypad = e.board.joypad := by
    unfold settleWatch
    split
    all_goals exact ⟨rfl, rfl, rfl⟩
  obtain ⟨hkeypad, hcountdown, hjoypad⟩ := hsettled _ d.pc n
  rw [hstep, hkeypad, hcountdown, hjoypad, hcounted]
  exact ⟨rfl, rfl, (joypad_afterPeripherals hπ _ n).trans (joypad_processed hunhooked fetched)⟩

def stopping : Bytes := (Bytes.zeros Header.size).setIfInBounds 0x100 0x10

omit [Keypad ι] in
theorem exists_stopping (keypad : ι) :
    ∃ (d₀ : Device Board ι FrameCounter FramePulse) (operand : UInt8),
      powerOn id none stopping keypad ⟨0⟩ [] = .ok d₀ ∧ d₀.breakpoints = [] ∧
      d₀.machine.fetch = .ok (some (.stop operand)) ∧ d₀.board.hooks = [] ∧
      d₀.inputCountdown = 0 ∧ d₀.keypad = keypad ∧ d₀.board.joypad = .released := by
  have hsize : ¬stopping.size < Header.size := by simp [stopping]
  have htype : (Header.read stopping).type = 0x00 := by
    simp [stopping, Header.read, Bytes.readOpen, Bytes.zeros, Header.size]
  have hopcode : stopping.readOpen 0x100 = 0x10 := by
    simp [stopping, Bytes.readOpen, Bytes.zeros, Header.size]
  generalize stopping = image at *
  have hf : fitted none image = .ok (Header.read image, .rom image) := fitted_rom hsize htype
  let d₀ : Device Board ι FrameCounter FramePulse :=
    built none keypad ⟨0⟩ [] (Header.read image, .rom image)
  have hplays : d₀.board.Plays image := ⟨rfl, rfl, rfl⟩
  have hat : Instruction.at? (fun address => image.readOpen address.toNat) 0x100 =
      some (.stop (image.readOpen 0x101)) := by
    change Instruction.ofBytes? (image.readOpen 0x100) (image.readOpen 0x101) _ = _
    rw [hopcode]
    rfl
  have hentry : (0x100 : UInt16) < 0x7ffe := by decide
  refine ⟨d₀, _, ?_, rfl, Machine.fetch_of_plays hplays rfl hentry hat, rfl, rfl, rfl, rfl⟩
  rw [powerOn_eq, hf]
  rfl

end Start

end Device
end DotMatrix
