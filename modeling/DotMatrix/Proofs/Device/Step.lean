import DotMatrix.Device.Basic

/-! # The three ends of a step

A breakpoint pauses the device before anything happens, the processor cannot go on, or what was
fetched is carried out and time passes. Which of them a step takes is known before it begins.
-/
namespace DotMatrix.Device

section Input
variable {ι ρ π : Type} [Keypad ι]

/-- What a sample of the keypad makes of the machine: a new press is requested and leaves STOP. -/
def sampled (keypad : ι) (s : Machine Board) : Machine Board :=
  let (pressed, bus) := sampleButtons keypad s.bus
  if pressed then
    let s : Machine Board := ⟨s.cpu, bus.request Interrupt.joypad.mask⟩
    if s.cpu.stopped then s.mapCpu Cpu.wake else s
  else ⟨s.cpu, bus⟩

/-- Sampling the keypad reaches the machine and the keypad, nothing else of the device. -/
theorem pollInput_eq (d : Device Board ι ρ π) :
    d.pollInput =
      { d with
        machine :=
          if (Keypad.refresh d.keypad).1 then sampled (Keypad.refresh d.keypad).2 d.machine
          else d.machine
        keypad := (Keypad.refresh d.keypad).2
        inputCountdown := inputPollCycles } := by
  let keypad := (Keypad.refresh d.keypad).2
  let polled : Device Board ι ρ π := { d with keypad, inputCountdown := inputPollCycles }
  let moved := polled.modifyBoard fun b => (sampleButtons keypad b).2
  let requested := moved.modifyBoard (·.request Interrupt.joypad.mask)
  by_cases hc : (Keypad.refresh d.keypad).1 = true
  · rw [if_pos hc]
    by_cases hp : (sampleButtons keypad d.board).1 = true
    · have hr : d.pollInput = requested.leaveStop := (if_pos hc).trans (if_pos hp)
      have hm : sampled (Keypad.refresh d.keypad).2 d.machine =
          if requested.cpu.stopped then requested.machine.mapCpu Cpu.wake else requested.machine :=
        if_pos hp
      rw [hr, hm]
      unfold leaveStop
      split
      · rfl
      · rfl
    · have hr : d.pollInput = moved := (if_pos hc).trans (if_neg hp)
      have hm : sampled (Keypad.refresh d.keypad).2 d.machine = moved.machine := if_neg hp
      rw [hr, hm]
      rfl
  · rw [if_neg hc]
    exact if_neg hc

theorem countInput_eq (d : Device Board ι ρ π) (n : Nat) :
    d.countInput n =
      if d.inputCountdown - n = 0 then d.pollInput
      else { d with inputCountdown := d.inputCountdown - n } := by
  have hp : ({ d with inputCountdown := d.inputCountdown - n } : Device Board ι ρ π).pollInput =
      d.pollInput := by rw [pollInput_eq, pollInput_eq]
  rw [← hp]
  rfl

end Input

variable {ι ρ π : Type} [Keypad ι] [Screen ρ] [Peripheral π Board]

def carryOut (d : Device Board ι ρ π) (fetched : Option Instruction) :
    StepOutcome × Device Board ι ρ π :=
  let (spent, machine) := d.machine.proceed fetched
  let (serving, machine) := machine.service
  let cycles := spent + serving
  ({ d with machine, resumeAt := none }.passTime cycles).settleWatch d.pc cycles

variable (d : Device Board ι ρ π)

omit [Keypad ι] [Screen ρ] [Peripheral π Board] in
@[simp]
theorem noteBreakCheck_eq : d.noteBreakCheck = d := by
  unfold noteBreakCheck
  split
  · rfl
  · rfl

variable {d}

theorem step_of_breakEvent {event : BreakEvent} (h : d.breakEvent? = some event) :
    d.step = (.ok (.paused event), { d with resumeAt := some d.pc }) := by
  unfold step
  rw [h, noteBreakCheck_eq]
  rfl

theorem step_of_fetch_error {fault : Fault} (hb : d.breakEvent? = none)
    (hf : d.machine.fetch = .error fault) :
    d.step = (.error fault, { d with resumeAt := none }) := by
  unfold step
  rw [hb, noteBreakCheck_eq]
  simp only [hf]

theorem step_of_fetch_ok {fetched : Option Instruction} (hb : d.breakEvent? = none)
    (hf : d.machine.fetch = .ok fetched) :
    d.step = (.ok (d.carryOut fetched).1, (d.carryOut fetched).2) := by
  unfold step
  rw [hb, noteBreakCheck_eq]
  simp only [hf]
  rfl

theorem step_fault_iff {fault : Fault} {d' : Device Board ι ρ π} :
    d.step = (.error fault, d') ↔
      d.breakEvent? = none ∧ d.machine.fetch = .error fault ∧ d' = { d with resumeAt := none } := by
  constructor
  · intro h
    cases hb : d.breakEvent? with
    | some event =>
      rw [step_of_breakEvent hb] at h
      cases h
    | none =>
      cases hf : d.machine.fetch with
      | ok fetched =>
        rw [step_of_fetch_ok hb hf] at h
        cases h
      | error other =>
        rw [step_of_fetch_error hb hf] at h
        cases h
        exact ⟨rfl, rfl, rfl⟩
  · rintro ⟨hb, hf, rfl⟩
    exact step_of_fetch_error hb hf

omit [Keypad ι] [Screen ρ] [Peripheral π Board] in
theorem breakEvent?_of_isEmpty (h : d.breakpoints = []) : d.breakEvent? = none := by
  unfold breakEvent? breakable
  rw [h]
  rfl

end DotMatrix.Device
