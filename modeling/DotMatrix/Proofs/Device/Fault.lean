import DotMatrix.Proofs.Device.Step
import DotMatrix.Proofs.Routine.Agreement

/-! # Faults of a step

A step fails at the bytes without an instruction and nowhere else. It fails before anything has
happened, so the device can be looked at, or stepped again, as if the step had not been tried.
-/
namespace DotMatrix

section Processor
variable {β : Type} [Bus β]

theorem decode_error_iff (bus : β) (address : UInt16) (fault : Fault) :
    Machine.decode bus address = .error fault ↔
      Bus.peek bus address ∈ Grid.holes ∧
        fault = .undecodable (Bus.peek bus address) address := by
  have hn := Grid.ofBytes?_eq_none_iff (Bus.peek bus address) (Bus.peek bus (address + 1))
    (Bus.peek bus (address + 2))
  unfold Machine.decode
  cases hi : Instruction.at? (Bus.peek bus) address with
  | none =>
    have hole := hn.1 hi
    constructor
    · intro h
      cases h
      exact ⟨hole, rfl⟩
    · rintro ⟨-, rfl⟩
      rfl
  | some i =>
    constructor
    · intro h
      cases h
    · rintro ⟨hole, -⟩
      have := hn.2 hole
      rw [Instruction.at?, this] at hi
      cases hi

theorem fetch_error_iff (s : Machine β) (fault : Fault) :
    s.fetch = .error fault ↔
      s.cpu.halted = false ∧ s.cpu.stopped = false ∧
        Bus.peek s.bus s.registers.pc ∈ Grid.holes ∧
          fault = .undecodable (Bus.peek s.bus s.registers.pc) s.registers.pc := by
  rw [← decode_error_iff]
  unfold Machine.fetch Cpu.idle
  cases s.cpu.halted <;> cases s.cpu.stopped <;>
  cases Machine.decode s.bus s.registers.pc <;> simp [Except.map]

theorem step_error_iff (s : Machine β) (fault : Fault) :
    s.step = .error fault ↔ s.fetch = .error fault := by
  unfold Machine.step
  cases s.fetch <;> simp [Except.map]

end Processor

namespace Device
variable {ι ρ π : Type} [Keypad ι] [Screen ρ] [Peripheral π Board]

/-- A step that fails has changed nothing but the place to resume, and without breakpoints the
next one fails in the same way. -/
theorem step_after_fault {d d' : Device Board ι ρ π} {fault : Fault}
    (h : d.step = (.error fault, d')) :
    d.machine.step = .error fault ∧ d' = { d with resumeAt := none } ∧
      (d.breakpoints = [] → d'.step = (.error fault, d')) := by
  obtain ⟨-, hf, rfl⟩ := step_fault_iff.1 h
  refine ⟨(step_error_iff _ _).2 hf, rfl, ?_⟩
  intro hn
  exact step_of_fetch_error (breakEvent?_of_isEmpty hn) hf

/-- The processor fails exactly at the bytes without an instruction and tells of that byte and its
address. Every instruction is accepted by the routine of its listing, so no step is refused half
way, and one that fails leaves the processor and the board as they were; so does one of a device. -/
theorem fails_exactly_at_holes (s : Machine Board) (fault : Fault) (d d' : Device Board ι ρ π) :
    (s.step = .error fault ↔
      s.cpu.halted = false ∧ s.cpu.stopped = false ∧ s.bus.peek s.registers.pc ∈ Grid.holes ∧
        fault = .undecodable (s.bus.peek s.registers.pc) s.registers.pc) ∧
    (∀ i : Instruction, Routine.ofListing i.listing i.cost s =
      .ok (s.execute i).1 (s.execute i).2) ∧
    Routine.step s = Routine.ofStep s s.step ∧
    (d.step = (.error fault, d') →
      d.machine.step = .error fault ∧ d' = { d with resumeAt := none } ∧
        (d.breakpoints = [] → d'.step = (.error fault, d'))) :=
  ⟨(step_error_iff s fault).trans (fetch_error_iff s fault), Routine.ofListing_eq s,
    Routine.step_eq s, step_after_fault⟩

/-- A boot image that begins with a byte without an instruction. -/
theorem fails_exactly_at_holes_d3 :
    let d : Device Board NoKeypad FrameCounter Empty :=
      { machine := ⟨.powerOn, Board.new #[0xd3] (.rom #[])⟩
        header := ⟨"", "", 0, "", 0, 0, 0, 0, 0, 0, 0, 0⟩
        keypad := ⟨⟩
        screen := ⟨0⟩
        peripherals := []
        breakpoints := []
        exitRequested := false
        resumeAt := none
        inputCountdown := 0
        cycles := 0 }
    d.step = (.error (.undecodable 0xd3 0), d) ∧ d.machine.step = .error (.undecodable 0xd3 0) := by
  intro d
  have hf : d.machine.fetch = .error (.undecodable 0xd3 0) :=
    (fetch_error_iff _ _).2 ⟨rfl, rfl, by decide, rfl⟩
  have hs : d.step = (.error (.undecodable 0xd3 0), d) := step_of_fetch_error rfl hf
  obtain ⟨-, -, -, failed⟩ := fails_exactly_at_holes d.machine (.undecodable 0xd3 0) d d
  exact ⟨hs, (failed hs).1⟩

end Device
end DotMatrix
