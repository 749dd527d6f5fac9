import DotMatrix.Processor.Execution

/-! # The control state under instructions

Most instructions move registers only, so whatever a processor holds besides them stays. Three move
the interrupt master switch, two put the processor to sleep.
-/
namespace DotMatrix

namespace Instruction

/-- The switch after an instruction, a scheduled enable not yet considered. -/
def switch (i : Instruction) (m : MasterEnable) : MasterEnable :=
  match i with
  | .disableInterrupts => .off
  | .enableInterrupts => m.schedule
  | .reti => .on
  | _ => m

def controls : Instruction → Bool
  | .halt | .stop _ | .disableInterrupts | .enableInterrupts | .reti => true
  | _ => false

end Instruction

namespace Machine
variable {β : Type} [Bus β] (s : Machine β)

theorem cpu_readPlace (p : Place) : (s.readPlace p).2.cpu = s.cpu := by
  cases p <;> rfl

section Part
variable {α : Type} (part : Cpu → α) (hpart : ∀ c r, part { c with registers := r } = part c)
include hpart

theorem part_writePlace (p : Place) (v : UInt8) : part (s.writePlace p v).cpu = part s.cpu := by
  cases p with
  | atHl => rfl
  | _ => exact hpart s.cpu _

theorem part_updatePlace (p : Place) (f : UInt8 → Flags → UInt8 × Flags) :
    part (s.updatePlace p f).cpu = part s.cpu := by
  have hread := congrArg part (cpu_readPlace s p)
  exact ((hpart _ _).trans (part_writePlace _ part hpart _ _)).trans hread

theorem part_mapPlace (p : Place) (f : UInt8 → UInt8) :
    part (s.mapPlace p f).cpu = part s.cpu := by
  have hread := congrArg part (cpu_readPlace s p)
  exact (part_writePlace _ part hpart _ _).trans hread

/-- An instruction that moves registers only leaves every other part of the processor alone. -/
theorem part_perform {i : Instruction} (hi : i.controls = false) :
    part (s.perform i).cpu = part s.cpu := by
  cases i with
  | halt | stop | disableInterrupts | enableInterrupts | reti => cases hi
  | nop => rfl
  | load target source =>
    exact (part_writePlace _ part hpart _ _).trans (congrArg part (cpu_readPlace s source))
  | loadImmediate target v => exact part_writePlace _ part hpart _ _
  | inc target => exact part_updatePlace _ part hpart _ _
  | dec target => exact part_updatePlace _ part hpart _ _
  | byteOp op source =>
    exact (hpart _ _).trans (congrArg part (cpu_readPlace s source))
  | shift op target => exact part_updatePlace _ part hpart _ _
  | testBit n source =>
    exact (hpart _ _).trans (congrArg part (cpu_readPlace s source))
  | resetBit n target => exact part_mapPlace _ part hpart _ _
  | setBit n target => exact part_mapPlace _ part hpart _ _
  | storeAAt | storeAHigh | storeAHighC | storeSp => rfl
  | _ => exact hpart s.cpu _

end Part

theorem ime_perform (i : Instruction) : (s.perform i).cpu.ime = i.switch s.cpu.ime := by
  cases i with
  | halt | stop | disableInterrupts | enableInterrupts | reti => rfl
  | _ => exact part_perform s Cpu.ime (fun _ _ => rfl) rfl

/-- Only HALT puts a processor to sleep until an interrupt. -/
theorem halted_perform {i : Instruction} (hi : i ≠ .halt) :
    (s.perform i).cpu.halted = s.cpu.halted := by
  cases i with
  | halt => exact absurd rfl hi
  | stop | disableInterrupts | enableInterrupts | reti => rfl
  | _ => exact part_perform s Cpu.halted (fun _ _ => rfl) rfl

/-- An instruction that is skipped does not move the switch either. -/
theorem ime_execute (i : Instruction) : (s.execute i).2.cpu.ime = i.switch s.cpu.ime := by
  by_cases h : s.meets i.condition
  · rw [execute, if_pos h]
    exact ime_perform s i
  · rw [execute, if_neg h]
    cases i with
    | jumpRelative | jump | call | ret => rfl
    | _ => exact absurd rfl h

theorem halted_execute {i : Instruction} (hi : i ≠ .halt) :
    (s.execute i).2.cpu.halted = s.cpu.halted := by
  unfold execute
  split
  · exact halted_perform s hi
  · rfl

end Machine
end DotMatrix
