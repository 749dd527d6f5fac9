import DotMatrix.Device.Basic

/-! # Running a device

A run repeats steps until an exit is requested, a breakpoint pauses the device, a budget of cycles
is spent or the processor meets a fault.
-/
namespace DotMatrix

inductive Exit where
  | requested
  | breakpoint (event : BreakEvent)
  | cyclesElapsed
  deriving DecidableEq, Repr

namespace Device

variable {β ι ρ π : Type} [Mainboard β] [Keypad ι] [Screen ρ] [Peripheral π β]

def requestExit (d : Device β ι ρ π) : Device β ι ρ π := { d with exitRequested := true }

/-- At most `fuel` turns of the loop; `none` when the run is not over by then. With a limit it ends
once the cycle counter has reached it. -/
@[specialize]
def resume (limit : Option Nat) : Nat → Device β ι ρ π →
    Option (Except Fault Exit) × Device β ι ρ π
  | 0, d => (none, d)
  | fuel + 1, d =>
    if d.exitRequested then
      let d := d.note (.exitRequested d.cycles)
      (some (.ok .requested), { d with exitRequested := false })
    else if limit.any (· ≤ d.cycles) then (some (.ok .cyclesElapsed), d)
    else match d.step with
      | (.error fault, d) => (some (.error fault), d)
      | (.ok (.paused event), d) => (some (.ok (.breakpoint event)), d)
      | (.ok (.executed _), d) => resume limit fuel d

def announce (d : Device β ι ρ π) : Device β ι ρ π := d.note (.running d.pc)

@[specialize]
def start (fuel : Nat) (d : Device β ι ρ π) : Option (Except Fault Exit) × Device β ι ρ π :=
  resume none fuel d.announce

/-- A run of so many more cycles. Every executed step takes some, so the turns suffice. -/
@[specialize]
def runFor (cycles : Nat) (d : Device β ι ρ π) : Except Fault Exit × Device β ι ρ π :=
  match resume (some (d.cycles + cycles)) (cycles + 1) d.announce with
  | (some exit, d) => (exit, d)
  | (none, d) => (.ok .cyclesElapsed, d)

end Device
end DotMatrix
