import DotMatrix.Board.Region
import DotMatrix.Processor.Execution

/-! # Interrupt service

The check that follows every instruction. A pending source ends HALT whether or not interrupts are
enabled; only an enabled processor goes on to the vector of the first one.
-/
namespace DotMatrix

namespace Machine

variable {β : Type} [Bus β]

def wakeCycles : Nat := 4

/-- Cycles spent pushing the program counter and entering the vector. -/
def dispatchCycles : Nat := 20

@[specialize]
def pending (bus : β) : UInt8 :=
  Interrupt.sources (Bus.peek bus Cell.enables &&& Bus.peek bus Cell.requests)

/-- Acknowledges a source and calls its vector with interrupts disabled. -/
@[specialize]
def dispatch (s : Machine β) (source : Interrupt) : Machine β :=
  let returnTo := s.registers.pc
  let requested := Bus.peek s.bus Cell.requests
  let bus := Bus.poke s.bus Cell.requests (requested &&& ~~~source.mask)
  let s : Machine β := { cpu := { s.cpu with ime := .off }, bus }
  ((s.push returnTo).jump source.vector).note (.dispatched source returnTo)

/-- Runs the interrupt check and gives the cycles it took. STOP ignores interrupts. -/
@[specialize]
def service (s : Machine β) : Nat × Machine β :=
  match Interrupt.first? (pending s.bus) with
  | none => (0, s)
  | some source =>
    if s.cpu.stopped then (0, s)
    else
      let waking := if s.cpu.halted then wakeCycles else 0
      let s := if s.cpu.halted then s.mapCpu Cpu.wake else s
      if s.cpu.ime.enabled then (waking + dispatchCycles, s.dispatch source) else (waking, s)

end Machine
end DotMatrix
