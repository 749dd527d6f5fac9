import DotMatrix.Journal.Notice
import DotMatrix.Word

/-! # The bus as the processor sees it

Data accesses go through `read` and `write`, which the memory may answer with effects of its own.
`peek` and `poke` reach a cell without any: instruction bytes and the interrupt lines travel on
them. `fetched` and `note` tell the bus what the processor did; a bus is free to ignore both.
-/
namespace DotMatrix

class Bus (β : Type) where
  peek : β → UInt16 → UInt8
  read : β → UInt16 → UInt8 × β
  write : β → UInt16 → UInt8 → β
  poke : β → UInt16 → UInt8 → β
  /-- Instruction bytes were taken from this address on. -/
  fetched : β → UInt16 → Nat → β
  note : β → Notice → β

namespace Bus

variable {β : Type} [Bus β]

/-- Words lie in memory with the low byte first. -/
@[specialize]
def readWord (bus : β) (address : UInt16) : UInt16 × β :=
  let (lo, bus) := read bus address
  let (hi, bus) := read bus (address + 1)
  (Word.join hi lo, bus)

@[specialize]
def writeWord (bus : β) (address : UInt16) (w : UInt16) : β :=
  write (write bus address (Word.low w)) (address + 1) (Word.high w)

end Bus
end DotMatrix
