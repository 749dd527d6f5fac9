import DotMatrix.Board.Watch
import DotMatrix.Hex

/-! # Breakpoints

An address or an opcode stops a device before an instruction; a watched read or write stops it after
the instruction that made it.
-/
namespace DotMatrix

inductive Breakpoint where
  | address (address : UInt16)
  | opcode (opcode : UInt8)
  | read (address : UInt16)
  | write (address : UInt16)
  deriving DecidableEq, Repr

abbrev Breakpoints := List Breakpoint

namespace Breakpoints

def breaksAt (l : Breakpoints) (address : UInt16) : Bool := l.contains (.address address)

def breaksOn (l : Breakpoints) (opcode : UInt8) : Bool := l.contains (.opcode opcode)

def watch (l : Breakpoints) : Watch where
  reads := l.filterMap fun | .read a => some a | _ => none
  writes := l.filterMap fun | .write a => some a | _ => none
  hit := none

end Breakpoints

inductive BreakEvent where
  | address (address : UInt16)
  | opcode (opcode : UInt8) (address : UInt16)
  | watch (hit : WatchHit) (pc : UInt16)
  deriving DecidableEq, Repr

def Access.text : Access → String
  | .read => "read"
  | .write => "write"

namespace BreakEvent

def text : BreakEvent → String
  | .address a => s!"breakpoint at ${Hex.word a}"
  | .opcode o a => s!"opcode ${Hex.byte o} at ${Hex.word a}"
  | .watch h pc =>
    s!"{h.access.text} of ${Hex.byte h.value} at ${Hex.word h.address} (pc ${Hex.word pc})"

end BreakEvent
end DotMatrix
