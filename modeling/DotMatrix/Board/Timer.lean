import DotMatrix.Board.Region
import DotMatrix.Memory
import DotMatrix.Word

/-! # The timer

A sixteen-bit counter advances on every clock cycle; its upper byte is the divider. The falling edge
of one counter bit, gated by the control cell, increments the timer counter. On an overflow the
timer counter stays at zero for four cycles and is then reloaded and the interrupt requested; for
four more cycles it takes over what is written to the modulo cell and nothing else.
-/
namespace DotMatrix

structure Timer where
  counter : UInt16
  /-- The gated counter bit as it was last. -/
  latch : Bool
  /-- Cycles until the reload that an overflow has caused. -/
  delay : Nat
  /-- Cycles for which a reload is still fresh. -/
  guard : Nat
  deriving DecidableEq, Repr, Inhabited

structure TimerCells where
  div : UInt8
  tima : UInt8
  tma : UInt8
  tac : UInt8
  requests : UInt8
  deriving DecidableEq, Repr, Inhabited

namespace TimerControl

def enabled (tac : UInt8) : Bool := tac &&& 0x04 != 0

def counterBit (tac : UInt8) : Nat :=
  match tac.toNat % 4 with
  | 0 => 9
  | 1 => 3
  | 2 => 5
  | _ => 7

end TimerControl

namespace Timer

def overflowDelay : Nat := 4

def reloadGuard : Nat := 4

def postBootCounter : UInt16 := 0xabcc

def ofCounter (counter : UInt16) : Timer := ⟨counter, false, 0, 0⟩

def signal (counter : UInt16) (tac : UInt8) : Bool :=
  TimerControl.enabled tac && counter.toNat.testBit (TimerControl.counterBit tac)

def increment (t : Timer) (c : TimerCells) : Timer × TimerCells :=
  if c.tima = 0xff then ({ t with delay := overflowDelay }, { c with tima := 0 })
  else (t, { c with tima := c.tima + 1 })

/-- Latches the signal anew and increments if it has fallen. -/
def detectEdge (t : Timer) (c : TimerCells) : Timer × TimerCells :=
  let now := signal t.counter c.tac
  let fallen := t.latch && !now
  let t := { t with latch := now }
  if fallen then t.increment c else (t, c)

def reloads (t : Timer) : Bool := t.delay == 1

/-- Counts a pending reload down and carries it out when it is due. -/
def countDown (t : Timer) (c : TimerCells) : Timer × TimerCells :=
  if t.reloads then
    ({ t with delay := 0, guard := reloadGuard },
      { c with tima := c.tma, requests := c.requests ||| 0x04 })
  else ({ t with delay := t.delay - 1 }, c)

def cycle (t : Timer) (c : TimerCells) : Timer × TimerCells :=
  let counter := t.counter + 1
  let t := { t with counter, guard := t.guard - 1 }
  let (t, c) := t.countDown { c with div := Word.high counter }
  t.detectEdge c

def run : Nat → Timer → TimerCells → Timer × TimerCells
  | 0, t, c => (t, c)
  | n + 1, t, c =>
    let (t, c) := t.cycle c
    run n t c

/-- The values that are reloaded in a number of cycles, in order. -/
def reloadsDuring : Nat → Timer → TimerCells → List UInt8
  | 0, _, _ => []
  | n + 1, t, c =>
    let (t', c') := t.cycle c
    let rest := reloadsDuring n t' c'
    if t.reloads then c.tma :: rest else rest

/-- Clears the counter, which may let the signal fall. -/
def reset (t : Timer) (c : TimerCells) : Timer × TimerCells :=
  detectEdge { t with counter := 0 } { c with div := 0 }

/-- The timer counter takes no writes between an overflow and the end of the reload. -/
def locked (t : Timer) : Bool := 0 < t.delay || 0 < t.guard

/-- A write to the modulo cell, which a fresh reload passes on. -/
def setModulo (t : Timer) (c : TimerCells) (v : UInt8) : TimerCells :=
  { c with tma := v, tima := if 0 < t.guard then v else c.tima }

/-- A write to the control cell, whose upper five bits do not exist and read as ones. -/
def setControl (t : Timer) (c : TimerCells) (v : UInt8) : Timer × TimerCells :=
  t.detectEdge { c with tac := v ||| 0xf8 }

end Timer

namespace Memory

def timerCells (m : Memory) : TimerCells where
  div := m.get Cell.div
  tima := m.get Cell.tima
  tma := m.get Cell.tma
  tac := m.get Cell.tac
  requests := m.get Cell.requests

def setTimerCells (m : Memory) (c : TimerCells) : Memory :=
  ((((m.set Cell.div c.div).set Cell.tima c.tima).set Cell.tma c.tma).set Cell.tac c.tac).set
    Cell.requests c.requests

@[simp]
theorem timerCells_setTimerCells (m : Memory) (c : TimerCells) :
    (m.setTimerCells c).timerCells = c := by
  simp [timerCells, setTimerCells, get_set, Cell.div, Cell.tima, Cell.tma, Cell.tac, Cell.requests]

end Memory
end DotMatrix
