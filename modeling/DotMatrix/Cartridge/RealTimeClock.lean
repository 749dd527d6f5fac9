import DotMatrix.Word

/-! # The real time clock

A calendar of seconds, minutes, hours and 512 days, driven by the clock cycles of the machine. A
program reads a latched copy of it. A field that a program has set out of its range counts on to the
end of its register and wraps there without a carry.
-/
namespace DotMatrix

def cyclesPerSecond : Nat := 4194304

structure ClockReading where
  seconds : UInt8
  minutes : UInt8
  hours : UInt8
  days : UInt16
  halted : Bool
  carry : Bool
  deriving DecidableEq, Repr, Inhabited

inductive ClockRegister where
  | seconds | minutes | hours | dayLow | dayHigh
  deriving DecidableEq, Repr

def ClockRegister.ofSelector? (selector : UInt8) : Option ClockRegister :=
  if selector = 0x08 then some .seconds
  else if selector = 0x09 then some .minutes
  else if selector = 0x0a then some .hours
  else if selector = 0x0b then some .dayLow
  else if selector = 0x0c then some .dayHigh
  else none

namespace ClockReading

def zero : ClockReading := ⟨0, 0, 0, 0, false, false⟩

def read (c : ClockReading) : ClockRegister → UInt8
  | .seconds => c.seconds &&& 0x3f
  | .minutes => c.minutes &&& 0x3f
  | .hours => c.hours &&& 0x1f
  | .dayLow => Word.low c.days
  | .dayHigh =>
    (Word.high c.days &&& 0x01) ||| (if c.halted then 0x40 else 0) ||| (if c.carry then 0x80 else 0)

def write (c : ClockReading) (register : ClockRegister) (v : UInt8) : ClockReading :=
  match register with
  | .seconds => { c with seconds := v &&& 0x3f }
  | .minutes => { c with minutes := v &&& 0x3f }
  | .hours => { c with hours := v &&& 0x1f }
  | .dayLow => { c with days := Word.join (Word.high c.days &&& 0x01) v }
  | .dayHigh => { c with
      days := Word.join (v &&& 0x01) (Word.low c.days)
      halted := v &&& 0x40 != 0
      carry := v &&& 0x80 != 0 }

def nextDay (c : ClockReading) : ClockReading :=
  if 0x1ff ≤ c.days then { c with days := 0, carry := true } else { c with days := c.days + 1 }

def nextHour (c : ClockReading) : ClockReading :=
  let hours := (c.hours + 1) &&& 0x1f
  if hours = 24 then { c with hours := 0 }.nextDay else { c with hours }

def nextMinute (c : ClockReading) : ClockReading :=
  let minutes := (c.minutes + 1) &&& 0x3f
  if minutes = 60 then { c with minutes := 0 }.nextHour else { c with minutes }

def nextSecond (c : ClockReading) : ClockReading :=
  let seconds := (c.seconds + 1) &&& 0x3f
  if seconds = 60 then { c with seconds := 0 }.nextMinute else { c with seconds }

def advance : Nat → ClockReading → ClockReading
  | 0, c => c
  | n + 1, c => advance n c.nextSecond

end ClockReading

structure RealTimeClock where
  live : ClockReading
  latched : ClockReading
  /-- Cycles into the current second. -/
  cycles : Nat
  deriving DecidableEq, Repr, Inhabited

namespace RealTimeClock

def zero : RealTimeClock := ⟨.zero, .zero, 0⟩

def latch (c : RealTimeClock) : RealTimeClock := { c with latched := c.live }

/-- Setting the seconds starts the second anew. -/
def write (c : RealTimeClock) (register : ClockRegister) (v : UInt8) : RealTimeClock :=
  { c with
    live := c.live.write register v
    cycles := if register = .seconds then 0 else c.cycles }

def tick (c : RealTimeClock) (cycles : Nat) : RealTimeClock :=
  if c.live.halted then c
  else
    let total := c.cycles + cycles
    { c with
      live := c.live.advance (total / cyclesPerSecond)
      cycles := total % cyclesPerSecond }

end RealTimeClock
end DotMatrix
