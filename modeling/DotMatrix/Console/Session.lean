import DotMatrix.Console.Options
import DotMatrix.Device.Battery
import DotMatrix.Device.Run
import DotMatrix.Journal.Narrated

/-! # A session

A device run from the command line, without a keypad and with a screen that only counts. It runs
from breakpoint to breakpoint, reports each, and is over when its cycles have elapsed or a fault
occurs.
-/
namespace DotMatrix

abbrev ConsoleDevice := Device Narrated NoKeypad FrameCounter Empty

structure Session where
  device : ConsoleDevice
  /-- Where the cycle counter ends the session. -/
  limit : Option Nat
  /-- A run without a limit has begun and has not ended yet. -/
  underway : Bool
  saveDirectory : Path
  saveName : String

inductive Turn where
  | continues
  | ends
  | fails (fault : Fault)
  deriving DecidableEq, Repr

namespace Session

/-- Tells of the instruction at the program counter, or why there is none. -/
def reportInstruction (d : ConsoleDevice) : ConsoleDevice :=
  let pc := d.pc
  match d.disassemble pc with
  | .ok i => (d.mapBus (Bus.fetched · pc i.length)).note (.report s!"${Hex.word pc}: {i.text}")
  | .error fault => (d.mapBus (Bus.fetched · pc 1)).note (.complaint fault.message)

def reportPause (d : ConsoleDevice) (event : BreakEvent) : ConsoleDevice :=
  let d := d.note (.report event.text)
  reportInstruction (d.note (.report d.cpu.text))

/-- The next part of the run: up to the limit, or for so many steps where there is none. -/
def advance (fuel : Nat) (s : Session) : Option (Except Fault Exit) × ConsoleDevice :=
  match s.limit with
  | some limit =>
    let (exit, d) := s.device.runFor (limit - s.device.cycles)
    (some exit, d)
  | none => if s.underway then s.device.resume none fuel else s.device.start fuel

def turn (fuel : Nat) (s : Session) : Turn × Session :=
  match s.advance fuel with
  | (none, device) => (.continues, { s with device, underway := true })
  | (some (.error fault), device) => (.fails fault, { s with device })
  | (some (.ok (.breakpoint event)), device) =>
    (.continues, { s with device := reportPause device event, underway := false })
  | (some (.ok _), device) => (.ends, { s with device })

end Session
end DotMatrix
