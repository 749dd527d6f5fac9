/-! # Interrupt sources

Five sources in order of priority, each with a bit in the request and enable bytes and a vector.
-/
namespace DotMatrix

inductive Interrupt where
  | vblank | stat | timer | serial | joypad
  deriving DecidableEq, Repr

namespace Interrupt

/-- Every source, highest priority first. -/
def all : List Interrupt := [.vblank, .stat, .timer, .serial, .joypad]

def mask : Interrupt → UInt8
  | .vblank => 0x01
  | .stat => 0x02
  | .timer => 0x04
  | .serial => 0x08
  | .joypad => 0x10

def vector : Interrupt → UInt16
  | .vblank => 0x0040
  | .stat => 0x0048
  | .timer => 0x0050
  | .serial => 0x0058
  | .joypad => 0x0060

def text : Interrupt → String
  | .vblank => "VBLANK"
  | .stat => "STAT"
  | .timer => "TIMER"
  | .serial => "SERIAL"
  | .joypad => "JOYPAD"

def sources (bits : UInt8) : UInt8 := bits &&& 0x1f

def first? (bits : UInt8) : Option Interrupt := all.find? fun i => bits &&& i.mask != 0

theorem mem_all (i : Interrupt) : i ∈ all := by
  cases i <;> simp [all]

end Interrupt
end DotMatrix
