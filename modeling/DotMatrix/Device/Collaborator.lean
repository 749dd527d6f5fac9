import DotMatrix.Board.Joypad

/-! # What a device works with

A keypad that is sampled about once a frame, a screen that presents finished frames, and peripherals
that run beside the processor and may complete a frame.
-/
namespace DotMatrix

inductive Shade where
  | white | lightGray | darkGray | black
  deriving DecidableEq, Repr, Inhabited

namespace Shade

def ofPalette (colour palette : UInt8) : Shade :=
  match (palette.toNat >>> (colour.toNat % 4 * 2)) % 4 with
  | 0 => .white
  | 1 => .lightGray
  | 2 => .darkGray
  | _ => .black

def rgb : Shade → UInt8 × UInt8 × UInt8
  | .white => (0xff, 0xff, 0xff)
  | .lightGray => (0xaa, 0xaa, 0xaa)
  | .darkGray => (0x55, 0x55, 0x55)
  | .black => (0x00, 0x00, 0x00)

end Shade

def screenWidth : Nat := 160

def screenHeight : Nat := 144

/-- The pixels of one picture, row by row. -/
abbrev Frame := Vector (Vector Shade screenWidth) screenHeight

def Frame.blank : Frame := Vector.replicate _ (Vector.replicate _ .white)

class Keypad (ι : Type) where
  /-- Refreshes the state and tells whether any button has changed. -/
  refresh : ι → Bool × ι
  held : ι → Button → Bool

class Screen (ρ : Type) where
  draw : ρ → Frame → ρ
  clear : ρ → ρ

class Peripheral (π β : Type) where
  /-- Lets some cycles pass; a completed frame is handed out. -/
  tick : π → β → Nat → Option Frame × π × β

structure NoKeypad where

instance : Keypad NoKeypad where
  refresh k := (false, k)
  held _ _ := false

structure FrameCounter where
  frames : Nat

instance : Screen FrameCounter where
  draw s _ := ⟨s.frames + 1⟩
  clear _ := ⟨0⟩

instance {β : Type} : Peripheral Empty β where
  tick p := nomatch p

end DotMatrix
