/-! # The joypad

Eight buttons on two select lines. All lines are active low: a selected line reads as 0, and so does
a button that is held on it.
-/
namespace DotMatrix

inductive Button where
  | up | down | left | right | a | b | start | select
  deriving DecidableEq, Repr

/-- Every button, in the order in which they are sampled. -/
def Button.all : List Button := [.up, .down, .left, .right, .a, .b, .start, .select]

structure Joypad where
  up : Bool
  down : Bool
  left : Bool
  right : Bool
  a : Bool
  b : Bool
  start : Bool
  select : Bool
  deriving DecidableEq, Repr, Inhabited

namespace Joypad

def released : Joypad := ⟨false, false, false, false, false, false, false, false⟩

def held (j : Joypad) : Button → Bool
  | .up => j.up
  | .down => j.down
  | .left => j.left
  | .right => j.right
  | .a => j.a
  | .b => j.b
  | .start => j.start
  | .select => j.select

def set (j : Joypad) (button : Button) (pressed : Bool) : Joypad :=
  match button with
  | .up => { j with up := pressed }
  | .down => { j with down := pressed }
  | .left => { j with left := pressed }
  | .right => { j with right := pressed }
  | .a => { j with a := pressed }
  | .b => { j with b := pressed }
  | .start => { j with start := pressed }
  | .select => { j with select := pressed }

/-- Moves a button and tells whether it went from released to pressed. -/
def update (j : Joypad) (button : Button) (pressed : Bool) : Bool × Joypad :=
  (pressed && !j.held button, j.set button pressed)

theorem held_set (j : Joypad) (x y : Button) (pressed : Bool) :
    (j.set x pressed).held y = if x = y then pressed else j.held y := by
  cases x <;> cases y <;> rfl

def selectsButtons (lines : UInt8) : Bool := lines &&& 0x20 == 0

def selectsDirections (lines : UInt8) : Bool := lines &&& 0x10 == 0

def selectsBoth (lines : UInt8) : Bool := selectsButtons lines && selectsDirections lines

def buttonBits (j : Joypad) : UInt8 :=
  (if j.start then 0x08 else 0) ||| (if j.select then 0x04 else 0) ||| (if j.b then 0x02 else 0) |||
    (if j.a then 0x01 else 0)

def directionBits (j : Joypad) : UInt8 :=
  (if j.down then 0x08 else 0) ||| (if j.up then 0x04 else 0) ||| (if j.left then 0x02 else 0) |||
    (if j.right then 0x01 else 0)

/-- What the cell shows while the given lines are driven. -/
def read (j : Joypad) (lines : UInt8) : UInt8 :=
  let pressed := (if selectsButtons lines then j.buttonBits else 0) |||
    (if selectsDirections lines then j.directionBits else 0)
  0xc0 ||| (lines &&& 0x30) ||| (~~~pressed &&& 0x0f)

/-- What the cell keeps of a write: only the select lines can be driven. -/
def drive (v : UInt8) : UInt8 := 0xc0 ||| (v &&& 0x30)

end Joypad
end DotMatrix
