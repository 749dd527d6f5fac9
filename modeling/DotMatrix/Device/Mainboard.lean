import DotMatrix.Board.Basic

/-! # Buses with a board behind them

What a device needs beyond the processor's view: the board itself, and the passing of time.
-/
namespace DotMatrix

class Mainboard (β : Type) extends Bus β where
  board : β → Board
  /-- Changes the board without telling of it. -/
  modify : β → (Board → Board) → β
  tickTimer : β → Nat → β
  tick : β → Nat → β

instance : Mainboard Board where
  board b := b
  modify b f := f b
  tickTimer := Board.tickTimer
  tick := Board.tick

end DotMatrix
