import DotMatrix.Board.Region

/-! # Object memory transfer

A transfer copies 160 bytes into object memory, one byte every four cycles. Its source is the start
of a page; the pages above work RAM stand for their echoes. While one runs no other can start.
-/
namespace DotMatrix

structure Dma where
  source : UInt16
  elapsed : Nat
  active : Bool
  deriving DecidableEq, Repr, Inhabited

namespace Dma

def idle : Dma := ⟨0, 0, false⟩

def length : Nat := 0xa0

def duration : Nat := length * 4

def objectMemory : UInt16 := 0xfe00

def pageSource (page : UInt8) : UInt16 :=
  let source := page.toUInt16 * 256
  if 0xe000 ≤ source then unecho source else source

/-- Starts a transfer unless one is running. -/
def start (d : Dma) (page : UInt8) : Dma :=
  if d.active then d else ⟨pageSource page, 0, true⟩

/-- The source and the target of the byte that is copied in this cycle. -/
def transfer? (d : Dma) : Option (UInt16 × UInt16) :=
  if d.active ∧ d.elapsed % 4 = 0 then
    let index := UInt16.ofNat (d.elapsed / 4)
    some (d.source + index, objectMemory + index)
  else none

def advance (d : Dma) : Dma :=
  if d.active then { d with elapsed := d.elapsed + 1, active := decide (d.elapsed + 1 < duration) }
  else d

end Dma
end DotMatrix
