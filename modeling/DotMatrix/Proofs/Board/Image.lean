import DotMatrix.Proofs.Board.Cells
import DotMatrix.Proofs.Processor.Invariant

/-! # A fixed image

A cartridge without a controller shows the same bytes for ever, once the boot image is out of the
way: no write reaches them, and no write brings the boot image back.
-/
namespace DotMatrix
namespace Board

structure Plays (image : Bytes) (b : Board) : Prop where
  hooks : b.hooks = []
  controller : b.controller = .rom image
  bootMapped : b.bootMapped = false

variable {image : Bytes} {b : Board}

theorem Plays.peek (h : b.Plays image) {address : UInt16} (ha : address < 0x8000) :
    b.peek address = image.readOpen address.toNat := by
  have hr : Region.of address = .rom := if_pos ha
  unfold Board.peek
  simp [hr, h.bootMapped, h.controller, Controller.read, ha]

/-- The instructions of an image do not depend on the rest of the board. -/
theorem Plays.at? (h : b.Plays image) {address : UInt16} (ha : address < 0x7ffe) :
    Instruction.at? b.peek address =
      Instruction.at? (fun address => image.readOpen address.toNat) address := by
  have hlt : address.toNat < 0x7ffe := UInt16.lt_iff_toNat_lt.1 ha
  have low {offset : UInt16} (ho : offset.toNat ≤ 2) : address + offset < 0x8000 := by
    rw [UInt16.lt_iff_toNat_lt, UInt16.toNat_add]
    simp only [UInt16.reduceToNat]
    omega
  have hfirst : address < 0x8000 := UInt16.lt_iff_toNat_lt.2 (Nat.lt_trans hlt (by decide))
  unfold Instruction.at?
  rw [h.peek hfirst, h.peek (low (by decide)), h.peek (low (by decide))]

theorem Plays.poke (h : b.Plays image) (address : UInt16) (v : UInt8) :
    (b.poke address v).Plays image := by
  unfold Board.poke
  split
  all_goals exact ⟨h.hooks, by simp [h.controller, Controller.write], h.bootMapped⟩

theorem Plays.write (h : b.Plays image) (address : UInt16) (v : UInt8) :
    (b.write address v).Plays image := by
  refine ⟨hooks_write h.hooks address v, ?_, ?_⟩
  · rw [controller_write h.hooks, h.controller]
    exact ite_self _
  · rw [bootMapped_write h.hooks, h.bootMapped]
    exact ite_self _

theorem busInvariant_plays : BusInvariant (Plays image) where
  read h _ := ⟨h.hooks, h.controller, h.bootMapped⟩
  write h address v := h.write address v
  fetched h _ _ := h
  note h _ := h

end Board
end DotMatrix
