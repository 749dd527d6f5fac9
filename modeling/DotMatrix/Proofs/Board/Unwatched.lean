import DotMatrix.Device.Basic
import DotMatrix.Proofs.Processor.BusMap

/-! # Boards without their watch list

The watch list only listens. What a board does with its list removed is what it does with it, and
what is left when the list is removed afterwards.
-/
namespace DotMatrix.Board

def unwatched (b : Board) : Board := { b with watch := .nothing }

variable (b : Board)

theorem unwatched_poke (address : UInt16) (v : UInt8) :
    b.unwatched.poke address v = (b.poke address v).unwatched := by
  unfold poke
  split <;> rfl

theorem unwatched_request (sources : UInt8) :
    b.unwatched.request sources = (b.request sources).unwatched := rfl

theorem unwatched_pokes (pokes : List (UInt16 × UInt8)) :
    pokes.foldl (fun b cell => b.poke cell.1 cell.2) b.unwatched =
      (pokes.foldl (fun b cell => b.poke cell.1 cell.2) b).unwatched := by
  induction pokes generalizing b with
  | nil => rfl
  | cons cell rest ih =>
    rw [List.foldl_cons, List.foldl_cons, unwatched_poke]
    exact ih _

theorem unwatched_applyReaction (r : Reaction) :
    b.unwatched.applyReaction r = (b.applyReaction r).unwatched := by
  unfold applyReaction
  rw [unwatched_pokes]
  split
  · rfl
  · rfl

theorem unwatched_trigger (address : UInt16) (v : UInt8) :
    b.unwatched.trigger address v = (b.trigger address v).unwatched := by
  have hh : b.unwatched.hooks = b.hooks := rfl
  unfold trigger
  rw [hh]
  repeat' split
  all_goals first
    | rfl
    | exact unwatched_applyReaction b _

theorem write_eq_elim (address : UInt16) (v : UInt8) :
    let c : Board := { b with watch := b.watch.noteWrite address v }
    b.write address v =
      (c.stored? address v).elim (c.trigger address v) ((c.trigger address v).poke address) := by
  intro c
  unfold write
  dsimp only
  split
  all_goals
    rename_i hs
    have hc : c.stored? address v = _ := hs
    rw [hc]
    rfl

theorem unwatched_write (address : UInt16) (v : UInt8) :
    b.unwatched.write address v = (b.write address v).unwatched := by
  let c : Board := { b with watch := b.watch.noteWrite address v }
  have ht := unwatched_trigger c address v
  have hl : b.unwatched.write address v =
      (c.stored? address v).elim (c.unwatched.trigger address v)
        ((c.unwatched.trigger address v).poke address) := write_eq_elim b.unwatched address v
  rw [hl, ht, write_eq_elim]
  cases c.stored? address v with
  | some stored => exact unwatched_poke _ _ _
  | none => rfl

theorem busMap_unwatched : BusMap unwatched where
  peek _ _ := rfl
  read _ _ := rfl
  write := unwatched_write
  poke := unwatched_poke
  fetched _ _ _ := rfl
  note _ _ := rfl

theorem unwatched_transferCycle : b.unwatched.transferCycle = b.transferCycle.unwatched := by
  have hd : b.unwatched.dma = b.dma := rfl
  unfold transferCycle
  rw [hd]
  split <;> rfl

theorem unwatched_transferCycles (n : Nat) :
    transferCycles n b.unwatched = (transferCycles n b).unwatched := by
  induction n generalizing b with
  | zero => rfl
  | succ n ih =>
    have hd : b.unwatched.dma = b.dma := rfl
    unfold transferCycles
    rw [hd, unwatched_transferCycle, ih]
    split <;> rfl

theorem unwatched_tick (n : Nat) : b.unwatched.tick n = (b.tick n).unwatched := by
  unfold tick
  rw [unwatched_transferCycles]
  rfl

theorem unwatched_tickTimer (n : Nat) : b.unwatched.tickTimer n = (b.tickTimer n).unwatched := rfl

end DotMatrix.Board
