import DotMatrix.Device.Basic
import DotMatrix.Storage.Basic

/-! # Battery-backed RAM

A cartridge with a battery keeps its RAM in a storage between runs.
-/
namespace DotMatrix.Device

variable {β ι ρ π : Type} [Mainboard β] {m : Type → Type} [Monad m]

/-- Saves the RAM of the cartridge; tells whether it has any to save. -/
def saveRam (d : Device β ι ρ π) (storage : Storage m) (name : String) :
    m (Except Fault Bool × Device β ι ρ π) := do
  if d.board.controller.hasBattery then
    match ← storage.save name d.board.controller.ram with
    | .error fault => return (.error fault, d)
    | .ok _ => return (.ok true, d.note (.ramSaved name))
  else return (.ok false, d)

/-- Restores the RAM of the cartridge; tells whether there was anything to restore. -/
def loadRam (d : Device β ι ρ π) (storage : Storage m) (name : String) :
    m (Except Fault Bool × Device β ι ρ π) := do
  if d.board.controller.hasBattery then
    match ← storage.load name with
    | .error fault => return (.error fault, d)
    | .ok none => return (.ok false, d)
    | .ok (some ram) =>
      let d := d.modifyBoard fun b => { b with controller := b.controller.loadRam ram }
      return (.ok true, d.note (.ramRestored name))
  else return (.ok false, d)

end DotMatrix.Device
