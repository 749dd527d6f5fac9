import DotMatrix.Proofs.Files.Walk
import DotMatrix.Storage.Basic

/-! # Storages that keep what was saved

A storage that a state stands behind keeps a blob if it is loaded again under its name, whatever
else the storage is asked in between, until another blob is saved under that name.
-/
namespace DotMatrix

namespace Storage
variable {σ : Type}

inductive Call where
  | save (name : String) (data : Bytes)
  | load (name : String)
  | contains (name : String)
  deriving DecidableEq, Repr

def Call.saved? : Call → Option String
  | .save name _ => some name
  | .load _ | .contains _ => none

def after (storage : Storage (StateM σ)) (t : σ) : Call → σ
  | .save name data => ((storage.save name data).run t).2
  | .load name => ((storage.load name).run t).2
  | .contains name => ((storage.contains name).run t).2

/-- The blob saved last under a name is the one that is loaded under it. -/
def KeepsLatest (storage : Storage (StateM σ)) : Prop :=
  ∀ (name : String) (data : Bytes) (t : σ) (calls : List Call),
    ((storage.save name data).run t).1 = .ok () → (∀ call ∈ calls, call.saved? ≠ some name) →
      ((storage.load name).run
        (calls.foldl storage.after ((storage.save name data).run t).2)).1 = .ok (some data)

end Storage

namespace Blobs

theorem lookup_insert_of_ne (b : Blobs) {name other : String} (data : Bytes) (h : name ≠ other) :
    List.lookup name (b.insert other data) = b.lookup name := by
  rw [insert, List.lookup_cons, beq_false_of_ne h]
  exact lookup_filter_ne b h

theorem keepsLatest_storage : Storage.KeepsLatest storage := by
  intro name data t calls _ hcalls
  have kept (calls : List Storage.Call) (hcalls : ∀ call ∈ calls, call.saved? ≠ some name)
      {b : Blobs} (hb : b.lookup name = some data) :
      List.lookup name (calls.foldl storage.after b) = some data := by
    induction calls generalizing b with
    | nil => exact hb
    | cons call calls ih =>
      refine ih (fun c hc => hcalls c (List.mem_cons_of_mem _ hc)) ?_
      cases call with
      | save other blob =>
        have hne : name ≠ other := by
          rintro rfl
          exact hcalls _ List.mem_cons_self rfl
        exact (lookup_insert_of_ne b blob hne).trans hb
      | load | contains => exact hb
  exact congrArg Except.ok (kept calls hcalls (lookup_insert_self t name data))

end Blobs
end DotMatrix
