import DotMatrix.Fault
import DotMatrix.Memory

/-! # Storage

Named blobs of battery-backed cartridge RAM, kept wherever the operations of a monad reach.
-/
namespace DotMatrix

structure Storage (m : Type → Type) where
  save : String → Bytes → m (Except Fault Unit)
  load : String → m (Except Fault (Option Bytes))
  contains : String → m Bool

/-- Blobs held in memory, at most one for a name. -/
abbrev Blobs := List (String × Bytes)

namespace Blobs

def insert (b : Blobs) (name : String) (data : Bytes) : Blobs :=
  (name, data) :: b.filter (·.1 != name)

theorem lookup_insert_self (b : Blobs) (name : String) (data : Bytes) :
    (b.insert name data).lookup name = some data := by
  simp [insert]

def storage : Storage (StateM Blobs) where
  save name data := do
    modify (·.insert name data)
    return .ok ()
  load name := return .ok ((← get).lookup name)
  contains name := return ((← get).lookup name).isSome

end Blobs
end DotMatrix
