/-! # Watched accesses

A watch list names addresses whose checked accesses are of interest. It keeps the first hit until
that is collected.
-/
namespace DotMatrix

inductive Access where
  | read | write
  deriving DecidableEq, Repr

structure WatchHit where
  access : Access
  address : UInt16
  value : UInt8
  deriving DecidableEq, Repr

structure Watch where
  reads : List UInt16
  writes : List UInt16
  hit : Option WatchHit
  deriving DecidableEq, Repr, Inhabited

namespace Watch

def nothing : Watch := ⟨[], [], none⟩

def record (w : Watch) (h : WatchHit) : Watch := { w with hit := w.hit.or (some h) }

def noteRead (w : Watch) (address : UInt16) (value : UInt8) : Watch :=
  if w.reads.contains address then w.record ⟨.read, address, value⟩ else w

def noteWrite (w : Watch) (address : UInt16) (value : UInt8) : Watch :=
  if w.writes.contains address then w.record ⟨.write, address, value⟩ else w

def take (w : Watch) : Option WatchHit × Watch := (w.hit, { w with hit := none })

end Watch
end DotMatrix
