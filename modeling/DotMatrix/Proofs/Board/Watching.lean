import DotMatrix.Device.Breakpoint
import DotMatrix.Proofs.Board.Unwatched
import DotMatrix.Proofs.Processor.Invariant

/-! # What a watch list catches

Every access that a program makes passes the watch list, and nothing else that happens on a board
does. Next to a record of the accesses in their order, the hit that the list holds is the first of
them that a breakpoint asks for.
-/
namespace DotMatrix

/-- A bus and the data accesses made on it, the last one first. -/
structure Accessed (β : Type) where
  bus : β
  accesses : List WatchHit

instance {β : Type} [Bus β] : Bus (Accessed β) where
  peek r := Bus.peek r.bus
  read r address :=
    let (v, bus) := Bus.read r.bus address
    (v, ⟨bus, ⟨.read, address, v⟩ :: r.accesses⟩)
  write r address v := ⟨Bus.write r.bus address v, ⟨.write, address, v⟩ :: r.accesses⟩
  poke r address v := { r with bus := Bus.poke r.bus address v }
  fetched r address n := { r with bus := Bus.fetched r.bus address n }
  note r n := { r with bus := Bus.note r.bus n }

theorem busMap_accessed {β : Type} [Bus β] : BusMap (Accessed.bus (β := β)) :=
  ⟨fun _ _ => rfl, fun _ _ => rfl, fun _ _ _ => rfl, fun _ _ _ => rfl, fun _ _ _ => rfl,
    fun _ _ => rfl⟩

def Machine.accessed {β : Type} (s : Machine β) : Machine (Accessed β) := ⟨s.cpu, ⟨s.bus, []⟩⟩

namespace Breakpoints
variable (l : Breakpoints)

def catches (a : WatchHit) : Bool :=
  match a.access with
  | .read => l.contains (.read a.address)
  | .write => l.contains (.write a.address)

/-- Breakpoints of one kind are found by their addresses. -/
theorem contains_filterMap {f : Breakpoint → Option UInt16} {kind : UInt16 → Breakpoint}
    (h : ∀ b a, f b = some a ↔ b = kind a) (address : UInt16) :
    (l.filterMap f).contains address = l.contains (kind address) := by
  rw [Bool.eq_iff_iff]
  simp only [List.contains_iff_mem, List.mem_filterMap, h, exists_eq_right]

theorem contains_reads (address : UInt16) :
    l.watch.reads.contains address = l.contains (.read address) :=
  l.contains_filterMap (fun b a => by cases b <;> simp) address

theorem contains_writes (address : UInt16) :
    l.watch.writes.contains address = l.contains (.write address) :=
  l.contains_filterMap (fun b a => by cases b <;> simp) address

end Breakpoints

namespace Board
variable (b : Board)

section Watch

theorem watch_poke (address : UInt16) (v : UInt8) : (b.poke address v).watch = b.watch := by
  unfold poke
  split <;> rfl

theorem watch_applyReaction (r : Reaction) : (b.applyReaction r).watch = b.watch := by
  have poked (pokes : List (UInt16 × UInt8)) (c : Board) :
      (pokes.foldl (fun b cell => b.poke cell.1 cell.2) c).watch = c.watch := by
    induction pokes generalizing c with
    | nil => rfl
    | cons cell pokes ih => exact (ih _).trans (watch_poke c cell.1 cell.2)
  unfold applyReaction
  split
  · exact poked r.pokes b
  · exact poked r.pokes b

theorem watch_trigger (address : UInt16) (v : UInt8) : (b.trigger address v).watch = b.watch := by
  unfold trigger
  repeat' split
  all_goals first
    | rfl
    | exact watch_applyReaction b _

/-- A checked write is noted once, whatever its effects are. -/
theorem watch_write (address : UInt16) (v : UInt8) :
    (b.write address v).watch = b.watch.noteWrite address v := by
  let c : Board := { b with watch := b.watch.noteWrite address v }
  have ht : (c.trigger address v).watch = b.watch.noteWrite address v := watch_trigger c address v
  rw [write_eq_elim]
  change ((c.stored? address v).elim (c.trigger address v)
    ((c.trigger address v).poke address)).watch = _
  cases c.stored? address v with
  | none => exact ht
  | some stored => exact (watch_poke _ _ _).trans ht

theorem watch_tick (n : Nat) : (b.tick n).watch = b.watch := by
  have cycled (c : Board) : c.transferCycle.watch = c.watch := by
    unfold transferCycle
    split <;> rfl
  have cycles (c : Board) : (transferCycles n c).watch = c.watch := by
    induction n generalizing c with
    | zero => rfl
    | succ n ih =>
      unfold transferCycles
      split
      · exact (ih _).trans (cycled c)
      · rfl
  exact cycles b

end Watch

/-- The watch list of some breakpoints holds the first access that they ask for. -/
structure Watched (l : Breakpoints) (r : Accessed Board) : Prop where
  reads : r.bus.watch.reads = l.watch.reads
  writes : r.bus.watch.writes = l.watch.writes
  hit : r.bus.watch.hit = r.accesses.reverse.find? l.catches

section Watched
variable {l : Breakpoints} {r : Accessed Board}

theorem Watched.cons (h : Watched l r) {bus : Board} {a : WatchHit}
    (hw : bus.watch = if l.catches a then r.bus.watch.record a else r.bus.watch) :
    Watched l ⟨bus, a :: r.accesses⟩ := by
  have hlater : (a :: r.accesses).reverse.find? l.catches =
      r.bus.watch.hit.or (if l.catches a then some a else none) := by
    rw [List.reverse_cons, List.find?_append, ← h.hit, List.find?_singleton]
  cases hc : l.catches a with
  | true =>
    rw [hc, if_pos rfl] at hw hlater
    exact ⟨hw ▸ h.reads, hw ▸ h.writes, hw ▸ hlater.symm⟩
  | false =>
    rw [hc, if_neg Bool.false_ne_true] at hw hlater
    rw [Option.or_none] at hlater
    exact ⟨hw ▸ h.reads, hw ▸ h.writes, hw ▸ hlater.symm⟩

theorem busInvariant_watched (l : Breakpoints) : BusInvariant (Watched l) where
  read {r} h address := by
    refine h.cons ?_
    change r.bus.watch.noteRead address _ = _
    unfold Watch.noteRead
    rw [h.reads, l.contains_reads]
    rfl
  write {r} h address v := by
    refine h.cons ?_
    refine (watch_write r.bus address v).trans ?_
    unfold Watch.noteWrite
    rw [h.writes, l.contains_writes]
    rfl
  fetched h _ _ := h
  note h _ := h

theorem Watched.poke (h : Watched l r) (address : UInt16) (v : UInt8) :
    Watched l (Bus.poke r address v) := by
  have hp : (Bus.poke r address v).bus.watch = r.bus.watch := watch_poke r.bus address v
  exact ⟨hp ▸ h.reads, hp ▸ h.writes, hp ▸ h.hit⟩

end Watched

end Board
end DotMatrix
