import DotMatrix.Proofs.Processor.BusMap

/-! # Invariants of the bus

Instructions reach the bus by data accesses and by telling it what they do. Whatever survives these
survives every step. Recording the data writes is a second use of the same six operations: a
recording bus does what the bus in it does and remembers what was written.
-/
namespace DotMatrix

structure BusInvariant {β : Type} [Bus β] (p : β → Prop) : Prop where
  read : ∀ {bus}, p bus → ∀ address, p (Bus.read bus address).2
  write : ∀ {bus}, p bus → ∀ address v, p (Bus.write bus address v)
  fetched : ∀ {bus}, p bus → ∀ address n, p (Bus.fetched bus address n)
  note : ∀ {bus}, p bus → ∀ n, p (Bus.note bus n)

/-- A bus and the data writes made on it, the last one first. -/
structure Recorded (β : Type) where
  bus : β
  writes : List (UInt16 × UInt8)

instance {β : Type} [Bus β] : Bus (Recorded β) where
  peek r := Bus.peek r.bus
  read r address := ((Bus.read r.bus address).1, { r with bus := (Bus.read r.bus address).2 })
  write r address v := ⟨Bus.write r.bus address v, (address, v) :: r.writes⟩
  poke r address v := { r with bus := Bus.poke r.bus address v }
  fetched r address n := { r with bus := Bus.fetched r.bus address n }
  note r n := { r with bus := Bus.note r.bus n }

theorem busMap_recorded {β : Type} [Bus β] : BusMap (Recorded.bus (β := β)) :=
  ⟨fun _ _ => rfl, fun _ _ => rfl, fun _ _ _ => rfl, fun _ _ _ => rfl, fun _ _ _ => rfl,
    fun _ _ => rfl⟩

namespace Machine
variable {β : Type} [Bus β]

section Kept
variable {p : β → Prop} (h : BusInvariant p) {s : Machine β} (hs : p s.bus)
include h hs

theorem kept_readPlace (place : Place) : p (s.readPlace place).2.bus := by
  cases place with
  | atHl => exact h.read hs _
  | _ => exact hs

theorem kept_writePlace (place : Place) (v : UInt8) : p (s.writePlace place v).bus := by
  cases place with
  | atHl => exact h.write hs _ v
  | _ => exact hs

theorem kept_updatePlace (place : Place) (f : UInt8 → Flags → UInt8 × Flags) :
    p (s.updatePlace place f).bus :=
  kept_writePlace h (kept_readPlace h hs place) place _

theorem kept_mapPlace (place : Place) (f : UInt8 → UInt8) : p (s.mapPlace place f).bus :=
  kept_writePlace h (kept_readPlace h hs place) place _

theorem kept_push (w : UInt16) : p (s.push w).bus := h.write (h.write hs _ _) _ _

theorem kept_pop : p s.pop.2.bus := h.read (h.read hs _) _

theorem kept_perform (i : Instruction) : p (s.perform i).bus := by
  cases i with
  | stop operand => exact h.note hs _
  | load target source => exact kept_writePlace h (kept_readPlace h hs source) target _
  | loadImmediate target v => exact kept_writePlace h hs target v
  | storeA | storeAAt | storeAHigh | storeAHighC => exact h.write hs _ _
  | fetchA | fetchAAt | fetchAHigh | fetchAHighC => exact h.read hs _
  | storeSp address => exact h.write (h.write hs _ _) _ _
  | inc target => exact kept_updatePlace h hs target _
  | dec target => exact kept_updatePlace h hs target _
  | byteOp op source => exact kept_readPlace h hs source
  | shift op target => exact kept_updatePlace h hs target _
  | testBit n source => exact kept_readPlace h hs source
  | resetBit n target => exact kept_mapPlace h hs target _
  | setBit n target => exact kept_mapPlace h hs target _
  | call | restart | push => exact kept_push h hs _
  | ret | reti | pop => exact kept_pop h hs
  | _ => exact hs

theorem kept_execute (i : Instruction) : p (s.execute i).2.bus := by
  unfold execute
  split
  · exact kept_perform h hs i
  · exact hs

theorem kept_proceed (fetched : Option Instruction) : p (s.proceed fetched).2.bus := by
  cases fetched with
  | none => exact hs
  | some i =>
    have hb := h.note (h.fetched hs s.registers.pc i.length) (.executing s.registers.pc i)
    exact kept_execute h (s := ⟨_, _⟩) hb i

theorem kept_step {n : Nat} {t : Machine β} (he : s.step = .ok (n, t)) : p t.bus := by
  unfold step at he
  cases hf : s.fetch with
  | error fault =>
    rw [hf] at he
    cases he
  | ok fetched =>
    rw [hf] at he
    have hp : s.proceed fetched = (n, t) := Except.ok.inj he
    have hk := kept_proceed h hs fetched
    rw [hp] at hk
    exact hk

variable (hpoke : ∀ {bus}, p bus → ∀ v, p (Bus.poke bus Cell.requests v))
include hpoke

theorem kept_dispatch (i : Interrupt) : p (s.dispatch i).bus := by
  let requested := Bus.peek s.bus Cell.requests &&& ~~~i.mask
  let t : Machine β :=
    { cpu := { s.cpu with ime := .off }, bus := Bus.poke s.bus Cell.requests requested }
  have ht : p t.bus := hpoke hs requested
  exact h.note (kept_push h ht s.registers.pc) _

/-- A check stores into the request cell besides, so the property has to survive that too. -/
theorem kept_service : p s.service.2.bus := by
  unfold service
  cases Interrupt.first? (pending s.bus) with
  | none => exact hs
  | some i =>
    have hw : p (if s.cpu.halted then s.mapCpu Cpu.wake else s).bus := by
      split <;> exact hs
    dsimp only
    generalize (if s.cpu.halted then s.mapCpu Cpu.wake else s) = woken at hw ⊢
    cases s.cpu.stopped <;> cases woken.cpu.ime.enabled
    · exact hw
    · exact kept_dispatch h hw hpoke i
    · exact hs
    · exact hs

end Kept

section Recorded

def recorded (s : Machine β) : Machine (Recorded β) := ⟨s.cpu, ⟨s.bus, []⟩⟩

variable (s : Machine β)

theorem recorded_step :
    s.step = s.recorded.step.map fun r => (r.1, r.2.mapBus Recorded.bus) := by
  have hf : s.fetch = s.recorded.fetch := fetch_mapBus busMap_recorded s.recorded
  have hp : s.proceed = fun fetched => ((s.recorded.proceed fetched).1,
      (s.recorded.proceed fetched).2.mapBus Recorded.bus) :=
    funext (proceed_mapBus busMap_recorded s.recorded)
  unfold step
  rw [hf, hp]
  cases s.recorded.fetch <;> rfl

theorem recorded_service :
    s.service = (s.recorded.service.1, s.recorded.service.2.mapBus Recorded.bus) :=
  service_mapBus busMap_recorded s.recorded

end Recorded

end Machine
end DotMatrix
