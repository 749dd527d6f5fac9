import DotMatrix.Processor.Service

/-! # Maps between buses

A processor uses its bus through six operations only. A map of buses that commutes with these
commutes with everything the processor does, and a bus can be changed before a step or after it.
-/
namespace DotMatrix

structure BusMap {β γ : Type} [Bus β] [Bus γ] (f : β → γ) : Prop where
  peek : ∀ bus address, Bus.peek (f bus) address = Bus.peek bus address
  read : ∀ bus address,
    Bus.read (f bus) address = ((Bus.read bus address).1, f (Bus.read bus address).2)
  write : ∀ bus address v, Bus.write (f bus) address v = f (Bus.write bus address v)
  poke : ∀ bus address v, Bus.poke (f bus) address v = f (Bus.poke bus address v)
  fetched : ∀ bus address n, Bus.fetched (f bus) address n = f (Bus.fetched bus address n)
  note : ∀ bus n, Bus.note (f bus) n = f (Bus.note bus n)

namespace Machine

def mapBus {β γ : Type} (s : Machine β) (f : β → γ) : Machine γ := ⟨s.cpu, f s.bus⟩

variable {β γ : Type} [Bus β] [Bus γ] {f : β → γ} (h : BusMap f) (s : Machine β)
include h

section Accesses

theorem read_mapBus (address : UInt16) :
    (s.mapBus f).read address = ((s.read address).1, (s.read address).2.mapBus f) := by
  simp only [read, mapBus, h.read]

theorem write_mapBus (address : UInt16) (v : UInt8) :
    (s.mapBus f).write address v = (s.write address v).mapBus f := by
  simp only [write, mapBus, h.write]

theorem note_mapBus (n : Notice) : (s.mapBus f).note n = (s.note n).mapBus f := by
  simp only [note, mapBus, h.note]

theorem writeWord_map (bus : β) (address w : UInt16) :
    Bus.writeWord (f bus) address w = f (Bus.writeWord bus address w) := by
  simp only [Bus.writeWord, h.write]

theorem push_mapBus (w : UInt16) : (s.mapBus f).push w = (s.push w).mapBus f := by
  simp only [push, mapBus, writeWord_map h]

theorem pop_mapBus : (s.mapBus f).pop = (s.pop.1, s.pop.2.mapBus f) := by
  simp only [pop, Bus.readWord, mapBus, h.read]

end Accesses

section Operands

theorem readPlace_mapBus (p : Place) :
    (s.mapBus f).readPlace p = ((s.readPlace p).1, (s.readPlace p).2.mapBus f) := by
  cases p with
  | atHl => exact read_mapBus h s _
  | _ => rfl

theorem writePlace_mapBus (p : Place) (v : UInt8) :
    (s.mapBus f).writePlace p v = (s.writePlace p v).mapBus f := by
  cases p with
  | atHl => exact write_mapBus h s _ v
  | _ => rfl

theorem updatePlace_mapBus (p : Place) (g : UInt8 → Flags → UInt8 × Flags) :
    (s.mapBus f).updatePlace p g = (s.updatePlace p g).mapBus f := by
  have hf (t : Machine β) : (t.mapBus f).flags = t.flags := rfl
  simp only [updatePlace, readPlace_mapBus h, hf, writePlace_mapBus h]
  rfl

theorem mapPlace_mapBus (p : Place) (g : UInt8 → UInt8) :
    (s.mapBus f).mapPlace p g = (s.mapPlace p g).mapBus f := by
  simp only [mapPlace, readPlace_mapBus h, writePlace_mapBus h]

theorem loadA_mapBus (address : UInt16) :
    (s.mapBus f).loadA address = (s.loadA address).mapBus f := by
  simp only [loadA, read_mapBus h]
  rfl

theorem call_mapBus (target : UInt16) : (s.mapBus f).call target = (s.call target).mapBus f := by
  have hp := push_mapBus h s s.registers.pc
  exact congrArg (Machine.jump · target) hp

theorem ret_mapBus : (s.mapBus f).ret = s.ret.mapBus f := by
  simp only [ret, pop_mapBus h]
  rfl

end Operands

theorem perform_mapBus (i : Instruction) :
    (s.mapBus f).perform i = (s.perform i).mapBus f := by
  cases i with
  | stop operand =>
    exact note_mapBus h (s.mapCpu ({ · with stopped := true }))
      (.enteredStop s.cpu.instructionStart)
  | load target source =>
    simp only [perform, readPlace_mapBus h, writePlace_mapBus h]
  | loadImmediate target v => exact writePlace_mapBus h s target v
  | storeA target =>
    exact congrArg (mapRegisters · (·.movePointer target)) (write_mapBus h s _ _)
  | fetchA source =>
    have hr := read_mapBus h s (s.registers.pointer source)
    exact congrArg (fun p => p.2.mapRegisters fun r => { r.movePointer source with a := p.1 }) hr
  | storeAAt address => exact write_mapBus h s _ _
  | fetchAAt address => exact loadA_mapBus h s _
  | storeAHigh offset => exact write_mapBus h s _ _
  | fetchAHigh offset => exact loadA_mapBus h s _
  | storeAHighC => exact write_mapBus h s _ _
  | fetchAHighC => exact loadA_mapBus h s _
  | storeSp address =>
    exact congrArg (Machine.mk s.cpu) (writeWord_map h s.bus address s.registers.sp)
  | inc target => exact updatePlace_mapBus h s target Arithmetic.inc
  | dec target => exact updatePlace_mapBus h s target Arithmetic.dec
  | byteOp op source =>
    have hr := readPlace_mapBus h s source
    exact congrArg (fun p => p.2.mapRegisters (Arithmetic.accumulate op p.1)) hr
  | shift op target =>
    exact updatePlace_mapBus h s target fun v flags => Arithmetic.shift op v flags.carry
  | testBit n source =>
    simp only [perform, readPlace_mapBus h]
    rfl
  | resetBit n target => exact mapPlace_mapBus h s target (· &&& ~~~bitMask n)
  | setBit n target => exact mapPlace_mapBus h s target (· ||| bitMask n)
  | call condition target => exact call_mapBus h s target
  | ret condition => exact ret_mapBus h s
  | reti => exact congrArg (mapCpu · ({ · with ime := .on })) (ret_mapBus h s)
  | restart slot => exact call_mapBus h s _
  | push source => exact push_mapBus h s _
  | pop target =>
    exact congrArg (fun p => p.2.mapRegisters (·.setStackPair target p.1)) (pop_mapBus h s)
  | _ => rfl

section Step

theorem execute_mapBus (i : Instruction) :
    (s.mapBus f).execute i = ((s.execute i).1, (s.execute i).2.mapBus f) := by
  have hm : (s.mapBus f).meets i.condition = s.meets i.condition := rfl
  unfold execute
  rw [hm, perform_mapBus h]
  split <;> rfl

theorem executeAt_mapBus (address : UInt16) (i : Instruction) :
    (s.mapBus f).executeAt address i =
      ((s.executeAt address i).1, (s.executeAt address i).2.mapBus f) := by
  let t : Machine β :=
    { s with
      cpu.instructionStart := address
      cpu.registers.pc := address + UInt16.ofNat i.length }
  have he := execute_mapBus h t i
  exact congrArg (fun p => (p.1, p.2.mapCpu fun c =>
    { c with ime := settleIme s.cpu.ime c.ime, cycles := c.cycles + p.1 })) he

theorem decode_map (bus : β) (address : UInt16) : decode (f bus) address = decode bus address := by
  have hp : Bus.peek (f bus) = Bus.peek bus := funext (h.peek bus)
  simp only [decode, hp]

theorem fetch_mapBus : (s.mapBus f).fetch = s.fetch := by
  have hd := decode_map h s.bus s.registers.pc
  exact congrArg (fun r => if s.cpu.idle then .ok none else r.map some) hd

theorem proceed_mapBus (fetched : Option Instruction) :
    (s.mapBus f).proceed fetched = ((s.proceed fetched).1, (s.proceed fetched).2.mapBus f) := by
  cases fetched with
  | none => rfl
  | some i =>
    let pc := s.registers.pc
    let bus := Bus.note (Bus.fetched s.bus pc i.length) (.executing pc i)
    have hb : Bus.note (Bus.fetched (f s.bus) pc i.length) (.executing pc i) = f bus := by
      rw [h.fetched, h.note]
    have he := executeAt_mapBus h ⟨s.cpu, bus⟩ pc i
    exact (congrArg (fun b => executeAt ⟨s.cpu, b⟩ pc i) hb).trans he

theorem dispatch_mapBus (source : Interrupt) :
    (s.mapBus f).dispatch source = (s.dispatch source).mapBus f := by
  let bus := Bus.poke s.bus Cell.requests (Bus.peek s.bus Cell.requests &&& ~~~source.mask)
  let t : Machine β := { cpu := { s.cpu with ime := .off }, bus }
  have hb : Bus.poke (f s.bus) Cell.requests
      (Bus.peek (f s.bus) Cell.requests &&& ~~~source.mask) = f bus := by
    rw [h.peek, h.poke]
  have hp : (t.mapBus f).push s.registers.pc = (t.push s.registers.pc).mapBus f :=
    push_mapBus h t _
  have hn := note_mapBus h ((t.push s.registers.pc).jump source.vector)
    (.dispatched source s.registers.pc)
  refine Eq.trans ?_ hn
  refine Eq.trans ?_ (congrArg (fun u : Machine γ =>
    (u.jump source.vector).note (.dispatched source s.registers.pc)) hp)
  exact congrArg (fun b => (((⟨t.cpu, b⟩ : Machine γ).push s.registers.pc).jump
    source.vector).note (.dispatched source s.registers.pc)) hb

theorem service_mapBus : (s.mapBus f).service = (s.service.1, s.service.2.mapBus f) := by
  have hp : pending (s.mapBus f).bus = pending s.bus := by
    simp only [mapBus, pending, h.peek]
  have woken (t : Machine β) (waking : Nat) (source : Interrupt) :
      (if t.cpu.ime.enabled then (waking + dispatchCycles, (t.mapBus f).dispatch source)
        else (waking, t.mapBus f)) =
      ((if t.cpu.ime.enabled then (waking + dispatchCycles, t.dispatch source)
          else (waking, t)).1,
        (if t.cpu.ime.enabled then (waking + dispatchCycles, t.dispatch source)
          else (waking, t)).2.mapBus f) := by
    rw [dispatch_mapBus h]
    split <;> rfl
  unfold service
  rw [hp]
  cases Interrupt.first? (pending s.bus) with
  | none => rfl
  | some source =>
    cases hs : s.cpu.stopped with
    | true => simp only [mapBus, hs, if_true]
    | false =>
      cases hh : s.cpu.halted with
      | true =>
        have hw := woken (s.mapCpu Cpu.wake) wakeCycles source
        simp only [mapBus, hs, hh, Bool.false_eq_true, if_false, if_true] at hw ⊢
        exact hw
      | false =>
        have hw := woken s 0 source
        simp only [mapBus, hs, hh, Bool.false_eq_true, if_false] at hw ⊢
        exact hw

end Step

end Machine
end DotMatrix
