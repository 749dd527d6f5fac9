import DotMatrix.Proofs.Interrupt.Enabling
import DotMatrix.Proofs.Stack.Simulation

/-! # Calls and interrupts return

A call, a restart and an interrupt leave the address to come back to on the stack. Whatever happens
in between, a return takes it from there as long as `SP` and the two bytes are the same again.
-/
namespace DotMatrix

open Machine (pending)

namespace Stack

def shown (s : Machine Board) : UInt16 :=
  Word.join (s.bus.peek (s.registers.sp + 1)) (s.bus.peek s.registers.sp)

/-- A later machine with `SP` and the two bytes there as they were. -/
structure SameTop (before after : Machine Board) : Prop where
  sp : after.registers.sp = before.registers.sp
  low : after.bus.peek before.registers.sp = before.bus.peek before.registers.sp
  high : after.bus.peek (before.registers.sp + 1) = before.bus.peek (before.registers.sp + 1)

section Return
variable {s t u : Machine Board}

theorem SameTop.shown (h : SameTop t u) : shown u = shown t := by
  unfold Stack.shown
  rw [h.sp, h.low, h.high]

theorem shown_push (hb : s.bus.hooks = []) (room : Room s.registers.sp 2) (w : UInt16) :
    shown (s.push w) = w := by
  have hdepth : s.registers.sp.toNat + 2 * 0 = s.registers.sp.toNat := Nat.add_zero _
  have fresh := room.fresh hdepth (Nat.le_refl 2)
  have holds := (holds_start s 2).push hb room (Nat.le_refl 2) w
  have hlow := (room.inside _ fresh.touchedLow).peek (s.push w).bus
  have hhigh := (room.inside _ fresh.touchedHigh).peek (s.push w).bus
  change Word.join ((s.push w).bus.peek (s.registers.sp - 2 + 1))
    ((s.push w).bus.peek (s.registers.sp - 2)) = w
  rw [hlow, hhigh]
  exact holds.lies.1

theorem step_ret (h : u.fetch = .ok (some (.ret none))) :
    ∃ k v, u.step = .ok (k, v) ∧ v.registers.pc = shown u ∧
      v.registers.sp = u.registers.sp + 2 :=
  ⟨_, _, Machine.step_of_fetch h, rfl, rfl⟩

theorem step_reti (h : u.fetch = .ok (some .reti)) :
    ∃ k v, u.step = .ok (k, v) ∧ v.registers.pc = shown u ∧
      v.registers.sp = u.registers.sp + 2 ∧ v.cpu.ime = .on :=
  ⟨_, _, Machine.step_of_fetch h, rfl, rfl, Machine.ime_proceed u .reti⟩

inductive Calls : Instruction → Prop where
  | call (target : UInt16) : Calls (.call none target)
  | restart (slot : Fin 8) : Calls (.restart slot)

theorem step_of_calls {i : Instruction} (hi : Calls i) (h : s.fetch = .ok (some i))
    (hb : s.bus.hooks = []) (room : Room s.registers.sp 2) :
    ∃ k t, s.step = .ok (k, t) ∧ shown t = s.registers.pc + .ofNat i.length ∧
      t.registers.sp = s.registers.sp - 2 := by
  let behind : Machine Board :=
    { s with
      cpu.instructionStart := s.registers.pc
      cpu.registers.pc := s.registers.pc + .ofNat i.length }
  have hshown := shown_push (s := behind) hb room behind.registers.pc
  refine ⟨_, _, Machine.step_of_fetch h, ?_, ?_⟩
  · cases hi with
    | call target => exact hshown
    | restart slot => exact hshown
  · cases hi with
    | call target => rfl
    | restart slot => rfl

theorem service_of_dispatched {i : Interrupt} (h : s.dispatched? = some i)
    (hb : s.bus.hooks = []) (room : Room s.registers.sp 2) :
    shown s.service.2 = s.registers.pc ∧ s.service.2.registers.sp = s.registers.sp - 2 := by
  let acknowledged : Machine Board :=
    { s with bus := s.bus.poke Cell.requests (s.bus.peek Cell.requests &&& ~~~i.mask) }
  have hhooks : acknowledged.bus.hooks = [] := (Board.hooks_poke _ _ _).trans hb
  have hshown := shown_push (s := acknowledged) hhooks room s.registers.pc
  rw [Machine.service_eq_elim, h, Option.elim_some, Machine.roused_eq s]
  exact ⟨hshown, rfl⟩

end Return

/-- Pushes and pops on memory are pushes and pops on a list, as long as all cells they touch lie in
work memory or high memory: pops give the same words, `SP` is lower by the bytes of the words that
are left, and no other cell changes. With room for one word, a return brings a call or a restart
back behind it, and an interrupt back to where it came with interrupts enabled, as soon as `SP` and
the word there are the same again. -/
theorem memory_is_a_stack (s : Machine Board) (hb : s.bus.hooks = []) :
    (∀ ops popped left, run? ops [] = some (popped, left) →
      Room s.registers.sp (2 * deepest ops 0) →
      let t := (s.runStack ops).2
      (s.runStack ops).1 = popped ∧
      t.cpu = { s.cpu with registers.sp := s.registers.sp - 2 * .ofNat left.length } ∧
      (∃ memory watch, t.bus = { s.bus with memory, watch }) ∧
      (∀ cell, ¬Touched s.registers.sp (2 * deepest ops 0) cell →
        t.bus.memory.get cell = s.bus.memory.get cell) ∧
      ∀ address,
        (∀ cell ∈ Region.behind? address, ¬Touched s.registers.sp (2 * deepest ops 0) cell) →
        t.bus.peek address = s.bus.peek address) ∧
    (Room s.registers.sp 2 → ∀ i, Calls i → s.fetch = .ok (some i) →
      ∃ k t, s.step = .ok (k, t) ∧
        ∀ u, SameTop t u → u.fetch = .ok (some (.ret none)) →
          ∃ l v, u.step = .ok (l, v) ∧
            v.registers.pc = s.registers.pc + .ofNat i.length ∧
            v.registers.sp = s.registers.sp) ∧
    (Room s.registers.sp 2 → s.cpu.ime.enabled = true → s.cpu.stopped = false →
      pending s.bus ≠ 0 →
        ∀ u, SameTop s.service.2 u → u.fetch = .ok (some .reti) →
          ∃ l v, u.step = .ok (l, v) ∧ v.registers.pc = s.registers.pc ∧
            v.registers.sp = s.registers.sp ∧ v.cpu.ime = .on) := by
  have hback : s.registers.sp - 2 + 2 = s.registers.sp := UInt16.sub_add_cancel _ _
  refine ⟨?_, ?_, ?_⟩
  · intro ops popped left hrun room t
    obtain ⟨hpopped, holds⟩ := (holds_start s (2 * deepest ops 0)).run hb room (Nat.le_refl _) hrun
    refine ⟨hpopped, ?_, holds.board, holds.kept, fun _ => holds.peek⟩
    rw [holds.cpu, holds.sp_eq]
  · intro room i hi hf
    obtain ⟨k, t, hstep, hshown, hsp⟩ := step_of_calls hi hf hb room
    refine ⟨k, t, hstep, ?_⟩
    intro u same hret
    obtain ⟨l, v, hv, hpc, hvsp⟩ := step_ret hret
    refine ⟨l, v, hv, ?_, ?_⟩
    · rw [hpc, same.shown, hshown]
    · rw [hvsp, same.sp, hsp, hback]
  · intro room hime hstopped hpending u same hreti
    have hwaiting : s.dispatched?.isSome = true := by
      have hwaiting : s.waiting ≠ 0 := hpending
      rw [Machine.isSome_dispatched?, hime, hstopped]
      simpa using hwaiting
    obtain ⟨i, hi⟩ := Option.isSome_iff_exists.1 hwaiting
    obtain ⟨hshown, hsp⟩ := service_of_dispatched hi hb room
    obtain ⟨l, v, hv, hpc, hvsp, himev⟩ := step_reti hreti
    refine ⟨l, v, hv, ?_, ?_, himev⟩
    · rw [hpc, same.shown, hshown]
    · rw [hvsp, same.sp, hsp, hback]

section Nested

/-- A program that calls a routine behind it, which returns at once as the first vector does. -/
def returning : Bytes :=
  Bytes.zeros 0x40 ++ #[0xd9] ++ Bytes.zeros 0xbf ++ #[0xcd, 0x04, 0x01, 0x00, 0xc9]

theorem at?_returning :
    let decoded := Instruction.at? fun address => returning.readOpen address.toNat
    decoded 0x40 = some .reti ∧ decoded 0x100 = some (.call none 0x104) ∧
      decoded 0x104 = some (.ret none) := by
  have hbytes : returning.readOpen 0x40 = 0xd9 ∧ returning.readOpen 0x100 = 0xcd ∧
      returning.readOpen 0x101 = 0x04 ∧ returning.readOpen 0x102 = 0x01 ∧
      returning.readOpen 0x104 = 0xc9 := by
    simp [returning, Bytes.readOpen, Bytes.zeros, Array.getElem_push]
  obtain ⟨hreti, hcall, hlow, hhigh, hret⟩ := hbytes
  refine ⟨?_, ?_, ?_⟩
  · change Instruction.ofBytes? (returning.readOpen 0x40) _ _ = _
    rw [hreti]
    rfl
  · change Instruction.ofBytes? (returning.readOpen 0x100) (returning.readOpen 0x101)
      (returning.readOpen 0x102) = _
    rw [hcall, hlow, hhigh]
    rfl
  · change Instruction.ofBytes? (returning.readOpen 0x104) _ _ = _
    rw [hret]
    rfl

def calling : Machine Board where
  cpu := { Cpu.postBoot with ime := .on }
  bus :=
    { Board.new #[] (.rom returning) with
      memory := (Memory.cleared.set Cell.requests 0x01).set Cell.enables 0x01 }

theorem room_calling {n : Nat} (h : n ≤ 0x7e) : Room calling.registers.sp n := by
  have hsp : calling.registers.sp.toNat = 0xfffe := rfl
  refine ⟨by omega, ?_⟩
  intro cell hcell
  unfold Touched at hcell
  right
  simp only [UInt16.le_iff_toNat_le, UInt16.lt_iff_toNat_lt, UInt16.reduceToNat]
  omega

theorem pending_calling : pending calling.bus = 0x01 := by
  have henables : Bus.peek calling.bus Cell.enables = 0x01 :=
    (Machine.peek_enables calling.bus).trans (Memory.get_set_self _ _ _)
  have hrequests : Bus.peek calling.bus Cell.requests = 0x01 :=
    (Machine.peek_requests calling.bus).trans
      ((Memory.get_set_ne _ _ (by decide)).trans (Memory.get_set_self _ _ _))
  unfold pending
  rw [henables, hrequests]
  rfl

theorem dispatched?_calling : calling.dispatched? = some .vblank := by
  unfold Machine.dispatched?
  rw [pending_calling]
  rfl

/-- Two words pushed come back in the other order; the call returns behind itself, and the interrupt
that is waiting returns to the call. -/
theorem memory_is_a_stack_calling :
    (calling.runStack [.push 0x1234, .push 0xabcd, .pop, .pop]).1 = [0xabcd, 0x1234] ∧
      (∃ k t l v, calling.step = .ok (k, t) ∧ t.step = .ok (l, v) ∧
        v.registers.pc = 0x103 ∧ v.registers.sp = 0xfffe) ∧
      ∃ l v, calling.service.2.step = .ok (l, v) ∧ v.registers.pc = 0x100 ∧
        v.registers.sp = 0xfffe ∧ v.cpu.ime = .on := by
  have hplays : calling.bus.Plays returning := ⟨rfl, rfl, rfl⟩
  obtain ⟨hreti, hcall, hret⟩ := at?_returning
  obtain ⟨runs, calls, interrupts⟩ := memory_is_a_stack calling rfl
  refine ⟨?_, ?_, ?_⟩
  · exact (runs _ [0xabcd, 0x1234] [] rfl (room_calling (by decide))).1
  · have hf : calling.fetch = .ok (some (.call none 0x104)) :=
      Machine.fetch_of_plays hplays rfl (by decide) hcall
    obtain ⟨k, t, hstep, returns⟩ := calls (room_calling (by decide)) _ (.call 0x104) hf
    have ht : (calling.proceed (some (.call none 0x104))).2 = t :=
      congrArg Prod.snd (Except.ok.inj ((Machine.step_of_fetch hf).symm.trans hstep))
    have hplays' : t.bus.Plays returning := by
      rw [← ht]
      exact Machine.kept_proceed Board.busInvariant_plays hplays _
    have hpc : t.registers.pc = 0x104 := by
      rw [← ht]
      rfl
    have hidle : t.cpu.idle = false := by
      rw [← ht]
      rfl
    have hfret : t.fetch = .ok (some (.ret none)) :=
      Machine.fetch_of_plays hplays' hidle (by rw [hpc]; decide) (by rw [hpc]; exact hret)
    obtain ⟨l, v, hv, hvpc, hvsp⟩ := returns t ⟨rfl, rfl, rfl⟩ hfret
    exact ⟨k, t, l, v, hstep, hv, hvpc, hvsp⟩
  · have hplays' : calling.service.2.bus.Plays returning :=
      Machine.kept_service Board.busInvariant_plays hplays fun h v => h.poke Cell.requests v
    have hpc : calling.service.2.registers.pc = 0x40 := by
      rw [Machine.pc_service, dispatched?_calling]
      rfl
    have hidle : calling.service.2.cpu.idle = false := by
      rw [(Machine.service_of_some dispatched?_calling).1]
      rfl
    have hfreti : calling.service.2.fetch = .ok (some .reti) :=
      Machine.fetch_of_plays hplays' hidle (by rw [hpc]; decide) (by rw [hpc]; exact hreti)
    have hpending : pending calling.bus ≠ 0 := by
      rw [pending_calling]
      decide
    obtain ⟨l, v, hv, hvpc, hvsp, hime⟩ :=
      interrupts (room_calling (by decide)) rfl rfl hpending _ ⟨rfl, rfl, rfl⟩ hfreti
    exact ⟨l, v, hv, hvpc, hvsp, hime⟩

end Nested

end Stack
end DotMatrix
