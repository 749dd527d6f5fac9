import DotMatrix.Proofs.Board.Cells
import DotMatrix.Proofs.Grid.Arithmetic
import DotMatrix.Processor.Service

/-! # The interrupt check

What one check does, said by bit numbers: the lowest bit that is set in both interrupt cells names
the source, the vector and the bit that is taken back.
-/
namespace DotMatrix

namespace Interrupt

def bit : Interrupt → Nat
  | .vblank => 0
  | .stat => 1
  | .timer => 2
  | .serial => 3
  | .joypad => 4

def inOrder (bits : UInt8) : List Interrupt := all.filter fun i => bits.toNat.testBit i.bit

theorem bit_injective {i j : Interrupt} (h : i.bit = j.bit) : i = j := by
  cases i <;> cases j <;> first
    | rfl
    | cases h

theorem vector_eq (i : Interrupt) : i.vector = 0x40 + 8 * UInt16.ofNat i.bit := by
  cases i <;> rfl

theorem inOrder_eq (bits : UInt8) :
    inOrder bits = match first? bits with
      | none => []
      | some i => i :: inOrder (bits &&& ~~~i.mask) :=
  Grid.forall_byte (P := fun bits => inOrder bits = match first? bits with
    | none => []
    | some i => i :: inOrder (bits &&& ~~~i.mask)) (by decide +kernel) bits

theorem first?_eq_head? (bits : UInt8) : first? bits = (inOrder bits).head? := by
  rw [inOrder_eq]
  cases first? bits <;> rfl

/-- Acknowledging the first source leaves the others in their order. -/
theorem inOrder_acknowledged {bits : UInt8} {i : Interrupt} (h : first? bits = some i) :
    inOrder (bits &&& ~~~i.mask) = (inOrder bits).tail := by
  rw [inOrder_eq bits, h]
  rfl

theorem mem_inOrder {bits : UInt8} {i : Interrupt} :
    i ∈ inOrder bits ↔ bits.toNat.testBit i.bit = true := by
  simp [inOrder, mem_all]

theorem inOrder_sorted (bits : UInt8) : (inOrder bits).Pairwise (·.bit < ·.bit) :=
  List.Pairwise.filter _ (by decide)

theorem first?_sources_eq_none_iff (bits : UInt8) :
    first? (sources bits) = none ↔ sources bits = 0 :=
  Grid.forall_byte (P := fun bits => first? (sources bits) = none ↔ sources bits = 0)
    (by decide +kernel) bits

/-- A source that is first has the lowest bit of those set. -/
theorem bit_of_first? {bits : UInt8} {i : Interrupt} (h : first? bits = some i) :
    bits.toNat.testBit i.bit = true ∧
      ∀ j : Interrupt, bits.toNat.testBit j.bit = true → i.bit ≤ j.bit := by
  have ho : inOrder bits = i :: inOrder (bits &&& ~~~i.mask) := by
    rw [inOrder_eq, h]
  have hs := inOrder_sorted bits
  rw [ho, List.pairwise_cons] at hs
  refine ⟨mem_inOrder.1 (ho ▸ List.mem_cons_self), ?_⟩
  intro j hj
  have hm := mem_inOrder.2 hj
  rw [ho, List.mem_cons] at hm
  rcases hm with rfl | hm
  · exact Nat.le_refl _
  · exact Nat.le_of_lt (hs.1 j hm)

theorem testBit_acknowledged (bits : UInt8) (i : Interrupt) (n : Nat) :
    (bits &&& ~~~i.mask).toNat.testBit n = (bits.toNat.testBit n && n != i.bit) := by
  rw [UInt8.toNat_and, Nat.testBit_and]
  by_cases hn : n < 8
  · have hm : ∀ m : Fin 8, (~~~i.mask).toNat.testBit m = (m.val != i.bit) := by
      cases i <;> decide
    rw [hm ⟨n, hn⟩]
  · have hb : bits.toNat.testBit n = false := by
      apply Nat.testBit_lt_two_pow
      exact Nat.lt_of_lt_of_le bits.toNat_lt (Nat.pow_le_pow_right (by decide) (Nat.not_lt.1 hn))
    simp [hb]

end Interrupt

namespace Machine

section Check
variable {β : Type} [Bus β] (s : Machine β)

def dispatched? : Option Interrupt :=
  if s.cpu.ime.enabled && !s.cpu.stopped then Interrupt.first? (pending s.bus) else none

def rouses : Bool := s.cpu.halted && !s.cpu.stopped && pending s.bus != 0

def roused : Machine β := if s.rouses then s.mapCpu ({ · with halted := false }) else s

theorem service_eq :
    s.service =
      ((if s.rouses then wakeCycles else 0) + (if s.dispatched?.isSome then dispatchCycles else 0),
        s.dispatched?.elim s.roused s.roused.dispatch) := by
  have hn := Interrupt.first?_sources_eq_none_iff
    (Bus.peek s.bus Cell.enables &&& Bus.peek s.bus Cell.requests)
  change Interrupt.first? (pending s.bus) = none ↔ pending s.bus = 0 at hn
  unfold service roused rouses dispatched?
  cases hf : Interrupt.first? (pending s.bus) with
  | none => simp [hn.1 hf]
  | some i =>
    have hp : pending s.bus ≠ 0 := by
      intro h
      rw [hn.2 h] at hf
      cases hf
    cases hs : s.cpu.stopped with
    | true => simp
    | false =>
      have hw : s.mapCpu Cpu.wake = s.mapCpu ({ · with halted := false }) := by
        simp only [mapCpu, Cpu.wake, hs]
      have he : (s.mapCpu ({ · with halted := false })).cpu.ime = s.cpu.ime := rfl
      cases s.cpu.halted <;> cases hi : s.cpu.ime.enabled <;> simp [hw, he, hi, hp]

end Check

section Push
variable {b : Board} {sp : UInt16}

theorem peek_requests (b : Board) : b.peek Cell.requests = b.memory.get Cell.requests := rfl

theorem peek_enables (b : Board) : b.peek Cell.enables = b.memory.get Cell.enables := rfl

/-- A word pushed elsewhere leaves a cell of the last page alone. -/
theorem get_pushed (hb : b.hooks = []) (sp : UInt16) (w : UInt16) {cell : UInt16}
    (hp : Cell.page ≤ cell) (hc : cell ∉ Board.timerOwned) (hl : sp ≠ cell + 1)
    (hu : sp ≠ cell + 2) :
    (Bus.writeWord b (sp - 2) w).memory.get cell = b.memory.get cell := by
  have hlo : sp - 2 ≠ cell := by
    rintro rfl
    exact hu (UInt16.sub_add_cancel sp 2).symm
  have hhi : sp - 2 + 1 ≠ cell := by
    rintro rfl
    refine hl ?_
    rw [UInt16.add_assoc]
    exact (UInt16.sub_add_cancel sp 2).symm
  have hw := Board.hooks_write hb (sp - 2) (Word.low w)
  exact (Board.get_write_of_ne hw _ _ hp hc hhi).trans (Board.get_write_of_ne hb _ _ hp hc hlo)

/-- Where the push does not land, the last page is as the acknowledgement leaves it. -/
theorem get_dispatch (s : Machine Board) (hb : s.bus.hooks = []) (i : Interrupt) {cell : UInt16}
    (hp : Cell.page ≤ cell) (hc : cell ∉ Board.timerOwned) (hl : s.registers.sp ≠ cell + 1)
    (hu : s.registers.sp ≠ cell + 2) :
    (s.dispatch i).bus.memory.get cell =
      (s.bus.memory.set Cell.requests (s.bus.peek Cell.requests &&& ~~~i.mask)).get cell := by
  let requested := s.bus.peek Cell.requests &&& ~~~i.mask
  have hpoked : s.bus.poke Cell.requests requested =
      { s.bus with memory := s.bus.memory.set Cell.requests requested } :=
    Board.poke_of_page_le _ _ (by decide)
  have hpushed : (s.dispatch i).bus.memory.get cell =
      (s.bus.poke Cell.requests requested).memory.get cell :=
    get_pushed ((Board.hooks_poke _ _ _).trans hb) s.registers.sp s.registers.pc hp hc hl hu
  rw [hpushed, hpoked]

theorem requests_dispatch (s : Machine Board) (hb : s.bus.hooks = []) (i : Interrupt)
    (hl : s.registers.sp ≠ 0xff10) (hu : s.registers.sp ≠ 0xff11) :
    (s.dispatch i).bus.peek Cell.requests = s.bus.peek Cell.requests &&& ~~~i.mask :=
  (get_dispatch s hb i (by decide) (by decide) hl hu).trans (Memory.get_set_self _ _ _)

theorem enables_dispatch (s : Machine Board) (hb : s.bus.hooks = []) (i : Interrupt)
    (hl : s.registers.sp ≠ 0) (hu : s.registers.sp ≠ 1) :
    (s.dispatch i).bus.peek Cell.enables = s.bus.peek Cell.enables :=
  (get_dispatch s hb i (by decide) (by decide) hl hu).trans (Memory.get_set_ne _ _ (by decide))

end Push

end Machine
end DotMatrix
