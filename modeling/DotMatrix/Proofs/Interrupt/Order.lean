import DotMatrix.Proofs.Interrupt.Conservation

/-! # No interrupt is lost, doubled or taken out of turn

What a check does, said through the bits of the two interrupt cells, and what follows for runs: a
request ends in its own dispatch or in a write to the cell, and checks that follow each other
dispatch what waits in the order of the bits.
-/
namespace DotMatrix

namespace Interrupt

theorem exists_bit {n : Nat} (h : n < 5) : ∃ i : Interrupt, i.bit = n := by
  have hall : ∀ n : Fin 5, ∃ i ∈ all, i.bit = n := by decide
  obtain ⟨i, -, hi⟩ := hall ⟨n, h⟩
  exact ⟨i, hi⟩

theorem bit_lt (i : Interrupt) : i.bit < 5 := by
  cases i <;> decide

theorem mask_eq (i : Interrupt) : i.mask = 1 <<< UInt8.ofNat i.bit := by
  cases i <;> rfl

end Interrupt

namespace Machine

section Check
variable (s : Machine Board)

def waiting : UInt8 := s.bus.peek Cell.enables &&& s.bus.peek Cell.requests &&& 0x1f

theorem isSome_dispatched? :
    s.dispatched?.isSome = (s.cpu.ime.enabled && !s.cpu.stopped && s.waiting != 0) := by
  have hn : Interrupt.first? s.waiting = none ↔ s.waiting = 0 :=
    Interrupt.first?_sources_eq_none_iff _
  have hd : s.dispatched? =
      if s.cpu.ime.enabled && !s.cpu.stopped then Interrupt.first? s.waiting else none := rfl
  rw [hd]
  cases (s.cpu.ime.enabled && !s.cpu.stopped) with
  | false => rfl
  | true =>
    rw [if_pos rfl, Bool.true_and]
    by_cases hw : s.waiting = 0
    · rw [hn.2 hw, hw]
      rfl
    · have hne : Interrupt.first? s.waiting ≠ none := fun h => hw (hn.1 h)
      rw [Option.isSome_iff_ne_none.2 hne]
      simpa using hw

variable {s} {i : Interrupt}

theorem first?_of_dispatched? (h : s.dispatched? = some i) :
    s.cpu.stopped = false ∧ Interrupt.first? s.waiting = some i := by
  unfold dispatched? at h
  split at h
  · rename_i he
    rw [Bool.and_eq_true, Bool.not_eq_true'] at he
    exact ⟨he.2, h⟩
  · cases h

theorem lowest_of_dispatched? (h : s.dispatched? = some i) :
    s.waiting.toNat.testBit i.bit = true ∧
      ∀ n, s.waiting.toNat.testBit n = true → i.bit ≤ n := by
  obtain ⟨hi, least⟩ := Interrupt.bit_of_first? (first?_of_dispatched? h).2
  refine ⟨hi, ?_⟩
  intro n hn
  rcases Nat.lt_or_ge n i.bit with hlt | hge
  · obtain ⟨j, rfl⟩ := Interrupt.exists_bit (Nat.lt_trans hlt i.bit_lt)
    exact least j hn
  · exact hge

theorem halted_roused (s : Machine Board) :
    s.roused.cpu.halted = (s.cpu.halted && (s.cpu.stopped || s.waiting == 0)) := by
  have hr : s.rouses = (s.cpu.halted && !s.cpu.stopped && s.waiting != 0) := rfl
  unfold roused
  rw [hr]
  by_cases hw : s.waiting = 0 <;>
  cases hh : s.cpu.halted <;> cases s.cpu.stopped <;> simp [mapCpu, hh, hw]

/-- Only HALT can differ after a check that dispatches nothing. -/
theorem roused_eq (s : Machine Board) :
    s.roused = { s with cpu.halted := s.roused.cpu.halted } := by
  unfold roused
  split <;> rfl

theorem service_eq_elim (s : Machine Board) :
    s.service.2 = s.dispatched?.elim s.roused s.roused.dispatch := by
  rw [service_eq]

theorem halted_service (s : Machine Board) :
    s.service.2.cpu.halted = (s.cpu.halted && (s.cpu.stopped || s.waiting == 0)) := by
  rw [service_eq_elim, ← halted_roused]
  cases s.dispatched? <;> rfl

theorem cost_service (s : Machine Board) :
    s.service.1 = 4 * (s.cpu.halted && !s.service.2.cpu.halted).toNat +
      20 * s.dispatched?.isSome.toNat := by
  have hr : s.rouses = (s.cpu.halted && !s.cpu.stopped && s.waiting != 0) := rfl
  have hh : (s.cpu.halted && !s.service.2.cpu.halted) = s.rouses := by
    rw [halted_service, hr, bne]
    cases s.cpu.halted <;> cases s.cpu.stopped <;> cases s.waiting == 0 <;> rfl
  rw [hh, service_eq]
  cases s.rouses <;> cases s.dispatched?.isSome <;> rfl

theorem service_of_none (h : s.dispatched? = none) :
    s.service.2 = { s with cpu.halted := s.service.2.cpu.halted } := by
  rw [service_eq_elim, h]
  exact roused_eq s

theorem service_of_some (h : s.dispatched? = some i) :
    s.service.2.cpu =
        { s.cpu with
          halted := false
          ime := .off
          registers.pc := 0x40 + 8 * UInt16.ofNat i.bit
          registers.sp := s.registers.sp - 2 } ∧
      s.service.2.bus =
        ((s.bus.poke Cell.requests
          (s.bus.peek Cell.requests &&& ~~~(1 <<< UInt8.ofNat i.bit))).write
            (s.registers.sp - 2) (Word.low s.registers.pc)).write
          (s.registers.sp - 1) (Word.high s.registers.pc) := by
  have hw : s.cpu.ime.enabled = true ∧ s.cpu.stopped = false ∧ s.waiting ≠ 0 := by
    have hd := isSome_dispatched? s
    rw [h] at hd
    simpa [and_assoc] using hd.symm
  have hh : s.roused.cpu.halted = false := by
    rw [halted_roused, hw.2.1]
    simp [hw.2.2]
  have hs : s.registers.sp - 2 + 1 = s.registers.sp - 1 := by
    apply UInt16.toNat_inj.1
    simp only [UInt16.toNat_add, UInt16.toNat_sub, UInt16.reduceToNat]
    omega
  have hr : s.service.2 = { s with cpu.halted := false : Machine Board }.dispatch i := by
    rw [service_eq_elim, h, Option.elim_some, roused_eq s, hh]
  rw [hr, ← Interrupt.mask_eq, ← Interrupt.vector_eq, ← hs]
  exact ⟨rfl, rfl⟩

theorem pc_service (s : Machine Board) :
    s.service.2.registers.pc = (s.dispatched?.map Interrupt.vector).getD s.registers.pc := by
  cases hd : s.dispatched? with
  | none =>
    have hkept := service_of_none hd
    rw [hkept]
    rfl
  | some i =>
    obtain ⟨hcpu, -⟩ := service_of_some hd
    unfold registers
    rw [hcpu]
    exact (Interrupt.vector_eq i).symm

theorem requests_service_of_some (hb : s.bus.hooks = []) (h : s.dispatched? = some i)
    (hl : s.registers.sp ≠ 0xff10) (hu : s.registers.sp ≠ 0xff11) :
    s.service.2.bus.peek Cell.requests = s.bus.peek Cell.requests &&& ~~~i.mask := by
  rw [service_eq_elim, h, Option.elim_some, roused_eq s]
  exact requests_dispatch _ hb i hl hu

theorem enables_service_of_some (hb : s.bus.hooks = []) (h : s.dispatched? = some i)
    (hl : s.registers.sp ≠ 0) (hu : s.registers.sp ≠ 1) :
    s.service.2.bus.peek Cell.enables = s.bus.peek Cell.enables := by
  rw [service_eq_elim, h, Option.elim_some, roused_eq s]
  exact enables_dispatch _ hb i hl hu

end Check

section Rounds

/-- Checks that follow each other on a machine that is not stopped, interrupts being enabled again
before each of them. Between two checks, and in the pushes, both interrupt cells are left alone. -/
structure Rounds (n : Nat) (turn : Nat → Machine Board) : Prop where
  unhooked : ∀ k < n, (turn k).bus.hooks = []
  enabled : ∀ k < n, (turn k).cpu.ime.enabled = true
  running : ∀ k < n, (turn k).cpu.stopped = false
  pushes : ∀ k < n, (turn k).dispatched? ≠ none →
    (turn k).registers.sp ∉ [0x0000, 0x0001, 0xff10, 0xff11]
  requests : ∀ k < n,
    (turn (k + 1)).bus.peek Cell.requests = (turn k).service.2.bus.peek Cell.requests
  enables : ∀ k < n,
    (turn (k + 1)).bus.peek Cell.enables = (turn k).service.2.bus.peek Cell.enables

variable {n : Nat} {turn : Nat → Machine Board}

theorem Rounds.dispatched? (h : Rounds n turn) {k : Nat} (hk : k < n) :
    (turn k).dispatched? = (Interrupt.inOrder (turn k).waiting).head? := by
  have he : ((turn k).cpu.ime.enabled && !(turn k).cpu.stopped) = true := by
    rw [h.enabled k hk, h.running k hk]
    rfl
  rw [← Interrupt.first?_eq_head?]
  exact if_pos he

/-- A check takes the first of those that wait and leaves the others. -/
theorem Rounds.inOrder_succ (h : Rounds n turn) {k : Nat} (hk : k < n) :
    Interrupt.inOrder (turn (k + 1)).waiting = (Interrupt.inOrder (turn k).waiting).tail := by
  have hw : (turn (k + 1)).waiting = (turn k).service.2.bus.peek Cell.enables &&&
      (turn k).service.2.bus.peek Cell.requests &&& 0x1f := by
    rw [waiting, h.requests k hk, h.enables k hk]
  cases hd : (turn k).dispatched? with
  | none =>
    have hnil : Interrupt.inOrder (turn k).waiting = [] := by
      rw [← List.head?_eq_none_iff, ← h.dispatched? hk]
      exact hd
    rw [hw, service_of_none hd]
    exact hnil.trans (congrArg List.tail hnil).symm
  | some i =>
    have hsp := h.pushes k hk (by rw [hd]; exact Option.some_ne_none i)
    simp only [List.mem_cons, List.not_mem_nil, or_false, not_or] at hsp
    obtain ⟨h0, h1, h10, h11⟩ := hsp
    have hb := h.unhooked k hk
    have ha : (turn (k + 1)).waiting = (turn k).waiting &&& ~~~i.mask := by
      rw [hw, requests_service_of_some hb hd h10 h11, enables_service_of_some hb hd h0 h1, waiting]
      apply UInt8.toNat_inj.1
      simp only [UInt8.toNat_and]
      ac_rfl
    rw [ha]
    exact Interrupt.inOrder_acknowledged (first?_of_dispatched? hd).2

theorem Rounds.inOrder_eq_drop (h : Rounds n turn) (k : Nat) (hk : k ≤ n) :
    Interrupt.inOrder (turn k).waiting = (Interrupt.inOrder (turn 0).waiting).drop k := by
  induction k with
  | zero => rfl
  | succ k ih => rw [h.inOrder_succ hk, ih (Nat.le_of_succ_le hk), List.tail_drop]

def rearming (s : Machine Board) : Nat → Machine Board
  | 0 => s
  | k + 1 => { (rearming s k).service.2 with cpu.ime := .on }

theorem registers_rearming (s : Machine Board) (k : Nat) :
    (s.rearming (k + 1)).registers = (s.rearming k).service.2.registers := by
  rw [rearming]

theorem stopped_service (s : Machine Board) : s.service.2.cpu.stopped = s.cpu.stopped := by
  rw [service_eq_elim, roused_eq]
  cases s.dispatched? <;> rfl

theorem rounds_rearming {s : Machine Board} (hb : s.bus.hooks = [])
    (he : s.cpu.ime.enabled = true) (hr : s.cpu.stopped = false)
    (hp : ∀ k < n, (s.rearming k).dispatched? ≠ none →
      (s.rearming k).registers.sp ∉ [0x0000, 0x0001, 0xff10, 0xff11]) :
    Rounds n s.rearming where
  unhooked k _ := by
    induction k with
    | zero => exact hb
    | succ k ih => exact hooks_run (s := s.rearming k) (ih (by omega)) [.service]
  enabled k _ := by
    cases k with
    | zero => exact he
    | succ k => rfl
  running k _ := by
    induction k with
    | zero => exact hr
    | succ k ih => exact (stopped_service _).trans (ih (by omega))
  pushes := hp
  requests _ _ := rfl
  enables _ _ := rfl

end Rounds

section Events
variable {s : Machine Board}

theorem run_append_single (s : Machine Board) (before : List Event) (e : Event) :
    s.run (before ++ [e]) = (s.run before).apply e := by
  rw [run, List.foldl_append]
  rfl

/-- In a run without transfer cycles, or from a transfer within its length, every request that is
lost is lost in its dispatch or to a write. -/
theorem lost_run (hb : s.bus.hooks = []) {events before after : List Event} {e : Event}
    (hd : s.bus.dma.Bounded ∨ ∀ n, .board (.tick n) ∉ events) (he : events = before ++ e :: after)
    {i : Interrupt} (hset : (s.run before).bus.requested i = true)
    (hlost : (s.run (before ++ [e])).bus.requested i = false) :
    (e = .service ∧ (s.run before).dispatched? = some i) ∨
      ∃ v, (Cell.requests, v) ∈ (s.run before).writes e ∧ v.toNat.testBit i.bit = false := by
  rw [run_append_single] at hlost
  refine lost_apply (hooks_run hb before) ?_ hset hlost
  rintro n rfl
  rcases hd with hd | hd
  · exact bounded_run hb hd before
  · refine absurd ?_ (hd n)
    rw [he]
    exact List.mem_append_right _ List.mem_cons_self

end Events

/-- A check dispatches the lowest source that waits if it may: it takes back that bit alone, pushes
the program counter, enters the vector and clears the interrupt switch; it ends HALT whenever
something waits, and does nothing else. Along a run a request is lost only in its own dispatch or
to a write of its cell, and checks with interrupts enabled again in between dispatch every source
that waits once, in the order of the bits. -/
theorem interrupts_are_conserved (s : Machine Board) (hb : s.bus.hooks = []) :
    (s.dispatched?.isSome = (s.cpu.ime.enabled && !s.cpu.stopped && s.waiting != 0) ∧
      s.service.2.cpu.halted = (s.cpu.halted && (s.cpu.stopped || s.waiting == 0)) ∧
      s.service.1 = 4 * (s.cpu.halted && !s.service.2.cpu.halted).toNat +
        20 * s.dispatched?.isSome.toNat ∧
      (s.dispatched? = none → s.service.2 = { s with cpu.halted := s.service.2.cpu.halted }) ∧
      ∀ i, s.dispatched? = some i →
        (s.waiting.toNat.testBit i.bit = true ∧
          ∀ n, s.waiting.toNat.testBit n = true → i.bit ≤ n) ∧
        s.service.2.cpu =
          { s.cpu with
            halted := false
            ime := .off
            registers.pc := 0x40 + 8 * UInt16.ofNat i.bit
            registers.sp := s.registers.sp - 2 } ∧
        s.service.2.bus =
          ((s.bus.poke Cell.requests
            (s.bus.peek Cell.requests &&& ~~~(1 <<< UInt8.ofNat i.bit))).write
              (s.registers.sp - 2) (Word.low s.registers.pc)).write
            (s.registers.sp - 1) (Word.high s.registers.pc) ∧
        (s.registers.sp ≠ 0xff10 → s.registers.sp ≠ 0xff11 → ∀ n,
          (s.service.2.bus.peek Cell.requests).toNat.testBit n =
            ((s.bus.peek Cell.requests).toNat.testBit n && n != i.bit))) ∧
    (∀ events, (s.bus.dma.Bounded ∨ ∀ n, .board (.tick n) ∉ events) →
      ∀ before e after, events = before ++ e :: after →
        ∀ i, (s.run before).bus.requested i = true →
          (s.run (before ++ [e])).bus.requested i = false →
            (e = .service ∧ (s.run before).dispatched? = some i) ∨
              ∃ v, (Cell.requests, v) ∈ (s.run before).writes e ∧ v.toNat.testBit i.bit = false) ∧
    (∀ n turn, turn 0 = s → Rounds n turn →
      ∃ order : List Interrupt, order.Pairwise (·.bit < ·.bit) ∧
        (∀ i, i ∈ order ↔ s.waiting.toNat.testBit i.bit = true) ∧
          ∀ k < n, (turn k).dispatched? = order[k]?) := by
  refine ⟨⟨isSome_dispatched? s, halted_service s, cost_service s, service_of_none, ?_⟩, ?_, ?_⟩
  · intro i h
    obtain ⟨hcpu, hbus⟩ := service_of_some h
    refine ⟨lowest_of_dispatched? h, hcpu, hbus, ?_⟩
    intro hl hu n
    rw [requests_service_of_some hb h hl hu]
    exact Interrupt.testBit_acknowledged _ i n
  · intro events hd before e after he i hset hlost
    exact lost_run hb hd he hset hlost
  · rintro n turn rfl hr
    refine ⟨Interrupt.inOrder (turn 0).waiting, Interrupt.inOrder_sorted _,
      fun i => Interrupt.mem_inOrder, ?_⟩
    intro k hk
    rw [hr.dispatched? hk, hr.inOrder_eq_drop k (Nat.le_of_lt hk), List.head?_drop]

/-- Timer and vertical blank wait at once while the processor sleeps. The vertical blank is taken
first, and with it its request goes; the second check is left with the timer. -/
theorem interrupts_are_conserved_vblank :
    let empty := Board.new #[] (.rom #[])
    let cells := (empty.memory.set Cell.enables 0x05).set Cell.requests 0xe5
    let s : Machine Board :=
      ⟨{ Cpu.postBoot with ime := .on, halted := true }, { empty with memory := cells }⟩
    s.bus.hooks = [] ∧ s.dispatched? = some .vblank ∧ s.service.1 = 24 ∧
      s.service.2.cpu.registers.pc = 0x40 ∧
      (∀ n, (s.service.2.bus.peek Cell.requests).toNat.testBit n =
        ((s.bus.peek Cell.requests).toNat.testBit n && n != 0)) ∧
      (s.bus.requested .vblank = true ∧ (s.run [.service]).bus.requested .vblank = false ∧
        ((Event.service = .service ∧ s.dispatched? = some .vblank) ∨
          ∃ v, (Cell.requests, v) ∈ s.writes .service ∧ v.toNat.testBit 0 = false)) ∧
      ∃ order : List Interrupt, (∀ i, i ∈ order ↔ s.waiting.toNat.testBit i.bit = true) ∧
        s.dispatched? = order[0]? ∧ (s.rearming 1).dispatched? = order[1]? := by
  intro empty cells s
  have hb : s.bus.hooks = [] := rfl
  have hdma : s.bus.dma.Bounded := nofun
  have hrequests : s.bus.peek Cell.requests = 0xe5 := by
    rw [peek_requests]
    exact Memory.get_set_self _ _ _
  have henables : s.bus.peek Cell.enables = 0x05 := by
    rw [peek_enables]
    exact (Memory.get_set_ne _ _ (by decide)).trans (Memory.get_set_self _ _ _)
  have hhalt : s.cpu.halted = true := rfl
  have hime : s.cpu.ime.enabled = true := rfl
  have hstop : s.cpu.stopped = false := rfl
  have hsp : s.registers.sp = 0xfffe := rfl
  -- From here on only these facts about the machine count, not its 64 Ki cells.
  clear_value s
  have hwaiting : s.waiting = 0x05 := by
    rw [waiting, hrequests, henables]
    rfl
  have hd : s.dispatched? = some .vblank := by
    have hf : s.dispatched? =
        if s.cpu.ime.enabled && !s.cpu.stopped then Interrupt.first? s.waiting else none := rfl
    rw [hf, hime, hstop, hwaiting]
    rfl
  obtain ⟨⟨-, hhalted, hcost, -, taken⟩, lost, rounds⟩ := interrupts_are_conserved s hb
  obtain ⟨-, hcpu, -, hbits⟩ := taken .vblank hd
  have hbits := hbits (by rw [hsp]; decide) (by rw [hsp]; decide)
  have hset : s.bus.requested .vblank = true := by
    rw [Board.requested, hrequests]
    rfl
  have hgone : (s.run [.service]).bus.requested .vblank = false := by
    rw [run, List.foldl_cons, List.foldl_nil, apply, Board.requested]
    exact (hbits 0).trans (Bool.and_false _)
  refine ⟨hb, hd, ?_, ?_, hbits, ⟨hset, hgone, ?_⟩, ?_⟩
  · rw [hcost, hhalted, hhalt, hstop, hd, hwaiting]
    rfl
  · rw [hcpu]
    rfl
  · exact lost [.service] (.inl hdma) [] .service [] rfl .vblank hset hgone
  · have hnext : (s.rearming 1).registers.sp = s.registers.sp - 2 := by
      rw [registers_rearming, rearming, registers, hcpu]
    have hr : Rounds 2 s.rearming := by
      refine rounds_rearming hb hime hstop ?_
      intro k hk _
      obtain rfl | rfl : k = 0 ∨ k = 1 := by omega
      · rw [rearming, hsp]
        decide
      · rw [hnext, hsp]
        decide
    obtain ⟨order, -, hmem, hk⟩ := rounds 2 s.rearming rfl hr
    exact ⟨order, hmem, hk 0 (by decide), hk 1 (by decide)⟩

end Machine
end DotMatrix
