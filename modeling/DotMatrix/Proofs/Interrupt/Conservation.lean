import DotMatrix.Proofs.Board.Clock
import DotMatrix.Proofs.Interrupt.Service
import DotMatrix.Proofs.Processor.Invariant

/-! # Interrupt requests are conserved

A request is set by whoever makes it and stays until it is dispatched or the program writes the
cell. The instructions are followed on a recording bus: what they write to the cell is all that
they do to it.
-/
namespace DotMatrix

namespace Board
variable {b : Board}

def requested (b : Board) (i : Interrupt) : Bool := (b.peek Cell.requests).toNat.testBit i.bit

theorem requested_eq (b : Board) (i : Interrupt) :
    b.requested i = (b.memory.get Cell.requests).toNat.testBit i.bit := rfl

theorem requested_of_get {c : Board} (i : Interrupt)
    (h : c.memory.get Cell.requests = b.memory.get Cell.requests) :
    c.requested i = b.requested i := by
  rw [requested_eq, requested_eq, h]

theorem requested_request (sources : UInt8) (i : Interrupt) :
    (b.request sources).requested i = (b.requested i || sources.toNat.testBit i.bit) := by
  have hg : (b.request sources).memory.get Cell.requests =
      b.memory.get Cell.requests ||| sources := Memory.get_set_self _ _ _
  simp only [requested, Machine.peek_requests, hg, UInt8.toNat_or, Nat.testBit_or]

/-- The timer only adds a request. -/
theorem requests_timer_run (n : Nat) (t : Timer) (c : TimerCells) :
    ∃ added, (Timer.run n t c).2.requests = c.requests ||| added := by
  induction n generalizing t c with
  | zero => exact ⟨0, UInt8.or_zero.symm⟩
  | succ n ih =>
    obtain ⟨now, hnow⟩ : ∃ now, (t.cycle c).2.requests = c.requests ||| now := by
      rw [Timer.cycle_eq]
      dsimp only
      split
      · exact ⟨0x04, rfl⟩
      · exact ⟨0, UInt8.or_zero.symm⟩
    obtain ⟨later, hlater⟩ := ih (t.cycle c).1 (t.cycle c).2
    rw [hnow, UInt8.or_assoc] at hlater
    exact ⟨now ||| later, hlater⟩

theorem requests_tickTimer (b : Board) (n : Nat) :
    ∃ added, (b.tickTimer n).memory.get Cell.requests = b.memory.get Cell.requests ||| added := by
  obtain ⟨added, hr⟩ := requests_timer_run n b.timer b.memory.timerCells
  exact ⟨added, (get_requests_driveTimer b (Timer.run n)).trans hr⟩

theorem requested_tickTimer (n : Nat) {i : Interrupt} (h : b.requested i = true) :
    (b.tickTimer n).requested i = true := by
  obtain ⟨added, hr⟩ := b.requests_tickTimer n
  rw [requested_eq] at h
  rw [requested_eq, hr, UInt8.toNat_or, Nat.testBit_or, h, Bool.true_or]

end Board

namespace Machine

inductive Event where
  | step
  | service
  | board (e : Board.Event)
  deriving DecidableEq, Repr

/-- A step that fails leaves the machine as it was. -/
def apply (s : Machine Board) : Event → Machine Board
  | .step => match s.step with
    | .ok (_, t) => t
    | .error _ => s
  | .service => s.service.2
  | .board e => { s with bus := s.bus.apply e }

def run (s : Machine Board) (events : List Event) : Machine Board := events.foldl apply s

def writes (s : Machine Board) : Event → List (UInt16 × UInt8)
  | .step => match s.recorded.step with
    | .ok (_, t) => t.bus.writes
    | .error _ => []
  | .service => s.recorded.service.2.bus.writes
  | .board (.write address v) => [(address, v)]
  | .board _ => []

section Recorded

/-- The request cell holds what was recorded last for it, and before that what it held. -/
structure Tracked (before : UInt8) (r : Recorded Board) : Prop where
  unhooked : r.bus.hooks = []
  cell : r.bus.memory.get Cell.requests =
    ((r.writes.lookup Cell.requests).map (· ||| 0xe0)).getD before

theorem busInvariant_tracked (before : UInt8) : BusInvariant (Tracked before) where
  read h _ := ⟨h.unhooked, h.cell⟩
  write {r} h address v := by
    refine ⟨Board.hooks_write h.unhooked address v, ?_⟩
    by_cases ha : address = Cell.requests
    · subst ha
      change (r.bus.write Cell.requests v).memory.get Cell.requests = _
      rw [Board.write_requests]
      simp only [Bus.write, List.lookup_cons_self]
      exact Memory.get_set_self _ _ _
    · have hg := Board.get_write_of_ne h.unhooked address v (by decide) (by decide) ha
      have hl : (Cell.requests == address) = false := by simpa using Ne.symm ha
      simp only [Bus.write, List.lookup_cons, hl]
      exact hg.trans h.cell
  fetched h _ _ := h
  note h _ := h

theorem requests_step {s : Machine Board} (hb : s.bus.hooks = []) :
    (s.apply .step).bus.memory.get Cell.requests =
      (((s.writes .step).lookup Cell.requests).map (· ||| 0xe0)).getD
        (s.bus.memory.get Cell.requests) := by
  have ht : Tracked (s.bus.memory.get Cell.requests) s.recorded.bus := ⟨hb, rfl⟩
  have hs := recorded_step s
  unfold apply writes
  rw [hs]
  cases hr : s.recorded.step with
  | error fault => rfl
  | ok r => exact (kept_step (busInvariant_tracked _) ht hr).cell

def acknowledged (s : Machine Board) : UInt8 :=
  s.dispatched?.elim (s.bus.peek Cell.requests) fun i => s.bus.peek Cell.requests &&& ~~~i.mask

theorem tracked_dispatch {s : Machine (Recorded Board)} (hb : s.bus.bus.hooks = [])
    (hw : s.bus.writes = []) (i : Interrupt) :
    Tracked (s.bus.bus.peek Cell.requests &&& ~~~i.mask) (s.dispatch i).bus := by
  let requested := s.bus.bus.peek Cell.requests &&& ~~~i.mask
  let t : Machine (Recorded Board) :=
    { cpu := { s.cpu with ime := .off }, bus := Bus.poke s.bus Cell.requests requested }
  have ht : Tracked requested t.bus := by
    refine ⟨(Board.hooks_poke _ _ _).trans hb, ?_⟩
    have hp := Board.poke_of_page_le s.bus.bus requested (show Cell.page ≤ Cell.requests by decide)
    have hl : (t.bus.writes.lookup Cell.requests) = none := by
      change s.bus.writes.lookup Cell.requests = none
      rw [hw]
      rfl
    rw [hl]
    exact (congrArg (fun b : Board => b.memory.get Cell.requests) hp).trans
      (Memory.get_set_self _ _ _)
  have hk := kept_push (busInvariant_tracked requested) ht s.registers.pc
  exact ⟨hk.unhooked, hk.cell⟩

theorem requests_service {s : Machine Board} (hb : s.bus.hooks = []) :
    (s.apply .service).bus.memory.get Cell.requests =
      (((s.writes .service).lookup Cell.requests).map (· ||| 0xe0)).getD s.acknowledged := by
  have hs := recorded_service s
  have hr := service_eq s.recorded
  have hd : s.recorded.dispatched? = s.dispatched? := rfl
  have hbus : s.recorded.roused.bus = ⟨s.bus, []⟩ := by
    unfold roused
    split <;> rfl
  unfold apply writes acknowledged
  rw [hs, hr, hd]
  cases s.dispatched? with
  | none =>
    simp only [Option.elim_none, mapBus, hbus]
    rfl
  | some i =>
    have ht := tracked_dispatch (s := s.recorded.roused) (by rw [hbus]; exact hb) (by rw [hbus]) i
    rw [hbus] at ht
    exact ht.cell

end Recorded

section Lost
variable {s : Machine Board} {i : Interrupt}

/-- A request that a recorded write has removed was missing in what was written. -/
theorem written_of_lost {log : List (UInt16 × UInt8)} {before : UInt8} {n : Nat}
    (hset : before.toNat.testBit n = true)
    (hlost : (((log.lookup Cell.requests).map (· ||| 0xe0)).getD before).toNat.testBit n = false) :
    ∃ v, (Cell.requests, v) ∈ log ∧ v.toNat.testBit n = false := by
  cases hl : log.lookup Cell.requests with
  | none =>
    rw [hl] at hlost
    exact absurd hset (by simpa using hlost)
  | some v =>
    rw [hl] at hlost
    simp only [Option.map_some, Option.getD_some, UInt8.toNat_or, Nat.testBit_or,
      Bool.or_eq_false_iff] at hlost
    obtain ⟨front, rest, rfl, -⟩ := List.lookup_eq_some_iff.1 hl
    exact ⟨v, List.mem_append_right _ List.mem_cons_self, hlost.1⟩

theorem lost_board {e : Board.Event} (hb : s.bus.hooks = [])
    (hd : ∀ n, e = .tick n → s.bus.dma.Bounded) (hset : s.bus.requested i = true)
    (hlost : (s.bus.apply e).requested i = false) :
    ∃ v, e = .write Cell.requests v ∧ v.toNat.testBit i.bit = false := by
  have unchanged {c : Board} (h : c.memory.get Cell.requests = s.bus.memory.get Cell.requests)
      (hc : c.requested i = false) : False := by
    rw [Board.requested_of_get i h, hset] at hc
    cases hc
  cases e with
  | write address v =>
    by_cases ha : address = Cell.requests
    · subst ha
      refine ⟨v, rfl, ?_⟩
      have hg : (s.bus.write Cell.requests v).memory.get Cell.requests = v ||| 0xe0 := by
        rw [Board.write_requests]
        exact Memory.get_set_self _ _ _
      rw [Board.apply, Board.requested_eq, hg, UInt8.toNat_or, Nat.testBit_or,
        Bool.or_eq_false_iff] at hlost
      exact hlost.1
    · exact (unchanged (Board.get_write_of_ne hb address v (by decide) (by decide) ha) hlost).elim
  | timer n =>
    have hk := Board.requested_tickTimer n hset
    rw [Board.apply, hk] at hlost
    cases hlost
  | tick n =>
    have hs := Board.tick_sameOutside (hd n rfl) n
    exact (unchanged (hs.cells Cell.requests (by decide)) hlost).elim
  | request sources =>
    rw [Board.apply, Board.requested_request, hset] at hlost
    cases hlost
  | button k pressed =>
    have hm : (s.bus.apply (.button k pressed)).memory = s.bus.memory := rfl
    exact (unchanged (congrArg (·.get Cell.requests) hm) hlost).elim

/-- A request is lost in a dispatch of its source or to a write without its bit. -/
theorem lost_apply {e : Event} (hb : s.bus.hooks = [])
    (hd : ∀ n, e = .board (.tick n) → s.bus.dma.Bounded) (hset : s.bus.requested i = true)
    (hlost : (s.apply e).bus.requested i = false) :
    (e = .service ∧ s.dispatched? = some i) ∨
      ∃ v, (Cell.requests, v) ∈ s.writes e ∧ v.toNat.testBit i.bit = false := by
  cases e with
  | step =>
    have hl : ((s.apply .step).bus.memory.get Cell.requests).toNat.testBit i.bit = false := hlost
    rw [requests_step hb] at hl
    exact .inr (written_of_lost hset hl)
  | service =>
    by_cases hi : s.dispatched? = some i
    · exact .inl ⟨rfl, hi⟩
    · refine .inr ?_
      have hkept : s.acknowledged.toNat.testBit i.bit = true := by
        unfold acknowledged
        cases hj : s.dispatched? with
        | none => exact hset
        | some j =>
          have hne : i.bit ≠ j.bit := by
            intro h
            rw [Interrupt.bit_injective h] at hi
            exact hi hj
          have hs : (s.bus.peek Cell.requests).toNat.testBit i.bit = true := hset
          rw [Option.elim_some, Interrupt.testBit_acknowledged, hs]
          simpa using hne
      have hl : ((s.apply .service).bus.memory.get Cell.requests).toNat.testBit i.bit = false :=
        hlost
      rw [requests_service hb] at hl
      exact written_of_lost hkept hl
  | board e =>
    obtain ⟨v, rfl, hv⟩ := lost_board hb (fun n hn => hd n (congrArg Event.board hn)) hset hlost
    exact .inr ⟨v, List.mem_cons_self, hv⟩

end Lost

section Run
variable {s : Machine Board}

theorem busInvariant_hooks : BusInvariant fun b : Board => b.hooks = [] where
  read h _ := h
  write h address v := Board.hooks_write h address v
  fetched h _ _ := h
  note h _ := h

theorem busInvariant_bounded : BusInvariant fun b : Board => b.hooks = [] ∧ b.dma.Bounded where
  read h _ := h
  write h address v := ⟨Board.hooks_write h.1 address v, Board.bounded_write h.1 address v h.2⟩
  fetched h _ _ := h
  note h _ := h

/-- What no event can break on the bus, no run can. -/
theorem kept_apply {p : Board → Prop} (h : BusInvariant p)
    (hpoke : ∀ {b}, p b → ∀ v, p (b.poke Cell.requests v))
    (hevent : ∀ {b}, p b → ∀ e, p (b.apply e)) (hs : p s.bus) (e : Event) : p (s.apply e).bus := by
  cases e with
  | step =>
    unfold apply
    cases he : s.step with
    | error fault => exact hs
    | ok r => exact kept_step h hs he
  | service => exact kept_service h hs hpoke
  | board e => exact hevent hs e

theorem kept_run {p : Board → Prop} (h : BusInvariant p)
    (hpoke : ∀ {b}, p b → ∀ v, p (b.poke Cell.requests v))
    (hevent : ∀ {b}, p b → ∀ e, p (b.apply e)) (hs : p s.bus) (events : List Event) :
    p (s.run events).bus := by
  induction events generalizing s with
  | nil => exact hs
  | cons e events ih => exact ih (kept_apply h hpoke hevent hs e)

theorem hooks_run (hb : s.bus.hooks = []) (events : List Event) : (s.run events).bus.hooks = [] :=
  kept_run busInvariant_hooks (fun h _ => (Board.hooks_poke _ _ _).trans h)
    (fun h e => Board.hooks_apply h e) hb events

theorem bounded_run (hb : s.bus.hooks = []) (hd : s.bus.dma.Bounded) (events : List Event) :
    (s.run events).bus.dma.Bounded := by
  refine (kept_run busInvariant_bounded ?_ ?_ ⟨hb, hd⟩ events).2
  · intro b h v
    refine ⟨(Board.hooks_poke _ _ _).trans h.1, ?_⟩
    rw [Board.dma_poke]
    exact h.2
  · intro b h e
    exact ⟨Board.hooks_apply h.1 e, Board.bounded_apply h.1 h.2 e⟩

end Run

end Machine
end DotMatrix
