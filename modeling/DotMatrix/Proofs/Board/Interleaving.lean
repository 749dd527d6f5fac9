import DotMatrix.Proofs.Dma.Transfer

/-! # The two clocks of a board

The timer and the rest of a board are told of the cycles separately. The transfer reads through the
cartridge and below the echo of work RAM and writes object memory, and the timer keeps to its own
cells, so neither notices when the other one is told, nor in how many portions.
-/
namespace DotMatrix

/-- What a transfer can be: idle at first, started at some page and cycles on. -/
inductive Dma.Arising : Dma → Prop where
  | idle : Arising .idle
  | start {d : Dma} (before : Arising d) (page : UInt8) : Arising (d.start page)
  | advance {d : Dma} (before : Arising d) : Arising d.advance

namespace Dma
variable {d : Dma}

/-- A transfer that runs does so from a page and has bytes left to copy. -/
theorem Arising.running (h : d.Arising) (ha : d.active = true) :
    ∃ page, d = ⟨pageSource page, d.elapsed, true⟩ ∧ d.elapsed < duration := by
  induction h with
  | idle => cases ha
  | @start d before page ih =>
    unfold Dma.start at ha ⊢
    split
    · rename_i hd
      exact ih hd
    · exact ⟨page, rfl, Nat.zero_lt_succ _⟩
  | @advance d before ih =>
    unfold Dma.advance at ha ⊢
    split at ha
    · rename_i hd
      obtain ⟨page, hpage, -⟩ := ih hd
      rw [if_pos hd]
      refine ⟨page, ?_, of_decide_eq_true ha⟩
      rw [hpage] at ha ⊢
      exact congrArg (Dma.mk _ _) ha
    · rename_i hd
      exact absurd ha hd

/-- Whatever is copied comes from below the echo of work RAM and goes to object memory. -/
theorem Arising.bounds (h : d.Arising) {source target : UInt16}
    (ht : d.transfer? = some (source, target)) :
    source.toNat < 0xe000 ∧ Region.of target = .objects := by
  have hactive : d.active = true := by
    unfold transfer? at ht
    split at ht
    · exact (‹_ ∧ _›).1
    · cases ht
  obtain ⟨page, hd, hlt⟩ := h.running hactive
  refine ⟨?_, Board.target_objects hlt ht⟩
  rw [hd, transfer?_running] at ht
  split at ht
  · cases ht
    apply toNat_sourceCell_lt
    simp only [duration, length] at hlt
    omega
  · cases ht

end Dma

namespace Memory
variable (m : Memory) {address : UInt16} (v : UInt8)

theorem timerCells_set (h : address < Cell.page) : (m.set address v).timerCells = m.timerCells := by
  have hne {cell : UInt16} (hc : Cell.page ≤ cell) : (m.set address v).get cell = m.get cell := by
    apply get_set_ne
    rintro rfl
    exact UInt16.not_lt.2 hc h
  simp only [timerCells, hne (show Cell.page ≤ Cell.div by decide),
    hne (show Cell.page ≤ Cell.tima by decide), hne (show Cell.page ≤ Cell.tma by decide),
    hne (show Cell.page ≤ Cell.tac by decide), hne (show Cell.page ≤ Cell.requests by decide)]

theorem set_setTimerCells (c : TimerCells) (h : address < Cell.page) :
    (m.setTimerCells c).set address v = (m.set address v).setTimerCells c := by
  have hne {cell : UInt16} (hc : Cell.page ≤ cell) : address ≠ cell := by
    rintro rfl
    exact UInt16.not_lt.2 hc h
  apply ext_get
  intro cell
  rw [get_set, get_setTimerCells, get_setTimerCells, get_set]
  by_cases ha : address = cell
  · subst cell
    simp only [hne (show Cell.page ≤ Cell.requests by decide),
      hne (show Cell.page ≤ Cell.tac by decide), hne (show Cell.page ≤ Cell.tma by decide),
      hne (show Cell.page ≤ Cell.tima by decide), hne (show Cell.page ≤ Cell.div by decide),
      if_false]
  · rw [if_neg ha, if_neg ha]

end Memory

namespace Board
variable {b : Board} (f : Timer → TimerCells → Timer × TimerCells)

section Arising

theorem arising_transferCycles (n : Nat) {b : Board} (h : b.dma.Arising) :
    (transferCycles n b).dma.Arising := by
  induction n generalizing b with
  | zero => exact h
  | succ n ih =>
    rw [transferCycles_succ]
    apply ih
    rw [dma_transferCycle]
    exact h.advance

theorem arising_apply (hb : b.hooks = []) (h : b.dma.Arising) (e : Event) :
    (b.apply e).dma.Arising := by
  cases e with
  | write address v =>
    change (b.write address v).dma.Arising
    rw [dma_write hb]
    split
    · exact h.start v
    · exact h
  | tick n => exact arising_transferCycles n h
  | timer | request | button => exact h

theorem arising_run (events : List Event) {b : Board} (hb : b.hooks = []) (h : b.dma.Arising) :
    (b.run events).dma.Arising := by
  induction events generalizing b with
  | nil => exact h
  | cons e events ih => exact ih (hooks_apply hb e) (arising_apply hb h e)

theorem dma_start (bootImage : Bytes) (controller : Controller) (skipped : Bool) :
    (start bootImage controller skipped).dma = .idle := by
  cases skipped <;> rfl

end Arising

section Timer

/-- The timer reaches nothing that is read below the echo of work RAM. -/
theorem peek_driveTimer {address : UInt16} (h : address.toNat < 0xe000) :
    (b.driveTimer f).peek address = b.peek address := by
  have hne {cell : UInt16} (hc : Cell.page ≤ cell) : address ≠ cell := by
    rintro rfl
    have hn : 0xff00 ≤ address.toNat := UInt16.le_iff_toNat_le.1 hc
    omega
  refine peek_of_lt_echo h (get_driveTimer b f ?_ (hne (by decide))) fun _ => ⟨rfl, rfl, rfl⟩
  exact fun hm => hne (page_le_of_timerOwned hm) rfl

theorem transferCycle_driveTimer (h : b.dma.Arising) :
    (b.driveTimer f).transferCycle = b.transferCycle.driveTimer f := by
  have hd : (b.driveTimer f).dma = b.dma := rfl
  unfold transferCycle
  rw [hd]
  cases ht : b.dma.transfer? with
  | none => rfl
  | some cells =>
    obtain ⟨source, target⟩ := cells
    obtain ⟨hsource, htarget⟩ := h.bounds ht
    have hpage : target < Cell.page := by
      have hbounds := Region.of_eq_objects_iff.1 htarget
      rw [UInt16.lt_iff_toNat_lt]
      exact Nat.lt_trans hbounds.2 (by decide)
    have hcells := Memory.timerCells_set b.memory (b.peek source) hpage
    have hmemory := Memory.set_setTimerCells b.memory (b.peek source)
      (f b.timer b.memory.timerCells).2 hpage
    dsimp only
    rw [peek_driveTimer f hsource]
    simp only [driveTimer, hcells, hmemory]

theorem transferCycles_driveTimer (n : Nat) {b : Board} (h : b.dma.Arising) :
    transferCycles n (b.driveTimer f) = (transferCycles n b).driveTimer f := by
  induction n generalizing b with
  | zero => rfl
  | succ n ih =>
    have hnext : b.transferCycle.dma.Arising := by
      rw [dma_transferCycle]
      exact h.advance
    rw [transferCycles_succ, transferCycles_succ, transferCycle_driveTimer f h, ih hnext]

/-- Whatever is done to the timer can be done before time passes for the rest, or after. -/
theorem tick_driveTimer (h : b.dma.Arising) (n : Nat) :
    (b.driveTimer f).tick n = (b.tick n).driveTimer f := by
  rw [tick_eq, tick_eq, transferCycles_driveTimer f n h]
  rfl

theorem tickTimer_add (b : Board) (m n : Nat) :
    b.tickTimer (m + n) = (b.tickTimer m).tickTimer n := by
  induction m generalizing b with
  | zero => rw [Nat.zero_add, tickTimer_zero]
  | succ m ih => rw [Nat.succ_add, tickTimer_succ, ih, ← tickTimer_succ]

end Timer

section Schedule

def Event.passes : Event → Bool
  | .timer _ | .tick _ => true
  | _ => false

def Event.timerCycles : Event → Nat
  | .timer n => n
  | .write _ _ | .tick _ | .request _ | .button _ _ => 0

def timerElapsed : List Event → Nat
  | [] => 0
  | e :: events => e.timerCycles + timerElapsed events

/-- What has passed on either clock adds up, in whatever order it is told. -/
theorem run_of_passes (h : b.dma.Arising) {events : List Event}
    (hp : ∀ e ∈ events, e.passes = true) (m n : Nat) :
    ((b.tickTimer m).tick n).run events =
      (b.tickTimer (m + timerElapsed events)).tick (n + elapsed events) := by
  induction events generalizing m n with
  | nil => rfl
  | cons e events ih =>
    have hrest : ∀ e ∈ events, e.passes = true := fun e he => hp e (List.mem_cons_of_mem _ he)
    cases e with
    | timer k =>
      have hswap : ((b.tickTimer m).tick n).tickTimer k = (b.tickTimer (m + k)).tick n := by
        rw [tickTimer_add]
        exact (tick_driveTimer (b := b.tickTimer m) _ h n).symm
      rw [run_cons, apply, hswap, ih hrest, elapsed_cons, timerElapsed, Event.cycles,
        Event.timerCycles, Nat.zero_add, Nat.add_assoc]
    | tick k =>
      rw [run_cons, apply, ← tick_add, ih hrest, elapsed_cons, timerElapsed, Event.cycles,
        Event.timerCycles, Nat.zero_add, Nat.add_assoc]
    | write | request | button => cases hp _ List.mem_cons_self

end Schedule

/-- On a board with any cartridge cycles can be passed at once or in portions, for the timer as for
the rest, and with any transfer that can arise either can be told first: a schedule of both comes to
what all its timer cycles and then all its other cycles come to. No run from power-on leaves these
boards. -/
theorem clocks_commute (b : Board) (m n : Nat) :
    b.tick (m + n) = (b.tick m).tick n ∧
    b.tickTimer (m + n) = (b.tickTimer m).tickTimer n ∧
    (b.dma.Arising →
      (b.tick m).tickTimer n = (b.tickTimer n).tick m ∧
      ∀ events : List Event, (∀ e ∈ events, e.passes = true) →
        ((b.tickTimer m).tick n).run events =
          (b.tickTimer (m + timerElapsed events)).tick (n + elapsed events)) ∧
    (∀ bootImage controller skipped events,
      ((start bootImage controller skipped).run events).dma.Arising) := by
  refine ⟨tick_add b m n, tickTimer_add b m n, ?_, ?_⟩
  · intro h
    refine ⟨(tick_driveTimer _ h m).symm, ?_⟩
    intro events hp
    exact run_of_passes h hp m n
  · intro bootImage controller skipped events
    have hb : (start bootImage controller skipped).hooks = [] := by
      cases skipped <;> rfl
    apply arising_run events hb
    rw [dma_start]
    exact .idle

/-- A transfer from the RAM window of a cartridge whose clock is selected there. -/
theorem clocks_commute_from_clock :
    let clock : Mbc3 :=
      { Mbc3.new #[] 1 true true with unlocked := true, selector := 0x08 }
    let b := (Board.new #[] (.mbc3 clock)).write Cell.dma 0xa0
    b.dma = ⟨0xa000, 0, true⟩ ∧ b.dma.Arising ∧
      (b.tick 640).tickTimer 70224 = (b.tickTimer 70224).tick 640 ∧
      b.tick (1 + 4194304) = (b.tick 1).tick 4194304 := by
  intro clock b
  have hd : b.dma = Dma.idle.start 0xa0 := dma_write rfl Cell.dma 0xa0
  have h : b.dma.Arising := hd ▸ Dma.Arising.idle.start 0xa0
  obtain ⟨-, -, hswap, -⟩ := clocks_commute b 640 70224
  obtain ⟨hsplit, -⟩ := clocks_commute b 1 4194304
  exact ⟨hd, h, (hswap h).1, hsplit⟩

end Board
end DotMatrix
