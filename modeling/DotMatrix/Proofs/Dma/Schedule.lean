import DotMatrix.Proofs.Board.Clock
import DotMatrix.Proofs.Grid.Arithmetic

/-! # When a transfer copies what

A transfer is as far on as cycles have passed since its start, whatever else happens on the board.
One byte is copied in every fourth of its cycles, from a source that lies below the echo of work
RAM.
-/
namespace DotMatrix

namespace Dma

/-- Where the source of a transfer begins: at the page or, from `E0` on, 32 pages below it. -/
def pageStart (page : UInt8) : Nat := page.toNat * 0x100 - if 0xe0 ≤ page then 0x2000 else 0

def sourceCell (page : UInt8) (i : Nat) : UInt16 := .ofNat (pageStart page + i)

def targetCell (i : Nat) : UInt16 := .ofNat (0xfe00 + i)

theorem pageStart_le (page : UInt8) : pageStart page ≤ 0xdf00 := by
  revert page
  apply Grid.forall_byte
  decide +kernel

theorem pageSource_eq (page : UInt8) : pageSource page = .ofNat (pageStart page) := by
  revert page
  apply Grid.forall_byte
  decide +kernel

theorem pageSource_add (page : UInt8) (i : Nat) :
    pageSource page + .ofNat i = sourceCell page i := by
  rw [pageSource_eq, sourceCell, UInt16.ofNat_add]

theorem targetCell_eq (i : Nat) : objectMemory + .ofNat i = targetCell i := by
  rw [targetCell, UInt16.ofNat_add]
  rfl

theorem toNat_targetCell {i : Nat} (h : i < 0xa0) : (targetCell i).toNat = 0xfe00 + i := by
  rw [targetCell, UInt16.toNat_ofNat']
  omega

theorem toNat_sourceCell_lt (page : UInt8) {i : Nat} (h : i < 0xa0) :
    (sourceCell page i).toNat < 0xe000 := by
  have hp := pageStart_le page
  rw [sourceCell, UInt16.toNat_ofNat']
  omega

theorem targetCell_inj {i j : Nat} (hi : i < 0xa0) (hj : j < 0xa0) :
    targetCell i = targetCell j ↔ i = j := by
  rw [← UInt16.toNat_inj, toNat_targetCell hi, toNat_targetCell hj]
  omega

theorem transfer?_running (page : UInt8) (k : Nat) :
    transfer? ⟨pageSource page, k, true⟩ =
      if k % 4 = 0 then some (sourceCell page (k / 4), targetCell (k / 4)) else none := by
  simp only [transfer?, true_and, pageSource_add, targetCell_eq]

end Dma

namespace Board

def Event.cycles : Event → Nat
  | .tick n => n
  | .write _ _ | .timer _ | .request _ | .button _ _ => 0

def elapsed : List Event → Nat
  | [] => 0
  | e :: events => e.cycles + elapsed events

@[simp]
theorem elapsed_nil : elapsed [] = 0 := rfl

@[simp]
theorem elapsed_cons (e : Event) (events : List Event) :
    elapsed (e :: events) = e.cycles + elapsed events := rfl

@[simp]
theorem elapsed_append (before after : List Event) :
    elapsed (before ++ after) = elapsed before + elapsed after := by
  induction before with
  | nil => exact (Nat.zero_add _).symm
  | cons e before ih => rw [List.cons_append, elapsed_cons, elapsed_cons, ih, Nat.add_assoc]

theorem run_append (b : Board) (before after : List Event) :
    b.run (before ++ after) = (b.run before).run after := List.foldl_append

theorem run_cons (b : Board) (e : Event) (events : List Event) :
    b.run (e :: events) = (b.apply e).run events := rfl

/-- Every cycle of a run is one of a tick: some of its cycles come before and some after. -/
theorem exists_cycle {k : Nat} {events : List Event} (h : k < elapsed events) :
    ∃ before m n after, events = before ++ .tick (m + 1 + n) :: after ∧ elapsed before + m = k := by
  induction events generalizing k with
  | nil => exact absurd h (Nat.not_lt_zero k)
  | cons e events ih =>
    rw [elapsed_cons] at h
    rcases Nat.lt_or_ge k e.cycles with hk | hk
    · cases e with
      | tick c =>
        have hc : c = k + 1 + (c - k - 1) := by
          have : k < c := hk
          omega
        refine ⟨[], k, c - k - 1, events, ?_, Nat.zero_add k⟩
        rw [← hc]
        rfl
      | _ => exact absurd hk (Nat.not_lt_zero k)
    · obtain ⟨before, m, n, after, rfl, hm⟩ := ih (k := k - e.cycles) (by omega)
      refine ⟨e :: before, m, n, after, rfl, ?_⟩
      rw [elapsed_cons]
      omega

/-- The board around a cycle within a run. -/
theorem run_cycle (b : Board) (before : List Event) (m n : Nat) (after : List Event) :
    b.run (before ++ .tick (m + 1 + n) :: after) =
      ((((b.run before).tick m).tick 1).tick n).run after := by
  rw [run_append, run_cons, apply, tick_add, tick_add]

theorem memory_transferCycle (b : Board) :
    b.transferCycle.memory =
      b.dma.transfer?.elim b.memory fun cells => b.memory.set cells.2 (b.peek cells.1) := by
  unfold transferCycle
  split
  all_goals
    rename_i ht
    rw [ht]
    rfl

theorem memory_tick_one (b : Board) : (b.tick 1).memory = b.transferCycle.memory := by
  rw [tick_eq, transferCycles_succ]
  rfl

/-- A transfer from `page` is `k` cycles on, or has come to its end. -/
structure Transferring (page : UInt8) (k : Nat) (b : Board) : Prop where
  unhooked : b.hooks = []
  running : k < Dma.duration → b.dma = ⟨Dma.pageSource page, k, true⟩
  finished : Dma.duration ≤ k → b.dma.active = false

namespace Transferring
variable {page : UInt8} {k : Nat} {b : Board}

theorem bounded (h : Transferring page k b) : b.dma.Bounded := by
  intro ha
  rcases Nat.lt_or_ge k Dma.duration with hk | hk
  · rw [h.running hk]
    exact hk
  · rw [h.finished hk] at ha
    cases ha

theorem start (hb : b.hooks = []) (hi : b.dma.active = false) (page : UInt8) :
    Transferring page 0 (b.write Cell.dma page) where
  unhooked := hooks_write hb Cell.dma page
  running _ := by
    rw [dma_write hb, if_pos rfl, Dma.start, hi]
    rfl
  finished h := absurd h (by decide)

theorem cycle (h : Transferring page k b) : Transferring page (k + 1) b.transferCycle where
  unhooked := hooks_transferCycle.trans h.unhooked
  -- Below the end the transfer was running a cycle earlier too; the last cycle switches it off.
  running hk := by
    rw [dma_transferCycle, h.running (Nat.lt_of_succ_lt hk), Dma.advance, if_pos rfl,
      decide_eq_true hk]
  finished hk := by
    rw [dma_transferCycle]
    rcases Nat.lt_or_ge k Dma.duration with hlt | hge
    · rw [h.running hlt, Dma.advance, if_pos rfl]
      exact decide_eq_false (Nat.not_lt.2 hk)
    · have hi := h.finished hge
      rw [Dma.advance, if_neg (by simp [hi]), hi]

theorem cycles (n : Nat) {k : Nat} {b : Board} (h : Transferring page k b) :
    Transferring page (k + n) (transferCycles n b) := by
  induction n generalizing k b with
  | zero => exact h
  | succ n ih =>
    rw [transferCycles_succ, ← Nat.add_assoc, Nat.add_right_comm]
    exact ih h.cycle

theorem tick (h : Transferring page k b) (n : Nat) : Transferring page (k + n) (b.tick n) :=
  ⟨(h.cycles n).unhooked, (h.cycles n).running, (h.cycles n).finished⟩

theorem write (h : Transferring page k b) {address : UInt16} (v : UInt8)
    (hs : address = Cell.dma → k < Dma.duration) : Transferring page k (b.write address v) := by
  have hd : (b.write address v).dma = b.dma := by
    rw [dma_write h.unhooked]
    split
    · rw [h.running (hs ‹_›)]
      rfl
    · rfl
  exact ⟨hooks_write h.unhooked address v, hd ▸ h.running, hd ▸ h.finished⟩

/-- A transfer is on by the cycles that pass, unless another one is started after its end. -/
theorem apply (h : Transferring page k b) {e : Event}
    (hs : ∀ v, e = .write Cell.dma v → k < Dma.duration) :
    Transferring page (k + e.cycles) (b.apply e) := by
  cases e with
  | write address v =>
    apply h.write
    rintro rfl
    exact hs v rfl
  | tick n => exact h.tick n
  | timer | request | button => exact ⟨h.unhooked, h.running, h.finished⟩

theorem run {events : List Event} {k : Nat} {b : Board} (h : Transferring page k b)
    (hs : ∀ before v after, events = before ++ .write Cell.dma v :: after →
      k + elapsed before < Dma.duration) :
    Transferring page (k + elapsed events) (b.run events) := by
  induction events generalizing k b with
  | nil => exact h
  | cons e events ih =>
    have hfirst : ∀ v, e = .write Cell.dma v → k < Dma.duration := by
      rintro v rfl
      exact hs [] v events rfl
    rw [elapsed_cons, ← Nat.add_assoc]
    refine ih (h.apply hfirst) ?_
    rintro before v after rfl
    have := hs (e :: before) v after rfl
    rw [elapsed_cons] at this
    omega

/-- Before its end a transfer cannot be restarted. -/
theorem run_of_lt {events : List Event} (h : Transferring page 0 b)
    (hk : elapsed events < Dma.duration) :
    Transferring page (elapsed events) (b.run events) := by
  have hrun : Transferring page (0 + elapsed events) (b.run events) := by
    apply h.run
    rintro before v after rfl
    rw [elapsed_append] at hk
    omega
  rw [Nat.zero_add] at hrun
  exact hrun

/-- What one cycle copies. -/
theorem get_cycle (h : Transferring page k b) (hk : k < Dma.duration) {i : Nat} (hi : i < 0xa0) :
    b.transferCycle.memory.get (Dma.targetCell i) =
      if k = 4 * i then b.peek (Dma.sourceCell page i) else b.memory.get (Dma.targetCell i) := by
  have hj : k / 4 < 0xa0 := by
    simp only [Dma.duration, Dma.length] at hk
    omega
  have ht : b.dma.transfer? =
      if k % 4 = 0 then some (Dma.sourceCell page (k / 4), Dma.targetCell (k / 4)) else none := by
    rw [h.running hk]
    exact Dma.transfer?_running page k
  -- Byte `k / 4` is due in every fourth cycle, and the cells of two bytes differ.
  by_cases hfour : k % 4 = 0
  · rw [if_pos hfour] at ht
    rw [memory_transferCycle, ht, Option.elim_some]
    by_cases hki : k = 4 * i
    · have hdiv : k / 4 = i := by omega
      rw [if_pos hki, hdiv]
      exact Memory.get_set_self _ _ _
    · rw [if_neg hki]
      apply Memory.get_set_ne
      rw [ne_eq, Dma.targetCell_inj hj hi]
      omega
  · rw [if_neg hfour] at ht
    rw [memory_transferCycle, ht, Option.elim_none, if_neg (by omega)]

end Transferring

end Board
end DotMatrix
