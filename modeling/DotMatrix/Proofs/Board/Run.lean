import DotMatrix.Proofs.Board.Memory
import DotMatrix.Proofs.Timer.Edge

/-! # Runs of a board

A run is any sequence of checked writes, elapsed cycles, interrupt requests and button moves on a
board without hooks. Its timer stays in step with the cells that it drives, and most events do not
reach it at all.
-/
namespace DotMatrix

def Dma.Bounded (d : Dma) : Prop := d.active = true → d.elapsed < Dma.duration

namespace Board

inductive Event where
  | write (address : UInt16) (v : UInt8)
  | timer (cycles : Nat)
  | tick (cycles : Nat)
  | request (sources : UInt8)
  | button (button : Button) (pressed : Bool)
  deriving DecidableEq, Repr

def apply (b : Board) : Event → Board
  | .write address v => b.write address v
  | .timer cycles => b.tickTimer cycles
  | .tick cycles => b.tick cycles
  | .request sources => b.request sources
  | .button button pressed => (b.updateButton button pressed).2

def run (b : Board) (events : List Event) : Board := events.foldl apply b

def start (bootImage : Bytes) (controller : Controller) (skipped : Bool) : Board :=
  if skipped then (new bootImage controller).skipBoot else new bootImage controller

/-- The counter bit that clocks the timer counter, as it is now. -/
def signal (b : Board) : Bool := Timer.gatedBit b.timer.counter (b.memory.get Cell.tac)

/-- The timer is in step with its cells, and a transfer has not run past its end. -/
structure Synced (b : Board) : Prop where
  unhooked : b.hooks = []
  inStep : b.timer.InStep b.memory.timerCells
  transferring : b.dma.Bounded

def timerOwned : List UInt16 := [Cell.div, Cell.tima, Cell.tma, Cell.tac]

structure TimerKept (b c : Board) : Prop where
  timer : c.timer = b.timer
  cells : ∀ cell ∈ timerOwned, c.memory.get cell = b.memory.get cell

section Kept

theorem TimerKept.refl (b : Board) : TimerKept b b := ⟨rfl, fun _ _ => rfl⟩

theorem TimerKept.trans {b c d : Board} (hbc : TimerKept b c) (hcd : TimerKept c d) :
    TimerKept b d := by
  refine ⟨hcd.timer.trans hbc.timer, ?_⟩
  intro cell hc
  exact (hcd.cells cell hc).trans (hbc.cells cell hc)

theorem page_le_of_timerOwned {cell : UInt16} (h : cell ∈ timerOwned) : Cell.page ≤ cell := by
  simp only [timerOwned, List.mem_cons, List.not_mem_nil, or_false] at h
  rcases h with rfl | rfl | rfl | rfl
  all_goals decide

/-- A cell that the timer does not own can change without the timer noticing. -/
theorem TimerKept.of_set {b c : Board} {address : UInt16} {v : UInt8} (ht : c.timer = b.timer)
    (hm : c.memory = b.memory.set address v) (ha : address ∉ timerOwned) : TimerKept b c := by
  refine ⟨ht, ?_⟩
  intro cell hc
  rw [hm]
  apply Memory.get_set_ne
  rintro rfl
  exact ha hc

theorem Synced.of_kept {b c : Board} (h : b.Synced) (hk : TimerKept b c) (hh : c.hooks = b.hooks)
    (hd : c.dma.Bounded) : c.Synced where
  unhooked := hh.trans h.unhooked
  inStep := by
    have htac : c.memory.get Cell.tac = b.memory.get Cell.tac := hk.cells _ (by decide)
    have hdiv : c.memory.get Cell.div = b.memory.get Cell.div := hk.cells _ (by decide)
    rw [hk.timer]
    exact ⟨h.inStep.latch.trans (congrArg _ htac.symm), hdiv.trans h.inStep.div⟩
  transferring := hd

end Kept

section Transfer
variable {b : Board}

theorem target_lt_page {d : Dma} {source target : UInt16} (h : d.elapsed < Dma.duration)
    (ht : d.transfer? = some (source, target)) : target < Cell.page := by
  unfold Dma.transfer? at ht
  split at ht
  · cases ht
    have hi : d.elapsed / 4 < 0xa0 := by
      simp only [Dma.duration, Dma.length] at h
      omega
    simp only [UInt16.lt_iff_toNat_lt, UInt16.toNat_add, UInt16.toNat_ofNat', Dma.objectMemory,
      Cell.page, UInt16.reduceToNat]
    omega
  · cases ht

theorem bounded_advance {d : Dma} (h : d.Bounded) : d.advance.Bounded := by
  unfold Dma.advance
  split
  · exact of_decide_eq_true
  · exact h

theorem transferCycle_kept (h : b.dma.Bounded) : TimerKept b b.transferCycle := by
  unfold transferCycle
  split
  · rename_i source target ht
    have hactive : b.dma.active = true := by
      unfold Dma.transfer? at ht
      split at ht
      · exact (‹_ ∧ _›).1
      · cases ht
    refine TimerKept.of_set rfl rfl ?_
    intro hm
    exact absurd (target_lt_page (h hactive) ht) (UInt16.not_lt.2 (page_le_of_timerOwned hm))
  · exact ⟨rfl, fun _ _ => rfl⟩

theorem dma_transferCycle : b.transferCycle.dma = b.dma.advance := by
  unfold transferCycle
  split <;> rfl

theorem hooks_transferCycle : b.transferCycle.hooks = b.hooks := by
  unfold transferCycle
  split <;> rfl

theorem Synced.transferCycle (h : b.Synced) : b.transferCycle.Synced := by
  refine h.of_kept (transferCycle_kept h.transferring) hooks_transferCycle ?_
  rw [dma_transferCycle]
  exact bounded_advance h.transferring

theorem Synced.transferCycles (n : Nat) {b : Board} (h : b.Synced) :
    (transferCycles n b).Synced ∧ TimerKept b (Board.transferCycles n b) := by
  induction n generalizing b with
  | zero => exact ⟨h, TimerKept.refl b⟩
  | succ n ih =>
    unfold Board.transferCycles
    split
    · obtain ⟨hs, hk⟩ := ih h.transferCycle
      exact ⟨hs, (transferCycle_kept h.transferring).trans hk⟩
    · exact ⟨h, TimerKept.refl b⟩

theorem Synced.tick (h : b.Synced) (n : Nat) : (b.tick n).Synced ∧ TimerKept b (b.tick n) := by
  obtain ⟨hs, hk⟩ := h.transferCycles n
  have hc : TimerKept (Board.transferCycles n b) (b.tick n) := ⟨rfl, fun _ _ => rfl⟩
  exact ⟨hs.of_kept hc rfl hs.transferring, hk.trans hc⟩

end Transfer

section Write

/-- A checked write as the watch list sees it, before it has any effect. -/
def noted (b : Board) (address : UInt16) (v : UInt8) : Board :=
  { b with watch := b.watch.noteWrite address v }

variable {b : Board} {address : UInt16} (v : UInt8)

@[simp]
theorem timer_noted : (b.noted address v).timer = b.timer := rfl

@[simp]
theorem memory_noted : (b.noted address v).memory = b.memory := rfl

theorem write_eq :
    b.write address v =
      match (b.noted address v).stored? address v with
      | some stored => ((b.noted address v).trigger address v).poke address stored
      | none => (b.noted address v).trigger address v := rfl

theorem write_of_lt_page (ha : address < Cell.page) :
    b.write address v = (b.noted address v).poke address v := by
  unfold write stored? trigger noted
  simp only [if_pos ha]

theorem write_stored {stored : UInt8} (ha : Cell.page ≤ address)
    (hs : (b.noted address v).stored? address v = some stored) :
    b.write address v =
      { (b.noted address v).trigger address v with
        memory := ((b.noted address v).trigger address v).memory.set address stored } := by
  rw [write_eq, hs]
  exact poke_of_page_le _ _ ha

theorem write_dropped (hs : (b.noted address v).stored? address v = none) :
    b.write address v = (b.noted address v).trigger address v := by
  rw [write_eq, hs]

theorem write_joypad :
    b.write Cell.joypad v =
      { b.noted Cell.joypad v with memory := b.memory.set Cell.joypad (Joypad.drive v) } :=
  write_stored v (by decide) rfl

theorem write_requests :
    b.write Cell.requests v =
      { b.noted Cell.requests v with memory := b.memory.set Cell.requests (v ||| 0xe0) } :=
  write_stored v (by decide) rfl

theorem write_dma :
    b.write Cell.dma v =
      { b.noted Cell.dma v with
        memory := b.memory.set Cell.dma v
        dma := b.dma.start v } :=
  write_stored v (by decide) rfl

theorem write_boot :
    b.write Cell.boot v =
      { b.noted Cell.boot v with
        memory := b.memory.set Cell.boot 0xff
        bootMapped := b.bootMapped && v == 0 } :=
  write_stored v (by decide) rfl

theorem write_unwired (hb : b.hooks = []) (ha : Cell.page ≤ address) (hw : address ∉ Cell.wired) :
    b.write address v = { b.noted address v with memory := b.memory.set address v } := by
  have hp : ¬ address < Cell.page := UInt16.not_lt.2 ha
  have hc : Cell.wired.contains address = false := by simpa using hw
  simp only [Cell.wired, List.mem_cons, not_or] at hw
  have hh : (b.noted address v).hooks = [] := hb
  have hs : (b.noted address v).stored? address v = some v := by
    unfold stored?
    simp only [if_neg hp, hw, if_false, hh, List.lookup_nil]
  have ht : (b.noted address v).trigger address v = b.noted address v := by
    unfold trigger
    simp only [if_neg hp, hw, hc, if_false, hh, List.lookup_nil, Bool.false_eq_true]
  rw [write_stored v ha hs, ht]
  rfl

/-- Above, a write to a cell that the timer does not own stores something there, if anything, and
may start a transfer. -/
theorem write_of_page_le (hb : b.hooks = []) (ha : Cell.page ≤ address)
    (ho : address ∉ timerOwned) :
    ∃ stored, (b.write address v).memory = b.memory.set address stored ∧
      (b.write address v).timer = b.timer ∧ (b.write address v).hooks = b.hooks ∧
      (b.write address v).dma = if address = Cell.dma then b.dma.start v else b.dma := by
  have hp : ¬ address < Cell.page := UInt16.not_lt.2 ha
  obtain ⟨hdiv, htima, htma, htac⟩ :
      address ≠ Cell.div ∧ address ≠ Cell.tima ∧ address ≠ Cell.tma ∧ address ≠ Cell.tac := by
    simpa [timerOwned] using ho
  by_cases hj : address = Cell.joypad
  · subst hj
    rw [write_joypad]
    exact ⟨_, rfl, rfl, rfl, rfl⟩
  by_cases hr : address = Cell.requests
  · subst hr
    rw [write_requests]
    exact ⟨_, rfl, rfl, rfl, rfl⟩
  by_cases hd : address = Cell.dma
  · subst hd
    rw [write_dma]
    exact ⟨_, rfl, rfl, rfl, rfl⟩
  by_cases hb' : address = Cell.boot
  · subst hb'
    rw [write_boot]
    exact ⟨_, rfl, rfl, rfl, rfl⟩
  have hw : address ∉ Cell.wired := by
    simp [Cell.wired, hj, hdiv, htima, htma, htac, hr, hd, hb']
  rw [write_unwired v hb ha hw, if_neg hd]
  exact ⟨_, rfl, rfl, rfl, rfl⟩

theorem bounded_start {d : Dma} (page : UInt8) (h : d.Bounded) : (d.start page).Bounded := by
  unfold Dma.start
  split
  · exact h
  · intro _
    exact Nat.zero_lt_succ _

theorem Synced.write_unowned (h : b.Synced) (ho : address ∉ timerOwned) :
    (b.write address v).Synced ∧ TimerKept b (b.write address v) := by
  by_cases hp : address < Cell.page
  · rw [write_of_lt_page v hp]
    have hk : TimerKept b ((b.noted address v).poke address v) :=
      ⟨timer_poke _ _ _, fun cell hc => get_poke_of_lt_page _ _ hp (page_le_of_timerOwned hc)⟩
    refine ⟨h.of_kept hk (hooks_poke _ _ _) ?_, hk⟩
    rw [dma_poke]
    exact h.transferring
  · obtain ⟨stored, hm, ht, hh, hd⟩ := write_of_page_le v h.unhooked (UInt16.not_lt.1 hp) ho
    have hk : TimerKept b (b.write address v) := TimerKept.of_set ht hm ho
    refine ⟨h.of_kept hk hh ?_, hk⟩
    rw [hd]
    split
    · exact bounded_start v h.transferring
    · exact h.transferring

end Write

section Owned
variable {b : Board} (v : UInt8)

/-- Where the timer itself has brought the cell to what is stored, the store changes nothing. -/
theorem write_driving {address : UInt16} {stored : UInt8}
    {f : Timer → TimerCells → Timer × TimerCells} (ha : Cell.page ≤ address)
    (hs : (b.noted address v).stored? address v = some stored)
    (ht : (b.noted address v).trigger address v = (b.noted address v).driveTimer f)
    (hv : ((b.noted address v).driveTimer f).memory.get address = stored) :
    b.write address v = (b.noted address v).driveTimer f := by
  rw [write_stored v ha hs, ht, Memory.set_of_get_eq hv]

theorem write_div : b.write Cell.div v = (b.noted Cell.div v).driveTimer Timer.reset := by
  refine write_driving v (by decide) rfl rfl ?_
  refine (congrArg TimerCells.div (timerCells_driveTimer _ _)).trans ?_
  rw [Timer.reset_eq]

theorem write_tac :
    b.write Cell.tac v = (b.noted Cell.tac v).driveTimer (Timer.setControl · · v) := by
  refine write_driving v (by decide) rfl rfl ?_
  refine (congrArg TimerCells.tac (timerCells_driveTimer _ _)).trans ?_
  rw [Timer.setControl_eq]

theorem write_tma :
    b.write Cell.tma v = (b.noted Cell.tma v).driveTimer fun t c => (t, t.setModulo c v) := by
  refine write_driving v (by decide) rfl rfl ?_
  exact congrArg TimerCells.tma (timerCells_driveTimer _ _)

theorem write_tima :
    b.write Cell.tima v =
      { b.noted Cell.tima v with
        memory := if b.timer.locked then b.memory else b.memory.set Cell.tima v } := by
  have hs : (b.noted Cell.tima v).stored? Cell.tima v =
    if b.timer.locked then none else some v := rfl
  cases hl : b.timer.locked with
  | true =>
    rw [hl] at hs
    exact write_dropped v hs
  | false =>
    rw [hl] at hs
    exact write_stored v (by decide) hs

end Owned

section Invariant
variable {b : Board}

theorem Synced.driveTimer {f : Timer → TimerCells → Timer × TimerCells} (h : b.Synced)
    (hf : Timer.InStep (f b.timer b.memory.timerCells).1 (f b.timer b.memory.timerCells).2) :
    (b.driveTimer f).Synced where
  unhooked := h.unhooked
  inStep := by
    rw [timerCells_driveTimer]
    exact hf
  transferring := h.transferring

theorem Synced.watched (h : b.Synced) (w : Watch) : Synced { b with watch := w } :=
  ⟨h.unhooked, h.inStep, h.transferring⟩

theorem Synced.write (h : b.Synced) (address : UInt16) (v : UInt8) :
    (b.write address v).Synced := by
  by_cases ho : address ∈ timerOwned
  · simp only [timerOwned, List.mem_cons, List.not_mem_nil, or_false] at ho
    rcases ho with rfl | rfl | rfl | rfl
    · rw [write_div]
      exact (h.watched _).driveTimer Timer.inStep_reset
    · have other {cell : UInt16} (hc : Cell.tima ≠ cell) :
          (if b.timer.locked then b.memory else b.memory.set Cell.tima v).get cell =
            b.memory.get cell := by
        split
        · rfl
        · exact Memory.get_set_ne _ _ hc
      rw [write_tima]
      refine ⟨h.unhooked, ⟨?_, ?_⟩, h.transferring⟩
      · exact h.inStep.latch.trans (congrArg (Timer.gatedBit _) (other (by decide)).symm)
      · exact (other (by decide)).trans h.inStep.div
    · rw [write_tma]
      exact (h.watched _).driveTimer (h.inStep.setModulo v)
    · rw [write_tac]
      exact (h.watched _).driveTimer (h.inStep.setControl v)
  · exact (h.write_unowned v ho).1

theorem Synced.tickTimer (h : b.Synced) (n : Nat) : (b.tickTimer n).Synced :=
  h.driveTimer (h.inStep.run n)

theorem request_zero (b : Board) : b.request 0 = b := by
  have hm : b.memory.set Cell.requests (b.memory.get Cell.requests ||| 0) = b.memory := by
    rw [UInt8.or_zero]
    exact Memory.set_of_get_eq rfl
  unfold request
  rw [hm]

theorem request_kept (b : Board) (sources : UInt8) : TimerKept b (b.request sources) :=
  TimerKept.of_set rfl rfl (by decide)

theorem Synced.apply (h : b.Synced) (e : Event) : (b.apply e).Synced := by
  cases e with
  | write address v => exact h.write address v
  | timer n => exact h.tickTimer n
  | tick n => exact (h.tick n).1
  | request sources => exact h.of_kept (request_kept b sources) rfl h.transferring
  | button k pressed => exact ⟨h.unhooked, h.inStep, h.transferring⟩

theorem Synced.run (h : b.Synced) (events : List Event) : (b.run events).Synced := by
  induction events generalizing b with
  | nil => exact h
  | cons e events ih => exact ih (h.apply e)

theorem tac_start (bootImage : Bytes) (controller : Controller) (skipped : Bool) :
    (start bootImage controller skipped).memory.get Cell.tac = 0xf8 := by
  cases skipped with
  | false => simp [start, new, Memory.get_set, Cell.tac, Cell.requests, Cell.boot]
  | true => simp [start, skipBoot, postBootCells, Memory.get_set, Cell.tac, Cell.requests,
      Cell.display, Cell.backgroundPalette, Cell.objectPalette0, Cell.objectPalette1, Cell.boot]

theorem div_start (bootImage : Bytes) (controller : Controller) (skipped : Bool) :
    (start bootImage controller skipped).memory.get Cell.div = if skipped then 0xab else 0 := by
  cases skipped with
  | false =>
    simp [start, new, Memory.get_set, Cell.div, Cell.joypad, Cell.tac, Cell.requests, Cell.boot]
  | true => simp [start, skipBoot, postBootCells, Memory.get_set, Cell.div, Cell.tac, Cell.requests,
      Cell.display, Cell.backgroundPalette, Cell.objectPalette0, Cell.objectPalette1, Cell.boot]

theorem synced_start (bootImage : Bytes) (controller : Controller) (skipped : Bool) :
    (start bootImage controller skipped).Synced := by
  have htac := tac_start bootImage controller skipped
  have hdiv := div_start bootImage controller skipped
  have hsignal (counter : UInt16) : Timer.gatedBit counter 0xf8 = false := rfl
  cases skipped with
  | false =>
    have hc : 0 = Word.high 0 := by decide
    refine ⟨rfl, ⟨?_, ?_⟩, nofun⟩
    · exact ((congrArg (Timer.gatedBit 0) htac).trans (hsignal 0)).symm
    · exact hdiv.trans hc
  | true =>
    have hc : 0xab = Word.high Timer.postBootCounter := by decide
    refine ⟨rfl, ⟨?_, ?_⟩, nofun⟩
    · exact ((congrArg (Timer.gatedBit Timer.postBootCounter) htac).trans (hsignal _)).symm
    · exact hdiv.trans hc

end Invariant

end Board
end DotMatrix
