import DotMatrix.Proofs.Board.Cells

/-! # Time on a board

A number of cycles can be passed at once or in parts: the transfer goes cycle by cycle, and the
clock on a cartridge keeps what is left of a second. What time changes on a board, the processor
aside, is object memory alone.
-/
namespace DotMatrix

section Calendar

namespace ClockReading

theorem halted_nextSecond (c : ClockReading) : c.nextSecond.halted = c.halted := by
  simp only [nextSecond, nextMinute, nextHour, nextDay]
  repeat' split
  all_goals rfl

theorem halted_advance (n : Nat) (c : ClockReading) : (advance n c).halted = c.halted := by
  induction n generalizing c with
  | zero => rfl
  | succ n ih => exact (ih c.nextSecond).trans (halted_nextSecond c)

theorem advance_add (m n : Nat) (c : ClockReading) :
    advance (m + n) c = advance n (advance m c) := by
  induction m generalizing c with
  | zero => rw [Nat.zero_add, advance]
  | succ m ih =>
    rw [Nat.succ_add]
    exact ih c.nextSecond

end ClockReading

theorem RealTimeClock.tick_add (c : RealTimeClock) (m n : Nat) :
    c.tick (m + n) = (c.tick m).tick n := by
  cases hh : c.live.halted with
  | true => simp only [tick, hh, if_true]
  | false =>
    have hl : (c.live.advance ((c.cycles + m) / cyclesPerSecond)).halted = false :=
      (ClockReading.halted_advance _ _).trans hh
    -- Whole seconds of the first part are spent, what is left of a second counts for the next one.
    have hs : (c.cycles + (m + n)) / cyclesPerSecond =
        (c.cycles + m) / cyclesPerSecond +
          ((c.cycles + m) % cyclesPerSecond + n) / cyclesPerSecond := by
      unfold cyclesPerSecond
      omega
    have hc : (c.cycles + (m + n)) % cyclesPerSecond =
        ((c.cycles + m) % cyclesPerSecond + n) % cyclesPerSecond := by
      unfold cyclesPerSecond
      omega
    simp only [tick, hh, hl, Bool.false_eq_true, if_false, hs, hc, ClockReading.advance_add]

namespace Controller

theorem tick_add (c : Controller) (m n : Nat) : c.tick (m + n) = (c.tick m).tick n := by
  cases c with
  | mbc3 board =>
    have hm : board.tick (m + n) = (board.tick m).tick n := by
      simp only [Mbc3.tick, Option.map_map]
      congr 2
      funext clock
      exact clock.tick_add m n
    exact congrArg Controller.mbc3 hm
  | _ => rfl

theorem latched_tick (c : RealTimeClock) (n : Nat) : (c.tick n).latched = c.latched := by
  unfold RealTimeClock.tick
  split <;> rfl

/-- A program sees the latched clock, which time does not move. -/
theorem read_tick (c : Controller) (n : Nat) (address : UInt16) :
    (c.tick n).read address = c.read address := by
  cases c with
  | mbc3 board =>
    have hw : (board.tick n).readWindow address = board.readWindow address := by
      have hc (register : ClockRegister) :
          ((board.clock.map (·.tick n)).elim 0xff fun c => c.latched.read register) =
            board.clock.elim 0xff fun c => c.latched.read register := by
        cases board.clock with
        | none => rfl
        | some clock => exact congrArg (·.read register) (latched_tick clock n)
      simp only [Mbc3.readWindow, Mbc3.tick, hc]
      rfl
    simp only [tick, read, Mbc3.read, hw]
    rfl
  | _ => rfl

end Controller

end Calendar

namespace Region
variable {address : UInt16}

theorem of_eq_objects_iff :
    Region.of address = .objects ↔ 0xfe00 ≤ address.toNat ∧ address.toNat < 0xfea0 := of_eq_iff

theorem of_eq_echo_iff :
    Region.of address = .echo ↔ 0xe000 ≤ address.toNat ∧ address.toNat < 0xfe00 := of_eq_iff

/-- An echo shows work RAM, never object memory. -/
theorem unecho_ne_objects (h : Region.of address = .echo) :
    Region.of (unecho address) ≠ .objects := by
  obtain ⟨hl, hu⟩ := of_eq_echo_iff.1 h
  rw [ne_eq, of_eq_objects_iff, unecho, UInt16.toNat_sub]
  simp only [UInt16.reduceToNat]
  omega

end Region

namespace Board

section Cycles
variable {b : Board}

theorem transferCycle_of_idle (h : b.dma.active = false) : b.transferCycle = b := by
  have ht : b.dma.transfer? = none := if_neg (by simp [h])
  have ha : b.dma.advance = b.dma := if_neg (by simp [h])
  unfold transferCycle
  rw [ht, ha]

theorem transferCycles_of_idle (n : Nat) (h : b.dma.active = false) : transferCycles n b = b := by
  cases n with
  | zero => rfl
  | succ n => exact if_neg (by simp [h])

theorem transferCycles_succ (n : Nat) (b : Board) :
    transferCycles (n + 1) b = transferCycles n b.transferCycle := by
  cases h : b.dma.active with
  | true => exact if_pos h
  | false =>
    rw [transferCycles_of_idle _ h, transferCycle_of_idle h, transferCycles_of_idle _ h]

theorem transferCycles_add (m n : Nat) (b : Board) :
    transferCycles (m + n) b = transferCycles n (transferCycles m b) := by
  induction m generalizing b with
  | zero => rw [Nat.zero_add, transferCycles]
  | succ m ih => rw [Nat.succ_add, transferCycles_succ, transferCycles_succ, ih]

theorem controller_transferCycles (n : Nat) (b : Board) :
    (transferCycles n b).controller = b.controller := by
  induction n generalizing b with
  | zero => rfl
  | succ n ih =>
    rw [transferCycles_succ, ih]
    unfold transferCycle
    split <;> rfl

def tickCartridge (b : Board) (n : Nat) : Board := { b with controller := b.controller.tick n }

theorem tick_eq (b : Board) (n : Nat) : b.tick n = (transferCycles n b).tickCartridge n := rfl

theorem peek_tickCartridge (b : Board) (n : Nat) (address : UInt16) :
    (b.tickCartridge n).peek address = b.peek address := by
  simp only [peek, tickCartridge, Controller.read_tick]

theorem transferCycle_tickCartridge (b : Board) (n : Nat) :
    (b.tickCartridge n).transferCycle = b.transferCycle.tickCartridge n := by
  have hd : (b.tickCartridge n).dma = b.dma := rfl
  unfold transferCycle
  rw [hd]
  split
  · rw [peek_tickCartridge]
    rfl
  · rfl

theorem transferCycles_tickCartridge (m n : Nat) (b : Board) :
    transferCycles m (b.tickCartridge n) = (transferCycles m b).tickCartridge n := by
  induction m generalizing b with
  | zero => rfl
  | succ m ih => rw [transferCycles_succ, transferCycles_succ, transferCycle_tickCartridge, ih]

theorem tickCartridge_add (b : Board) (m n : Nat) :
    b.tickCartridge (m + n) = (b.tickCartridge m).tickCartridge n :=
  congrArg (fun controller => { b with controller }) (b.controller.tick_add m n)

/-- Cycles can be passed at once or in parts. -/
theorem tick_add (b : Board) (m n : Nat) : b.tick (m + n) = (b.tick m).tick n := by
  rw [tick_eq, tick_eq, tick_eq, transferCycles_tickCartridge, transferCycles_add,
    tickCartridge_add]

end Cycles

/-- Two boards that differ in object memory, the transfer and the cartridge's clock at most. -/
structure SameOutside (b c : Board) : Prop where
  bootImage : c.bootImage = b.bootImage
  bootMapped : c.bootMapped = b.bootMapped
  joypad : c.joypad = b.joypad
  timer : c.timer = b.timer
  hooks : c.hooks = b.hooks
  cartridge : ∀ address, c.controller.read address = b.controller.read address
  cells : ∀ cell, Region.of cell ≠ .objects → c.memory.get cell = b.memory.get cell

namespace SameOutside

theorem refl (b : Board) : SameOutside b b :=
  ⟨rfl, rfl, rfl, rfl, rfl, fun _ => rfl, fun _ _ => rfl⟩

theorem trans {b c d : Board} (hbc : SameOutside b c) (hcd : SameOutside c d) :
    SameOutside b d where
  bootImage := hcd.bootImage.trans hbc.bootImage
  bootMapped := hcd.bootMapped.trans hbc.bootMapped
  joypad := hcd.joypad.trans hbc.joypad
  timer := hcd.timer.trans hbc.timer
  hooks := hcd.hooks.trans hbc.hooks
  cartridge address := (hcd.cartridge address).trans (hbc.cartridge address)
  cells cell h := (hcd.cells cell h).trans (hbc.cells cell h)

theorem peek {b c : Board} (h : SameOutside b c) {address : UInt16}
    (ha : Region.of address ≠ .objects) : c.peek address = b.peek address := by
  have hm := h.cells address ha
  unfold Board.peek
  split
  · rw [h.bootMapped, h.bootImage, h.cartridge]
  · exact h.cartridge address
  · exact h.cells _ (Region.unecho_ne_objects ‹_›)
  · rfl
  · rw [hm, h.joypad]
  all_goals exact hm

end SameOutside

section Outside
variable {b : Board}

theorem target_objects {d : Dma} {source target : UInt16} (h : d.elapsed < Dma.duration)
    (ht : d.transfer? = some (source, target)) : Region.of target = .objects := by
  unfold Dma.transfer? at ht
  split at ht
  · cases ht
    have hi : d.elapsed / 4 < 0xa0 := by
      simp only [Dma.duration, Dma.length] at h
      omega
    have hn : (Dma.objectMemory + UInt16.ofNat (d.elapsed / 4)).toNat = 0xfe00 + d.elapsed / 4 := by
      simp only [UInt16.toNat_add, UInt16.toNat_ofNat', Dma.objectMemory, UInt16.reduceToNat]
      omega
    exact Region.of_eq_objects_iff.2 (by omega)
  · cases ht

theorem transferCycle_sameOutside (h : b.dma.Bounded) : SameOutside b b.transferCycle := by
  unfold transferCycle
  split
  · rename_i source target ht
    have hactive : b.dma.active = true := by
      unfold Dma.transfer? at ht
      split at ht
      · exact (‹_ ∧ _›).1
      · cases ht
    refine ⟨rfl, rfl, rfl, rfl, rfl, fun _ => rfl, ?_⟩
    intro cell hc
    apply Memory.get_set_ne
    rintro rfl
    exact hc (target_objects (h hactive) ht)
  · exact ⟨rfl, rfl, rfl, rfl, rfl, fun _ => rfl, fun _ _ => rfl⟩

theorem bounded_transferCycle (h : b.dma.Bounded) : b.transferCycle.dma.Bounded := by
  rw [dma_transferCycle]
  exact bounded_advance h

theorem transferCycles_sameOutside (n : Nat) {b : Board} (h : b.dma.Bounded) :
    SameOutside b (transferCycles n b) ∧ (transferCycles n b).dma.Bounded := by
  induction n generalizing b with
  | zero => exact ⟨SameOutside.refl b, h⟩
  | succ n ih =>
    rw [transferCycles_succ]
    obtain ⟨hs, hd⟩ := ih (bounded_transferCycle h)
    exact ⟨(transferCycle_sameOutside h).trans hs, hd⟩

/-- Time changes nothing that a program can see but object memory. -/
theorem tick_sameOutside (h : b.dma.Bounded) (n : Nat) : SameOutside b (b.tick n) := by
  obtain ⟨hs, -⟩ := transferCycles_sameOutside n h
  refine hs.trans ⟨rfl, rfl, rfl, rfl, rfl, ?_, fun _ _ => rfl⟩
  exact Controller.read_tick _ n

theorem bounded_tick (h : b.dma.Bounded) (n : Nat) : (b.tick n).dma.Bounded :=
  (transferCycles_sameOutside n h).2

end Outside

section Apply
variable {b : Board}

theorem hooks_transferCycles (n : Nat) : (transferCycles n b).hooks = b.hooks := by
  induction n generalizing b with
  | zero => rfl
  | succ n ih =>
    rw [transferCycles_succ, ih]
    exact hooks_transferCycle

theorem hooks_apply (hb : b.hooks = []) (e : Event) : (b.apply e).hooks = [] := by
  cases e with
  | write address v => exact hooks_write hb address v
  | tick n => exact (hooks_transferCycles n).trans hb
  | timer | request | button => exact hb

theorem hooks_run (events : List Event) {b : Board} (hb : b.hooks = []) :
    (b.run events).hooks = [] := by
  induction events generalizing b with
  | nil => exact hb
  | cons e events ih => exact ih (hooks_apply hb e)

theorem bounded_apply (hb : b.hooks = []) (h : b.dma.Bounded) (e : Event) :
    (b.apply e).dma.Bounded := by
  cases e with
  | write address v => exact bounded_write hb address v h
  | tick n => exact bounded_tick h n
  | timer | request | button => exact h

theorem bounded_run (events : List Event) {b : Board} (hb : b.hooks = []) (h : b.dma.Bounded) :
    (b.run events).dma.Bounded := by
  induction events generalizing b with
  | nil => exact h
  | cons e events ih => exact ih (hooks_apply hb e) (bounded_apply hb h e)

end Apply

end Board
end DotMatrix
