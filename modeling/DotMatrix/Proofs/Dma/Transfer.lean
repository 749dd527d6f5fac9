import DotMatrix.Proofs.Dma.Schedule

/-! # A transfer fills object memory

In whatever portions its cycles pass and whatever a program writes in between, a transfer copies
each byte once and in its own cycle. Undisturbed, it leaves object memory equal to its source.
-/
namespace DotMatrix

namespace Board

open Dma (sourceCell targetCell)

section Frame
variable {b c : Board}

theorem of_of_lt_echo {address : UInt16} (h : address.toNat < 0xe000) :
    (Region.of address = .rom ∨ Region.of address = .external) ∨
      (Region.of address = .video ∨ Region.of address = .work) := by
  simp only [Region.of_eq_iff, Region.Holds]
  omega

/-- Below the echo an address shows its own cell or what is mapped there. -/
theorem peek_of_lt_echo {address : UInt16} (ha : address.toNat < 0xe000)
    (hcell : c.memory.get address = b.memory.get address)
    (hmapped : Region.of address = .rom ∨ Region.of address = .external →
      c.controller = b.controller ∧ c.bootMapped = b.bootMapped ∧ c.bootImage = b.bootImage) :
    c.peek address = b.peek address := by
  unfold peek
  rcases of_of_lt_echo ha with (hr | hr) | (hr | hr)
  · obtain ⟨hcartridge, hboot, himage⟩ := hmapped (.inl hr)
    rw [hr, hcartridge, hboot, himage]
  · obtain ⟨hcartridge, -, -⟩ := hmapped (.inr hr)
    rw [hr, hcartridge]
  all_goals
    rw [hr]
    exact hcell

structure Apart (address cell : UInt16) : Prop where
  other : address ≠ cell
  echo : Region.of address = .echo → unecho address ≠ cell
  mapping : Region.of cell = .rom ∨ Region.of cell = .external →
    Region.of address ≠ .rom ∧ Region.of address ≠ .external ∧ address ≠ Cell.boot

theorem peek_write_apart (hb : b.hooks = []) {address cell : UInt16} (v : UInt8)
    (hc : cell.toNat < 0xe000) (h : Apart address cell) :
    (b.write address v).peek cell = b.peek cell := by
  have hpage : cell < Cell.page := UInt16.lt_iff_toNat_lt.2 (Nat.lt_trans hc (by decide))
  apply peek_of_lt_echo hc (get_write_apart hb address v hpage h.other h.echo)
  intro hr
  obtain ⟨hrom, hexternal, hboot⟩ := h.mapping hr
  exact mapping_write hb address v hrom hexternal hboot

/-- A write elsewhere leaves object memory alone. -/
theorem get_write_objects (hb : b.hooks = []) {address cell : UInt16} (v : UInt8)
    (hc : Region.of cell = .objects) (ha : Region.of address ≠ .objects) :
    (b.write address v).memory.get cell = b.memory.get cell := by
  have hpage : cell < Cell.page := by
    have hbounds := Region.of_eq_objects_iff.1 hc
    apply UInt16.lt_iff_toNat_lt.2
    exact Nat.lt_trans hbounds.2 (by decide)
  have hout {other : UInt16} (ho : Region.of other ≠ .objects) : other ≠ cell := by
    rintro rfl
    exact ho hc
  exact get_write_apart hb address v hpage (hout ha) fun he => hout (Region.unecho_ne_objects he)

end Frame

structure Copying (page : UInt8) (bytes : Nat → UInt8) (k : Nat) (b : Board) : Prop
    extends Transferring page k b where
  source : ∀ i < 0xa0, b.peek (sourceCell page i) = bytes i
  target : ∀ i < 0xa0, 4 * i < k → b.memory.get (targetCell i) = bytes i

/-- An event that does not disturb a transfer: it neither writes to object memory nor changes a byte
of the source, nor does it start another transfer. -/
def Undisturbed (page : UInt8) (k : Nat) (b : Board) : Event → Prop
  | .write address v =>
    ¬(0xfe00 ≤ address ∧ address < 0xfea0) ∧ (address = Cell.dma → k < Dma.duration) ∧
      ∀ i < 0xa0, (b.write address v).peek (sourceCell page i) = b.peek (sourceCell page i)
  | .tick _ | .timer _ | .request _ | .button _ _ => True

/-- A write neither to object memory nor to the source nor to what is mapped there. -/
theorem undisturbed_of_apart {page : UInt8} {k : Nat} {b : Board} {address : UInt16} (v : UInt8)
    (hb : b.hooks = []) (hobjects : ¬(0xfe00 ≤ address ∧ address < 0xfea0))
    (hstart : address = Cell.dma → k < Dma.duration)
    (hsource : ∀ i < 0xa0, Apart address (sourceCell page i)) :
    Undisturbed page k b (.write address v) := by
  refine ⟨hobjects, hstart, ?_⟩
  intro i hi
  exact peek_write_apart hb v (Dma.toNat_sourceCell_lt page hi) (hsource i hi)

theorem of_targetCell {i : Nat} (h : i < 0xa0) : Region.of (targetCell i) = .objects := by
  rw [Region.of_eq_objects_iff, Dma.toNat_targetCell h]
  omega

theorem of_sourceCell (page : UInt8) {i : Nat} (h : i < 0xa0) :
    Region.of (sourceCell page i) ≠ .objects := by
  have hlt := Dma.toNat_sourceCell_lt page h
  rw [ne_eq, Region.of_eq_objects_iff]
  omega

namespace Copying
variable {page : UInt8} {bytes : Nat → UInt8} {k : Nat} {b : Board}

theorem start (hb : b.hooks = []) (hi : b.dma.active = false) (page : UInt8) :
    Copying page (fun i => (b.write Cell.dma page).peek (sourceCell page i)) 0
      (b.write Cell.dma page) where
  toTransferring := Transferring.start hb hi page
  source _ _ := rfl
  target _ _ h := absurd h (Nat.not_lt_zero _)

theorem cycle (h : Copying page bytes k b) : Copying page bytes (k + 1) b.transferCycle where
  toTransferring := h.toTransferring.cycle
  source i hi := by
    rw [(transferCycle_sameOutside h.bounded).peek (of_sourceCell page hi)]
    exact h.source i hi
  target i hi hk := by
    -- Cycle `k` adds the byte that is due then; after the end all of them are there.
    rcases Nat.lt_or_ge k Dma.duration with hlt | hge
    · rw [h.get_cycle hlt hi]
      split
      · exact h.source i hi
      · exact h.target i hi (by omega)
    · rw [transferCycle_of_idle (h.finished hge)]
      have hend : Dma.duration = 0xa0 * 4 := rfl
      exact h.target i hi (by omega)

theorem cycles (n : Nat) {k : Nat} {b : Board} (h : Copying page bytes k b) :
    Copying page bytes (k + n) (transferCycles n b) := by
  induction n generalizing k b with
  | zero => exact h
  | succ n ih =>
    rw [transferCycles_succ, ← Nat.add_assoc, Nat.add_right_comm]
    exact ih h.cycle

theorem tick (h : Copying page bytes k b) (n : Nat) : Copying page bytes (k + n) (b.tick n) where
  toTransferring := h.toTransferring.tick n
  source i hi := by
    rw [tick_eq, peek_tickCartridge]
    exact (h.cycles n).source i hi
  target := (h.cycles n).target

/-- What is neither a tick nor a write keeps away from the source and from object memory. -/
theorem of_lt_page {c : Board} (h : Copying page bytes k b) (hc : Transferring page k c)
    (hcartridge : c.controller = b.controller) (hmapped : c.bootMapped = b.bootMapped)
    (himage : c.bootImage = b.bootImage)
    (hcells : ∀ cell < Cell.page, c.memory.get cell = b.memory.get cell) :
    Copying page bytes k c where
  toTransferring := hc
  source i hi := by
    have hlt := Dma.toNat_sourceCell_lt page hi
    have hpage : sourceCell page i < Cell.page :=
      UInt16.lt_iff_toNat_lt.2 (Nat.lt_trans hlt (by decide))
    rw [peek_of_lt_echo hlt (hcells _ hpage) fun _ => ⟨hcartridge, hmapped, himage⟩]
    exact h.source i hi
  target i hi hk := by
    have hpage : targetCell i < Cell.page := by
      apply UInt16.lt_iff_toNat_lt.2
      rw [Dma.toNat_targetCell hi]
      exact Nat.lt_of_lt_of_le (Nat.add_lt_add_left hi _) (by decide)
    rw [hcells _ hpage]
    exact h.target i hi hk

theorem apply (h : Copying page bytes k b) {e : Event} (he : Undisturbed page k b e) :
    Copying page bytes (k + e.cycles) (b.apply e) := by
  have hne {cell : UInt16} (hc : cell < Cell.page) {other : UInt16} (ho : Cell.page ≤ other) :
      cell ≠ other := by
    rintro rfl
    exact absurd hc (UInt16.not_lt.2 ho)
  cases e with
  | write address v =>
    obtain ⟨hobjects, hstart, hsource⟩ := he
    have hregion : Region.of address ≠ .objects := fun hr =>
      hobjects (Region.of_eq_objects_iff.1 hr)
    exact
      { h.toTransferring.write v hstart with
        source := fun i hi => (hsource i hi).trans (h.source i hi)
        target := fun i hi hk =>
          (get_write_objects h.unhooked v (of_targetCell hi) hregion).trans (h.target i hi hk) }
  | tick n => exact h.tick n
  | timer n =>
    have ht : Transferring page k (b.tickTimer n) := ⟨h.unhooked, h.running, h.finished⟩
    refine h.of_lt_page ht rfl rfl rfl ?_
    intro cell hc
    apply get_driveTimer
    · intro ho
      exact hne hc (page_le_of_timerOwned ho) rfl
    · exact hne hc (by decide)
  | request sources =>
    have ht : Transferring page k (b.request sources) := ⟨h.unhooked, h.running, h.finished⟩
    refine h.of_lt_page ht rfl rfl rfl ?_
    intro cell hc
    exact Memory.get_set_ne _ _ (hne hc (by decide)).symm
  | button button pressed =>
    have ht : Transferring page k (b.updateButton button pressed).2 :=
      ⟨h.unhooked, h.running, h.finished⟩
    exact h.of_lt_page ht rfl rfl rfl fun _ _ => rfl

theorem run {events : List Event} {k : Nat} {b : Board} (h : Copying page bytes k b)
    (he : ∀ before e after, events = before ++ e :: after →
      Undisturbed page (k + elapsed before) (b.run before) e) :
    Copying page bytes (k + elapsed events) (b.run events) := by
  induction events generalizing k b with
  | nil => exact h
  | cons e events ih =>
    rw [elapsed_cons, ← Nat.add_assoc]
    refine ih (h.apply (he [] e events rfl)) ?_
    rintro before d after rfl
    have hd := he (e :: before) d after rfl
    rw [elapsed_cons, ← Nat.add_assoc] at hd
    exact hd

end Copying

/-- Cycle `4 * i` of a transfer, and no other, sets byte `i`, to what the source shows then. -/
theorem Transferring.get_copied {page : UInt8} {b : Board} (h : Transferring page 0 b)
    {before : List Event} {m : Nat} (hk : elapsed before + m < Dma.duration) {i : Nat}
    (hi : i < 0xa0) :
    (((b.run before).tick m).tick 1).memory.get (targetCell i) =
      if elapsed before + m = 4 * i then ((b.run before).tick m).peek (sourceCell page i)
      else ((b.run before).tick m).memory.get (targetCell i) := by
  have hbefore := h.run_of_lt (Nat.lt_of_le_of_lt (Nat.le_add_right _ m) hk)
  rw [memory_tick_one]
  exact (hbefore.tick m).get_cycle hk hi

/-- A write to the transfer's cell while none runs copies every byte of object memory in a cycle of
its own, out of 640 that may be passed in any portions, from what the source shows at that cycle. It
neither ends earlier nor can it be restarted, its source lies below the echo, and passing time
changes no other cell. When nothing disturbs it, object memory is then equal to the source. -/
theorem transfer_copies_each_byte_once (b : Board) (hb : b.hooks = []) (hi : b.dma.active = false)
    (page : UInt8) (events : List Event) :
    let start := b.write Cell.dma page
    (∀ i < 0xa0, Dma.pageStart page + i < 0xe000) ∧
    (∀ k < elapsed events, ∃ before m n after,
      events = before ++ .tick (m + 1 + n) :: after ∧ elapsed before + m = k) ∧
    (∀ before m n after, events = before ++ .tick (m + 1 + n) :: after →
      start.run events = ((((start.run before).tick m).tick 1).tick n).run after ∧
        (elapsed before + m < 640 → ∀ i < 0xa0,
          (((start.run before).tick m).tick 1).memory.get (targetCell i) =
            if elapsed before + m = 4 * i then
              ((start.run before).tick m).peek (sourceCell page i)
            else ((start.run before).tick m).memory.get (targetCell i))) ∧
    (elapsed events < 640 → (start.run events).dma.active = true) ∧
    (640 ≤ elapsed events →
      (∀ before v after, events = before ++ .write Cell.dma v :: after → elapsed before < 640) →
        (start.run events).dma.active = false ∧
          ∀ n, ((start.run events).tick n).memory = (start.run events).memory) ∧
    (∀ n address, ¬(0xfe00 ≤ address ∧ address < 0xfea0) →
      ((start.run events).tick n).memory.get address =
        (start.run events).memory.get address) ∧
    (640 ≤ elapsed events →
      (∀ before e after, events = before ++ e :: after →
        Undisturbed page (elapsed before) (start.run before) e) →
        ∀ i < 0xa0,
          (start.run events).memory.get (targetCell i) = start.peek (sourceCell page i)) := by
  intro start
  have hstart : Transferring page 0 start := .start hb hi page
  refine ⟨?_, fun k => exists_cycle, ?_, ?_, ?_, ?_, ?_⟩
  · intro i hlt
    have hp := Dma.pageStart_le page
    omega
  · rintro before m n after rfl
    exact ⟨run_cycle start before m n after, fun hk i => hstart.get_copied hk⟩
  · intro hk
    rw [(hstart.run_of_lt hk).running hk]
  · intro hk hrestart
    have hend : Transferring page (0 + elapsed events) (start.run events) := by
      apply hstart.run
      intro before v after he
      rw [Nat.zero_add]
      exact hrestart before v after he
    rw [Nat.zero_add] at hend
    have hidle := hend.finished hk
    refine ⟨hidle, ?_⟩
    intro n
    rw [tick_eq, transferCycles_of_idle n hidle]
    rfl
  · intro n address ha
    have hbounded := bounded_run events hstart.unhooked hstart.bounded
    apply (tick_sameOutside hbounded n).cells
    intro hr
    exact ha (Region.of_eq_objects_iff.1 hr)
  · intro hk hquiet i hlt
    have hcopied : Copying page (fun i => start.peek (sourceCell page i)) (0 + elapsed events)
        (start.run events) := by
      apply (Copying.start hb hi page).run
      intro before e after he
      rw [Nat.zero_add]
      exact hquiet before e after he
    exact hcopied.target i hlt (by omega)

/-- A transfer from the first page of work RAM in two portions, with a futile start in between. -/
theorem transfer_copies_each_byte_once_in_portions :
    let b := Board.new #[] (.rom #[])
    let start := b.write Cell.dma 0xc0
    let first := start.run [.tick 322, .write Cell.dma 0xd0]
    let last := start.run [.tick 322, .write Cell.dma 0xd0, .tick 318]
    b.hooks = [] ∧ b.dma.active = false ∧ first.dma.active = true ∧ last.dma.active = false ∧
      ((first.tick 2).tick 1).memory.get (targetCell 81) =
        (first.tick 2).peek (sourceCell 0xc0 81) ∧
      ∀ i < 0xa0, last.memory.get (targetCell i) = start.peek (sourceCell 0xc0 i) := by
  intro b start first last
  have hb : b.hooks = [] := rfl
  have hi : b.dma.active = false := rfl
  clear_value b
  obtain ⟨-, -, -, active, -, -, -⟩ :=
    transfer_copies_each_byte_once b hb hi 0xc0 [.tick 322, .write Cell.dma 0xd0]
  obtain ⟨-, -, cycle, -, ended, -, filled⟩ :=
    transfer_copies_each_byte_once b hb hi 0xc0 [.tick 322, .write Cell.dma 0xd0, .tick 318]
  have hquiet : ∀ before e after,
      [.tick 322, .write Cell.dma 0xd0, .tick 318] = before ++ e :: after →
        Undisturbed 0xc0 (elapsed before) (start.run before) e := by
    intro before e after he
    rcases before with _ | ⟨_, _ | ⟨_, _ | ⟨_, before⟩⟩⟩
    · cases he
      trivial
    · cases he
      have hooks : (start.run [.tick 322]).hooks = [] :=
        hooks_apply (hooks_write hb Cell.dma 0xc0) (.tick 322)
      refine undisturbed_of_apart 0xd0 hooks (by decide) (fun _ => by decide) ?_
      intro i hlt
      refine ⟨?_, fun hecho => absurd hecho (by decide), fun _ => by decide⟩
      intro hsource
      have hbelow := Dma.toNat_sourceCell_lt 0xc0 hlt
      rw [← hsource] at hbelow
      exact absurd hbelow (by decide)
    · cases he
      trivial
    · cases before <;> cases he
  have hrestart : ∀ before v after,
      [.tick 322, .write Cell.dma 0xd0, .tick 318] = before ++ .write Cell.dma v :: after →
        elapsed before < 640 := by
    intro before v after he
    exact (hquiet before _ after he).2.1 rfl
  have hcopied :=
    (cycle [.tick 322, .write Cell.dma 0xd0] 2 315 [] rfl).2 (by decide) 81 (by decide)
  rw [if_pos (by decide)] at hcopied
  exact ⟨hb, hi, active (by decide), (ended (by decide) hrestart).1, hcopied,
    filled (by decide) hquiet⟩

end Board
end DotMatrix
