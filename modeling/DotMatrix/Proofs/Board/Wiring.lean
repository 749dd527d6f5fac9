import DotMatrix.Proofs.Board.Footprint
import DotMatrix.Proofs.Grid.Arithmetic
import DotMatrix.Proofs.Interrupt.Conservation

/-! # Wired cells along a run

What the wired cells show follows from what has been written so far. The data writes are logged
across a whole run, with the buttons moved meanwhile. The joypad cell then answers for the lines of
the last write to it, and the boot image stays until the first write that switches it off.
-/
namespace DotMatrix

theorem mask_or (a b mask : UInt8) : (a ||| b) &&& mask = (a &&& mask) ||| (b &&& mask) := by
  apply UInt8.toNat_inj.1
  simp only [UInt8.toNat_and, UInt8.toNat_or, Nat.and_or_distrib_right]

/-- Bits that are set stay set when others are. -/
theorem mask_or_of_set {v mask : UInt8} (h : v &&& mask = mask) (w : UInt8) :
    (v ||| w) &&& mask = mask := by
  rw [mask_or, h]
  apply UInt8.toNat_inj.1
  apply Nat.eq_of_testBit_eq
  intro n
  rw [UInt8.toNat_or, UInt8.toNat_and, Nat.testBit_or, Nat.testBit_and]
  cases mask.toNat.testBit n
  · exact Bool.and_false _
  · rfl

theorem mask_or_self (v mask : UInt8) : (v ||| mask) &&& mask = mask := by
  rw [UInt8.or_comm]
  exact mask_or_of_set UInt8.and_self v

namespace Button

/-- The bit of the joypad cell that selects the line a button is on. -/
def column : Button → Nat
  | .a | .b | .select | .start => 5
  | .up | .down | .left | .right => 4

/-- The bit of the joypad cell that a button pulls low. -/
def row : Button → Nat
  | .a | .right => 0
  | .b | .left => 1
  | .select | .up => 2
  | .start | .down => 3

theorem exists_iff {p : Button → Prop} :
    (∃ k, p k) ↔
      p .a ∨ p .b ∨ p .select ∨ p .start ∨ p .right ∨ p .left ∨ p .up ∨ p .down := by
  constructor
  · rintro ⟨k, h⟩
    cases k <;> simp [h]
  · rintro (h | h | h | h | h | h | h | h)
    all_goals exact ⟨_, h⟩

end Button

namespace Joypad
variable (j : Joypad)

theorem selectsButtons_eq (lines : UInt8) : selectsButtons lines = !lines.toNat.testBit 5 :=
  Grid.forall_byte (P := fun lines => selectsButtons lines = !lines.toNat.testBit 5)
    (by decide +kernel) lines

theorem selectsDirections_eq (lines : UInt8) : selectsDirections lines = !lines.toNat.testBit 4 :=
  Grid.forall_byte (P := fun lines => selectsDirections lines = !lines.toNat.testBit 4)
    (by decide +kernel) lines

/-- The joypad looks at the select lines alone. -/
theorem read_congr {lines driven : UInt8} (h : lines &&& 0x30 = driven &&& 0x30) :
    j.read lines = j.read driven := by
  have masked (mask : UInt8) (hm : 0x30 &&& mask = mask) : lines &&& mask = driven &&& mask := by
    rw [← hm, ← UInt8.and_assoc, h, UInt8.and_assoc]
  have hb : selectsButtons lines = selectsButtons driven :=
    congrArg (· == 0) (masked 0x20 rfl)
  have hd : selectsDirections lines = selectsDirections driven :=
    congrArg (· == 0) (masked 0x10 rfl)
  unfold read
  rw [hb, hd, h]

theorem read_upper (lines : UInt8) :
    j.read lines &&& 0xc0 = 0xc0 ∧ j.read lines &&& 0x30 = lines &&& 0x30 := by
  have hx : (0x30 : UInt8) &&& 0xc0 = 0 ∧ (0x0f : UInt8) &&& 0xc0 = 0 := ⟨rfl, rfl⟩
  have hl : (0xc0 : UInt8) &&& 0x30 = 0 ∧ (0x0f : UInt8) &&& 0x30 = 0 := ⟨rfl, rfl⟩
  unfold read
  simp only [mask_or, UInt8.and_assoc, hx, hl]
  simp

theorem drive_lines (v : UInt8) : drive v &&& 0x30 = v &&& 0x30 := by
  have hx : (0xc0 : UInt8) &&& 0x30 = 0 := rfl
  unfold drive
  rw [mask_or, UInt8.and_assoc, hx, UInt8.zero_or, UInt8.and_self]

/-- Four rows, the lowest one last. -/
theorem testBit_rows (r₃ r₂ r₁ r₀ : Bool) (n : Fin 4) :
    ((if r₃ then 0x08 else 0) ||| (if r₂ then 0x04 else 0) ||| (if r₁ then 0x02 else 0) |||
      (if r₀ then 0x01 else 0) : UInt8).toNat.testBit n = [r₀, r₁, r₂, r₃].getD n false := by
  revert r₃ r₂ r₁ r₀ n
  decide

theorem testBit_low (lines pressed : UInt8) (n : Fin 4) :
    (0xc0 ||| (lines &&& 0x30) ||| (~~~pressed &&& 0x0f)).toNat.testBit n =
      !pressed.toNat.testBit n := by
  have hp : (~~~pressed &&& 0x0f).toNat.testBit n = !pressed.toNat.testBit n :=
    Grid.forall_byte (P := fun p => ∀ n : Fin 4, (~~~p &&& 0x0f).toNat.testBit n =
      !p.toNat.testBit n) (by decide +kernel) pressed n
  have hc : (0xc0 : UInt8).toNat.testBit n = false ∧ (0x30 : UInt8).toNat.testBit n = false := by
    clear hp
    revert n
    decide
  rw [UInt8.toNat_or, UInt8.toNat_or, UInt8.toNat_and, Nat.testBit_or, Nat.testBit_or,
    Nat.testBit_and, hp, hc.1, hc.2, Bool.and_false, Bool.false_or, Bool.false_or]

/-- A row reads low if a button on it is held whose line is selected. -/
theorem testBit_read (lines : UInt8) {n : Nat} (hn : n < 4) :
    (j.read lines).toNat.testBit n = false ↔
      ∃ k : Button, k.row = n ∧ lines.toNat.testBit k.column = false ∧ j.held k = true := by
  have hb : j.buttonBits.toNat.testBit n = [j.a, j.b, j.select, j.start].getD n false :=
    testBit_rows j.start j.select j.b j.a ⟨n, hn⟩
  have hd : j.directionBits.toNat.testBit n = [j.right, j.left, j.up, j.down].getD n false :=
    testBit_rows j.down j.up j.left j.right ⟨n, hn⟩
  have hselected (selected : Bool) (bits : UInt8) :
      (if selected then bits else 0).toNat.testBit n = (selected && bits.toNat.testBit n) := by
    cases selected with
    | false => exact Nat.zero_testBit n
    | true => rfl
  have hlow := testBit_low lines ((if selectsButtons lines then j.buttonBits else 0) |||
    (if selectsDirections lines then j.directionBits else 0)) ⟨n, hn⟩
  unfold read
  rw [hlow, UInt8.toNat_or, Nat.testBit_or, hselected, hselected, hb, hd, selectsButtons_eq,
    selectsDirections_eq, Button.exists_iff]
  simp only [Bool.not_eq_eq_eq_not, Bool.not_false, Bool.or_eq_true, Bool.and_eq_true,
    Bool.not_true]
  rcases n with _ | _ | _ | _ | n
  all_goals first
    | omega
    | simp [Button.row, Button.column, held]

end Joypad

theorem Timer.tac_run (n : Nat) (t : Timer) (c : TimerCells) : (Timer.run n t c).2.tac = c.tac := by
  induction n generalizing t c with
  | zero => rfl
  | succ n ih =>
    have hc : (t.cycle c).2.tac = c.tac := by rw [Timer.cycle_eq]
    exact (ih _ _).trans hc

namespace Board

structure Wired (image : Bytes) (log : List (UInt16 × UInt8)) (held : Button → Bool) (b : Board) :
    Prop where
  unhooked : b.hooks = []
  bounded : b.dma.Bounded
  bootImage : b.bootImage = image
  control : b.memory.get Cell.tac &&& 0xf8 = 0xf8
  lines : b.memory.get Cell.joypad &&& 0x30 = (log.lookup Cell.joypad).getD 0 &&& 0x30
  buttons : b.joypad.held = held
  mapped : b.bootMapped = true ↔ image ≠ #[] ∧ ∀ v, (Cell.boot, v) ∈ log → v = 0

theorem wired_new (bootImage : Bytes) (controller : Controller) :
    (new bootImage controller).Wired bootImage [] fun _ => false where
  unhooked := rfl
  bounded := nofun
  bootImage := rfl
  control := by
    have ht := tac_start bootImage controller false
    rw [show (new bootImage controller).memory.get Cell.tac = 0xf8 from ht]
    rfl
  lines := by
    have hj : (new bootImage controller).memory.get Cell.joypad = 0xcf := by
      simp [new, Memory.get_set, Cell.tac, Cell.requests, Cell.boot, Cell.joypad]
    rw [hj]
    rfl
  buttons := by
    funext k
    cases k <;> rfl
  mapped := by simp [new]

/-- The first addresses show the boot image or else the cartridge. -/
theorem peek_of_lt (b : Board) {address : UInt16} (h : address < 0x100) :
    b.peek address =
      if b.bootMapped then b.bootImage.readOpen address.toNat else b.controller.read address := by
  have hr : Region.of address = .rom := if_pos (UInt16.lt_trans h (by decide))
  unfold peek
  rw [hr]
  simp only [h, true_and]

variable {image : Bytes} {log : List (UInt16 × UInt8)} {held : Button → Bool} {b : Board}

section Write
variable (hb : b.hooks = []) (address : UInt16) (v : UInt8)
include hb

/-- A cell of the last page that nothing counts in changes by its own writes alone. -/
theorem get_write_elsewhere {cell : UInt16} (hp : Cell.page ≤ cell) (ht : cell ≠ Cell.tima)
    (hne : address ≠ cell) : (b.write address v).memory.get cell = b.memory.get cell := by
  refine get_write_of_not_reached v hb fun hr => hne ?_
  unfold reached at hr
  split at hr
  · simp only [List.mem_cons, List.not_mem_nil, or_false] at hr
    exact (hr.resolve_right ht).symm
  · rw [Option.mem_toList, Region.behind?_eq_some_iff] at hr
    have hpage := UInt16.le_iff_toNat_le.1 hp
    simp only [Cell.page, UInt16.reduceToNat] at hpage
    rw [← UInt16.toNat_inj]
    have := address.toNat_lt
    omega

end Write

namespace Wired

theorem write (h : b.Wired image log held) (address : UInt16) (v : UInt8) :
    (b.write address v).Wired image ((address, v) :: log) held where
  unhooked := hooks_write h.unhooked address v
  bounded := bounded_write h.unhooked address v h.bounded
  bootImage := (joypad_write v h.unhooked address).2.trans h.bootImage
  control := by
    by_cases ha : address = Cell.tac
    · subst ha
      have hg : (b.write Cell.tac v).memory.get Cell.tac = v ||| 0xf8 := by
        rw [write_tac]
        refine (congrArg TimerCells.tac (timerCells_driveTimer _ _)).trans ?_
        rw [Timer.setControl_eq]
      rw [hg]
      exact mask_or_self v 0xf8
    · rw [get_write_elsewhere h.unhooked address v (by decide) (by decide) ha]
      exact h.control
  lines := by
    by_cases ha : address = Cell.joypad
    · subst ha
      have hg : (b.write Cell.joypad v).memory.get Cell.joypad = Joypad.drive v := by
        rw [write_joypad]
        exact Memory.get_set_self _ _ _
      rw [hg, List.lookup_cons_self]
      exact Joypad.drive_lines v
    · have hl : (Cell.joypad == address) = false := by simpa using Ne.symm ha
      rw [get_write_elsewhere h.unhooked address v (by decide) (by decide) ha, List.lookup_cons, hl]
      exact h.lines
  buttons := by
    rw [(joypad_write v h.unhooked address).1]
    exact h.buttons
  mapped := by
    rw [bootMapped_write h.unhooked]
    by_cases ha : address = Cell.boot
    · rw [if_pos ha, Bool.and_eq_true, h.mapped, beq_iff_eq, and_assoc]
      subst ha
      simp [and_comm]
    · rw [if_neg ha, h.mapped]
      simp [Ne.symm ha]

theorem tick (h : b.Wired image log held) (n : Nat) : (b.tick n).Wired image log held := by
  have hs := tick_sameOutside h.bounded n
  exact {
    unhooked := hs.hooks.trans h.unhooked
    bounded := bounded_tick h.bounded n
    bootImage := hs.bootImage.trans h.bootImage
    control := by
      rw [hs.cells Cell.tac (by decide)]
      exact h.control
    lines := by
      rw [hs.cells Cell.joypad (by decide)]
      exact h.lines
    buttons := by
      rw [hs.joypad]
      exact h.buttons
    mapped := by
      rw [hs.bootMapped]
      exact h.mapped }

theorem timer (h : b.Wired image log held) (n : Nat) : (b.tickTimer n).Wired image log held :=
  { h with
    control := by
      have ht : (b.tickTimer n).memory.get Cell.tac = b.memory.get Cell.tac :=
        (congrArg TimerCells.tac (timerCells_driveTimer b _)).trans (Timer.tac_run n _ _)
      rw [ht]
      exact h.control
    lines := by
      have hj : (b.tickTimer n).memory.get Cell.joypad = b.memory.get Cell.joypad :=
        get_driveTimer b _ (by decide) (by decide)
      rw [hj]
      exact h.lines }

theorem requests (h : b.Wired image log held) (v : UInt8) :
    Wired image log held { b with memory := b.memory.set Cell.requests v } :=
  { h with
    control := by
      rw [Memory.get_set_ne _ _ (by decide)]
      exact h.control
    lines := by
      rw [Memory.get_set_ne _ _ (by decide)]
      exact h.lines }

theorem button (h : b.Wired image log held) (k : Button) (pressed : Bool) :
    (b.updateButton k pressed).2.Wired image log fun l => if k = l then pressed else held l :=
  { h with
    buttons := by
      funext l
      rw [← h.buttons]
      exact Joypad.held_set b.joypad k l pressed }

end Wired

end Board

namespace Machine
variable {image : Bytes} {log : List (UInt16 × UInt8)} {held : Button → Bool} {s : Machine Board}

def Event.moves (k : Button) : Event → Option Bool
  | .board (.button l pressed) => if l = k then some pressed else none
  | _ => none

/-- The buttons that are down after some events: those whose last event has pressed them. -/
def pressed (events : List Event) (k : Button) : Bool :=
  (events.reverse.findSome? (·.moves k)).getD false

def written (s : Machine Board) : List Event → List (UInt16 × UInt8)
  | [] => []
  | e :: events => (s.apply e).written events ++ s.writes e

section Wired

theorem busInvariant_wired (image : Bytes) (log : List (UInt16 × UInt8)) (held : Button → Bool) :
    BusInvariant fun r : Recorded Board => r.bus.Wired image (r.writes ++ log) held where
  read h _ := { h with }
  write h address v := h.write address v
  fetched h _ _ := h
  note h _ := h

theorem wired_apply (h : s.bus.Wired image log held) (e : Event) :
    (s.apply e).bus.Wired image (s.writes e ++ log) fun k => (e.moves k).getD (held k) := by
  cases e with
  | step =>
    have hs := recorded_step s
    unfold apply writes
    rw [hs]
    cases hr : s.recorded.step with
    | error fault => exact h
    | ok r => exact kept_step (s := s.recorded) (busInvariant_wired image log held) h hr
  | service =>
    have hk := kept_service (s := s.recorded) (busInvariant_wired image log held) h ?_
    · unfold apply writes
      rw [recorded_service s]
      exact hk
    · intro r hr v
      have hp := Board.poke_of_page_le r.bus v (show Cell.page ≤ Cell.requests by decide)
      have hw := hr.requests v
      rw [← hp] at hw
      exact hw
  | board e =>
    cases e with
    | write address v => exact h.write address v
    | timer n => exact h.timer n
    | tick n => exact h.tick n
    | request sources => exact h.requests _
    | button k pressed =>
      have hm : (fun l => ((Event.board (.button k pressed)).moves l).getD (held l)) =
          fun l => if k = l then pressed else held l := by
        funext l
        simp only [Event.moves]
        split <;> rfl
      rw [hm]
      exact h.button k pressed

theorem wired_run (h : s.bus.Wired image log held) (events : List Event) :
    (s.run events).bus.Wired image (s.written events ++ log) fun k =>
      (events.reverse.findSome? (·.moves k)).getD (held k) := by
  induction events generalizing s log held with
  | nil => exact h
  | cons e events ih =>
    have hr := ih (wired_apply h e)
    simp only [written, List.append_assoc, List.reverse_cons, List.findSome?_append,
      List.findSome?_singleton, Option.getD_or]
    exact hr

/-- The upper bits of the request cell do not exist and read as ones, whatever happens. -/
theorem requests_apply (hb : s.bus.hooks = []) (hd : s.bus.dma.Bounded)
    (h : s.bus.memory.get Cell.requests &&& 0xe0 = 0xe0) (e : Event) :
    (s.apply e).bus.memory.get Cell.requests &&& 0xe0 = 0xe0 := by
  have recorded {log : List (UInt16 × UInt8)} {before : UInt8} (h : before &&& 0xe0 = 0xe0) :
      ((log.lookup Cell.requests).map (· ||| 0xe0)).getD before &&& 0xe0 = 0xe0 := by
    cases log.lookup Cell.requests with
    | none => exact h
    | some v => exact mask_or_self v 0xe0
  cases e with
  | step =>
    rw [requests_step hb]
    exact recorded h
  | service =>
    rw [requests_service hb]
    refine recorded ?_
    unfold acknowledged
    cases s.dispatched? with
    | none => exact h
    | some i =>
      have hm : ~~~i.mask &&& 0xe0 = 0xe0 := by cases i <;> rfl
      rw [Option.elim_some, UInt8.and_assoc, hm]
      exact h
  | board e =>
    cases e with
    | write address v =>
      by_cases ha : address = Cell.requests
      · subst ha
        have hg : (s.bus.write Cell.requests v).memory.get Cell.requests = v ||| 0xe0 := by
          rw [Board.write_requests]
          exact Memory.get_set_self _ _ _
        exact hg ▸ mask_or_self v 0xe0
      · have hg : (s.bus.write address v).memory.get Cell.requests =
            s.bus.memory.get Cell.requests :=
          Board.get_write_elsewhere hb address v (by decide) (by decide) ha
        exact hg ▸ h
    | timer n =>
      obtain ⟨added, hg⟩ := s.bus.requests_tickTimer n
      exact hg ▸ mask_or_of_set h added
    | tick n =>
      have hg := (Board.tick_sameOutside hd n).cells Cell.requests (by decide)
      exact hg ▸ h
    | request sources =>
      have hg : (s.bus.request sources).memory.get Cell.requests =
          s.bus.memory.get Cell.requests ||| sources := Memory.get_set_self _ _ _
      exact hg ▸ mask_or_of_set h sources
    | button k pressed => exact h

theorem requests_run (hb : s.bus.hooks = []) (hd : s.bus.dma.Bounded)
    (h : s.bus.memory.get Cell.requests &&& 0xe0 = 0xe0) (events : List Event) :
    (s.run events).bus.memory.get Cell.requests &&& 0xe0 = 0xe0 := by
  induction events generalizing s with
  | nil => exact h
  | cons e events ih =>
    exact ih (hooks_run hb [e]) (bounded_run hb hd [e]) (requests_apply hb hd h e)

end Wired

/-- On every run from power-on the bits that the request cell and the control of the timer lack
read as ones. The joypad cell shows the select lines of the last write to it, and a row low if a
button on it is down whose line is selected. The unusable addresses read as the open bus. The boot
image covers the first addresses until a write to its cell that is not zero; from then on the
cartridge shows there for ever. -/
theorem wired_cells_follow_writes (cpu : Cpu) (bootImage : Bytes) (controller : Controller)
    (events : List Event) :
    let s : Machine Board := ⟨cpu, Board.new bootImage controller⟩
    let b := (s.run events).bus
    let driven := ((s.written events).lookup Cell.joypad).getD 0
    let covered := bootImage ≠ #[] ∧ ∀ v, (Cell.boot, v) ∈ s.written events → v = 0
    b.peek Cell.requests &&& 0xe0 = 0xe0 ∧
    b.peek Cell.tac &&& 0xf8 = 0xf8 ∧
    b.peek Cell.joypad &&& 0xc0 = 0xc0 ∧
    b.peek Cell.joypad &&& 0x30 = driven &&& 0x30 ∧
    (∀ n < 4, (b.peek Cell.joypad).toNat.testBit n = false ↔
      ∃ k : Button, k.row = n ∧ driven.toNat.testBit k.column = false ∧
        pressed events k = true) ∧
    (∀ address, 0xfea0 ≤ address → address < 0xff00 → b.peek address = 0xff) ∧
    (covered → b.bootMapped = true ∧
      ∀ address < 0x100, b.peek address = bootImage.readOpen address.toNat) ∧
    (¬covered → ∀ more, let c := ((s.run events).run more).bus
      c.bootMapped = false ∧ ∀ address < 0x100, c.peek address = c.controller.read address) := by
  intro s b driven covered
  have hnew : s.bus.Wired bootImage [] fun _ => false := Board.wired_new bootImage controller
  have h : b.Wired bootImage (s.written events) (pressed events) := by
    have hw := wired_run hnew events
    rw [List.append_nil] at hw
    exact hw
  have hjoypad : b.peek Cell.joypad = b.joypad.read driven :=
    Joypad.read_congr b.joypad h.lines
  obtain ⟨hones, hlines⟩ := b.joypad.read_upper driven
  refine ⟨?_, h.control, ?_, ?_, ?_, ?_, ?_, ?_⟩
  · have hr : (Board.new bootImage controller).memory.get Cell.requests = 0xe0 := by
      simp [Board.new, Memory.get_set, Cell.requests, Cell.boot]
    refine requests_run hnew.unhooked hnew.bounded ?_ events
    exact (congrArg (· &&& 0xe0) hr).trans rfl
  · rw [hjoypad, hones]
  · rw [hjoypad, hlines]
  · intro n hn
    rw [hjoypad, Joypad.testBit_read _ _ hn, h.buttons]
  · intro address hl hu
    have hr : Region.of address = .unusable :=
      Region.of_eq_iff.2 ⟨UInt16.le_iff_toNat_le.1 hl, UInt16.lt_iff_toNat_lt.1 hu⟩
    unfold Board.peek
    rw [hr]
  · intro hc
    have hm : b.bootMapped = true := h.mapped.2 hc
    refine ⟨hm, ?_⟩
    intro address ha
    rw [Board.peek_of_lt b ha, if_pos hm, h.bootImage]
  · intro hc more c
    have hmore := wired_run h more
    have hm : c.bootMapped = false := by
      rw [Bool.eq_false_iff, ne_eq, hmore.mapped]
      rintro ⟨hi, hv⟩
      exact hc ⟨hi, fun v hw => hv v (List.mem_append_right _ hw)⟩
    refine ⟨hm, ?_⟩
    intro address ha
    rw [Board.peek_of_lt c ha, hm, if_neg Bool.false_ne_true]

end Machine
end DotMatrix
