import DotMatrix.Proofs.Board.Image
import DotMatrix.Proofs.Board.Watching
import DotMatrix.Proofs.Device.TimeBase
import DotMatrix.Proofs.Interrupt.Enabling

/-! # Where a device stops

A breakpoint on an instruction stops a device whenever it arrives there, once: the place to resume
tells an arrival from a step that goes on. A watched access stops it at the end of its step. Since
each step collects what it has caught, and nothing but the processor passes the watch list, every
hit belongs to the step that tells of it.
-/
namespace DotMatrix

/-- Peripherals whose accesses do not pass the watch list. -/
def Discreet (π : Type) [Peripheral π Board] : Prop :=
  ∀ (q : π) (b : Board) (cycles : Nat), (Peripheral.tick q b cycles).2.2.watch = b.watch

theorem Requesting.discreet {π : Type} [Peripheral π Board] (hπ : Requesting π) : Discreet π := by
  intro q b cycles
  obtain ⟨sources, hr⟩ := hπ q b cycles
  rw [hr]
  rfl

namespace Machine

theorem watched_carryOut {s : Machine Board} {l : Breakpoints} (h : s.bus.watch = l.watch)
    (fetched : Option Instruction) : Board.Watched l (s.accessed.carryOut fetched).2.bus := by
  have hstart : Board.Watched l s.accessed.bus :=
    ⟨congrArg Watch.reads h, congrArg Watch.writes h, congrArg Watch.hit h⟩
  have hinv := Board.busInvariant_watched l
  exact kept_service hinv (kept_proceed hinv hstart fetched) fun hr v => hr.poke Cell.requests v

end Machine

namespace Device
variable {ι ρ π : Type}

section Instruction
variable {d : Device Board ι ρ π} {event : BreakEvent}

/-- A breakpoint stands at the program counter, or on the byte there. -/
def Carries (d : Device Board ι ρ π) : Prop :=
  .address d.pc ∈ d.breakpoints ∨ .opcode (d.board.peek d.pc) ∈ d.breakpoints

def due (d : Device Board ι ρ π) : BreakEvent :=
  if .address d.pc ∈ d.breakpoints then .address d.pc else .opcode (d.board.peek d.pc) d.pc

theorem breaksAt_eq_true_iff :
    d.breakpoints.breaksAt d.pc = true ↔ .address d.pc ∈ d.breakpoints := List.contains_iff_mem

theorem breaksOn_eq_true_iff :
    d.breakpoints.breaksOn (Bus.peek d.machine.bus d.pc) = true ↔
      .opcode (d.board.peek d.pc) ∈ d.breakpoints := List.contains_iff_mem

theorem breakEvent?_of_carries (hc : d.Carries) (hi : d.cpu.idle = false)
    (hr : d.resumeAt ≠ some d.pc) : d.breakEvent? = some d.due := by
  have hne : d.breakpoints.isEmpty = false := by
    rw [List.isEmpty_eq_false_iff]
    rintro hnil
    rcases hc with hc | hc
    all_goals
      rw [hnil] at hc
      cases hc
  have hb : d.breakable = true := by simp [breakable, hne, hi, hr]
  unfold breakEvent? due
  rw [hb, Bool.not_true, if_neg Bool.false_ne_true]
  by_cases ha : .address d.pc ∈ d.breakpoints
  · rw [if_pos (breaksAt_eq_true_iff.2 ha), if_pos ha]
  · have ho := hc.resolve_left ha
    rw [if_neg (mt breaksAt_eq_true_iff.1 ha), if_neg ha]
    exact if_pos (breaksOn_eq_true_iff.2 ho)

theorem carries_of_breakEvent? (h : d.breakEvent? = some event) :
    d.Carries ∧ d.cpu.idle = false ∧ event = d.due := by
  unfold breakEvent? at h
  split at h
  · cases h
  · rename_i hb
    have hi : d.cpu.idle = false := by
      simp only [breakable, Bool.not_and, Bool.not_not, Bool.or_eq_true, not_or,
        Bool.not_eq_true] at hb
      exact hb.2
    split at h
    · rename_i ha
      cases h
      exact ⟨.inl (breaksAt_eq_true_iff.1 ha), hi, (if_pos (breaksAt_eq_true_iff.1 ha)).symm⟩
    · rename_i ha
      dsimp only at h
      split at h
      · rename_i ho
        cases h
        exact ⟨.inr (breaksOn_eq_true_iff.1 ho), hi,
          (if_neg (mt breaksAt_eq_true_iff.2 ha)).symm⟩
      · cases h

end Instruction

section Time
variable [Keypad ι] [Screen ρ] [Peripheral π Board]

theorem quiet_watch (w : Watch) : Board.Quiet fun b => b.watch = w where
  request h _ := h
  button h _ _ := h

/-- Time passes the watch list by. -/
theorem watch_passTime (hπ : Discreet π) (d : Device Board ι ρ π) (n : Nat) :
    (d.passTime n).board.watch = d.board.watch := by
  have ht : ((d.board.tickTimer n).tick n).watch = d.board.watch :=
    Board.watch_tick (d.board.tickTimer n) n
  have hq : (d.afterPeripherals n).board.watch = d.board.watch :=
    kept_tickPeripherals (fun q b cycles hb => (hπ q b cycles).trans hb) n d.peripherals ht d.screen
  exact kept_countInput (quiet_watch d.board.watch) n hq

end Time

/-- The data accesses of the next step in their order, those of its interrupt check included. -/
def accesses (d : Device Board ι ρ π) : List WatchHit :=
  match d.breakEvent?, d.machine.fetch with
  | none, .ok fetched => (d.machine.accessed.carryOut fetched).2.bus.accesses.reverse
  | _, _ => []

section Step
variable {d : Device Board ι ρ π} {l : Breakpoints} {fetched : Option Instruction}

/-- The hit that a step collects is the first access of its own that a breakpoint asks for. -/
theorem watch_processed (h : d.board.watch = l.watch) (hb : d.breakEvent? = none)
    (hf : d.machine.fetch = .ok fetched) :
    (d.processed fetched).board.watch =
      ⟨l.watch.reads, l.watch.writes, d.accesses.find? l.catches⟩ := by
  have hw := Machine.watched_carryOut h fetched
  have hbus : (d.processed fetched).board = (d.machine.accessed.carryOut fetched).2.bus.bus :=
    congrArg (·.2.bus) (d.machine.accessed.carryOut_mapBus busMap_accessed fetched)
  have ha : d.accesses = (d.machine.accessed.carryOut fetched).2.bus.accesses.reverse := by
    unfold accesses
    rw [hb, hf]
  rw [hbus, ha, ← hw.reads, ← hw.writes, ← hw.hit]

theorem settleWatch_eq (d : Device Board ι ρ π) (address : UInt16) (n : Nat) :
    (d.settleWatch address n).1 =
        d.board.watch.hit.elim (.executed n) (fun hit => .paused (.watch hit address)) ∧
      (d.settleWatch address n).2.board.watch = { d.board.watch with hit := none } := by
  unfold settleWatch
  cases hh : d.board.watch.hit with
  | none => exact ⟨rfl, congrArg (fun hit => { d.board.watch with hit }) hh⟩
  | some hit => exact ⟨rfl, rfl⟩

variable [Keypad ι] [Screen ρ] [Peripheral π Board]

theorem watch_step (hπ : Discreet π) (h : d.board.watch = l.watch) :
    d.step.2.board.watch = l.watch ∧
      ∀ hit pc, d.step.1 = .ok (.paused (.watch hit pc)) ↔
        d.accesses.find? l.catches = some hit ∧ pc = d.pc := by
  -- Without accesses there is nothing to catch, and a step that is not carried out makes none.
  have uncaught (ha : d.accesses = [])
      (hout : ∀ hit pc, d.step.1 ≠ .ok (.paused (.watch hit pc))) (hit : WatchHit) (pc : UInt16) :
      d.step.1 = .ok (.paused (.watch hit pc)) ↔
        d.accesses.find? l.catches = some hit ∧ pc = d.pc := by
    rw [ha]
    exact ⟨fun hs => absurd hs (hout hit pc), fun hs => nomatch hs.1⟩
  cases hb : d.breakEvent? with
  | some event =>
    have ha : d.accesses = [] := by
      unfold accesses
      rw [hb]
    refine ⟨(congrArg (·.2.board.watch) (step_of_breakEvent hb)).trans h, uncaught ha ?_⟩
    intro hit pc hs
    have hbefore := (pausedBefore_iff d).2 (hb ▸ Option.some_ne_none event)
    rw [hs] at hbefore
    cases hbefore
  | none =>
    cases hf : d.machine.fetch with
    | error fault =>
      have ha : d.accesses = [] := by
        unfold accesses
        rw [hb, hf]
      have hs := step_of_fetch_error hb hf
      refine ⟨(congrArg (·.2.board.watch) hs).trans h, uncaught ha ?_⟩
      rw [hs]
      nofun
    | ok fetched =>
      let cost := (d.machine.carryOut fetched).1
      let after := (d.processed fetched).passTime cost
      have hw : after.board.watch = _ :=
        (watch_passTime hπ (d.processed fetched) cost).trans (watch_processed h hb hf)
      have hs : d.step = (.ok (after.settleWatch d.pc cost).1, (after.settleWatch d.pc cost).2) :=
        step_of_fetch_ok hb hf
      obtain ⟨hout, hcollected⟩ := settleWatch_eq after d.pc cost
      rw [hw] at hout hcollected
      rw [hs, hout]
      refine ⟨hcollected, fun hit pc => ?_⟩
      cases d.accesses.find? l.catches with
      | none => simp
      | some first => simp [eq_comm]

/-- The place to resume is where the last step has paused before an instruction. -/
theorem resumeAt_step (d : Device Board ι ρ π) :
    d.step.2.resumeAt = if pausedBefore d.step.1 then some d.pc else none := by
  have hpace := step_pace d
  generalize d.step.1 = outcome at hpace ⊢
  cases hpace with
  | paused hdue _ hsteady =>
    rw [pausedBefore_breakEvent hdue]
    exact hsteady.resumeAt
  | failed hsteady => exact hsteady.resumeAt
  | executed _ hsteady => exact hsteady.resumeAt
  | watched _ hsteady => exact hsteady.resumeAt

/-- After a pause before an instruction the device still stands there. -/
theorem step_of_pausedBefore_due (h : pausedBefore d.step.1 = true) :
    d.step.1 = .ok (.paused d.step.2.due) := by
  cases hb : d.breakEvent? with
  | some event =>
    obtain ⟨-, -, rfl⟩ := carries_of_breakEvent? hb
    rw [step_of_breakEvent hb]
    rfl
  | none => exact absurd hb ((pausedBefore_iff d).1 h)

end Step

section Run
variable [Keypad ι] [Screen ρ] [Peripheral π Board] {start : Device Board ι ρ π} {k : Nat}

theorem breakpoints_steps (start : Device Board ι ρ π) (k : Nat) :
    (start.steps k).breakpoints = start.breakpoints := by
  induction k with
  | zero => rfl
  | succ k ih => exact (breakpoints_step _).trans ih

theorem watch_steps (hπ : Discreet π) {l : Breakpoints} (h : start.board.watch = l.watch)
    (k : Nat) : (start.steps k).board.watch = l.watch := by
  induction k with
  | zero => exact h
  | succ k ih => exact (watch_step hπ ih).1

/-- A device that is to resume where it stands has paused there in the step before. -/
theorem paused_of_resumeAt (h : start.resumeAt = none)
    (hr : (start.steps k).resumeAt = some (start.steps k).pc) :
    ∃ j, k = j + 1 ∧ (start.steps j).step.1 = .ok (.paused (start.steps k).due) := by
  cases k with
  | zero =>
    rw [steps, h] at hr
    cases hr
  | succ j =>
    refine ⟨j, rfl, step_of_pausedBefore_due ?_⟩
    cases hp : pausedBefore (start.steps j).step.1 with
    | true => rfl
    | false =>
      have hnone := resumeAt_step (start.steps j)
      rw [hp, if_neg Bool.false_ne_true] at hnone
      rw [steps, hnone] at hr
      cases hr

end Run

theorem debugging_powerOn [Screen ρ] {bootImage : Option Bytes} {image : Bytes} {keypad : ι}
    {screen : ρ} {l : Breakpoints} {d₀ : Device Board ι ρ π}
    (h : powerOn id bootImage image keypad screen l = .ok d₀) :
    d₀.resumeAt = none ∧ d₀.breakpoints = l ∧ d₀.board.watch = l.watch := by
  rw [powerOn_eq] at h
  cases hf : fitted bootImage image with
  | error fault =>
    rw [hf] at h
    cases h
  | ok parts =>
    rw [hf] at h
    cases h
    cases bootImage with
    | none => exact ⟨rfl, rfl, rfl⟩
    | some bytes => exact ⟨rfl, rfl, rfl⟩

/-- Stops are exact on every run of a device whose peripherals keep to themselves. A device that is
not asleep stops where an instruction carries a breakpoint unless it has just stopped there, tells
of the address before the opcode, and moves nothing but the place to resume; so the instruction is
carried out right after such a stop only, and no two of these stops follow each other. A step tells
of a watched access if its own instruction or interrupt check has made one, of the first that a
breakpoint asks for, and of where the step began. -/
theorem stops_are_exact [Keypad ι] [Screen ρ] [Peripheral π Board] (hπ : Discreet π)
    {bootImage : Option Bytes} {image : Bytes} {keypad : ι} {screen : ρ} {l : Breakpoints}
    {d₀ : Device Board ι ρ π} (hd₀ : powerOn id bootImage image keypad screen l = .ok d₀)
    (peripherals : List π) (k : Nat) :
    let turn (n : Nat) := (peripherals.foldl attach d₀).steps n
    let d := turn k
    let carried := .address d.pc ∈ l ∨ .opcode (d.board.peek d.pc) ∈ l
    let stop : BreakEvent :=
      if .address d.pc ∈ l then .address d.pc else .opcode (d.board.peek d.pc) d.pc
    let stopped := ∃ j, k = j + 1 ∧ (turn j).step.1 = .ok (.paused stop)
    (carried → d.cpu.idle = false → ¬stopped →
      d.step = (.ok (.paused stop), { d with resumeAt := some d.pc })) ∧
    (carried → d.cpu.idle = false → pausedBefore d.step.1 = false → stopped) ∧
    (pausedBefore d.step.1 = true →
      carried ∧ d.cpu.idle = false ∧ d.step.1 = .ok (.paused stop) ∧
        pausedBefore d.step.2.step.1 = false) ∧
    (∀ hit pc, d.step.1 = .ok (.paused (.watch hit pc)) ↔
      d.accesses.find? l.catches = some hit ∧ pc = d.pc) := by
  intro turn d carried stop stopped
  obtain ⟨hresume, hl, hw⟩ := debugging_powerOn hd₀
  have hstart : peripherals.foldl attach d₀ = d₀.withPeripherals (d₀.peripherals ++ peripherals) :=
    foldl_attach peripherals d₀
  have hnone : (peripherals.foldl attach d₀).resumeAt = none := hstart ▸ hresume
  have hwatch : (peripherals.foldl attach d₀).board.watch = l.watch := hstart ▸ hw
  have hbreakpoints : d.breakpoints = l :=
    ((breakpoints_steps _ k).trans (breakpoints_attach peripherals d₀)).trans hl
  have hcarried : d.Carries ↔ carried := by
    unfold Carries
    rw [hbreakpoints]
  have hstop : d.due = stop := by
    unfold due
    rw [hbreakpoints]
  have hstopped (hr : d.resumeAt = some d.pc) : stopped := by
    obtain ⟨j, hk, hj⟩ := paused_of_resumeAt hnone hr
    exact ⟨j, hk, hj.trans (congrArg (Except.ok ∘ StepOutcome.paused) hstop)⟩
  refine ⟨?_, ?_, ?_, ?_⟩
  · intro hc hi hfirst
    rw [← hstop]
    exact step_of_breakEvent (breakEvent?_of_carries (hcarried.2 hc) hi (mt hstopped hfirst))
  · intro hc hi hp
    apply hstopped
    apply Decidable.byContradiction
    intro hr
    have hb := breakEvent?_of_carries (hcarried.2 hc) hi hr
    rw [(pausedBefore_iff d).2 (hb ▸ Option.some_ne_none _)] at hp
    cases hp
  · intro hp
    cases hb : d.breakEvent? with
    | none => exact absurd hb ((pausedBefore_iff d).1 hp)
    | some event =>
      obtain ⟨hc, hi, rfl⟩ := carries_of_breakEvent? hb
      refine ⟨hcarried.1 hc, hi, ?_, pausedBefore_step_step hp id⟩
      rw [step_of_breakEvent hb, hstop]
  · exact (watch_step hπ (watch_steps hπ hwatch k)).2

section Store

/-- A store into the divider while no interrupt is enabled is the only access of its step. -/
theorem accesses_of_store {d : Device Board ι ρ π} (hbreak : d.breakEvent? = none)
    (hfetch : d.machine.fetch = .ok (some (.storeAHigh 0x04))) (hb : d.board.hooks = [])
    (he : d.board.memory.get Cell.enables = 0) :
    d.accesses = [⟨.write, Cell.div, d.cpu.registers.a⟩] := by
  let r := (d.machine.accessed.proceed (some (.storeAHigh 0x04))).2
  have hpending : Machine.pending r.bus = 0 :=
    Machine.pending_write_of_disabled hb he (by decide) d.cpu.registers.a
  have hquiet : r.service = (0, r) := Machine.service_of_pending_eq_zero hpending
  unfold accesses
  rw [hbreak, hfetch]
  change r.service.2.bus.accesses.reverse = _
  rw [hquiet]
  rfl

/-- A program that begins with a store into the divider, under a breakpoint on its opcode and one
on the cell: the device stops before the store, and again after it. -/
theorem stops_are_exact_at_store :
    let image : Bytes :=
      ((Bytes.zeros Header.size).setIfInBounds 0x100 0xe0).setIfInBounds 0x101 0x04
    ∃ d₀ : Device Board NoKeypad FrameCounter FramePulse,
      powerOn id none image ⟨⟩ ⟨0⟩ [.opcode 0xe0, .write Cell.div] = .ok d₀ ∧
      let start := [⟨0⟩].foldl attach d₀
      start.step.1 = .ok (.paused (.opcode 0xe0 0x100)) ∧
        start.step.2.step.1 = .ok (.paused (.watch ⟨.write, Cell.div, 0x01⟩ 0x100)) := by
  intro image
  have hsize : ¬image.size < Header.size := by simp [image]
  have htype : (Header.read image).type = 0x00 := by
    simp [image, Header.read, Bytes.readOpen, Bytes.zeros, Header.size]
  have hopcode : Bytes.readOpen image 0x100 = 0xe0 := by
    simp [image, Bytes.readOpen, Bytes.zeros, Header.size]
  have hoperand : Bytes.readOpen image 0x101 = 0x04 := by
    simp [image, Bytes.readOpen, Bytes.zeros, Header.size]
  clear_value image
  let l : Breakpoints := [.opcode 0xe0, .write Cell.div]
  let d₀ : Device Board NoKeypad FrameCounter FramePulse :=
    built none ⟨⟩ ⟨0⟩ l (Header.read image, .rom image)
  have hd₀ : powerOn id none image ⟨⟩ ⟨0⟩ l = .ok d₀ := by
    rw [powerOn_eq, fitted_rom hsize htype]
    rfl
  let start := [⟨0⟩].foldl attach d₀
  have hplays : start.board.Plays image := ⟨rfl, rfl, rfl⟩
  have hbyte : start.board.peek 0x100 = 0xe0 := (hplays.peek (by decide)).trans hopcode
  have hat : Instruction.at? (fun address => image.readOpen address.toNat) 0x100 =
      some (.storeAHigh 0x04) := by
    change Instruction.ofBytes? (image.readOpen 0x100) (image.readOpen 0x101) _ = _
    rw [hopcode, hoperand]
    rfl
  have hfetch : start.machine.fetch = .ok (some (.storeAHigh 0x04)) :=
    Machine.fetch_of_plays hplays rfl (show (0x100 : UInt16) < 0x7ffe by decide) hat
  have henables : start.board.memory.get Cell.enables = 0 := by
    change (initialBoard none (.rom image) l).memory.get Cell.enables = 0
    simp [initialBoard, Board.new, Board.skipBoot, Board.postBootCells, Memory.get_set,
      Cell.joypad, Cell.div, Cell.tac, Cell.requests, Cell.display, Cell.backgroundPalette,
      Cell.objectPalette0, Cell.objectPalette1, Cell.boot, Cell.enables]
  obtain ⟨hstop, -⟩ := stops_are_exact requesting_framePulse.discreet hd₀ [⟨0⟩] 0
  obtain ⟨-, -, -, hwatch⟩ := stops_are_exact requesting_framePulse.discreet hd₀ [⟨0⟩] 1
  have hcarried : Breakpoint.opcode (start.board.peek 0x100) ∈ l := by
    rw [hbyte]
    decide
  have hplain : Breakpoint.address 0x100 ∉ l := by decide
  have hpause : start.step =
      (.ok (.paused (.opcode 0xe0 0x100)), { start with resumeAt := some 0x100 }) := by
    have hs := hstop (.inr hcarried) rfl (by rintro ⟨j, hj, -⟩; omega)
    rw [← hbyte]
    refine hs.trans ?_
    exact congrArg (fun event => (Except.ok (StepOutcome.paused event), _)) (if_neg hplain)
  have hresumed : start.step.2 = { start with resumeAt := some 0x100 } := congrArg Prod.snd hpause
  have hunbroken : start.step.2.breakEvent? = none := by
    rw [hresumed]
    exact breakEvent?_of_resumeAt rfl
  have hcaught : start.step.2.accesses = [⟨.write, Cell.div, 0x01⟩] := by
    rw [hresumed] at hunbroken ⊢
    exact accesses_of_store hunbroken hfetch rfl henables
  refine ⟨d₀, hd₀, congrArg Prod.fst hpause, (hwatch _ _).2 ⟨?_, ?_⟩⟩
  · change start.step.2.accesses.find? l.catches = _
    rw [hcaught]
    decide
  · change _ = start.step.2.pc
    rw [hresumed]
    rfl

end Store

end Device
end DotMatrix
