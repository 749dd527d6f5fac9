import DotMatrix.Proofs.Cartridge.Calendar
import DotMatrix.Proofs.Device.Battery
import DotMatrix.Proofs.Device.Meter

/-! # One time base

The cycle counter of a device, its peripherals, the counter of its timer and the clock on its
cartridge are moved in different places of a step. They never drift apart: each of them can be told
from what the executed steps have cost, and from where the counter was last cleared.
-/
namespace DotMatrix

namespace Executed
variable {start : UInt16} {log newer older : List Executed}

theorem spent_append (newer older : List Executed) :
    spent (newer ++ older) = spent newer + spent older := by
  induction newer with
  | nil => exact (Nat.zero_add _).symm
  | cons x newer ih =>
    change spent (newer ++ older) + x.cost = spent newer + x.cost + spent older
    rw [ih, Nat.add_right_comm]

/-- As long as nothing clears it, the counter moves with the time. -/
theorem counter_append (h : ∀ x ∈ newer, clearsCounter x.writes = false) :
    counter start (newer ++ older) = counter start older + UInt16.ofNat (spent newer) := by
  induction newer with
  | nil => exact (UInt16.add_zero _).symm
  | cons x newer ih =>
    have hx : clearsCounter x.writes = false := h x List.mem_cons_self
    have hnewer := ih fun y hy => h y (List.mem_cons_of_mem x hy)
    rw [List.cons_append, counter, hx, if_neg Bool.false_ne_true, hnewer, spent,
      UInt16.ofNat_add, UInt16.add_assoc]

theorem counter_of_kept (h : ∀ x ∈ log, clearsCounter x.writes = false) :
    (counter start log).toNat = (start.toNat + spent log) % 0x10000 := by
  have ha : counter start (log ++ []) = start + UInt16.ofNat (spent log) := counter_append h
  rw [List.append_nil] at ha
  rw [ha, UInt16.toNat_add, UInt16.toNat_ofNat', Nat.add_mod_mod]

/-- A step that clears the counter counts from its own beginning. -/
theorem counter_of_cleared {x : Executed} (hx : clearsCounter x.writes = true)
    (h : ∀ y ∈ newer, clearsCounter y.writes = false) :
    (counter start (newer ++ x :: older)).toNat = spent (newer ++ [x]) % 0x10000 := by
  have hc : counter start (x :: older) = UInt16.ofNat x.cost := by
    rw [counter, if_pos hx, UInt16.zero_add]
  have hspent : spent (newer ++ [x]) = x.cost + spent newer := by
    rw [spent_append, Nat.add_comm, spent, spent, Nat.zero_add]
  rw [counter_append h, hc, hspent, ← UInt16.ofNat_add]
  exact UInt16.toNat_ofNat'

end Executed

namespace Controller
open Executed

theorem ticked_append (newer older : List Event) :
    ticked (newer ++ older) = ticked newer + ticked older := by
  induction newer with
  | nil => exact (Nat.zero_add _).symm
  | cons e newer ih => cases e <;> simp [ticked, ih, Nat.add_right_comm]

theorem ticked_slotEvents (writes : List (UInt16 × UInt8)) : ticked (slotEvents writes) = 0 := by
  induction writes with
  | nil => rfl
  | cons w writes ih =>
    unfold slotEvents
    rw [List.filter_cons]
    split
    · exact ih
    · exact ih

/-- A cartridge sees all the time that its device has spent. -/
theorem ticked_history (log : List Executed) : ticked (history log) = spent log := by
  induction log with
  | nil => rfl
  | cons x log ih =>
    have hh : history (x :: log) = (.tick x.cost :: slotEvents x.writes) ++ history log := rfl
    rw [hh, ticked_append, ih, ticked, ticked_slotEvents, Nat.zero_add, Nat.add_comm, spent]

end Controller

section Header
variable {header : Header} {image : Bytes} {c : Controller}

theorem Header.controller_of_hasClock (h : header.hasClock = true)
    (hc : header.controller image = .ok c) :
    c = (Banking.mbc3 true).build image header.ramBanks header.hasBattery := by
  have htype : header.type = 0x0f ∨ header.type = 0x10 := by simpa [hasClock] using h
  unfold Header.controller at hc
  rw [h] at hc
  rcases htype with ht | ht
  all_goals
    rw [ht] at hc
    exact (Except.ok.inj hc).symm

end Header

namespace Machine

/-- Nothing waits after a write, if no interrupt is enabled before it nor by it. -/
theorem pending_write_of_disabled {b : Board} (hb : b.hooks = [])
    (he : b.memory.get Cell.enables = 0) {address : UInt16} (ha : address ≠ Cell.enables)
    (v : UInt8) : pending (b.write address v) = 0 := by
  have hw : (b.write address v).memory.get Cell.enables = 0 :=
    (Board.get_write_of_ne hb address v (by decide) (by decide) ha).trans he
  change Interrupt.sources ((b.write address v).memory.get Cell.enables &&& _) = 0
  rw [hw, UInt8.zero_and]
  rfl

end Machine

theorem Mbc3.read_low (m : Mbc3) (address : UInt16) (h : address.toNat < 0x4000) :
    m.read address = m.rom.readOpen address.toNat := by
  have hlow : address < 0x4000 := UInt16.lt_iff_toNat_lt.2 h
  have hoffset : 0 * Bank.romSize + address.toNat % Bank.romSize = address.toNat := by
    rw [Nat.zero_mul, Nat.zero_add]
    exact Nat.mod_eq_of_lt h
  unfold Mbc3.read Bank.romByte
  rw [if_pos hlow, hoffset]

namespace Device
open Executed

section Start
variable {ι ρ π : Type} {bootImage : Option Bytes} {image : Bytes} {keypad : ι} {screen : ρ}
  {l : Breakpoints} {d : Device Board ι ρ π}

/-- Where the counter of the timer begins; a boot image would leave it further on. -/
def startCounter (bootImage : Option Bytes) : UInt16 :=
  if bootImage.isSome then 0 else Timer.postBootCounter

theorem synced_powerOn [Screen ρ] (h : powerOn id bootImage image keypad screen l = .ok d) :
    d.board.Synced ∧ d.board.timer.counter = startCounter bootImage ∧ d.cycles = 0 ∧
      d.peripherals = [] := by
  rw [powerOn_eq] at h
  cases hf : fitted bootImage image with
  | error fault =>
    rw [hf] at h
    cases h
  | ok parts =>
    rw [hf] at h
    cases h
    cases bootImage with
    | none => exact ⟨(Board.synced_start #[] parts.2 true).watched l.watch, rfl, rfl, rfl⟩
    | some bytes => exact ⟨(Board.synced_start bytes parts.2 false).watched l.watch, rfl, rfl, rfl⟩

theorem foldl_attach (peripherals : List π) (d : Device Board ι ρ π) :
    peripherals.foldl attach d = d.withPeripherals (d.peripherals ++ peripherals) := by
  induction peripherals generalizing d with
  | nil =>
    rw [List.append_nil]
    rfl
  | cons p peripherals ih =>
    rw [List.foldl_cons, ih, List.append_cons]
    rfl

end Start

section Outcome
variable {ι ρ π : Type} [Keypad ι] [Screen ρ] [Peripheral π Board] {d : Device Board ι ρ π}

theorem outcome_of_executed? {x : Executed} (h : d.executed? = some x) :
    d.step.1 = .ok (.executed x.cost) ∨ ∃ hit, d.step.1 = .ok (.paused (.watch hit d.pc)) := by
  obtain ⟨fetched, -, -, hs⟩ := step_of_executed?_some h
  obtain ⟨-, hout⟩ := steady_settleWatch ((d.processed fetched).passTime x.cost) d.pc x.cost
  rw [hs]
  rcases hout with hout | ⟨hit, hout⟩
  · exact .inl (congrArg Except.ok hout)
  · exact .inr ⟨hit, congrArg Except.ok hout⟩

/-- A pause before an instruction and a fault leave no record and move no clock. -/
theorem step_of_held (h : pausedBefore d.step.1 = true ∨ fault? d.step.1 ≠ none) :
    d.executed? = none ∧ ∃ resumeAt, d.step.2 = { d with resumeAt } := by
  have hx : d.executed? = none := by
    cases hx : d.executed? with
    | none => rfl
    | some x =>
      rcases outcome_of_executed? hx with hout | ⟨hit, hout⟩
      all_goals
        rw [hout] at h
        simp [pausedBefore, fault?] at h
  exact ⟨hx, (step_of_executed?_none hx).2⟩

/-- Every other step is on record, whether it tells its cost or a watched access. -/
theorem step_of_carried (hp : pausedBefore d.step.1 = false) (hf : fault? d.step.1 = none) :
    ∃ x, d.executed? = some x ∧
      (d.step.1 = .ok (.executed x.cost) ∨ ∃ hit, d.step.1 = .ok (.paused (.watch hit d.pc))) := by
  cases hx : d.executed? with
  | none =>
    rcases (step_of_executed?_none hx).1 with hpaused | hfault
    · rw [hp] at hpaused
      cases hpaused
    · exact absurd hf hfault
  | some x => exact ⟨x, rfl, outcome_of_executed? hx⟩

end Outcome

section Base
variable {ι ρ π : Type} [Keypad ι] [Screen ρ] [Peripheral π Board]

/-- All clocks of a device run on one time base. After any number of steps of a device with any
peripherals that only request interrupts, its cycles are what the steps on record have cost, and
each peripheral has been given just as many. The counter of the timer has moved by as many from
where it began or, once a step has cleared it, by the cost of the steps since the last one that did;
the divider shows its upper byte. A clock on the cartridge that was never set has counted the same
cycles. A pause before an instruction and a fault move none of this; every other step is on
record. -/
theorem one_time_base (hπ : Requesting π) {bootImage : Option Bytes} {image : Bytes} {keypad : ι}
    {screen : ρ} {l : Breakpoints} {d₀ : Device Board ι ρ π}
    (hd₀ : powerOn id bootImage image keypad screen l = .ok d₀) (peripherals : List π) (n : Nat) :
    let start := peripherals.foldl attach d₀
    let d := start.steps n
    let log := start.log n
    d.cycles = spent log ∧
    ((start.metered.steps n).unmetered = d ∧
      (start.metered.steps n).peripherals.map Metered.given =
        List.replicate peripherals.length d.cycles) ∧
    ((∀ x ∈ log, clearsCounter x.writes = false) →
      d.board.timer.counter.toNat = ((startCounter bootImage).toNat + d.cycles) % 0x10000) ∧
    (∀ newer x older, log = newer ++ x :: older → clearsCounter x.writes = true →
      (∀ y ∈ newer, clearsCounter y.writes = false) →
      d.board.timer.counter.toNat = spent (newer ++ [x]) % 0x10000) ∧
    (d.board.read Cell.div).1 = (d.board.timer.counter >>> 8).toUInt8 ∧
    (d₀.header.hasClock = true → Banking.ClockUnset (history log) →
      ∃ clock, d.board.controller.clock? = some clock ∧ clock.Running ∧
        clock.elapsed = d.cycles % RealTimeClock.range) ∧
    ∀ e : Device Board ι ρ π,
      (pausedBefore e.step.1 = true ∨ fault? e.step.1 ≠ none →
        e.executed? = none ∧ ∃ resumeAt, e.step.2 = { e with resumeAt }) ∧
      (pausedBefore e.step.1 = false → fault? e.step.1 = none →
        ∃ x, e.executed? = some x ∧ (e.step.1 = .ok (.executed x.cost) ∨
          ∃ hit, e.step.1 = .ok (.paused (.watch hit e.pc)))) := by
  intro start d log
  obtain ⟨hsynced, hcounter, hcycles, hnone⟩ := synced_powerOn hd₀
  obtain ⟨-, hslot⟩ := controller_powerOn hd₀
  have hstart : start = d₀.withPeripherals peripherals := by
    have ha := foldl_attach peripherals d₀
    rw [hnone] at ha
    exact ha
  have hboard : start.board = d₀.board := hstart ▸ rfl
  have hzero : start.cycles = 0 := hstart ▸ hcycles
  have hlength : start.peripherals.length = peripherals.length := hstart ▸ rfl
  obtain ⟨hspent, hstanding⟩ := accounted_steps hπ (hboard ▸ hsynced) n
  obtain ⟨hplain, htime⟩ := metered_steps start n
  rw [hzero, Nat.zero_add] at hspent
  rw [hboard, hcounter] at hstanding
  have hmetered : (start.metered.steps n).cycles = d.cycles := congrArg cycles hplain
  unfold InTime at htime
  simp only [hzero, hlength, hmetered, Nat.zero_add] at htime
  refine ⟨hspent, ⟨hplain, htime⟩, ?_, ?_, ?_, ?_, fun e => ⟨step_of_held, step_of_carried⟩⟩
  · intro hkept
    rw [hstanding.counter, counter_of_kept hkept, ← hspent]
  · intro newer x older hlog hx hnewer
    rw [hstanding.counter]
    change (counter _ log).toNat = _
    rw [hlog, counter_of_cleared hx hnewer]
  · exact hstanding.synced.inStep.div
  · intro hclock hunset
    rw [Header.controller_of_hasClock hclock hslot] at hstanding
    obtain ⟨clock, hc, hrunning, helapsed⟩ := Controller.clock?_running image d₀.header.ramBanks
      d₀.header.hasBattery (history log) hunset
    refine ⟨clock, (congrArg Controller.clock? hstanding.slot).trans hc, hrunning, ?_⟩
    rw [helapsed, Controller.ticked_history, ← hspent]

end Base

section Cleared

theorem requesting_framePulse : Requesting FramePulse := by
  intro q b cycles
  unfold Peripheral.tick instPeripheralFramePulseBoard
  dsimp only
  split
  · exact ⟨0, (Board.request_zero b).symm⟩
  · exact ⟨_, rfl⟩

/-- A store into the divider while no interrupt is enabled. -/
theorem executed?_of_store {ι ρ π : Type} {d : Device Board ι ρ π} (hbreak : d.breakpoints = [])
    (hfetch : d.machine.fetch = .ok (some (.storeAHigh 0x04))) (hb : d.board.hooks = [])
    (he : d.board.memory.get Cell.enables = 0) :
    d.executed? = some ⟨12, [(Cell.div, d.cpu.registers.a)]⟩ := by
  let r := (d.machine.recorded.proceed (some (.storeAHigh 0x04))).2
  have hpending : Machine.pending r.bus = 0 :=
    Machine.pending_write_of_disabled hb he (by decide) d.cpu.registers.a
  have hquiet : r.service = (0, r) := Machine.service_of_pending_eq_zero hpending
  unfold executed?
  rw [breakEvent?_of_isEmpty hbreak, hfetch]
  dsimp only
  rw [Machine.recorded_carryOut]
  unfold Machine.carryOut
  change some (⟨_ + r.service.1, r.service.2.bus.writes⟩ : Executed) = _
  rw [hquiet]
  rfl

/-- A program that clears the divider at once, on a cartridge with a clock. -/
theorem one_time_base_cleared :
    let image := (((Bytes.zeros Header.size).setIfInBounds 0x100 0xe0).setIfInBounds 0x101
      0x04).setIfInBounds 0x147 0x0f
    ∃ d₀ : Device Board NoKeypad FrameCounter FramePulse,
      powerOn id none image ⟨⟩ ⟨0⟩ [] = .ok d₀ ∧
      let start := [⟨0⟩].foldl attach d₀
      let d := start.steps 1
      start.log 1 = [⟨12, [(Cell.div, 0x01)]⟩] ∧ d.cycles = 12 ∧
        (start.metered.steps 1).peripherals.map Metered.given = [12] ∧
        d.board.timer.counter.toNat = 12 ∧
        ∃ clock, d.board.controller.clock? = some clock ∧ clock.elapsed = 12 := by
  intro image
  have hsize : ¬image.size < Header.size := by simp [image]
  have htype : (Header.read image).type = 0x0f := by
    simp [image, Header.read, Bytes.readOpen, Bytes.zeros, Header.size]
  have hbanks : (Header.read image).ramBanks = 0 := by
    simp [image, Header.ramBanks, Header.ramBanks?, Header.read, Bytes.readOpen, Bytes.zeros,
      Header.size]
  have hopcode : Bytes.readOpen image 0x100 = 0xe0 := by
    simp [image, Bytes.readOpen, Bytes.zeros, Header.size]
  have hoperand : Bytes.readOpen image 0x101 = 0x04 := by
    simp [image, Bytes.readOpen, Bytes.zeros, Header.size]
  clear_value image
  have hclock : (Header.read image).hasClock = true := by
    rw [Header.hasClock, htype]
    decide
  have hbattery : (Header.read image).hasBattery = true := by
    rw [Header.hasBattery, htype]
    decide
  let m : Mbc3 := .new image 0 true true
  let d₀ : Device Board NoKeypad FrameCounter FramePulse :=
    built none ⟨⟩ ⟨0⟩ [] (Header.read image, .mbc3 m)
  have hd₀ : powerOn id none image ⟨⟩ ⟨0⟩ [] = .ok d₀ := by
    have hparse : Header.parse image = .ok (Header.read image) := if_neg hsize
    have hslot : (Header.read image).controller image = .ok (.mbc3 m) := by
      unfold Header.controller
      rw [hbattery, htype, hclock, hbanks]
      rfl
    have hf : fitted none image = .ok (Header.read image, .mbc3 m) := by
      simp only [fitted, hparse, bind, Except.bind, hslot]
      rfl
    rw [powerOn_eq, hf]
    rfl
  let start := [⟨0⟩].foldl attach d₀
  have hfetch : start.machine.fetch = .ok (some (.storeAHigh 0x04)) := by
    have hfirst : Bus.peek start.machine.bus 0x100 = 0xe0 :=
      (m.read_low 0x100 (by decide)).trans hopcode
    have hsecond : Bus.peek start.machine.bus 0x101 = 0x04 :=
      (m.read_low 0x101 (by decide)).trans hoperand
    have hat : Instruction.at? (Bus.peek start.machine.bus) 0x100 = some (.storeAHigh 0x04) := by
      have hnext : (0x100 + 1 : UInt16) = 0x101 := by decide
      unfold Instruction.at?
      rw [hnext, hfirst, hsecond]
      rfl
    have hawake : start.machine.cpu.idle = false := rfl
    have hentry : start.machine.registers.pc = 0x100 := rfl
    unfold Machine.fetch
    rw [hawake, hentry, Machine.decode_eq_ok_iff.2 hat]
    rfl
  have henables : start.board.memory.get Cell.enables = 0 := by
    change (initialBoard none (.mbc3 m) []).memory.get Cell.enables = 0
    simp [initialBoard, Board.new, Board.skipBoot, Board.postBootCells, Memory.get_set,
      Cell.joypad, Cell.div, Cell.tac, Cell.requests, Cell.display, Cell.backgroundPalette,
      Cell.objectPalette0, Cell.objectPalette1, Cell.boot, Cell.enables]
  have hlog : start.log 1 = [⟨12, [(Cell.div, 0x01)]⟩] := by
    have hx : start.executed? = some ⟨12, [(Cell.div, 0x01)]⟩ :=
      executed?_of_store rfl hfetch rfl henables
    change start.executed?.toList ++ [] = _
    rw [hx]
    rfl
  refine ⟨d₀, hd₀, hlog, ?_⟩
  obtain ⟨hcycles, ⟨-, hgiven⟩, -, hcleared, -, hset, -⟩ :=
    one_time_base requesting_framePulse hd₀ [⟨0⟩] 1
  have hspent : (start.steps 1).cycles = 12 := by
    rw [hcycles, hlog]
    rfl
  have hunset : Banking.ClockUnset (history (start.log 1)) := by
    have hticked : history (start.log 1) = [.tick 12] := congrArg history hlog
    rw [hticked]
    intro newer address v older hpast
    cases newer with
    | nil => cases hpast
    | cons e newer => simp at hpast
  obtain ⟨clock, hclock, -, helapsed⟩ := hset hclock hunset
  refine ⟨hspent, hspent ▸ hgiven, hcleared [] _ [] hlog rfl (List.forall_mem_nil _),
    clock, hclock, ?_⟩
  rw [helapsed, hspent]
  rfl

end Cleared

end Device
end DotMatrix
