import DotMatrix.Proofs.Board.Unwatched
import DotMatrix.Proofs.Device.Step

/-! # Breakpoints and watch lists only observe

A debugged device goes through the states of a plain one. Pauses before an instruction are extra
steps that change nothing but the place to resume; every other step is the next step of the plain
device, whether or not a watched access makes it end in a pause.
-/
namespace DotMatrix

def Unwatching (π : Type) [Peripheral π Board] : Prop :=
  ∀ (p : π) (b c : Board) (cycles : Nat), b.unwatched = c.unwatched →
    (Peripheral.tick p b cycles).1 = (Peripheral.tick p c cycles).1 ∧
      (Peripheral.tick p b cycles).2.1 = (Peripheral.tick p c cycles).2.1 ∧
      (Peripheral.tick p b cycles).2.2.unwatched = (Peripheral.tick p c cycles).2.2.unwatched

namespace Device
variable {ι ρ π : Type}

/-- What is left of a device when nothing of its debugging is looked at. -/
def bare (d : Device Board ι ρ π) : Device Board ι ρ π :=
  { d with machine := d.machine.mapBus Board.unwatched, breakpoints := [], resumeAt := none }

section Time
variable [Keypad ι] [Screen ρ] [Peripheral π Board]

omit [Screen ρ] [Peripheral π Board] in
theorem sampled_mapBus (keypad : ι) (s : Machine Board) :
    sampled keypad (s.mapBus Board.unwatched) = (sampled keypad s).mapBus Board.unwatched := by
  let pressed : Machine Board :=
    ⟨s.cpu, (sampleButtons keypad s.bus).2.request Interrupt.joypad.mask⟩
  by_cases hp : (sampleButtons keypad s.bus).1 = true
  · have hs : sampled keypad s = if s.cpu.stopped then pressed.mapCpu Cpu.wake else pressed :=
      if_pos hp
    have hu : sampled keypad (s.mapBus Board.unwatched) =
        if s.cpu.stopped then (pressed.mapBus Board.unwatched).mapCpu Cpu.wake
        else pressed.mapBus Board.unwatched := if_pos hp
    rw [hs, hu]
    split
    · rfl
    · rfl
  · have hs : sampled keypad s = ⟨s.cpu, (sampleButtons keypad s.bus).2⟩ := if_neg hp
    have hu : sampled keypad (s.mapBus Board.unwatched) =
      ⟨s.cpu, (sampleButtons keypad s.bus).2.unwatched⟩ := if_neg hp
    rw [hs, hu]
    rfl

omit [Screen ρ] [Peripheral π Board] in
theorem bare_countInput (d : Device Board ι ρ π) (n : Nat) :
    d.bare.countInput n = (d.countInput n).bare := by
  have hc : d.bare.inputCountdown = d.inputCountdown := rfl
  have hs : sampled (Keypad.refresh d.bare.keypad).2 d.bare.machine =
    (sampled (Keypad.refresh d.keypad).2 d.machine).mapBus Board.unwatched := sampled_mapBus _ _
  have hk : d.bare.keypad = d.keypad := rfl
  rw [countInput_eq, countInput_eq, pollInput_eq, pollInput_eq, hc, hs, hk]
  split
  · cases (Keypad.refresh d.keypad).1 <;> rfl
  · rfl

theorem tickPeripherals_unwatched (blind : Unwatching π) (n : Nat) (l : List π) {b c : Board}
    (h : b.unwatched = c.unwatched) (screen : ρ) :
    (tickPeripherals n l b screen).1 = (tickPeripherals n l c screen).1 ∧
      (tickPeripherals n l b screen).2.1.unwatched = (tickPeripherals n l c screen).2.1.unwatched ∧
      (tickPeripherals n l b screen).2.2 = (tickPeripherals n l c screen).2.2 := by
  induction l generalizing b c screen with
  | nil => exact ⟨rfl, h, rfl⟩
  | cons p rest ih =>
    obtain ⟨hf, hp, hb⟩ := blind p b c n h
    obtain ⟨hl, hu, hs⟩ := ih hb ((Peripheral.tick p b n).1.elim screen (Screen.draw screen))
    simp only [tickPeripherals]
    rw [hf] at hl hu hs ⊢
    exact ⟨by rw [hp, hl], hu, hs⟩

def afterPeripherals (d : Device Board ι ρ π) (n : Nat) : Device Board ι ρ π :=
  let ticked := tickPeripherals n d.peripherals ((d.machine.bus.tickTimer n).tick n) d.screen
  { d with peripherals := ticked.1, machine.bus := ticked.2.1, screen := ticked.2.2 }

omit [Keypad ι] in
theorem bare_afterPeripherals (blind : Unwatching π) (d : Device Board ι ρ π) (n : Nat) :
    (d.bare.afterPeripherals n).bare = (d.afterPeripherals n).bare := by
  have hb : ((d.bare.machine.bus.tickTimer n).tick n).unwatched =
      ((d.machine.bus.tickTimer n).tick n).unwatched := by
    have ht : d.bare.machine.bus = d.machine.bus.unwatched := rfl
    rw [ht, Board.unwatched_tickTimer, Board.unwatched_tick]
    rfl
  obtain ⟨hl, hu, hs⟩ := tickPeripherals_unwatched blind n d.peripherals hb d.screen
  have parts (e : Device Board ι ρ π) : (e.afterPeripherals n).bare =
      let ticked := tickPeripherals n e.peripherals ((e.machine.bus.tickTimer n).tick n) e.screen
      { e.bare with
        peripherals := ticked.1
        machine.bus := ticked.2.1.unwatched
        screen := ticked.2.2 } := rfl
  rw [parts, parts]
  simp only [bare] at hl hu hs ⊢
  rw [hl, hu, hs]
  rfl

theorem bare_passTime (blind : Unwatching π) (d : Device Board ι ρ π) (n : Nat) :
    (d.bare.passTime n).bare = (d.passTime n).bare := by
  let clocked (e : Device Board ι ρ π) : Device Board ι ρ π := { e with cycles := e.cycles + n }
  have counted (e : Device Board ι ρ π) :
      (e.passTime n).bare = clocked ((e.afterPeripherals n).bare.countInput n) := by
    rw [bare_countInput]
    rfl
  rw [counted, counted, bare_afterPeripherals blind]

theorem bare_carryOut (blind : Unwatching π) (d : Device Board ι ρ π)
    (fetched : Option Instruction) :
    (d.bare.carryOut fetched).2.bare = (d.carryOut fetched).2.bare := by
  let spent := (d.machine.proceed fetched).1
  let serviced := (d.machine.proceed fetched).2.service
  let after : Device Board ι ρ π := { d with machine := serviced.2, resumeAt := none }
  have settled (e : Device Board ι ρ π) (n : Nat) : (e.settleWatch d.pc n).2.bare = e.bare := by
    unfold settleWatch
    split <;> rfl
  have hr : (d.carryOut fetched).2 =
    ((after.passTime (spent + serviced.1)).settleWatch d.pc (spent + serviced.1)).2 := rfl
  have hl : (d.bare.carryOut fetched).2 =
      ((after.bare.passTime (spent + serviced.1)).settleWatch d.pc (spent + serviced.1)).2 := by
    have hm : d.bare.machine = d.machine.mapBus Board.unwatched := rfl
    have hp := Machine.proceed_mapBus Board.busMap_unwatched d.machine fetched
    have hs := Machine.service_mapBus Board.busMap_unwatched (d.machine.proceed fetched).2
    unfold carryOut
    rw [hm, hp]
    simp only [hs]
    rfl
  rw [hl, hr, settled, settled, bare_passTime blind]

end Time

section Steps
variable [Keypad ι] [Screen ρ] [Peripheral π Board]

def pausedBefore : Except Fault StepOutcome → Bool
  | .ok (.paused (.address _)) => true
  | .ok (.paused (.opcode _ _)) => true
  | _ => false

def fault? : Except Fault StepOutcome → Option Fault
  | .error fault => some fault
  | .ok _ => none

theorem pausedBefore_carryOut (d : Device Board ι ρ π) (fetched : Option Instruction) :
    pausedBefore (.ok (d.carryOut fetched).1) = false := by
  have settled (e : Device Board ι ρ π) (address : UInt16) (n : Nat) :
      pausedBefore (.ok (e.settleWatch address n).1) = false := by
    unfold settleWatch
    split <;> rfl
  exact settled _ _ _

omit [Keypad ι] [Screen ρ] [Peripheral π Board] in
theorem pausedBefore_breakEvent {β : Type} [Mainboard β] {d : Device β ι ρ π} {event : BreakEvent}
    (h : d.breakEvent? = some event) : pausedBefore (.ok (.paused event)) = true := by
  unfold breakEvent? at h
  split at h
  · cases h
  · split at h
    · cases h
      rfl
    · dsimp only at h
      split at h
      · cases h
        rfl
      · cases h

theorem pausedBefore_iff (d : Device Board ι ρ π) :
    pausedBefore d.step.1 = true ↔ d.breakEvent? ≠ none := by
  cases hb : d.breakEvent? with
  | some event =>
    rw [step_of_breakEvent hb, pausedBefore_breakEvent hb]
    simp
  | none =>
    cases hf : d.machine.fetch with
    | error fault =>
      rw [step_of_fetch_error hb hf]
      simp [pausedBefore]
    | ok fetched =>
      rw [step_of_fetch_ok hb hf, pausedBefore_carryOut]
      simp

/-- A pause before an instruction changes nothing but the place to resume. -/
theorem step_of_pausedBefore {d : Device Board ι ρ π} (h : pausedBefore d.step.1 = true) :
    d.step.2 = { d with resumeAt := some d.pc } := by
  cases hb : d.breakEvent? with
  | some event => rw [step_of_breakEvent hb]
  | none => exact absurd hb ((pausedBefore_iff d).1 h)

omit [Screen ρ] [Peripheral π Board] in
theorem breakpoints_countInput (d : Device Board ι ρ π) (n : Nat) :
    (d.countInput n).breakpoints = d.breakpoints := by
  rw [countInput_eq, pollInput_eq]
  split <;> rfl

theorem breakpoints_carryOut (d : Device Board ι ρ π) (fetched : Option Instruction) :
    (d.carryOut fetched).2.breakpoints = d.breakpoints := by
  have settled (e : Device Board ι ρ π) (address : UInt16) (n : Nat) :
      (e.settleWatch address n).2.breakpoints = e.breakpoints := by
    unfold settleWatch
    split <;> rfl
  exact (settled _ _ _).trans (breakpoints_countInput _ _)

theorem breakpoints_step (d : Device Board ι ρ π) : d.step.2.breakpoints = d.breakpoints := by
  cases hb : d.breakEvent? with
  | some event => rw [step_of_breakEvent hb]
  | none =>
    cases hf : d.machine.fetch with
    | error fault => rw [step_of_fetch_error hb hf]
    | ok fetched =>
      rw [step_of_fetch_ok hb hf]
      exact breakpoints_carryOut d fetched

def observe (r : Except Fault StepOutcome × Device Board ι ρ π) :
    Option Fault × Device Board ι ρ π :=
  (fault? r.1, r.2.bare)

theorem observe_step (blind : Unwatching π) {d : Device Board ι ρ π} (hb : d.breakEvent? = none) :
    observe d.step = observe d.bare.step := by
  have hbare : d.bare.breakEvent? = none := breakEvent?_of_isEmpty rfl
  have hfetch : d.bare.machine.fetch = d.machine.fetch :=
    Machine.fetch_mapBus Board.busMap_unwatched d.machine
  cases hf : d.machine.fetch with
  | error fault =>
    rw [step_of_fetch_error hb hf, step_of_fetch_error hbare (hfetch.trans hf)]
    rfl
  | ok fetched =>
    rw [step_of_fetch_ok hb hf, step_of_fetch_ok hbare (hfetch.trans hf)]
    exact Prod.ext rfl (bare_carryOut blind d fetched).symm

end Steps

section Traces
variable [Keypad ι] [Screen ρ] [Peripheral π Board]

def trace : Nat → Device Board ι ρ π → List (Except Fault StepOutcome × Device Board ι ρ π)
  | 0, _ => []
  | n + 1, d => d.step :: trace n d.step.2

/-- The steps of a run that did not pause before an instruction. -/
def kept (n : Nat) (d : Device Board ι ρ π) :
    List (Except Fault StepOutcome × Device Board ι ρ π) :=
  (d.trace n).filter fun r => !pausedBefore r.1

theorem kept_of_pausedBefore {d : Device Board ι ρ π} (h : pausedBefore d.step.1 = true) (n : Nat) :
    d.kept (n + 1) = d.step.2.kept n :=
  List.filter_cons_of_neg (by simp [h])

theorem kept_of_not_pausedBefore {d : Device Board ι ρ π} (h : pausedBefore d.step.1 = false)
    (n : Nat) : d.kept (n + 1) = d.step :: d.step.2.kept n :=
  List.filter_cons_of_pos (by simp [h])

theorem observe_kept (blind : Unwatching π) (n : Nat) {d e : Device Board ι ρ π}
    (h : d.bare = e.bare) (he : e.breakpoints = []) :
    (d.kept n).map observe = (e.trace (d.kept n).length).map observe := by
  induction n generalizing d e with
  | zero => rfl
  | succ n ih =>
    cases hp : pausedBefore d.step.1 with
    | true =>
      rw [kept_of_pausedBefore hp]
      apply ih _ he
      rw [step_of_pausedBefore hp]
      exact h
    | false =>
      have hd : d.breakEvent? = none := by
        apply Decidable.byContradiction
        intro hn
        rw [(pausedBefore_iff d).2 hn] at hp
        cases hp
      have hs : observe d.step = observe e.step := by
        rw [observe_step blind hd, h, ← observe_step blind (breakEvent?_of_isEmpty he)]
      have hrest := ih (congrArg Prod.snd hs) ((breakpoints_step e).trans he)
      rw [kept_of_not_pausedBefore hp, List.map_cons, hs, hrest]
      rfl

/-- No pause before an instruction follows another one directly. -/
theorem le_length_kept (n : Nat) (d : Device Board ι ρ π) :
    n ≤ 2 * (d.kept n).length + if d.breakEvent? = none then 0 else 1 := by
  induction n generalizing d with
  | zero => exact Nat.zero_le _
  | succ n ih =>
    have hn := ih d.step.2
    cases hp : pausedBefore d.step.1 with
    | true =>
      have hb : d.breakEvent? ≠ none := (pausedBefore_iff d).1 hp
      have hnext : d.step.2.breakEvent? = none := by
        rw [step_of_pausedBefore hp]
        simp [breakEvent?, breakable, pc]
      rw [kept_of_pausedBefore hp, if_neg hb]
      rw [if_pos hnext] at hn
      omega
    | false =>
      rw [kept_of_not_pausedBefore hp, List.length_cons]
      split at hn <;> split <;> omega

theorem le_two_mul_length_kept (n : Nat) (d : Device Board ι ρ π) :
    n ≤ 2 * (d.kept n).length + 1 := by
  have hn := le_length_kept n d
  split at hn <;> omega

end Traces

section Construction
variable [Screen ρ] (bootImage : Option Bytes) (image : Bytes) (keypad : ι) (screen : ρ)

def fitted : Except Fault (Header × Controller) := do
  if let some bytes := bootImage then
    if bytes.size ≠ Board.bootImageSize then
      throw (.bootImageSize Board.bootImageSize bytes.size)
  let header ← Header.parse image
  let controller ← header.controller image
  return (header, controller)

/-- A cartridge without a controller fits if it holds a header. -/
theorem fitted_rom {image : Bytes} (hsize : ¬image.size < Header.size)
    (htype : (Header.read image).type = 0x00) :
    fitted none image = .ok (Header.read image, .rom image) := by
  have hparse : Header.parse image = .ok (Header.read image) := if_neg hsize
  have hrom : (Header.read image).controller image = .ok (.rom image) := if_pos htype
  simp only [fitted, hparse, bind, Except.bind, hrom]
  rfl

def built (l : Breakpoints) (parts : Header × Controller) : Device Board ι ρ π where
  machine := ⟨initialCpu bootImage, initialBoard bootImage parts.2 l⟩
  header := parts.1
  keypad := keypad
  screen := Screen.clear screen
  peripherals := []
  breakpoints := l
  exitRequested := false
  resumeAt := none
  inputCountdown := 0
  cycles := 0

theorem powerOn_eq (l : Breakpoints) :
    (powerOn id bootImage image keypad screen l : Except Fault (Device Board ι ρ π)) =
      (fitted bootImage image).map (built bootImage keypad screen l) := by
  unfold powerOn fitted
  cases bootImage with
  | none =>
    cases Header.parse image with
    | error fault => rfl
    | ok header =>
      cases hc : header.controller image <;> simp only [bind, Except.bind, hc] <;> rfl
  | some bytes =>
    by_cases hs : bytes.size = Board.bootImageSize
    · simp only [hs, ne_eq, not_true_eq_false, if_false]
      cases Header.parse image with
      | error fault => rfl
      | ok header =>
        cases hc : header.controller image <;> simp only [bind, Except.bind, hc] <;> rfl
    · simp only [ne_eq, hs, not_false_eq_true, if_true]
      rfl

end Construction

section Attachment

theorem bare_attach (l : List π) {d e : Device Board ι ρ π} (h : d.bare = e.bare) :
    (l.foldl attach d).bare = (l.foldl attach e).bare := by
  induction l generalizing d e with
  | nil => exact h
  | cons p rest ih => exact ih (congrArg (attach · p) h)

theorem breakpoints_attach (l : List π) (d : Device Board ι ρ π) :
    (l.foldl attach d).breakpoints = d.breakpoints := by
  induction l generalizing d with
  | nil => rfl
  | cons p rest ih => exact ih (d.attach p)

end Attachment

/-- A device built with breakpoints goes through the states of the one built without. Its steps
that do not pause before an instruction are, one by one, the steps of the plain device: they leave
the same machine, collaborators and clocks and fail together. The pauses in between never follow
each other and change nothing but the place to resume. -/
theorem debugging_is_transparent [Keypad ι] [Screen ρ] [Peripheral π Board]
    (blind : Unwatching π) (bootImage : Option Bytes) (image : Bytes) (keypad : ι) (screen : ρ)
    (breakpoints : Breakpoints) (peripherals : List π) :
    let start (l : Breakpoints) : Except Fault (Device Board ι ρ π) :=
      (powerOn id bootImage image keypad screen l).map (peripherals.foldl attach)
    (∀ fault, start breakpoints = .error fault ↔ start [] = .error fault) ∧
    (∀ debugged plain, start breakpoints = .ok debugged → start [] = .ok plain → ∀ n,
      (debugged.kept n).map observe = (plain.trace (debugged.kept n).length).map observe ∧
        n ≤ 2 * (debugged.kept n).length + 1) ∧
    (∀ d : Device Board ι ρ π, pausedBefore d.step.1 = true →
      d.step.2 = { d with resumeAt := some d.pc }) := by
  intro start
  have hstart (l : Breakpoints) : start l = (fitted bootImage image).map fun parts =>
      peripherals.foldl attach (built bootImage keypad screen l parts) := by
    show Except.map _ (powerOn id bootImage image keypad screen l) = _
    rw [powerOn_eq]
    cases fitted bootImage image <;> rfl
  refine ⟨?_, ?_, fun d => step_of_pausedBefore⟩
  · intro fault
    rw [hstart, hstart]
    cases fitted bootImage image <;> simp [Except.map]
  · intro debugged plain hd he n
    rw [hstart] at hd he
    cases hf : fitted bootImage image with
    | error fault =>
      rw [hf] at hd
      cases hd
    | ok parts =>
      rw [hf] at hd he
      cases hd
      cases he
      constructor
      · exact observe_kept blind n (bare_attach _ rfl) (breakpoints_attach _ _)
      · exact le_two_mul_length_kept n _

/-- Requests the vertical blank once a frame and hands out an empty picture. -/
structure FramePulse where
  elapsed : Nat

instance : Peripheral FramePulse Board where
  tick p b cycles :=
    let elapsed := p.elapsed + cycles
    if elapsed < inputPollCycles then (none, ⟨elapsed⟩, b)
    else (some .blank, ⟨elapsed - inputPollCycles⟩, b.request Interrupt.vblank.mask)

theorem unwatching_framePulse : Unwatching FramePulse := by
  intro p b c cycles h
  unfold Peripheral.tick instPeripheralFramePulseBoard
  dsimp only
  split
  · exact ⟨rfl, rfl, h⟩
  · refine ⟨rfl, rfl, ?_⟩
    rw [← Board.unwatched_request, h, Board.unwatched_request]

/-- A cartridge of zeros with a breakpoint at its entry and a watched cell. -/
theorem debugging_is_transparent_at_entry :
    let start (l : Breakpoints) : Except Fault (Device Board NoKeypad FrameCounter FramePulse) :=
      (powerOn id none (Bytes.zeros Header.size) ⟨⟩ ⟨0⟩ l).map ([⟨0⟩].foldl attach)
    ∃ debugged plain, start [.address 0x100, .write Cell.div] = .ok debugged ∧
      start [] = .ok plain ∧ pausedBefore debugged.step.1 = true ∧
      (debugged.kept 9).map observe = (plain.trace (debugged.kept 9).length).map observe := by
  intro start
  let image := Bytes.zeros Header.size
  have htype : (Header.read image).type = 0x00 := by
    simp [image, Header.read, Bytes.readOpen, Bytes.zeros, Header.size]
  have hf : fitted none image = .ok (Header.read image, .rom image) :=
    fitted_rom (by simp [image]) htype
  have hs (l : Breakpoints) : start l = .ok ([⟨0⟩].foldl attach
      (built none ⟨⟩ ⟨0⟩ l (Header.read image, .rom image))) := by
    show Except.map _ (powerOn id none image _ _ l) = _
    rw [powerOn_eq, hf]
    rfl
  obtain ⟨-, simulated, -⟩ := debugging_is_transparent unwatching_framePulse none image
    NoKeypad.mk (FrameCounter.mk 0) [.address 0x100, .write Cell.div] [⟨0⟩]
  refine ⟨_, _, hs _, hs _, ?_, (simulated _ _ (hs _) (hs _) 9).1⟩
  refine (pausedBefore_iff _).2 ?_
  exact Option.some_ne_none (BreakEvent.address 0x100)

end Device
end DotMatrix
