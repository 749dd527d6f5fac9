import Mathlib.Order.Monotone.Basic
import DotMatrix.Proofs.Device.Poll

/-! # When the keypad is polled

A polled keypad counts how often a device turns to it and keeps what the latest sample has found.
Taking the count away turns the steps of the device into those of the plain one, so that a run can
be asked when its polls come and what the joypad cell shows between them.
-/
namespace DotMatrix

/-- A keypad whose polls are counted, with the buttons that the latest sample has found held. -/
structure Polled (ι : Type) where
  inner : ι
  polls : Nat
  latest : Joypad

/-- A poll that finds the keypad unchanged takes no sample. -/
instance {ι : Type} [Keypad ι] : Keypad (Polled ι) where
  refresh k :=
    let (changed, inner) := Keypad.refresh k.inner
    (changed, ⟨inner, k.polls + 1, if changed then .ofKeypad inner else k.latest⟩)
  held k := Keypad.held k.inner

namespace Device
variable {ι ρ π κ : Type}

section Polled

def withKeypad (d : Device Board ι ρ π) (keypad : κ) : Device Board κ ρ π := { d with keypad }

def polled (d : Device Board ι ρ π) : Device Board (Polled ι) ρ π :=
  d.withKeypad ⟨d.keypad, 0, .released⟩

def unpolled (d : Device Board (Polled ι) ρ π) : Device Board ι ρ π := d.withKeypad d.keypad.inner

variable [Keypad ι]

theorem unpolled_countInput (d : Device Board (Polled ι) ρ π) (n : Nat) :
    d.unpolled.countInput n = (d.countInput n).unpolled := by
  have hc : d.unpolled.inputCountdown = d.inputCountdown := rfl
  rw [countInput_eq, countInput_eq, pollInput_eq, pollInput_eq, hc]
  split <;> rfl

omit [Keypad ι] in
theorem unpolled_settleWatch (d : Device Board (Polled ι) ρ π) (address : UInt16) (n : Nat) :
    d.unpolled.settleWatch address n =
      ((d.settleWatch address n).1, (d.settleWatch address n).2.unpolled) := by
  have hb : d.unpolled.board = d.board := rfl
  unfold settleWatch
  rw [hb]
  cases d.board.watch.hit <;> rfl

variable [Screen ρ] [Peripheral π Board]

theorem unpolled_passTime (d : Device Board (Polled ι) ρ π) (n : Nat) :
    d.unpolled.passTime n = (d.passTime n).unpolled := by
  let clocked (e : Device Board ι ρ π) : Device Board ι ρ π := { e with cycles := e.cycles + n }
  exact congrArg clocked (unpolled_countInput (d.afterPeripherals n) n)

/-- A step on the plain keypad is the step on the polled one with the count taken away. -/
theorem step_unpolled (d : Device Board (Polled ι) ρ π) :
    d.unpolled.step = (d.step.1, d.step.2.unpolled) := by
  have hbreak : d.unpolled.breakEvent? = d.breakEvent? := rfl
  have hfetch : d.unpolled.machine.fetch = d.machine.fetch := rfl
  cases hb : d.breakEvent? with
  | some event =>
    rw [step_of_breakEvent hb, step_of_breakEvent (hbreak.trans hb)]
    rfl
  | none =>
    cases hf : d.machine.fetch with
    | error fault =>
      rw [step_of_fetch_error hb hf, step_of_fetch_error (hbreak.trans hb) (hfetch.trans hf)]
      rfl
    | ok fetched =>
      let cost := (d.machine.carryOut fetched).1
      have hout : d.carryOut fetched =
        ((d.processed fetched).passTime cost).settleWatch d.pc cost := rfl
      have hplain : d.unpolled.carryOut fetched =
        ((d.processed fetched).unpolled.passTime cost).settleWatch d.pc cost := rfl
      rw [step_of_fetch_ok hb hf, step_of_fetch_ok (hbreak.trans hb) (hfetch.trans hf), hout,
        hplain, unpolled_passTime, unpolled_settleWatch]

theorem polled_steps (d : Device Board ι ρ π) (n : Nat) :
    (d.polled.steps n).unpolled = d.steps n := by
  induction n with
  | zero => rfl
  | succ n ih =>
    have hs := step_unpolled (d.polled.steps n)
    rw [ih] at hs
    exact (congrArg Prod.snd hs).symm

end Polled

section Run
variable [Keypad ι] [Screen ρ] [Peripheral π Board] {d : Device Board (Polled ι) ρ π}

theorem keypad_step (d : Device Board (Polled ι) ρ π) :
    d.step.2.keypad = d.keypad ∨ d.step.2.keypad.polls = d.keypad.polls + 1 := by
  have hbeat := beat_step d
  generalize d.step.2 = e at hbeat ⊢
  cases hbeat with
  | held _ keypad => exact .inl keypad
  | waited _ _ keypad => exact .inl keypad
  | polled _ _ keypad => exact .inr (congrArg Polled.polls keypad)

theorem polls_le_step (d : Device Board (Polled ι) ρ π) :
    d.keypad.polls ≤ d.step.2.keypad.polls := by
  rcases keypad_step d with hk | hk
  · exact Nat.le_of_eq (congrArg Polled.polls hk).symm
  · exact Nat.le_of_lt (Nat.lt_of_lt_of_eq (Nat.lt_succ_self _) hk.symm)

theorem polls_mono (d : Device Board (Polled ι) ρ π) :
    Monotone fun n => (d.steps n).keypad.polls :=
  monotone_nat_of_le_succ fun n => polls_le_step (d.steps n)

/-- A step polls just if it carries something out that reaches the end of the countdown. -/
theorem step_of_polls (h : d.step.2.keypad.polls = d.keypad.polls + 1) :
    ∃ x, d.executed? = some x ∧ d.inputCountdown ≤ x.cost ∧
      d.step.2.keypad = (Keypad.refresh d.keypad).2 ∧ d.step.2.inputCountdown = inputPollCycles ∧
      d.step.2.cycles = d.cycles + x.cost := by
  have hbeat := beat_step d
  generalize d.step.2 = e at h hbeat ⊢
  have counted (hk : e.keypad = d.keypad) : False := by
    rw [hk] at h
    omega
  cases hbeat with
  | held _ keypad => exact (counted keypad).elim
  | waited _ _ keypad => exact (counted keypad).elim
  | polled carried due keypad countdown cycles =>
    exact ⟨_, carried, due, keypad, countdown, cycles⟩

/-- As long as nothing is carried out there is no poll. -/
theorem keypad_of_held {n : Nat} (h : ∀ k < n, (d.steps k).executed? = none) :
    (d.steps n).keypad = d.keypad ∧ (d.steps n).inputCountdown = d.inputCountdown := by
  induction n with
  | zero => exact ⟨rfl, rfl⟩
  | succ n ih =>
    obtain ⟨hkeypad, hcountdown⟩ := ih fun k hk => h k (Nat.lt_succ_of_lt hk)
    obtain ⟨-, resumeAt, hs⟩ := step_of_executed?_none (h n (Nat.lt_succ_self n))
    change (d.steps n).step.2.keypad = _ ∧ (d.steps n).step.2.inputCountdown = _
    rw [hs]
    exact ⟨hkeypad, hcountdown⟩

/-- From one poll to the next the countdown makes up for the cycles. -/
theorem countdown_since {m n : Nat} (hmn : m ≤ n)
    (hm : (d.steps m).inputCountdown = inputPollCycles)
    (h : (d.steps n).keypad.polls = (d.steps m).keypad.polls) :
    (d.steps n).cycles + (d.steps n).inputCountdown = (d.steps m).cycles + inputPollCycles ∧
      0 < (d.steps n).inputCountdown := by
  induction hmn with
  | refl => exact ⟨congrArg ((d.steps m).cycles + ·) hm, hm ▸ (by decide)⟩
  | @step n hmn ih =>
    have hle : (d.steps m).keypad.polls ≤ (d.steps n).keypad.polls := polls_mono d hmn
    have hstep := polls_le_step (d.steps n)
    have hbeat := beat_step (d.steps n)
    change (d.steps n).step.2.keypad.polls = (d.steps m).keypad.polls at h
    change (d.steps n).step.2.cycles + (d.steps n).step.2.inputCountdown = _ ∧
      0 < (d.steps n).step.2.inputCountdown
    obtain ⟨hsum, hleft⟩ := ih (by omega)
    generalize (d.steps n).step.2 = e at h hbeat ⊢
    cases hbeat with
    | held _ _ countdown cycles =>
      rw [countdown, cycles]
      exact ⟨hsum, hleft⟩
    | waited _ before _ countdown cycles => omega
    | polled _ _ keypad =>
      have hmore : e.keypad.polls = (d.steps n).keypad.polls + 1 := congrArg Polled.polls keypad
      omega

/-- Two polls in a row are a frame of cycles apart, or a little more. -/
theorem cycles_between_polls {m n : Nat} (hmn : m < n)
    (hpoll : (d.steps (m + 1)).keypad.polls = (d.steps m).keypad.polls + 1)
    (h : (d.steps n).keypad.polls = (d.steps (m + 1)).keypad.polls) :
    (d.steps n).cycles < (d.steps (m + 1)).cycles + 70224 ∧
      ((d.steps (n + 1)).keypad.polls = (d.steps n).keypad.polls + 1 →
        (d.steps (m + 1)).cycles + 70224 ≤ (d.steps (n + 1)).cycles ∧
          (d.steps (n + 1)).cycles < (d.steps (m + 1)).cycles + 70224 + 44) := by
  obtain ⟨-, -, -, -, hcountdown, -⟩ := step_of_polls hpoll
  obtain ⟨hsum, hleft⟩ := countdown_since (show m + 1 ≤ n from hmn) hcountdown h
  unfold inputPollCycles at hsum
  refine ⟨by omega, fun hnext => ?_⟩
  obtain ⟨x, hx, hdue, -, -, hcycles⟩ := step_of_polls hnext
  obtain ⟨-, -, hcost⟩ := costWithin_of_executed? hx
  change _ ≤ (d.steps n).step.2.cycles ∧ (d.steps n).step.2.cycles < _
  omega

end Run

section Latest
variable [Keypad ι] [Screen ρ] [Peripheral π Board] {start : Device Board ι ρ π}

theorem executed?_polled (start : Device Board ι ρ π) (n : Nat) :
    (start.polled.steps n).executed? = (start.steps n).executed? :=
  congrArg executed? (polled_steps start n)

/-- The joypad is what the latest sample has found. -/
theorem joypad_steps (hπ : Requesting π) (hs : start.board.Synced)
    (hj : start.board.joypad = .released) (n : Nat) :
    (start.steps n).board.joypad = (start.polled.steps n).keypad.latest := by
  induction n with
  | zero => exact hj
  | succ n ih =>
    have hunhooked := (accounted_steps hπ hs n).board.synced.unhooked
    have hplain := polled_steps start n
    have hx := executed?_polled start n
    have hbeat := beat_step (start.polled.steps n)
    change (start.steps n).step.2.board.joypad = (start.polled.steps n).step.2.keypad.latest
    generalize (start.polled.steps n).step.2 = e at hbeat ⊢
    generalize start.polled.steps n = d at *
    generalize start.steps n = plain at *
    subst hplain
    cases hbeat with
    | held nothing keypad =>
      obtain ⟨-, resumeAt, hstep⟩ := step_of_executed?_none (hx.symm.trans nothing)
      rw [hstep, keypad]
      exact ih
    | waited carried before keypad =>
      have carried' := hx.symm.trans carried
      obtain ⟨-, -, hjoypad, -⟩ := putOff_step carried'
      rw [step_of_waiting carried' before, keypad, ← ih]
      exact hjoypad hπ hunhooked
    | polled carried due keypad =>
      have carried' := hx.symm.trans carried
      obtain ⟨hkeypad, -, hjoypad, -⟩ := putOff_step carried'
      rw [step_of_due carried' due, joypad_pollInput, hkeypad, hjoypad hπ hunhooked, ih, keypad]
      rfl

theorem executed?_eq_none_iff {d : Device Board ι ρ π} :
    d.executed? = none ↔ pausedBefore d.step.1 = true ∨ fault? d.step.1 ≠ none :=
  ⟨fun h => (step_of_executed?_none h).1, fun h => (step_of_held h).1⟩

/-- The poll in a step samples the keypad if that has changed. -/
theorem latest_of_polls {d : Device Board (Polled ι) ρ π}
    (h : d.step.2.keypad.polls = d.keypad.polls + 1) :
    d.step.2.keypad.latest =
      if (Keypad.refresh d.keypad.inner).1 then .ofKeypad (Keypad.refresh d.keypad.inner).2
      else d.keypad.latest := by
  obtain ⟨-, -, -, hkeypad, -⟩ := step_of_polls h
  rw [hkeypad]
  rfl

omit [Keypad ι] [Peripheral π Board] in
theorem keypad_powerOn {bootImage : Option Bytes} {image : Bytes} {keypad : ι} {screen : ρ}
    {l : Breakpoints} {d₀ : Device Board ι ρ π}
    (h : powerOn id bootImage image keypad screen l = .ok d₀) :
    d₀.keypad = keypad ∧ d₀.inputCountdown = 0 ∧ d₀.board.joypad = .released := by
  rw [powerOn_eq] at h
  cases hf : fitted bootImage image with
  | error fault =>
    rw [hf] at h
    cases h
  | ok parts =>
    rw [hf] at h
    cases h
    cases bootImage <;> exact ⟨rfl, rfl, rfl⟩

theorem first_poll (hdue : start.inputCountdown = 0) {n : Nat}
    (h : ∀ k < n, (start.steps k).executed? = none) (hx : (start.steps n).executed? ≠ none) :
    (start.polled.steps n).keypad.polls = 0 ∧ (start.polled.steps (n + 1)).keypad.polls = 1 := by
  have hheld : ∀ k < n, (start.polled.steps k).executed? = none := fun k hk =>
    (executed?_polled start k).trans (h k hk)
  obtain ⟨hkeypad, hcountdown⟩ := keypad_of_held hheld
  have hcount : (start.polled.steps n).inputCountdown = 0 := hcountdown.trans hdue
  have hnone : (start.polled.steps n).keypad.polls = 0 := congrArg Polled.polls hkeypad
  refine ⟨hnone, ?_⟩
  rw [← executed?_polled] at hx
  have hbeat := beat_step (start.polled.steps n)
  change (start.polled.steps n).step.2.keypad.polls = 1
  generalize (start.polled.steps n).step.2 = e at hbeat ⊢
  cases hbeat with
  | held nothing => exact absurd nothing hx
  | waited _ before => omega
  | polled _ _ keypad => exact (congrArg Polled.polls keypad).trans (congrArg (· + 1) hnone)

/-- On every run from power-on the first step that carries something out polls the keypad, and the
next polls follow after a frame of cycles and less than one step more. Pauses before an instruction
and faults do not poll. With peripherals that only request interrupts, what a poll does shows
against the same step with its poll put off. A keypad that has not changed is only counted.
Otherwise all its buttons are taken over, and the joypad interrupt is requested just if one of them
is held now and was released at the sample before. The joypad cell shows the latest sample at all
times. -/
theorem keypad_is_polled_once_a_frame {bootImage : Option Bytes} {image : Bytes} {keypad : ι}
    {screen : ρ} {l : Breakpoints} {d₀ : Device Board ι ρ π}
    (hd₀ : powerOn id bootImage image keypad screen l = .ok d₀) (peripherals : List π) :
    let start := peripherals.foldl attach d₀
    let run (n : Nat) := start.steps n
    let polled (n : Nat) := (start.polled.steps n).keypad
    let held (n : Nat) := pausedBefore (run n).step.1 = true ∨ fault? (run n).step.1 ≠ none
    (∀ n, (start.polled.steps n).unpolled = run n) ∧
    polled 0 = ⟨keypad, 0, .released⟩ ∧
    (∀ n, held n → polled (n + 1) = polled n) ∧
    (∀ n, polled (n + 1) = polled n ∨ (polled (n + 1)).polls = (polled n).polls + 1) ∧
    (∀ n, (∀ k < n, held k) → ¬held n → (polled n).polls = 0 ∧ (polled (n + 1)).polls = 1) ∧
    (∀ m n, m < n → (polled (m + 1)).polls = (polled m).polls + 1 →
      (polled n).polls = (polled (m + 1)).polls →
      (run n).cycles < (run (m + 1)).cycles + 70224 ∧
        ((polled (n + 1)).polls = (polled n).polls + 1 →
          (run (m + 1)).cycles + 70224 ≤ (run (n + 1)).cycles ∧
            (run (n + 1)).cycles < (run (m + 1)).cycles + 70224 + 44)) ∧
    (Requesting π → ∀ n, (polled (n + 1)).polls = (polled n).polls + 1 →
      let calm := (run n).putOff.step.2
      let refreshed := Keypad.refresh (run n).keypad
      let counted : Device Board ι ρ π :=
        { calm with keypad := refreshed.2, inputCountdown := 70224 }
      (refreshed.1 = false →
        run (n + 1) = counted ∧ (polled (n + 1)).latest = (polled n).latest) ∧
      (refreshed.1 = true →
        let board : Board := { calm.board with joypad := (polled (n + 1)).latest }
        let newly := ∃ button, (polled n).latest.held button = false ∧
          (polled (n + 1)).latest.held button = true
        (∀ button, (polled (n + 1)).latest.held button = Keypad.held refreshed.2 button) ∧
        (newly → run (n + 1) =
          { counted with
            machine := ⟨if calm.cpu.stopped then calm.cpu.wake else calm.cpu,
              board.request Interrupt.joypad.mask⟩ }) ∧
        (¬newly → run (n + 1) = { counted with machine := ⟨calm.cpu, board⟩ }))) ∧
    (Requesting π → ∀ n,
      let b := (run n).board
      (polled n).latest.Shown (b.memory.get Cell.joypad) (b.read Cell.joypad).1 ∧
        ∀ v, (polled n).latest.Shown v ((b.write Cell.joypad v).read Cell.joypad).1) := by
  intro start run polled held
  obtain ⟨hsynced, -, -, hnone⟩ := synced_powerOn hd₀
  obtain ⟨hkeypad, hzero, hreleased⟩ := keypad_powerOn hd₀
  have hstart : start = d₀.withPeripherals peripherals := by
    have ha := foldl_attach peripherals d₀
    rw [hnone] at ha
    exact ha
  have hboard : start.board = d₀.board := hstart ▸ rfl
  have hjoypad (hπ : Requesting π) (n : Nat) : (run n).board.joypad = (polled n).latest :=
    joypad_steps hπ (hboard ▸ hsynced) (hboard ▸ hreleased) n
  have hplain (n : Nat) : (start.polled.steps n).unpolled = run n := polled_steps start n
  have hcycles (n : Nat) : (start.polled.steps n).cycles = (run n).cycles :=
    congrArg cycles (hplain n)
  have hexecuted (n : Nat) : (start.polled.steps n).executed? = none ↔ held n := by
    rw [executed?_polled]
    exact executed?_eq_none_iff
  refine ⟨hplain, ?_, ?_, fun n => keypad_step _, ?_, ?_, ?_, ?_⟩
  · exact congrArg (fun k => (⟨k, 0, .released⟩ : Polled ι)) (hstart ▸ hkeypad)
  · intro n hn
    obtain ⟨-, resumeAt, hs⟩ := step_of_executed?_none ((hexecuted n).2 hn)
    exact congrArg (·.keypad) hs
  · intro n hn hcarried
    have hdue : start.inputCountdown = 0 := hstart ▸ hzero
    exact first_poll hdue (fun k hk => executed?_eq_none_iff.2 (hn k hk)) fun hx =>
      hcarried (executed?_eq_none_iff.1 hx)
  · intro m n hmn hpoll hsame
    rw [← hcycles n, ← hcycles (m + 1), ← hcycles (n + 1)]
    exact cycles_between_polls hmn hpoll hsame
  · intro hπ n hpoll
    obtain ⟨x, hx, hdue, -⟩ := step_of_polls hpoll
    have hunhooked := (accounted_steps hπ (hboard ▸ hsynced) n).board.synced.unhooked
    have hlatest := latest_of_polls hpoll
    have hinput : (start.polled.steps n).keypad.inner = (run n).keypad :=
      congrArg (·.keypad) (hplain n)
    have hcarried : (run n).executed? = some x := (executed?_polled start n).symm.trans hx
    obtain ⟨hkept, -, hbefore, -⟩ := putOff_step hcarried
    have hcountdown : (start.polled.steps n).inputCountdown = (run n).inputCountdown :=
      congrArg (·.inputCountdown) (hplain n)
    have hstep : run (n + 1) = (run n).putOff.step.2.pollInput :=
      step_of_due hcarried (hcountdown.symm.trans_le hdue)
    rw [hinput, ← hkept] at hlatest
    rw [hstep, ← hkept]
    exact effect_of_poll ((hbefore hπ hunhooked).trans (hjoypad hπ n)) hlatest
  · intro hπ n b
    have hj : b.joypad = (polled n).latest := hjoypad hπ n
    rw [← hj]
    exact ⟨b.shown_read, b.shown_write_read⟩

end Latest

section Start

structure HeldDown where
  button : Button
  known : Bool

instance : Keypad HeldDown where
  refresh k := (!k.known, { k with known := true })
  held k button := button = k.button

/-- A program that enters STOP at once while Start is held: the first poll ends STOP and requests
the interrupt, and the next one is a frame away. -/
theorem keypad_is_polled_once_a_frame_start :
    ∃ d₀ : Device Board HeldDown FrameCounter FramePulse,
      powerOn id none stopping ⟨.start, false⟩ ⟨0⟩ [] = .ok d₀ ∧
      let start := [⟨0⟩].foldl attach d₀
      let polled (n : Nat) := (start.polled.steps n).keypad
      (polled 0).polls = 0 ∧ (polled 1).polls = 1 ∧
        (∀ button, (polled 1).latest.held button = decide (button = .start)) ∧
        (start.steps 1).cpu.stopped = false ∧
        (start.steps 1).board.memory.get Cell.requests &&& 0x10 = 0x10 ∧
        ∀ n, 0 < n → (polled n).polls = 1 →
          (start.steps n).cycles < (start.steps 1).cycles + 70224 := by
  obtain ⟨d₀, operand, hd₀, hbreak, hf, -, -, hnew, -⟩ :=
    exists_stopping (⟨.start, false⟩ : HeldDown)
  obtain ⟨-, hzero, -, -, hfirst, hgap, heffect, -⟩ :=
    keypad_is_polled_once_a_frame hd₀ [⟨0⟩]
  have hcarried : (d₀.attach ⟨0⟩).executed? ≠ none := by
    have hb : (d₀.attach ⟨0⟩).breakEvent? = none := breakEvent?_of_isEmpty hbreak
    have hfetch : (d₀.attach ⟨0⟩).machine.fetch = .ok (some (.stop operand)) := hf
    unfold executed?
    rw [hb, hfetch]
    exact Option.some_ne_none _
  obtain ⟨hnone, hone⟩ := hfirst 0 nofun (mt executed?_eq_none_iff.2 hcarried)
  have hpoll := hone.trans (congrArg (· + 1) hnone).symm
  have hchanged : Keypad.refresh (d₀.attach ⟨0⟩).keypad = (true, ⟨.start, true⟩) := by
    change Keypad.refresh d₀.keypad = _
    rw [hnew]
    rfl
  have hpolled : ((d₀.attach ⟨0⟩).polled.steps 0).keypad = ⟨⟨.start, false⟩, 0, .released⟩ := hzero
  obtain ⟨hheld, hpressed, -⟩ := (heffect requesting_framePulse 0 hpoll).2
    (congrArg Prod.fst hchanged)
  have hafter (button : Button) :
      ((d₀.attach ⟨0⟩).polled.steps 1).keypad.latest.held button = decide (button = .start) :=
    (hheld button).trans (congrArg (Keypad.held ·.2 button) hchanged)
  have hs := hpressed ⟨.start, congrArg (·.latest.held .start) hpolled, hafter .start⟩
  let calm := (d₀.attach ⟨0⟩).putOff.step.2
  let board : Board :=
    { calm.board with joypad := ((d₀.attach ⟨0⟩).polled.steps 1).keypad.latest }
  have hcpu : ((d₀.attach ⟨0⟩).steps 1).cpu =
      if calm.cpu.stopped then calm.cpu.wake else calm.cpu := congrArg cpu hs
  have hboard : ((d₀.attach ⟨0⟩).steps 1).board = board.request Interrupt.joypad.mask :=
    congrArg Device.board hs
  refine ⟨d₀, hd₀, hnone, hone, hafter, ?_, ?_, ?_⟩
  · change ((d₀.attach ⟨0⟩).steps 1).cpu.stopped = false
    rw [hcpu]
    by_cases hstopped : calm.cpu.stopped = true
    · rw [if_pos hstopped]
      rfl
    · rw [if_neg hstopped]
      exact eq_false_of_ne_true hstopped
  · change ((d₀.attach ⟨0⟩).steps 1).board.memory.get Cell.requests &&& 0x10 = 0x10
    have hrequests : (board.request Interrupt.joypad.mask).memory.get Cell.requests =
        board.memory.get Cell.requests ||| 0x10 := Memory.get_set_self _ _ _
    rw [hboard, hrequests]
    exact mask_or_self _ _
  · intro n hn hpolls
    exact (hgap 0 n hn hpoll (hpolls.trans hone.symm)).1

end Start

end Device
end DotMatrix
