import DotMatrix.Proofs.Board.Wiring
import DotMatrix.Proofs.Device.Sleep

/-! # What a poll of the keypad does

A step that reaches the end of the countdown ends with a poll. It does what the same step does with
its poll put off, and then the poll takes over the buttons of a keypad that has changed.
-/
namespace DotMatrix

namespace Joypad
variable {ι : Type} [Keypad ι]

def ofKeypad (keypad : ι) : Joypad where
  up := Keypad.held keypad .up
  down := Keypad.held keypad .down
  left := Keypad.held keypad .left
  right := Keypad.held keypad .right
  a := Keypad.held keypad .a
  b := Keypad.held keypad .b
  start := Keypad.held keypad .start
  select := Keypad.held keypad .select

theorem held_ofKeypad (keypad : ι) (button : Button) :
    (ofKeypad keypad).held button = Keypad.held keypad button := by
  cases button <;> rfl

/-- The cell shows the buttons held on the selected lines, as rows that read low, and nothing
else. -/
def Shown (j : Joypad) (lines shown : UInt8) : Prop :=
  ∀ row < 4, shown.toNat.testBit row = false ↔
    ∃ button : Button, button.row = row ∧ lines.toNat.testBit button.column = false ∧
      j.held button = true

end Joypad

theorem Board.shown_read (b : Board) :
    b.joypad.Shown (b.memory.get Cell.joypad) (b.read Cell.joypad).1 :=
  fun _ hrow => b.joypad.testBit_read (b.memory.get Cell.joypad) hrow

theorem Board.shown_write_read (b : Board) (v : UInt8) :
    b.joypad.Shown v ((b.write Cell.joypad v).read Cell.joypad).1 := by
  have hread : ((b.write Cell.joypad v).read Cell.joypad).1 = b.joypad.read v := by
    rw [Board.write_joypad]
    change b.joypad.read ((b.memory.set Cell.joypad (Joypad.drive v)).get Cell.joypad) = _
    rw [Memory.get_set_self]
    exact b.joypad.read_congr (Joypad.drive_lines v)
  intro row hrow
  rw [hread]
  exact b.joypad.testBit_read v hrow

namespace Device
variable {ι ρ π : Type}

section Sample
variable [Keypad ι] {keypad : ι} {s : Machine Board}

theorem sampleButtons_eq (keypad : ι) (b : Board) :
    (sampleButtons keypad b).2 = { b with joypad := .ofKeypad keypad } := rfl

theorem sampled_of_presses (h : Presses keypad s.bus.joypad) :
    sampled keypad s =
      ⟨if s.cpu.stopped then s.cpu.wake else s.cpu,
        ({ s.bus with joypad := .ofKeypad keypad } : Board).request Interrupt.joypad.mask⟩ := by
  have hp : (sampleButtons keypad s.bus).1 = true := (sampleButtons_iff keypad s.bus).2 h
  unfold sampled
  dsimp only
  rw [hp, sampleButtons_eq]
  cases s.cpu.stopped with
  | false => rfl
  | true => rfl

theorem sampled_of_not_presses (h : ¬Presses keypad s.bus.joypad) :
    sampled keypad s = ⟨s.cpu, { s.bus with joypad := .ofKeypad keypad }⟩ := by
  have hp : (sampleButtons keypad s.bus).1 = false := by
    rw [← Bool.not_eq_true]
    exact fun hs => h ((sampleButtons_iff keypad s.bus).1 hs)
  unfold sampled
  dsimp only
  rw [hp, sampleButtons_eq]
  rfl

variable {d : Device Board ι ρ π}

theorem pollInput_of_unchanged (h : (Keypad.refresh d.keypad).1 = false) :
    d.pollInput =
      { d with keypad := (Keypad.refresh d.keypad).2, inputCountdown := inputPollCycles } := by
  rw [pollInput_eq, if_neg (ne_true_of_eq_false h)]

theorem pollInput_of_pressed (h : d.Pressed) :
    d.pollInput =
      { d with
        machine := ⟨if d.cpu.stopped then d.cpu.wake else d.cpu,
          ({ d.board with joypad := .ofKeypad (Keypad.refresh d.keypad).2 } : Board).request
            Interrupt.joypad.mask⟩
        keypad := (Keypad.refresh d.keypad).2
        inputCountdown := inputPollCycles } := by
  rw [pollInput_eq, if_pos h.1, sampled_of_presses h.2]
  rfl

theorem pollInput_of_not_pressed (hc : (Keypad.refresh d.keypad).1 = true) (h : ¬d.Pressed) :
    d.pollInput =
      { d with
        machine := ⟨d.cpu, { d.board with joypad := .ofKeypad (Keypad.refresh d.keypad).2 }⟩
        keypad := (Keypad.refresh d.keypad).2
        inputCountdown := inputPollCycles } := by
  rw [pollInput_eq, if_pos hc, sampled_of_not_presses fun hp => h ⟨hc, hp⟩]
  rfl

/-- What a poll does, with the samples before and after it. -/
theorem effect_of_poll {before after : Joypad}
    (hbefore : d.board.joypad = before)
    (hafter : after =
      if (Keypad.refresh d.keypad).1 then .ofKeypad (Keypad.refresh d.keypad).2 else before) :
    let refreshed := Keypad.refresh d.keypad
    let counted : Device Board ι ρ π := { d with keypad := refreshed.2, inputCountdown := 70224 }
    (refreshed.1 = false → d.pollInput = counted ∧ after = before) ∧
    (refreshed.1 = true →
      let board : Board := { d.board with joypad := after }
      let newly := ∃ button, before.held button = false ∧ after.held button = true
      (∀ button, after.held button = Keypad.held refreshed.2 button) ∧
      (newly → d.pollInput =
        { counted with
          machine := ⟨if d.cpu.stopped then d.cpu.wake else d.cpu,
            board.request Interrupt.joypad.mask⟩ }) ∧
      (¬newly → d.pollInput = { counted with machine := ⟨d.cpu, board⟩ })) := by
  intro refreshed counted
  constructor
  · intro hc
    exact ⟨pollInput_of_unchanged hc, hafter.trans (if_neg (ne_true_of_eq_false hc))⟩
  · intro hc board newly
    have hsample : after = .ofKeypad refreshed.2 := hafter.trans (if_pos hc)
    have hheld (button : Button) : after.held button = Keypad.held refreshed.2 button := by
      rw [hsample, Joypad.held_ofKeypad]
    have hnewly : newly ↔ d.Pressed := by
      change newly ↔ refreshed.1 = true ∧ Presses refreshed.2 d.board.joypad
      rw [hbefore, and_iff_right hc]
      exact exists_congr fun button => by rw [hheld, and_comm]
    refine ⟨hheld, fun h => ?_, fun h => ?_⟩
    · rw [pollInput_of_pressed (hnewly.1 h), ← hsample]
      rfl
    · rw [pollInput_of_not_pressed hc (mt hnewly.2 h), ← hsample]
      rfl

theorem joypad_pollInput (d : Device Board ι ρ π) :
    d.pollInput.board.joypad =
      if (Keypad.refresh d.keypad).1 then .ofKeypad (Keypad.refresh d.keypad).2
      else d.board.joypad := by
  cases hc : (Keypad.refresh d.keypad).1 with
  | false =>
    rw [pollInput_of_unchanged hc]
    rfl
  | true =>
    by_cases hp : d.Pressed
    · rw [pollInput_of_pressed hp]
      rfl
    · rw [pollInput_of_not_pressed hc hp]
      rfl

/-- A sample does not look at the watched access. -/
theorem sampled_takeHit (keypad : ι) (s : Machine Board) :
    sampled keypad (s.mapBus fun b => b.takeHit.2) =
      (sampled keypad s).mapBus fun b => b.takeHit.2 := by
  by_cases hp : Presses keypad s.bus.joypad
  · have ht : Presses keypad (s.mapBus fun b => b.takeHit.2).bus.joypad := hp
    rw [sampled_of_presses hp, sampled_of_presses ht]
    rfl
  · have ht : ¬Presses keypad (s.mapBus fun b => b.takeHit.2).bus.joypad := hp
    rw [sampled_of_not_presses hp, sampled_of_not_presses ht]
    rfl

end Sample

section PutOff

theorem settleWatch_eq_takeHit (d : Device Board ι ρ π) (address : UInt16) (n : Nat) :
    (d.settleWatch address n).2 = { d with machine := d.machine.mapBus fun b => b.takeHit.2 } := by
  unfold settleWatch
  cases hh : d.board.watch.hit with
  | none =>
    have hnothing : d.machine.bus.takeHit.2 = d.machine.bus :=
      congrArg (fun hit => { d.board with watch := { d.board.watch with hit } }) hh.symm
    exact congrArg (fun bus => { d with machine.bus := bus }) hnothing.symm
  | some hit => rfl

/-- The device with the next poll of its keypad put off by a frame. -/
def putOff (d : Device Board ι ρ π) : Device Board ι ρ π :=
  { d with inputCountdown := d.inputCountdown + inputPollCycles }

/-- What a step does after the countdown: the cycles are added and the watched access is
collected. -/
def settled (d : Device Board ι ρ π) (n : Nat) : Device Board ι ρ π :=
  { d with cycles := d.cycles + n, machine := d.machine.mapBus fun b => b.takeHit.2 }

/-- A poll is not in the way of what follows it. -/
theorem countInput_settled [Keypad ι] (d : Device Board ι ρ π) (n : Nat) :
    (d.settled n).countInput n = (d.countInput n).settled n := by
  have hc : (d.settled n).inputCountdown = d.inputCountdown := rfl
  have hm : (d.settled n).machine = d.machine.mapBus fun b => b.takeHit.2 := rfl
  rw [countInput_eq, countInput_eq, pollInput_eq, pollInput_eq, hc, hm, sampled_takeHit]
  by_cases hn : d.inputCountdown - n = 0
  · rw [if_pos hn, if_pos hn]
    unfold settled
    split <;> rfl
  · rw [if_neg hn, if_neg hn]
    rfl

variable [Keypad ι] [Screen ρ] [Peripheral π Board] {d : Device Board ι ρ π} {x : Executed}

omit [Keypad ι] [Screen ρ] [Peripheral π Board] in
theorem fetched_of_executed? (h : d.executed? = some x) :
    ∃ fetched, d.breakEvent? = none ∧ d.machine.fetch = .ok fetched ∧
      x.cost = (d.machine.carryOut fetched).1 := by
  unfold executed? at h
  split at h
  case h_1 _ _ fetched hb hf =>
    cases h
    exact ⟨fetched, hb, hf, rfl⟩
  case h_2 => cases h

omit [Keypad ι] [Screen ρ] [Peripheral π Board] in
theorem costWithin_of_executed? (h : d.executed? = some x) : CostWithin 44 x.cost := by
  obtain ⟨fetched, -, hf, hcost⟩ := fetched_of_executed? h
  rw [hcost]
  exact Machine.costWithin_carryOut hf

/-- Whatever is on the countdown, a step does the same up to it. Only a poll turns to the keypad and
moves the buttons. -/
theorem exists_step_eq_countInput (h : d.executed? = some x) :
    ∃ e : Device Board ι ρ π, e.keypad = d.keypad ∧ e.cycles = d.cycles + x.cost ∧
      (Requesting π → d.board.hooks = [] → e.board.joypad = d.board.joypad) ∧
      ∀ inputCountdown, ({ d with inputCountdown } : Device Board ι ρ π).step.2 =
        ({ e with inputCountdown } : Device Board ι ρ π).countInput x.cost := by
  obtain ⟨fetched, hb, hf, hcost⟩ := fetched_of_executed? h
  let ticked := (d.processed fetched).afterPeripherals x.cost
  have hcycles : ticked.cycles = d.cycles := rfl
  have hkeypad : ticked.keypad = d.keypad := rfl
  have hjoypad (hπ : Requesting π) (hb : d.board.hooks = []) :
      ticked.board.joypad = d.board.joypad :=
    (joypad_afterPeripherals hπ _ x.cost).trans (joypad_processed hb fetched)
  have hstep (inputCountdown : Nat) : ({ d with inputCountdown } : Device Board ι ρ π).step.2 =
      (({ ticked with inputCountdown } : Device Board ι ρ π).countInput x.cost).settled x.cost := by
    let d' : Device Board ι ρ π := { d with inputCountdown }
    let ticked' : Device Board ι ρ π := { ticked with inputCountdown }
    have hb' : d'.breakEvent? = none := hb
    have hf' : d'.machine.fetch = .ok fetched := hf
    have hout : d'.carryOut fetched =
        ((d'.processed fetched).passTime x.cost).settleWatch d.pc x.cost := by
      rw [hcost]
      rfl
    have hpassed : (d'.processed fetched).passTime x.cost =
        { ticked'.countInput x.cost with cycles := (ticked'.countInput x.cost).cycles + x.cost } :=
      rfl
    rw [step_of_fetch_ok hb' hf', hout, hpassed]
    exact settleWatch_eq_takeHit _ d.pc x.cost
  clear_value ticked
  refine ⟨ticked.settled x.cost, hkeypad, congrArg (· + x.cost) hcycles, hjoypad, ?_⟩
  intro inputCountdown
  rw [hstep, ← countInput_settled]
  rfl

/-- With the poll put off the step is all there but for it. -/
theorem putOff_step (h : d.executed? = some x) :
    d.putOff.step.2.keypad = d.keypad ∧ d.putOff.step.2.cycles = d.cycles + x.cost ∧
      (Requesting π → d.board.hooks = [] → d.putOff.step.2.board.joypad = d.board.joypad) ∧
      d.step.2 = ({ d.putOff.step.2 with inputCountdown := d.inputCountdown } :
        Device Board ι ρ π).countInput x.cost := by
  obtain ⟨e, hkeypad, hcycles, hjoypad, he⟩ := exists_step_eq_countInput h
  obtain ⟨-, -, hcost⟩ := costWithin_of_executed? h
  have hd : d.step.2 = _ := he d.inputCountdown
  have hp : d.putOff.step.2 = _ := he (d.inputCountdown + inputPollCycles)
  have hmore : ¬d.inputCountdown + inputPollCycles - x.cost = 0 := by
    unfold inputPollCycles
    omega
  rw [hd, hp, countInput_eq { e with inputCountdown := d.inputCountdown + inputPollCycles },
    if_neg hmore]
  exact ⟨hkeypad, hcycles, hjoypad, rfl⟩

/-- A step that does not reach the next poll only counts. -/
theorem step_of_waiting (h : d.executed? = some x) (hw : x.cost < d.inputCountdown) :
    d.step.2 = { d.putOff.step.2 with inputCountdown := d.inputCountdown - x.cost } := by
  obtain ⟨-, -, -, hs⟩ := putOff_step h
  have hleft : ¬d.inputCountdown - x.cost = 0 := by omega
  rw [hs, countInput_eq, if_neg hleft]

/-- A step that reaches the next poll ends with it. -/
theorem step_of_due (h : d.executed? = some x) (hdue : d.inputCountdown ≤ x.cost) :
    d.step.2 = d.putOff.step.2.pollInput := by
  obtain ⟨-, -, -, hs⟩ := putOff_step h
  rw [hs, countInput_eq, if_pos (Nat.sub_eq_zero_of_le hdue), pollInput_eq, pollInput_eq]

/-- What a step does to the keypad and to the time until its next poll. -/
inductive Beat (d : Device Board ι ρ π) : Device Board ι ρ π → Prop where
  | held {e : Device Board ι ρ π} (nothing : d.executed? = none) (keypad : e.keypad = d.keypad)
      (countdown : e.inputCountdown = d.inputCountdown) (cycles : e.cycles = d.cycles) : Beat d e
  | waited {e : Device Board ι ρ π} {x : Executed} (carried : d.executed? = some x)
      (before : x.cost < d.inputCountdown) (keypad : e.keypad = d.keypad)
      (countdown : e.inputCountdown = d.inputCountdown - x.cost)
      (cycles : e.cycles = d.cycles + x.cost) : Beat d e
  | polled {e : Device Board ι ρ π} {x : Executed} (carried : d.executed? = some x)
      (due : d.inputCountdown ≤ x.cost) (keypad : e.keypad = (Keypad.refresh d.keypad).2)
      (countdown : e.inputCountdown = inputPollCycles) (cycles : e.cycles = d.cycles + x.cost) :
      Beat d e

theorem beat_step (d : Device Board ι ρ π) : Beat d d.step.2 := by
  cases hx : d.executed? with
  | none =>
    obtain ⟨-, resumeAt, hs⟩ := step_of_executed?_none hx
    rw [hs]
    exact .held hx rfl rfl rfl
  | some x =>
    obtain ⟨hkeypad, hcycles, -, -⟩ := putOff_step hx
    by_cases hdue : d.inputCountdown ≤ x.cost
    · rw [step_of_due hx hdue, pollInput_eq]
      exact .polled hx hdue (congrArg (Keypad.refresh · |>.2) hkeypad) rfl hcycles
    · have hw := Nat.not_le.1 hdue
      rw [step_of_waiting hx hw]
      exact .waited hx hw hkeypad rfl hcycles

end PutOff
end Device

end DotMatrix
