import DotMatrix.Proofs.Device.Log

/-! # Metered peripherals

A meter counts the cycles that a peripheral is given. Taking the meters away turns the steps of a
metered device into those of the plain one, and what a meter shows is the time that has passed on
the device.
-/
namespace DotMatrix

/-- A peripheral and the cycles that it was given. -/
structure Metered (π : Type) where
  inner : π
  given : Nat

instance {π : Type} [Peripheral π Board] : Peripheral (Metered π) Board where
  tick m b cycles :=
    let (frame, inner, b) := Peripheral.tick m.inner b cycles
    (frame, ⟨inner, m.given + cycles⟩, b)

namespace Device
variable {ι ρ π κ : Type}

def withPeripherals (d : Device Board ι ρ π) (l : List κ) : Device Board ι ρ κ :=
  { d with peripherals := l }

def metered (d : Device Board ι ρ π) : Device Board ι ρ (Metered π) :=
  d.withPeripherals (d.peripherals.map (⟨·, 0⟩))

def unmetered (d : Device Board ι ρ (Metered π)) : Device Board ι ρ π :=
  d.withPeripherals (d.peripherals.map Metered.inner)

theorem unmetered_metered (d : Device Board ι ρ π) : d.metered.unmetered = d := by
  have hl : d.metered.peripherals.map Metered.inner = d.peripherals := by
    unfold metered withPeripherals
    rw [List.map_map]
    exact List.map_id d.peripherals
  unfold unmetered
  rw [hl]
  rfl

/-- There are so many meters, and each of them shows the time that has passed since. -/
def InTime (count since : Nat) (d : Device Board ι ρ (Metered π)) : Prop :=
  d.peripherals.map (since + ·.given) = List.replicate count d.cycles

section Peripherals
variable [Screen ρ] [Peripheral π Board]

theorem unmetered_tickPeripherals (n : Nat) (l : List (Metered π)) (b : Board) (screen : ρ) :
    tickPeripherals n (l.map Metered.inner) b screen =
      ((tickPeripherals n l b screen).1.map Metered.inner, (tickPeripherals n l b screen).2) := by
  induction l generalizing b screen with
  | nil => rfl
  | cons m rest ih => simp only [List.map_cons, tickPeripherals, ih, Peripheral.tick]

theorem given_tickPeripherals (n : Nat) (l : List (Metered π)) (b : Board) (screen : ρ) :
    (tickPeripherals n l b screen).1.map Metered.given = l.map fun m => m.given + n := by
  induction l generalizing b screen with
  | nil => rfl
  | cons m rest ih => simp only [List.map_cons, tickPeripherals, ih, Peripheral.tick]

end Peripherals

section Parts
variable (d : Device Board ι ρ π) (l : List κ) (n : Nat)

theorem withPeripherals_countInput [Keypad ι] :
    (d.withPeripherals l).countInput n = (d.countInput n).withPeripherals l := by
  have hc : (d.withPeripherals l).inputCountdown = d.inputCountdown := rfl
  rw [countInput_eq, countInput_eq, pollInput_eq, pollInput_eq, hc]
  split <;> rfl

theorem peripherals_countInput [Keypad ι] : (d.countInput n).peripherals = d.peripherals := by
  rw [countInput_eq, pollInput_eq]
  split <;> rfl

theorem withPeripherals_settleWatch (address : UInt16) :
    (d.withPeripherals l).settleWatch address n =
      ((d.settleWatch address n).1, (d.settleWatch address n).2.withPeripherals l) := by
  have hb : (d.withPeripherals l).board = d.board := rfl
  unfold settleWatch
  rw [hb]
  cases d.board.watch.hit <;> rfl

theorem peripherals_settleWatch (address : UInt16) :
    (d.settleWatch address n).2.peripherals = d.peripherals := by
  unfold settleWatch
  split <;> rfl

end Parts

section Step
variable [Keypad ι] [Screen ρ] [Peripheral π Board] {d : Device Board ι ρ (Metered π)}
  {count since : Nat}

theorem unmetered_passTime (d : Device Board ι ρ (Metered π)) (n : Nat) :
    d.unmetered.passTime n = (d.passTime n).unmetered := by
  let clocked (e : Device Board ι ρ π) : Device Board ι ρ π := { e with cycles := e.cycles + n }
  have hticked : d.unmetered.afterPeripherals n = (d.afterPeripherals n).unmetered := by
    have ht := unmetered_tickPeripherals n d.peripherals ((d.board.tickTimer n).tick n) d.screen
    exact congrArg (fun r => { d.unmetered with
      peripherals := r.1, machine.bus := r.2.1, screen := r.2.2 }) ht
  have hcounted : ((d.afterPeripherals n).countInput n).unmetered =
      (d.afterPeripherals n).unmetered.countInput n := by
    unfold unmetered
    rw [withPeripherals_countInput, peripherals_countInput]
  have hl : d.unmetered.passTime n = clocked ((d.unmetered.afterPeripherals n).countInput n) := rfl
  have hr : (d.passTime n).unmetered =
    clocked ((d.afterPeripherals n).countInput n).unmetered := rfl
  rw [hl, hr, hticked, hcounted]

theorem inTime_passTime (h : d.InTime count since) (n : Nat) :
    (d.passTime n).InTime count since := by
  have hcycles : (d.passTime n).cycles = d.cycles + n := (steady_passTime d n).cycles
  have hpassed : (d.passTime n).peripherals = (d.afterPeripherals n).peripherals :=
    peripherals_countInput _ n
  have hgiven : (d.afterPeripherals n).peripherals.map Metered.given =
      d.peripherals.map fun m => m.given + n := given_tickPeripherals n d.peripherals _ d.screen
  unfold InTime at h ⊢
  rw [hpassed, hcycles]
  calc (d.afterPeripherals n).peripherals.map (since + ·.given)
    _ = ((d.afterPeripherals n).peripherals.map Metered.given).map (since + ·) := by
      rw [List.map_map]
      rfl
    _ = (d.peripherals.map (since + ·.given)).map (· + n) := by
      rw [hgiven, List.map_map, List.map_map]
      exact List.map_congr_left fun m _ => (Nat.add_assoc since m.given n).symm
    _ = List.replicate count (d.cycles + n) := by rw [h, List.map_replicate]

/-- A step without meters is the metered step with the meters taken away. -/
theorem step_unmetered (d : Device Board ι ρ (Metered π)) :
    d.unmetered.step = (d.step.1, d.step.2.unmetered) := by
  have hbreak : d.unmetered.breakEvent? = d.breakEvent? := rfl
  have hfetch : d.unmetered.machine.fetch = d.machine.fetch := rfl
  cases hb : d.breakEvent? with
  | some event =>
    rw [step_of_breakEvent hb, step_of_breakEvent (hbreak.trans hb)]
    rfl
  | none =>
    cases hf : d.machine.fetch with
    | error fault =>
      rw [step_of_fetch_error hb hf, step_of_fetch_error (hbreak.trans hb) (hfetch.trans hf)]
      rfl
    | ok fetched =>
      rw [step_of_fetch_ok hb hf, step_of_fetch_ok (hbreak.trans hb) (hfetch.trans hf)]
      let cost := (d.machine.carryOut fetched).1
      have hout : d.carryOut fetched =
        ((d.processed fetched).passTime cost).settleWatch d.pc cost := rfl
      have hplain : d.unmetered.carryOut fetched =
        ((d.processed fetched).unmetered.passTime cost).settleWatch d.pc cost := rfl
      rw [hout, hplain, unmetered_passTime]
      unfold unmetered
      rw [withPeripherals_settleWatch, peripherals_settleWatch]

theorem inTime_step (h : d.InTime count since) : d.step.2.InTime count since := by
  cases hx : d.executed? with
  | none =>
    obtain ⟨-, resumeAt, hs⟩ := step_of_executed?_none hx
    rw [hs]
    exact h
  | some x =>
    obtain ⟨fetched, -, -, hs⟩ := step_of_executed?_some hx
    have hprocessed : (d.processed fetched).InTime count since := h
    have hpassed := inTime_passTime hprocessed x.cost
    have hsettled := (steady_settleWatch ((d.processed fetched).passTime x.cost) d.pc x.cost).1
    rw [hs]
    unfold InTime at hpassed ⊢
    rw [peripherals_settleWatch, hsettled.cycles]
    exact hpassed

/-- Meters do not disturb a run, and each of them shows the time that the run has taken. -/
theorem metered_steps (d : Device Board ι ρ π) (n : Nat) :
    (d.metered.steps n).unmetered = d.steps n ∧
      (d.metered.steps n).InTime d.peripherals.length d.cycles := by
  induction n with
  | zero =>
    refine ⟨unmetered_metered d, ?_⟩
    change (d.peripherals.map fun p => (⟨p, 0⟩ : Metered π)).map (d.cycles + ·.given) = _
    rw [List.map_map]
    exact List.map_const'
  | succ n ih =>
    obtain ⟨hplain, htime⟩ := ih
    have hs := step_unmetered (d.metered.steps n)
    rw [hplain] at hs
    exact ⟨(congrArg Prod.snd hs).symm, inTime_step htime⟩

end Step

end Device
end DotMatrix
