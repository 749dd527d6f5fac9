import DotMatrix.Device.Run
import DotMatrix.Proofs.Device.Transparency
import DotMatrix.Proofs.Processor.Cost

/-! # The pace of a device

On any bus, a step either moves nothing or passes 4 to 44 cycles. A run up to a limit therefore ends
after finitely many steps and less than one step behind the limit, and a run that is taken up again
after each pause gets there too: no pause before an instruction follows another one directly.
-/
namespace DotMatrix.Device

variable {β ι ρ π : Type} [Mainboard β]

structure Steady (d e : Device β ι ρ π) : Prop where
  breakpoints : e.breakpoints = d.breakpoints
  exitRequested : e.exitRequested = d.exitRequested
  resumeAt : e.resumeAt = d.resumeAt
  cycles : e.cycles = d.cycles

section Parts
variable (d : Device β ι ρ π)

theorem steady_noteBreakCheck : Steady d d.noteBreakCheck ∧ d.noteBreakCheck.cpu = d.cpu := by
  unfold noteBreakCheck
  split
  · exact ⟨⟨rfl, rfl, rfl, rfl⟩, rfl⟩
  · exact ⟨⟨rfl, rfl, rfl, rfl⟩, rfl⟩

theorem steady_countInput [Keypad ι] (n : Nat) : Steady d (d.countInput n) := by
  unfold countInput pollInput leaveStop
  dsimp only
  repeat' split
  all_goals exact ⟨rfl, rfl, rfl, rfl⟩

theorem steady_passTime [Keypad ι] [Screen ρ] [Peripheral π β] (n : Nat) :
    Steady { d with cycles := d.cycles + n } (d.passTime n) := by
  obtain ⟨hb, hx, hr, hc⟩ := steady_countInput
    (let bus := Mainboard.tick (Mainboard.tickTimer d.machine.bus n) n
      let ticked := tickPeripherals n d.peripherals bus d.screen
      { d with peripherals := ticked.1, machine.bus := ticked.2.1, screen := ticked.2.2 }) n
  exact ⟨hb, hx, hr, congrArg (· + n) hc⟩

/-- A step that was carried out tells its cost or a watched access. -/
theorem steady_settleWatch (address : UInt16) (n : Nat) :
    Steady d (d.settleWatch address n).2 ∧
      ((d.settleWatch address n).1 = .executed n ∨
        ∃ hit, (d.settleWatch address n).1 = .paused (.watch hit address)) := by
  unfold settleWatch
  split
  · exact ⟨⟨rfl, rfl, rfl, rfl⟩, .inl rfl⟩
  · exact ⟨⟨rfl, rfl, rfl, rfl⟩, .inr ⟨_, rfl⟩⟩

end Parts

section Pauses

/-- Where a device has paused last, no breakpoint pauses it again. -/
theorem breakEvent?_of_resumeAt {d : Device β ι ρ π} (h : d.resumeAt = some d.pc) :
    d.breakEvent? = none := by
  simp [breakEvent?, breakable, h]

theorem resumeAt_of_breakEvent {d : Device β ι ρ π} {event : BreakEvent}
    (h : d.breakEvent? = some event) : d.resumeAt ≠ some d.pc := by
  intro hr
  rw [breakEvent?_of_resumeAt hr] at h
  cases h

omit [Mainboard β] in
theorem resumeAt_of_steady {d e : Device β ι ρ π} (cpu : e.cpu = d.cpu)
    (h : Steady { d with resumeAt := some d.pc } e) : e.resumeAt = some e.pc := by
  have hpc : e.pc = d.pc := congrArg (·.registers.pc) cpu
  exact h.resumeAt.trans (congrArg some hpc.symm)

end Pauses

section Step
variable [Keypad ι] [Screen ρ] [Peripheral π β]

/-- What a step does to the clock: a pause before an instruction and a fault pass no cycles, and
every other step passes what its instruction and its interrupt check cost. -/
inductive Pace (d : Device β ι ρ π) : Except Fault StepOutcome → Device β ι ρ π → Prop where
  | paused {e : Device β ι ρ π} {event : BreakEvent}
      (due : d.breakEvent? = some event) (cpu : e.cpu = d.cpu)
      (steady : Steady { d with resumeAt := some d.pc } e) : Pace d (.ok (.paused event)) e
  | failed {e : Device β ι ρ π} {fault : Fault}
      (steady : Steady { d with resumeAt := none } e) : Pace d (.error fault) e
  | executed {e : Device β ι ρ π} {cost : Nat} (within : CostWithin 44 cost)
      (steady : Steady { d with resumeAt := none, cycles := d.cycles + cost } e) :
      Pace d (.ok (.executed cost)) e
  | watched {e : Device β ι ρ π} {cost : Nat} {hit : WatchHit} (within : CostWithin 44 cost)
      (steady : Steady { d with resumeAt := none, cycles := d.cycles + cost } e) :
      Pace d (.ok (.paused (.watch hit d.pc))) e

theorem step_pace (d : Device β ι ρ π) : Pace d d.step.1 d.step.2 := by
  obtain ⟨⟨hb, hx, hr, hc⟩, hcpu⟩ := steady_noteBreakCheck d
  unfold step
  cases he : d.breakEvent? with
  | some event => exact .paused he hcpu ⟨hb, hx, rfl, hc⟩
  | none =>
    dsimp only
    cases hf : d.noteBreakCheck.machine.fetch with
    | error fault => exact .failed ⟨hb, hx, rfl, hc⟩
    | ok fetched =>
      have within := Machine.costWithin_carryOut hf
      dsimp only
      let after : Device β ι ρ π :=
        { d.noteBreakCheck with
          resumeAt := none
          machine := (d.noteBreakCheck.machine.carryOut fetched).2 }
      let cost := (d.noteBreakCheck.machine.carryOut fetched).1
      obtain ⟨hpb, hpx, hpr, hpc⟩ := steady_passTime after cost
      obtain ⟨⟨hsb, hsx, hsr, hsc⟩, hout⟩ := steady_settleWatch (after.passTime cost) d.pc cost
      have hs : Steady { d with resumeAt := none, cycles := d.cycles + cost }
          ((after.passTime cost).settleWatch d.pc cost).2 :=
        ⟨(hsb.trans hpb).trans hb, (hsx.trans hpx).trans hx, hsr.trans hpr,
          (hsc.trans hpc).trans (congrArg (· + cost) hc)⟩
      change Pace d (.ok ((after.passTime cost).settleWatch d.pc cost).1)
        ((after.passTime cost).settleWatch d.pc cost).2
      rcases hout with hout | ⟨hit, hout⟩
      · rw [hout]
        exact .executed within hs
      · rw [hout]
        exact .watched within hs

/-- What is carried out without a watched access leaves its cost. -/
theorem step_of_unwatched {d : Device β ι ρ π} {fetched : Option Instruction} {cost : Nat}
    {s : Machine β} (hb : d.breakEvent? = none)
    (hf : d.noteBreakCheck.machine.fetch = .ok fetched)
    (hs : d.noteBreakCheck.machine.carryOut fetched = (cost, s))
    (hw : (({ d.noteBreakCheck with machine := s, resumeAt := none } :
      Device β ι ρ π).passTime cost).board.watch.hit = none) :
    d.step.1 = .ok (.executed cost) := by
  obtain ⟨rfl, rfl⟩ := Prod.mk.inj hs
  unfold step settleWatch
  rw [hb]
  dsimp only
  rw [hf]
  dsimp only at hw ⊢
  rw [hw]

/-- A step that does not pause before its instruction costs 4 to 44 cycles. -/
theorem cost_step {d : Device β ι ρ π} {outcome : StepOutcome} (ho : d.step.1 = .ok outcome)
    (hp : pausedBefore d.step.1 = false) :
    ∃ cost, CostWithin 44 cost ∧ d.step.2.cycles = d.cycles + cost ∧
      ∀ n, outcome = .executed n → n = cost := by
  have hpace := step_pace d
  rw [ho] at hpace hp
  cases hpace with
  | paused due =>
    rw [pausedBefore_breakEvent due] at hp
    cases hp
  | executed within steady => exact ⟨_, within, steady.cycles, fun _ h => by cases h; rfl⟩
  | watched within steady => exact ⟨_, within, steady.cycles, nofun⟩

theorem pace_of_pausedBefore {d : Device β ι ρ π} (h : pausedBefore d.step.1 = true) :
    d.step.2.cycles = d.cycles ∧ d.step.2.resumeAt = some d.step.2.pc := by
  have hpace := step_pace d
  generalize d.step.1 = outcome at h hpace
  cases hpace with
  | paused due cpu steady => exact ⟨steady.cycles, resumeAt_of_steady cpu steady⟩
  | failed | executed | watched => cases h

theorem pausedBefore_of_breakEvent_none {d : Device β ι ρ π} (h : d.breakEvent? = none) :
    pausedBefore d.step.1 = false := by
  have hpace := step_pace d
  generalize d.step.1 = outcome at hpace ⊢
  cases hpace with
  | paused due =>
    rw [h] at due
    cases due
  | failed | executed | watched => rfl

/-- No two pauses before an instruction follow each other, whatever is done to the bus between
them. -/
theorem pausedBefore_step_step {d : Device β ι ρ π} (h : pausedBefore d.step.1 = true)
    (f : β → β) : pausedBefore (d.step.2.mapBus f).step.1 = false :=
  pausedBefore_of_breakEvent_none (breakEvent?_of_resumeAt (pace_of_pausedBefore h).2)

end Step

section Measure
variable {limit : Nat}

def stepsLeft (limit : Nat) (d : Device β ι ρ π) : Nat := (limit - d.cycles + 3) / 4

/-- Pauses that fit below a limit at most: one before every step and one after it, unless the device
has just paused where it stands. -/
def pausesLeft (limit : Nat) (d : Device β ι ρ π) : Nat :=
  2 * d.stepsLeft limit + if d.resumeAt = some d.pc then 0 else 1

omit [Mainboard β] in
theorem pausesLeft_le (limit : Nat) (d : Device β ι ρ π) :
    d.pausesLeft limit ≤ 2 * d.stepsLeft limit + 1 := by
  unfold pausesLeft
  split <;> omega

omit [Mainboard β] in
/-- A step that costs something leaves room for fewer steps. -/
theorem stepsLeft_lt {d e : Device β ι ρ π} {cost : Nat} (h : d.cycles < limit)
    (hc : CostWithin 44 cost) (he : e.cycles = d.cycles + cost) :
    e.stepsLeft limit < d.stepsLeft limit := by
  obtain ⟨-, hpos, -⟩ := hc
  unfold stepsLeft
  omega

omit [Mainboard β] in
theorem pausesLeft_lt_of_stepsLeft_lt {d e : Device β ι ρ π}
    (h : e.stepsLeft limit < d.stepsLeft limit) : e.pausesLeft limit < d.pausesLeft limit := by
  have he := pausesLeft_le limit e
  have hd : 2 * d.stepsLeft limit ≤ d.pausesLeft limit := Nat.le_add_right _ _
  omega

omit [Mainboard β] in
/-- A pause before an instruction uses up the one that was possible there. -/
theorem pausesLeft_lt_of_resumeAt {d e : Device β ι ρ π} (hd : d.resumeAt ≠ some d.pc)
    (he : e.resumeAt = some e.pc) (hc : e.cycles = d.cycles) :
    e.pausesLeft limit < d.pausesLeft limit := by
  unfold pausesLeft stepsLeft
  rw [if_neg hd, if_pos he, hc]
  omega

end Measure

section Run
variable [Keypad ι] [Screen ρ] [Peripheral π β] {limit : Nat}

inductive RunEnd (limit : Nat) (d : Device β ι ρ π) :
    Except Fault Exit → Device β ι ρ π → Prop where
  | requested {e : Device β ι ρ π} (asked : d.exitRequested = true) :
      RunEnd limit d (.ok .requested) e
  | stands {e : Device β ι ρ π} (reached : limit ≤ d.cycles) (still : e.cycles = d.cycles) :
      RunEnd limit d (.ok .cyclesElapsed) e
  | elapsed {e : Device β ι ρ π} (before : d.cycles < limit) (reached : limit ≤ e.cycles)
      (overshoot : e.cycles < limit + 44) : RunEnd limit d (.ok .cyclesElapsed) e
  | paused {e : Device β ι ρ π} {event : BreakEvent} (before : d.cycles < limit)
      (fewer : e.pausesLeft limit < d.pausesLeft limit) (overshoot : e.cycles < limit + 44)
      (kept : e.exitRequested = d.exitRequested) : RunEnd limit d (.ok (.breakpoint event)) e
  | failed {e : Device β ι ρ π} {fault : Fault} (before : d.cycles < limit) :
      RunEnd limit d (.error fault) e

omit [Mainboard β] [Keypad ι] [Screen ρ] [Peripheral π β] in
/-- A run that begins with an executed step ends as its rest does. -/
theorem RunEnd.of_executed {d e e' : Device β ι ρ π} {exit : Except Fault Exit} {cost : Nat}
    (h : RunEnd limit e exit e') (before : d.cycles < limit) (hc : CostWithin 44 cost)
    (he : e.cycles = d.cycles + cost) (hx : e.exitRequested = d.exitRequested) :
    RunEnd limit d exit e' := by
  have hsteps := stepsLeft_lt before hc he
  obtain ⟨-, -, hle⟩ := hc
  cases h with
  | requested asked => exact .requested (hx ▸ asked)
  | stands reached still => exact .elapsed before (by omega) (by omega)
  | elapsed _ reached overshoot => exact .elapsed before reached overshoot
  | paused _ fewer overshoot kept =>
    exact .paused before (Nat.lt_trans fewer (pausesLeft_lt_of_stepsLeft_lt hsteps)) overshoot
      (kept.trans hx)
  | failed _ => exact .failed before

theorem resume_of_reached {d : Device β ι ρ π} (hx : d.exitRequested = false)
    (hl : limit ≤ d.cycles) (fuel : Nat) :
    resume (some limit) (fuel + 1) d = (some (.ok .cyclesElapsed), d) := by
  unfold resume
  dsimp only
  rw [hx, if_neg Bool.false_ne_true, if_pos (by simpa using hl)]

theorem resume_of_before {d : Device β ι ρ π} (hx : d.exitRequested = false)
    (hl : d.cycles < limit) (fuel : Nat) :
    resume (some limit) (fuel + 1) d =
      match d.step with
      | (.error fault, d) => (some (.error fault), d)
      | (.ok (.paused event), d) => (some (.ok (.breakpoint event)), d)
      | (.ok (.executed _), d) => resume (some limit) fuel d := by
  rw [resume]
  dsimp only
  exact (if_neg (by simp [hx])).trans (if_neg (by simpa using hl))

/-- With more turns than steps can fit below the limit the loop comes to an end. -/
theorem resume_ends (limit fuel : Nat) {d : Device β ι ρ π} (h : d.stepsLeft limit < fuel) :
    ∃ exit e, resume (some limit) fuel d = (some exit, e) ∧ RunEnd limit d exit e := by
  induction fuel generalizing d with
  | zero => exact absurd h (Nat.not_lt_zero _)
  | succ fuel ih =>
    cases hx : d.exitRequested with
    | true => exact ⟨_, _, if_pos hx, .requested hx⟩
    | false =>
      by_cases hl : limit ≤ d.cycles
      · exact ⟨_, _, resume_of_reached hx hl fuel, .stands hl rfl⟩
      · have before : d.cycles < limit := Nat.not_le.1 hl
        rw [resume_of_before hx before]
        have hpace := step_pace d
        generalize d.step = r at hpace ⊢
        obtain ⟨outcome, e⟩ := r
        cases hpace with
        | paused due cpu steady =>
          have hfewer : e.pausesLeft limit < d.pausesLeft limit :=
            pausesLeft_lt_of_resumeAt (resumeAt_of_breakEvent due) (resumeAt_of_steady cpu steady)
              steady.cycles
          have hovershoot : e.cycles < limit + 44 := by
            have hc : e.cycles = d.cycles := steady.cycles
            omega
          exact ⟨_, _, rfl, .paused before hfewer hovershoot steady.exitRequested⟩
        | failed steady => exact ⟨_, _, rfl, .failed before⟩
        | executed within steady =>
          have hsteps := stepsLeft_lt before within steady.cycles
          obtain ⟨exit, e', hr, hend⟩ := ih (Nat.lt_of_lt_of_le hsteps (Nat.le_of_lt_succ h))
          exact ⟨exit, e', hr, hend.of_executed before within steady.cycles steady.exitRequested⟩
        | watched within steady =>
          have hsteps := stepsLeft_lt before within steady.cycles
          have hovershoot : e.cycles < limit + 44 := by
            have hc : e.cycles = d.cycles + _ := steady.cycles
            obtain ⟨-, -, hle⟩ := within
            omega
          exact ⟨_, _, rfl, .paused before (pausesLeft_lt_of_stepsLeft_lt hsteps) hovershoot
            steady.exitRequested⟩

/-- More turns than were needed change nothing. -/
theorem resume_mono {limit : Option Nat} {fuel fuel' : Nat} (h : fuel ≤ fuel')
    {d e : Device β ι ρ π} {exit : Except Fault Exit} (hr : resume limit fuel d = (some exit, e)) :
    resume limit fuel' d = (some exit, e) := by
  induction fuel generalizing fuel' d with
  | zero => cases hr
  | succ fuel ih =>
    obtain ⟨more, rfl⟩ : ∃ more, fuel' = more + 1 := ⟨fuel' - 1, by omega⟩
    unfold resume at hr ⊢
    by_cases hx : d.exitRequested = true
    · rw [if_pos hx] at hr ⊢
      exact hr
    · rw [if_neg hx] at hr ⊢
      by_cases hl : limit.any (· ≤ d.cycles) = true
      · rw [if_pos hl] at hr ⊢
        exact hr
      · rw [if_neg hl] at hr ⊢
        generalize d.step = r at hr ⊢
        obtain ⟨_ | ⟨_ | _⟩, next⟩ := r
        · exact hr
        · exact ih (Nat.le_of_succ_le_succ h) hr
        · exact hr

/-- The turns of `runFor` always suffice, and so does any number above a quarter of the cycles asked
for: the run is what the loop comes to, however long it is allowed to go on. -/
theorem resume_eq_runFor (d : Device β ι ρ π) (n : Nat) {fuel : Nat} (h : (n + 3) / 4 < fuel) :
    resume (some (d.cycles + n)) fuel d.announce = (some (d.runFor n).1, (d.runFor n).2) ∧
      RunEnd (d.cycles + n) d.announce (d.runFor n).1 (d.runFor n).2 := by
  have hleft : d.announce.stepsLeft (d.cycles + n) = (n + 3) / 4 := by
    have hc : d.announce.cycles = d.cycles := rfl
    unfold stepsLeft
    rw [hc, Nat.add_sub_cancel_left]
  obtain ⟨exit, e, hr, hend⟩ := resume_ends (d.cycles + n) fuel (hleft ▸ h)
  obtain ⟨exit', e', hr', -⟩ := resume_ends (d.cycles + n) (n + 1)
    (show d.announce.stepsLeft (d.cycles + n) < n + 1 by omega)
  have hrun : d.runFor n = (exit', e') := by
    unfold runFor
    rw [hr']
  have hsame : (some exit, e) = (some exit', e') := by
    rcases Nat.le_total fuel (n + 1) with hle | hle
    · exact (resume_mono hle hr).symm.trans hr'
    · exact hr.symm.trans (resume_mono hle hr')
  cases hsame
  rw [hrun]
  exact ⟨hr, hend⟩

/-- A run is over with a step that takes it to its limit. -/
theorem runFor_of_executed {d : Device β ι ρ π} {n cost : Nat} (hx : d.exitRequested = false)
    (hn : 0 < n) (hs : d.announce.step.1 = .ok (.executed cost)) (hc : n ≤ cost) :
    (d.runFor n).1 = .ok .cyclesElapsed := by
  obtain ⟨fuel, rfl⟩ : ∃ fuel, n = fuel + 1 := ⟨n - 1, by omega⟩
  have hunasked : d.announce.exitRequested = false := hx
  have hbefore : d.announce.cycles < d.cycles + (fuel + 1) := Nat.lt_add_of_pos_right hn
  have hpace := step_pace d.announce
  have hrun : resume (some (d.cycles + (fuel + 1))) (fuel + 2) d.announce =
      (some (.ok .cyclesElapsed), d.announce.step.2) := by
    rw [resume_of_before hunasked hbefore]
    generalize d.announce.step = r at hs hpace ⊢
    obtain ⟨outcome, e⟩ := r
    obtain rfl : outcome = .ok (.executed cost) := hs
    cases hpace with
    | executed _ steady =>
      have hreached : d.cycles + (fuel + 1) ≤ e.cycles :=
        (Nat.add_le_add_left hc d.cycles).trans (Nat.le_of_eq steady.cycles.symm)
      exact resume_of_reached (steady.exitRequested.trans hunasked) hreached fuel
  unfold runFor
  rw [hrun]

/-- A run whose cycles have elapsed is less than one step behind its limit. -/
theorem cycles_runFor {d : Device β ι ρ π} {n : Nat} (h : (d.runFor n).1 = .ok .cyclesElapsed) :
    (n = 0 → (d.runFor n).2.cycles = d.cycles) ∧
      (0 < n → d.cycles + n ≤ (d.runFor n).2.cycles ∧
        (d.runFor n).2.cycles < d.cycles + n + 44) := by
  have hc : d.announce.cycles = d.cycles := rfl
  obtain ⟨-, hend⟩ := resume_eq_runFor d n (show (n + 3) / 4 < n + 1 by omega)
  rw [h] at hend
  cases hend with
  | stands reached still =>
    rw [hc] at reached still
    exact ⟨fun _ => still, fun hn => by omega⟩
  | elapsed before reached overshoot =>
    rw [hc] at before
    exact ⟨fun hn => by omega, fun _ => ⟨reached, overshoot⟩⟩

end Run
end DotMatrix.Device
