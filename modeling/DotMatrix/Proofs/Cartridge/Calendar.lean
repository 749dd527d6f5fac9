import DotMatrix.Proofs.Cartridge.Wheels
import DotMatrix.Proofs.Cartridge.Latch

/-! # The calendar of a cartridge

A clock that nobody has set counts cycles: its fields and the cycles into the current second are the
digits of one number, which wraps after 512 days.
-/
namespace DotMatrix

namespace ClockReading

def range : Nat := 512 * 24 * 60 * 60

/-- A reading that a clock can come to by itself. -/
structure Running (c : ClockReading) : Prop where
  seconds : c.seconds.toNat < 60
  minutes : c.minutes.toNat < 60
  hours : c.hours.toNat < 24
  days : c.days.toNat < 512
  halted : c.halted = false

def count (c : ClockReading) : Nat :=
  ((c.days.toNat * 24 + c.hours.toNat) * 60 + c.minutes.toNat) * 60 + c.seconds.toNat

section Digits
variable {c : ClockReading}

theorem Running.fits (h : c.Running) : c.Fits where
  seconds := Nat.lt_trans h.seconds (by decide)
  minutes := Nat.lt_trans h.minutes (by decide)
  hours := Nat.lt_trans h.hours (by decide)
  days := h.days

def Later (n : Nat) (c c' : ClockReading) : Prop := c'.Running ∧ c'.count = (c.count + n) % range

/-- A reading that shows the digits of a number of seconds, with a carry where it has outgrown the
calendar. -/
structure Shows (carried : Bool) (t : Nat) (c : ClockReading) : Prop where
  seconds : c.seconds.toNat = t % range % 60
  minutes : c.minutes.toNat = t % range / 60 % 60
  hours : c.hours.toNat = t % range / (60 * 60) % 24
  days : c.days.toNat = t % range / (24 * 60 * 60)
  carry : c.carry = (carried || decide (range ≤ t))

/-- In range every wheel is a digit of one number. -/
theorem Running.shows (h : c.Running) (n : Nat) :
    Shows c.carry (c.count + n) (advance n c) ∧ (advance n c).halted = false := by
  obtain ⟨hs, hm, hh, hd, hcarry, hhalt⟩ := h.fits.advance n
  obtain ⟨hss, hsp⟩ := Wheel.of_lt (w := .sixty) h.seconds n
  obtain ⟨hms, hmp⟩ := Wheel.of_lt (w := .sixty) h.minutes
    (Wheel.sixty.passed c.seconds.toNat n)
  obtain ⟨hhs, hhp⟩ := Wheel.of_lt (w := .day) h.hours
    (Wheel.sixty.passed c.minutes.toNat (Wheel.sixty.passed c.seconds.toNat n))
  rw [hss] at hs
  rw [hms, hsp] at hm
  rw [hhs, hmp, hsp] at hh
  rw [hhp, hmp, hsp] at hd hcarry
  simp only [Wheel.sixty, Wheel.day] at hs hm hh hd hcarry
  have hover : 512 ≤ c.days.toNat +
      (c.hours.toNat + (c.minutes.toNat + (c.seconds.toNat + n) / 60) / 60) / 24 ↔
        range ≤ c.count + n := by
    simp only [count, range]
    omega
  refine ⟨⟨?_, ?_, ?_, ?_, ?_⟩, hhalt.trans h.halted⟩
  · rw [hs]
    simp only [count, range]
    omega
  · rw [hm]
    simp only [count, range]
    omega
  · rw [hh]
    simp only [count, range]
    omega
  · rw [hd]
    simp only [count, range]
    omega
  · simp only [hcarry, hover]

/-- Seconds add up, whatever they carry over. -/
theorem Running.advance (n : Nat) {c : ClockReading} (h : c.Running) :
    Later n c (ClockReading.advance n c) := by
  obtain ⟨⟨hs, hm, hh, hd, -⟩, hhalt⟩ := h.shows n
  have hlt : (c.count + n) % range < range := Nat.mod_lt _ (by decide)
  refine ⟨⟨?_, ?_, ?_, ?_, hhalt⟩, ?_⟩
  · omega
  · omega
  · omega
  · rw [hd]
    exact Nat.div_lt_of_lt_mul hlt
  · rw [count, hs, hm, hh, hd]
    omega

end Digits

end ClockReading

namespace RealTimeClock

def range : Nat := ClockReading.range * cyclesPerSecond

def elapsed (c : RealTimeClock) : Nat := c.live.count * cyclesPerSecond + c.cycles

structure Running (c : RealTimeClock) : Prop where
  live : c.live.Running
  cycles : c.cycles < cyclesPerSecond

theorem running_zero : zero.Running :=
  ⟨⟨by decide, by decide, by decide, by decide, rfl⟩, by decide⟩

theorem tick_of_halted {c : RealTimeClock} (h : c.live.halted = true) (n : Nat) : c.tick n = c :=
  if_pos h

theorem tick_of_running {c : RealTimeClock} (h : c.live.halted = false) (n : Nat) :
    c.tick n = { c with
      live := c.live.advance ((c.cycles + n) / cyclesPerSecond)
      cycles := (c.cycles + n) % cyclesPerSecond } := by
  unfold RealTimeClock.tick
  rw [h]
  rfl

/-- The lowest digit of a number stays when the number wraps at a multiple of its weight. -/
theorem digits_mod {a r k n : Nat} (h : r < k) : a % n * k + r = (a * k + r) % (n * k) := by
  have hk : 0 < k := Nat.lt_of_le_of_lt (Nat.zero_le r) h
  have hmod : (k * a + r) % k = r := by rw [Nat.mul_add_mod, Nat.mod_eq_of_lt h]
  have hdiv : (k * a + r) / k = a := by
    rw [Nat.mul_add_div hk, Nat.div_eq_of_lt h, Nat.add_zero]
  rw [Nat.mul_comm n k, Nat.mod_mul, Nat.mul_comm a k, hmod, hdiv, Nat.add_comm, Nat.mul_comm k]

theorem Running.tick {c : RealTimeClock} (h : c.Running) (n : Nat) :
    (c.tick n).Running ∧ (c.tick n).elapsed = (c.elapsed + n) % range := by
  obtain ⟨hr, hc⟩ := h.live.advance ((c.cycles + n) / cyclesPerSecond)
  have hlt : (c.cycles + n) % cyclesPerSecond < cyclesPerSecond := Nat.mod_lt _ (by decide)
  rw [tick_of_running h.live.halted]
  refine ⟨⟨hr, hlt⟩, ?_⟩
  -- Whole seconds wrap with the calendar, what is left of a second does not carry.
  have hsum : c.elapsed + n =
      (c.live.count + (c.cycles + n) / cyclesPerSecond) * cyclesPerSecond +
        (c.cycles + n) % cyclesPerSecond := by
    unfold elapsed
    rw [Nat.add_mul, Nat.add_assoc, Nat.add_assoc, Nat.div_add_mod']
  rw [hsum, elapsed, hc, range]
  exact digits_mod hlt

theorem Running.latch {c : RealTimeClock} (h : c.Running) :
    c.latch.Running ∧ c.latch.elapsed = c.elapsed := ⟨⟨h.live, h.cycles⟩, rfl⟩

end RealTimeClock

open Controller (Event)

namespace Controller

def ticked : List Event → Nat
  | [] => 0
  | .tick n :: past => ticked past + n
  | .write _ _ :: past | .load _ :: past => ticked past

end Controller

open Controller (ticked)

/-- Nothing was written to the RAM window while it showed a part of the clock. -/
def Banking.ClockUnset (past : List Event) : Prop :=
  ∀ newer address v older, past = newer ++ Event.write address v :: older →
    0xa000 ≤ address → address < 0xc000 → (Banking.mbc3 true).showsClock older = false

theorem Banking.ClockUnset.tail {e : Event} {past : List Event}
    (h : Banking.ClockUnset (e :: past)) : Banking.ClockUnset past := by
  intro newer address v older hpast
  exact h (e :: newer) address v older (congrArg (e :: ·) hpast)

/-- Where no part of the clock is shown, none is set. -/
theorem Banking.setting?_of_not_shown {past : List Event} {address : UInt16}
    (h : Banking.window address = true → (Banking.mbc3 true).showsClock past = false) :
    Banking.setting? past address = none := by
  have hnumber : (UInt8.ofNat (Banking.selector past)).toNat = Banking.selector past := by
    rw [UInt8.toNat_ofNat', Banking.selector]
    omega
  unfold Banking.setting?
  split
  · rename_i hopen
    obtain ⟨hw, hu⟩ := Bool.and_eq_true_iff.1 hopen
    cases hr : ClockRegister.ofSelector? (UInt8.ofNat (Banking.selector past)) with
    | none => rfl
    | some r =>
      have hb := Mbc3.bounds_of_ofSelector? hr
      rw [hnumber] at hb
      have hshown := h hw
      simp [Banking.showsClock, hu, hb] at hshown
  · rfl

/-- A clock that was never set has counted the cycles of its history. -/
theorem Controller.clock?_running (rom : Bytes) (banks : Nat) (battery : Bool)
    (past : List Event) (h : Banking.ClockUnset past) :
    ∃ clock, (((Banking.mbc3 true).build rom banks battery).after past).clock? = some clock ∧
      clock.Running ∧ clock.elapsed = ticked past % RealTimeClock.range := by
  induction past with
  | nil => exact ⟨.zero, rfl, RealTimeClock.running_zero, rfl⟩
  | cons e past ih =>
    obtain ⟨clock, hclock, hrunning, helapsed⟩ := ih h.tail
    rw [Banking.clock?_cons, hclock]
    refine ⟨Banking.act past e clock, rfl, ?_⟩
    cases e with
    | tick n =>
      obtain ⟨ht, hte⟩ := hrunning.tick n
      refine ⟨ht, hte.trans ?_⟩
      rw [helapsed, Nat.mod_add_mod]
      rfl
    | load dump => exact ⟨hrunning, helapsed⟩
    | write address v =>
      have hset : Banking.setting? past address = none := by
        apply Banking.setting?_of_not_shown
        intro hw
        obtain ⟨hl, hu⟩ := Bool.and_eq_true_iff.1 hw
        exact h [] address v past rfl (of_decide_eq_true hl) (of_decide_eq_true hu)
      simp only [Banking.act, hset]
      split
      · obtain ⟨hl, hle⟩ := hrunning.latch
        exact ⟨hl, hle.trans helapsed⟩
      · exact ⟨hrunning, helapsed⟩

namespace RealTimeClock

structure Fits (t : RealTimeClock) : Prop where
  live : t.live.Fits
  cycles : t.cycles < cyclesPerSecond

theorem fits_zero : zero.Fits := ⟨⟨by decide, by decide, by decide, by decide⟩, by decide⟩

theorem toNat_and_lt (v : UInt8) {mask : UInt8} {n : Nat} (h : mask.toNat < n) :
    (v &&& mask).toNat < n := by
  rw [UInt8.toNat_and]
  exact Nat.lt_of_le_of_lt Nat.and_le_right h

theorem Fits.write {t : RealTimeClock} (h : t.Fits) (r : ClockRegister) (v : UInt8) :
    (t.write r v).Fits := by
  have hday (v lower : UInt8) : (Word.join (v &&& 0x01) lower).toNat < 512 := by
    have hupper : (v &&& 0x01).toNat < 2 := toNat_and_lt v (by decide)
    have hlower := lower.toNat_lt
    rw [Word.toNat_join]
    omega
  obtain ⟨⟨hs, hm, hh, hd⟩, hc⟩ := h
  cases r with
  | seconds => exact ⟨⟨toNat_and_lt v (by decide), hm, hh, hd⟩, (by decide : 0 < cyclesPerSecond)⟩
  | minutes => exact ⟨⟨hs, toNat_and_lt v (by decide), hh, hd⟩, hc⟩
  | hours => exact ⟨⟨hs, hm, toNat_and_lt v (by decide), hd⟩, hc⟩
  | dayLow => exact ⟨⟨hs, hm, hh, hday _ v⟩, hc⟩
  | dayHigh => exact ⟨⟨hs, hm, hh, hday v _⟩, hc⟩

theorem Fits.tick {t : RealTimeClock} (h : t.Fits) (n : Nat) : (t.tick n).Fits := by
  cases hh : t.live.halted with
  | true =>
    rw [tick_of_halted hh]
    exact h
  | false =>
    rw [tick_of_running hh]
    exact ⟨h.live.advance_fits _, Nat.mod_lt _ (by decide)⟩

end RealTimeClock

/-- No history brings a clock out of its registers. -/
theorem Controller.clock?_fits (rom : Bytes) (banks : Nat) (battery : Bool) (past : List Event) :
    ∃ clock, (((Banking.mbc3 true).build rom banks battery).after past).clock? = some clock ∧
      clock.Fits := by
  induction past with
  | nil => exact ⟨.zero, rfl, RealTimeClock.fits_zero⟩
  | cons e past ih =>
    obtain ⟨clock, hclock, hfits⟩ := ih
    rw [Banking.clock?_cons, hclock]
    refine ⟨Banking.act past e clock, rfl, ?_⟩
    cases e with
    | tick n => exact hfits.tick n
    | load dump => exact hfits
    | write address v =>
      unfold Banking.act
      dsimp only
      split
      · exact ⟨hfits.live, hfits.cycles⟩
      · cases Banking.setting? past address with
        | none => exact hfits
        | some r => exact hfits.write r v

section Astray
variable {c c' : ClockReading} {seconds minutes hours : Nat}

/-- A reading that is told by its wheels, the day being the same. -/
theorem ClockReading.Stands.eq (hd : c.days.toNat < 512) (h : c.Stands seconds minutes hours 0 c') :
    c' = { c with
      seconds := UInt8.ofNat seconds
      minutes := UInt8.ofNat minutes
      hours := UInt8.ofNat hours } := by
  obtain ⟨rfl, rfl, rfl, hday, hcarry, hhalt⟩ := h
  have hsame : c'.days = c.days := by
    rw [← UInt16.toNat_inj, hday, Nat.add_zero, Nat.mod_eq_of_lt hd]
  have hkept : c'.carry = c.carry := by
    rw [hcarry, Nat.add_zero, decide_eq_false (Nat.not_le.2 hd), Bool.or_false]
  cases c'
  simp only at hsame hkept hhalt
  simp only [UInt8.ofNat_toNat, hsame, hkept, hhalt]

namespace ClockReading.Fits
variable {n : Nat}

/-- Seconds out of range come back to 0 by themselves. -/
theorem advance_seconds (h : c.Fits) (hs : 60 ≤ c.seconds.toNat) (hn : c.seconds.toNat + n ≤ 64) :
    c.advance n = { c with seconds := UInt8.ofNat ((c.seconds.toNat + n) % 64) } := by
  have hstands := h.advance n
  obtain ⟨hshown, hpassed⟩ := Wheel.of_le (w := .sixty) hs hn
  unfold AfterSeconds AfterMinutes AfterHours at hstands
  rw [hshown, hpassed, Wheel.shown_zero h.minutes, Wheel.passed_zero h.minutes,
    Wheel.shown_zero h.hours, Wheel.passed_zero h.hours] at hstands
  simpa [Wheel.sixty] using hstands.eq h.days

/-- Minutes out of range come back to 0 by themselves. -/
theorem advance_minutes (h : c.Fits) (hs : c.seconds.toNat < 60) (hm : 60 ≤ c.minutes.toNat)
    (hn : c.minutes.toNat + (c.seconds.toNat + n) / 60 ≤ 64) :
    c.advance n = { c with
      seconds := UInt8.ofNat ((c.seconds.toNat + n) % 60)
      minutes := UInt8.ofNat ((c.minutes.toNat + (c.seconds.toNat + n) / 60) % 64) } := by
  have hstands := h.advance n
  obtain ⟨hshown, hpassed⟩ := Wheel.of_lt (w := .sixty) hs n
  obtain ⟨hmshown, hmpassed⟩ := Wheel.of_le (w := .sixty) hm hn
  unfold AfterSeconds AfterMinutes AfterHours at hstands
  rw [hshown, hpassed] at hstands
  simp only [Wheel.sixty] at hstands hmshown hmpassed
  rw [hmshown, hmpassed, Wheel.shown_zero h.hours, Wheel.passed_zero h.hours] at hstands
  simpa using hstands.eq h.days

/-- Hours out of range come back to 0 by themselves. -/
theorem advance_hours (h : c.Fits) (hs : c.seconds.toNat < 60) (hm : c.minutes.toNat < 60)
    (hh : 24 ≤ c.hours.toNat)
    (hn : c.hours.toNat + (c.minutes.toNat + (c.seconds.toNat + n) / 60) / 60 ≤ 32) :
    c.advance n = { c with
      seconds := UInt8.ofNat ((c.seconds.toNat + n) % 60)
      minutes := UInt8.ofNat ((c.minutes.toNat + (c.seconds.toNat + n) / 60) % 60)
      hours := UInt8.ofNat
        ((c.hours.toNat + (c.minutes.toNat + (c.seconds.toNat + n) / 60) / 60) % 32) } := by
  have hstands := h.advance n
  obtain ⟨hshown, hpassed⟩ := Wheel.of_lt (w := .sixty) hs n
  obtain ⟨hmshown, hmpassed⟩ := Wheel.of_lt (w := .sixty) hm ((c.seconds.toNat + n) / 60)
  obtain ⟨hhshown, hhpassed⟩ := Wheel.of_le (w := .day) hh hn
  unfold AfterSeconds AfterMinutes AfterHours at hstands
  rw [hshown, hpassed] at hstands
  simp only [Wheel.sixty, Wheel.day] at hstands hmshown hmpassed hhshown hhpassed
  rw [hmshown, hmpassed, hhshown, hhpassed] at hstands
  exact hstands.eq h.days

end ClockReading.Fits
end Astray

/-- The clock is a calendar of 512 days: in range its fields are the digits of one number of
seconds, which sets the carry as it outgrows the calendar. No history brings a field out of its
register; a field that was set out of range counts on to the end of the register and wraps there
without a carry into the next field. A halted clock stands still. -/
theorem clock_is_a_calendar :
    (∀ t : RealTimeClock, t.Running → ∀ n,
      let now := t.tick n
      now.cycles = (t.cycles + n) % cyclesPerSecond ∧
      now.live.Shows t.live.carry (t.live.count + (t.cycles + n) / cyclesPerSecond) ∧
      now.live.halted = t.live.halted ∧ now.latched = t.latched) ∧
    (∀ rom banks battery past, ∃ t,
      (((Banking.mbc3 true).build rom banks battery).after past).clock? = some t ∧ t.Fits) ∧
    (∀ t : RealTimeClock, t.live.Fits → t.live.halted = false → ∀ n,
      let now := t.tick n
      let passed := (t.cycles + n) / cyclesPerSecond
      let seconds := t.live.seconds.toNat + passed
      let minutes := t.live.minutes.toNat + seconds / 60
      let hours := t.live.hours.toNat + minutes / 60
      (60 ≤ t.live.seconds.toNat → seconds ≤ 64 →
        now.live = { t.live with seconds := UInt8.ofNat (seconds % 64) }) ∧
      (t.live.seconds.toNat < 60 → 60 ≤ t.live.minutes.toNat → minutes ≤ 64 →
        now.live = { t.live with
          seconds := UInt8.ofNat (seconds % 60)
          minutes := UInt8.ofNat (minutes % 64) }) ∧
      (t.live.seconds.toNat < 60 → t.live.minutes.toNat < 60 → 24 ≤ t.live.hours.toNat →
        hours ≤ 32 →
        now.live = { t.live with
          seconds := UInt8.ofNat (seconds % 60)
          minutes := UInt8.ofNat (minutes % 60)
          hours := UInt8.ofNat (hours % 32) })) ∧
    ∀ t : RealTimeClock, t.live.halted = true → ∀ n, t.tick n = t := by
  refine ⟨?_, ?_, ?_, ?_⟩
  · intro t h n
    obtain ⟨hshows, hhalt⟩ := h.live.shows ((t.cycles + n) / cyclesPerSecond)
    rw [RealTimeClock.tick_of_running h.live.halted]
    exact ⟨rfl, hshows, hhalt.trans h.live.halted.symm, rfl⟩
  · exact Controller.clock?_fits
  · intro t hfits hrun n
    rw [RealTimeClock.tick_of_running hrun]
    exact ⟨hfits.advance_seconds, hfits.advance_minutes, hfits.advance_hours⟩
  · intro t h n
    exact RealTimeClock.tick_of_halted h n

/-- From the last second of the calendar the day comes back to 0 with the carry set; 63 minutes come
back to 0 while the hour stays; a halted clock stays at its last second. -/
theorem clock_is_a_calendar_overflow :
    let last : ClockReading := ⟨59, 59, 23, 511, false, false⟩
    let late : ClockReading := ⟨59, 63, 5, 0, false, false⟩
    (⟨last, .zero, 0⟩ : RealTimeClock).Running ∧
      ((⟨last, .zero, 0⟩ : RealTimeClock).tick cyclesPerSecond).live.days.toNat = 0 ∧
      ((⟨last, .zero, 0⟩ : RealTimeClock).tick cyclesPerSecond).live.carry = true ∧
      late.Fits ∧ ((⟨late, .zero, 0⟩ : RealTimeClock).tick cyclesPerSecond).live =
        { late with seconds := 0, minutes := 0 } ∧
      (⟨{ last with halted := true }, .zero, 0⟩ : RealTimeClock).tick cyclesPerSecond =
        ⟨{ last with halted := true }, .zero, 0⟩ := by
  intro last late
  obtain ⟨digits, -, astray, halted⟩ := clock_is_a_calendar
  have hlast : (⟨last, .zero, 0⟩ : RealTimeClock).Running :=
    ⟨⟨by decide, by decide, by decide, by decide, rfl⟩, by decide⟩
  have hlate : late.Fits := ⟨by decide, by decide, by decide, by decide⟩
  obtain ⟨-, hshows, -, -⟩ := digits _ hlast cyclesPerSecond
  refine ⟨hlast, hshows.days.trans (by decide), hshows.carry.trans (by decide), hlate, ?_,
    halted _ rfl cyclesPerSecond⟩
  have hminutes := (astray ⟨late, .zero, 0⟩ hlate rfl cyclesPerSecond).2.1
  exact (hminutes (by decide) (by decide) (by decide)).trans (by decide)

end DotMatrix
