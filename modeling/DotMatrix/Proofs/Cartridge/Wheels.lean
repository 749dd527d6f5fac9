import DotMatrix.Proofs.Board.Clock

/-! # The wheels of a clock

A field of the clock is a wheel: as it leaves its last value it comes back to 0 and moves the next
wheel on. A value that a program has set past the last one counts on to the end of the register and
comes back to 0 without moving anything. What a wheel shows after any number of steps, and how often
it has moved the next one, is known from where it started, and so is the whole clock.
-/
namespace DotMatrix

/-- The values of a field below `limit`, in a register of the values below `width`. -/
structure Wheel where
  limit : Nat
  width : Nat
  limit_pos : 0 < limit := by decide
  limit_lt : limit < width := by decide

namespace Wheel

def sixty : Wheel where
  limit := 60
  width := 64

def day : Wheel where
  limit := 24
  width := 32

variable (w : Wheel)

def shown (v n : Nat) : Nat :=
  if v < w.limit then (v + n) % w.limit
  else if v + n < w.width then v + n
  else (v + n - w.width) % w.limit

/-- How often the wheel has moved the next one in these steps. -/
def passed (v n : Nat) : Nat :=
  if v < w.limit then (v + n) / w.limit else (v + n - w.width) / w.limit

variable {w} {v n : Nat}

theorem shown_zero (h : v < w.width) : w.shown v 0 = v := by
  unfold shown
  split
  · exact Nat.mod_eq_of_lt (by omega)
  · rw [Nat.add_zero, if_pos h]

theorem passed_zero (h : v < w.width) : w.passed v 0 = 0 := by
  unfold passed
  split
  · exact Nat.div_eq_of_lt (by omega)
  · rw [Nat.sub_eq_zero_of_le (by omega), Nat.zero_div]

theorem shown_lt (v n : Nat) : w.shown v n < w.width := by
  have hlt (a : Nat) : a % w.limit < w.width := Nat.lt_trans (Nat.mod_lt a w.limit_pos) w.limit_lt
  unfold shown
  split
  · exact hlt _
  · split
    · assumption
    · exact hlt _

/-- The last value of a number's lowest digit is where the rest of the number goes up. -/
theorem succ_mod_div {b : Nat} (hb : 0 < b) (a : Nat) :
    (a % b + 1 = b → (a + 1) % b = 0 ∧ (a + 1) / b = a / b + 1) ∧
      (a % b + 1 ≠ b → (a + 1) % b = a % b + 1 ∧ (a + 1) / b = a / b) := by
  have ha : a + 1 = b * (a / b) + (a % b + 1) := by rw [← Nat.add_assoc, Nat.div_add_mod]
  have hlt := Nat.mod_lt a hb
  constructor
  · intro hlast
    have hnext : a + 1 = b * (a / b + 1) := by rw [ha, hlast, Nat.mul_succ]
    rw [hnext, Nat.mul_mod_right, Nat.mul_div_cancel_left _ hb]
    exact ⟨rfl, rfl⟩
  · intro hlast
    have hr : a % b + 1 < b := by omega
    rw [ha, Nat.mul_add_mod, Nat.mod_eq_of_lt hr, Nat.mul_add_div hb, Nat.div_eq_of_lt hr]
    exact ⟨rfl, rfl⟩

/-- One step from any value: only the last one in range moves the next wheel. -/
theorem step (v n : Nat) :
    ((w.shown v n + 1) % w.width = w.limit →
      w.shown v (n + 1) = 0 ∧ w.passed v (n + 1) = w.passed v n + 1) ∧
    ((w.shown v n + 1) % w.width ≠ w.limit →
      w.shown v (n + 1) = (w.shown v n + 1) % w.width ∧ w.passed v (n + 1) = w.passed v n) := by
  have hpos := w.limit_pos
  have hlt := w.limit_lt
  -- In range the register is wide enough for the next value.
  have hin {a : Nat} : (a % w.limit + 1) % w.width = a % w.limit + 1 :=
    Nat.mod_eq_of_lt (by have := Nat.mod_lt a hpos; omega)
  have hdigit := succ_mod_div hpos
  unfold shown passed
  by_cases hrange : v < w.limit
  · simp only [if_pos hrange, hin]
    exact hdigit (v + n)
  · simp only [if_neg hrange]
    rcases Nat.lt_trichotomy (v + n + 1) w.width with hbelow | hlast | habove
    · -- The value is past the range and has not yet reached the end of the register.
      have hnow : v + n < w.width := by omega
      have hne : v + n + 1 ≠ w.limit := by omega
      have hpass : ∀ a, a ≤ w.width → (a - w.width) / w.limit = 0 := by
        intro a ha
        rw [Nat.sub_eq_zero_of_le ha, Nat.zero_div]
      simp only [if_pos hnow, if_pos hbelow, ← Nat.add_assoc, Nat.mod_eq_of_lt hbelow,
        hpass _ (Nat.le_of_lt hnow), hpass _ (Nat.le_of_lt hbelow)]
      exact ⟨fun heq => absurd heq hne, fun _ => ⟨trivial, trivial⟩⟩
    · have hnow : v + n < w.width := by omega
      have hpass : v + n - w.width = 0 := by omega
      simp only [if_pos hnow, ← Nat.add_assoc, hlast, hpass, if_neg (Nat.lt_irrefl _),
        Nat.mod_self, Nat.sub_self, Nat.zero_mod, Nat.zero_div]
      exact ⟨fun heq => absurd heq (Nat.ne_of_lt hpos), fun _ => ⟨trivial, trivial⟩⟩
    · have hnow : ¬v + n < w.width := by omega
      have hnext : ¬v + n + 1 < w.width := by omega
      have hsub : v + n + 1 - w.width = v + n - w.width + 1 := by omega
      simp only [if_neg hnow, if_neg hnext, ← Nat.add_assoc, hsub, hin]
      exact hdigit (v + n - w.width)

/-- A wheel in range is a digit of the number of its steps. -/
theorem of_lt (h : v < w.limit) (n : Nat) :
    w.shown v n = (v + n) % w.limit ∧ w.passed v n = (v + n) / w.limit :=
  ⟨if_pos h, if_pos h⟩

/-- A wheel past its range moves nothing on its way back to 0. -/
theorem of_le (h : w.limit ≤ v) (hn : v + n ≤ w.width) :
    w.shown v n = (v + n) % w.width ∧ w.passed v n = 0 := by
  have hv : ¬v < w.limit := Nat.not_lt.2 h
  unfold shown passed
  rw [if_neg hv, if_neg hv, Nat.sub_eq_zero_of_le hn, Nat.zero_div, Nat.zero_mod]
  refine ⟨?_, rfl⟩
  rcases Nat.lt_or_eq_of_le hn with hlt | heq
  · rw [if_pos hlt, Nat.mod_eq_of_lt hlt]
  · rw [if_neg (by omega), heq, Nat.mod_self]

/-- One step of a field of a clock. What `Q` says of the field's value and of the turns that it has
handed on holds after the step if it holds wherever the field is put, and if `next` takes one turn
more. -/
theorem turn (w : Wheel) (mask limit : UInt8) (hmask : ∀ a, a &&& mask.toNat = a % w.width)
    (hwidth : w.width ∣ 256) (hlimit : limit.toNat = w.limit) {u : UInt8}
    (hu : u.toNat = w.shown v n) {Q : Nat → Nat → ClockReading → Prop} (put : UInt8 → ClockReading)
    (hput : ∀ x, Q x.toNat (w.passed v n) (put x)) {next : ClockReading → ClockReading}
    (hnext : ∀ {c}, Q 0 (w.passed v n) c → Q 0 (w.passed v n + 1) (next c)) :
    Q (w.shown v (n + 1)) (w.passed v (n + 1))
      (if (u + 1) &&& mask = limit then next (put 0) else put ((u + 1) &&& mask)) := by
  obtain ⟨hlast, hwithin⟩ := w.step v n
  have hvalue : ((u + 1) &&& mask).toNat = (w.shown v n + 1) % w.width := by
    rw [UInt8.toNat_and, hmask, UInt8.toNat_add, ← hu]
    exact Nat.mod_mod_of_dvd _ hwidth
  have hiff : (u + 1) &&& mask = limit ↔ (w.shown v n + 1) % w.width = w.limit := by
    rw [← UInt8.toNat_inj, hvalue, hlimit]
  split
  · rename_i heq
    obtain ⟨hshown, hpassed⟩ := hlast (hiff.1 heq)
    rw [hshown, hpassed]
    exact hnext (hput 0)
  · rename_i hne
    obtain ⟨hshown, hpassed⟩ := hwithin fun heq => hne (hiff.2 heq)
    rw [hshown, hpassed, ← hvalue]
    exact hput _

end Wheel

namespace ClockReading

structure Fits (c : ClockReading) : Prop where
  seconds : c.seconds.toNat < 64
  minutes : c.minutes.toNat < 64
  hours : c.hours.toNat < 32
  days : c.days.toNat < 512

section Steps
variable (start : ClockReading)

/-- A reading with these values on its wheels, so many days after `start`. -/
structure Stands (seconds minutes hours passed : Nat) (c : ClockReading) : Prop where
  seconds : c.seconds.toNat = seconds
  minutes : c.minutes.toNat = minutes
  hours : c.hours.toNat = hours
  days : c.days.toNat = (start.days.toNat + passed) % 512
  carry : c.carry = (start.carry || decide (512 ≤ start.days.toNat + passed))
  halted : c.halted = start.halted

def AfterHours (seconds minutes n : Nat) : ClockReading → Prop :=
  Stands start seconds minutes (Wheel.day.shown start.hours.toNat n)
    (Wheel.day.passed start.hours.toNat n)

def AfterMinutes (seconds n : Nat) : ClockReading → Prop :=
  AfterHours start seconds (Wheel.sixty.shown start.minutes.toNat n)
    (Wheel.sixty.passed start.minutes.toNat n)

def AfterSeconds (n : Nat) : ClockReading → Prop :=
  AfterMinutes start (Wheel.sixty.shown start.seconds.toNat n)
    (Wheel.sixty.passed start.seconds.toNat n)

variable {start} {c : ClockReading} {seconds minutes hours n : Nat}

theorem Stands.nextDay (hc : Stands start seconds minutes hours n c) :
    Stands start seconds minutes hours (n + 1) c.nextDay := by
  obtain ⟨hs, hm, hh, hd, hcarry, hhalt⟩ := hc
  unfold ClockReading.nextDay
  split
  · rename_i hlast
    have hle : 511 ≤ c.days.toNat := UInt16.le_iff_toNat_le.1 hlast
    have hover : 512 ≤ start.days.toNat + (n + 1) := by omega
    refine ⟨hs, hm, hh, ?_, ?_, hhalt⟩
    · simp only [UInt16.reduceToNat]
      omega
    · simp only [hover, decide_true, Bool.or_true]
  · rename_i hlast
    have hlt : c.days.toNat < 511 := UInt16.lt_iff_toNat_lt.1 (UInt16.not_le.1 hlast)
    have hsame : 512 ≤ start.days.toNat + (n + 1) ↔ 512 ≤ start.days.toNat + n := by omega
    refine ⟨hs, hm, hh, ?_, ?_, hhalt⟩
    · simp only [UInt16.toNat_add, UInt16.reduceToNat]
      omega
    · simp only [hcarry, hsame]

theorem AfterHours.nextHour (hc : AfterHours start seconds minutes n c) :
    AfterHours start seconds minutes (n + 1) c.nextHour := by
  apply Wheel.day.turn 0x1f 24 (Nat.and_two_pow_sub_one_eq_mod · 5) (by decide) rfl hc.hours
    (Q := Stands start seconds minutes) fun hours => { c with hours }
  · intro x
    exact { hc with hours := rfl }
  · exact Stands.nextDay

theorem AfterMinutes.nextMinute (hc : AfterMinutes start seconds n c) :
    AfterMinutes start seconds (n + 1) c.nextMinute := by
  apply Wheel.sixty.turn 0x3f 60 (Nat.and_two_pow_sub_one_eq_mod · 6) (by decide) rfl hc.minutes
    (Q := AfterHours start seconds) fun minutes => { c with minutes }
  · intro x
    exact { hc with minutes := rfl }
  · exact AfterHours.nextHour

theorem AfterSeconds.nextSecond (hc : AfterSeconds start n c) :
    AfterSeconds start (n + 1) c.nextSecond := by
  apply Wheel.sixty.turn 0x3f 60 (Nat.and_two_pow_sub_one_eq_mod · 6) (by decide) rfl hc.seconds
    (Q := AfterMinutes start) fun seconds => { c with seconds }
  · intro x
    exact { hc with seconds := rfl }
  · exact AfterMinutes.nextMinute

/-- A reading after any number of seconds, wherever in their registers its fields have stood. -/
theorem Fits.advance (h : start.Fits) (n : Nat) :
    AfterSeconds start n (ClockReading.advance n start) := by
  induction n with
  | zero =>
    have hcarry : ¬512 ≤ start.days.toNat := Nat.not_le.2 h.days
    unfold AfterSeconds AfterMinutes AfterHours
    rw [Wheel.passed_zero h.seconds, Wheel.passed_zero h.minutes, Wheel.passed_zero h.hours,
      Wheel.shown_zero h.seconds, Wheel.shown_zero h.minutes, Wheel.shown_zero h.hours]
    refine ⟨rfl, rfl, rfl, (Nat.mod_eq_of_lt h.days).symm, ?_, rfl⟩
    simp [ClockReading.advance, hcarry]
  | succ n ih =>
    rw [advance_add n 1 start]
    exact AfterSeconds.nextSecond ih

end Steps

theorem Fits.advance_fits {c : ClockReading} (h : c.Fits) (n : Nat) :
    (ClockReading.advance n c).Fits := by
  obtain ⟨hs, hm, hh, hd, -, -⟩ := h.advance n
  refine ⟨?_, ?_, ?_, ?_⟩
  · rw [hs]
    exact Wheel.shown_lt _ _
  · rw [hm]
    exact Wheel.shown_lt _ _
  · rw [hh]
    exact Wheel.shown_lt _ _
  · rw [hd]
    exact Nat.mod_lt _ (by decide)

end ClockReading
end DotMatrix
