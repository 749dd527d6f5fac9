import Mathlib.Algebra.Group.Nat.Defs
import DotMatrix.Proofs.Timer.Delay

/-! # The timer after any number of cycles

Cycles that nothing disturbs can be summed up. The counter bit that is selected falls once in every
period, each fall counts, and the timer counter goes through the values from the modulo upwards. How
far the last fall lies back tells whether the reload after an overflow is still to come.
-/
namespace DotMatrix

namespace Timer

/-- Cycles between two falls of the counter bit that the control selects. -/
def period (tac : UInt8) : Nat :=
  match tac.toNat.testBit 1, tac.toNat.testBit 0 with
  | false, false => 1024
  | false, true => 16
  | true, false => 64
  | true, true => 256

/-- Falls of the signal while the counter goes from `start` to `stop`, were it not to wrap. -/
def edges (tac : UInt8) (start stop : Nat) : Nat :=
  if tac.toNat.testBit 2 then stop / period tac - start / period tac else 0

def falling (tac : UInt8) (x : Nat) : Bool :=
  tac.toNat.testBit 2 && (x + 1) % period tac == 0

section Edges
variable (tac : UInt8)

theorem period_mem : period tac = 16 ∨ period tac = 64 ∨ period tac = 256 ∨ period tac = 1024 := by
  unfold period
  split
  all_goals simp

theorem period_eq : period tac = 2 ^ (selectedBit tac + 1) := by
  unfold period selectedBit
  cases tac.toNat.testBit 1 <;> cases tac.toNat.testBit 0 <;> rfl

theorem edges_self (c : Nat) : edges tac c c = 0 := by
  unfold edges
  rw [Nat.sub_self]
  exact ite_self 0

theorem edges_succ {c x : Nat} (h : c ≤ x) :
    edges tac c (x + 1) = edges tac c x + (falling tac x).toNat := by
  unfold edges falling
  cases tac.toNat.testBit 2 with
  | false => rfl
  | true =>
    have hle : c / period tac ≤ x / period tac := Nat.div_le_div_right h
    rw [if_pos rfl, if_pos rfl, Bool.true_and]
    by_cases hz : (x + 1) % period tac = 0
    · rw [beq_iff_eq.2 hz, Nat.succ_div_of_mod_eq_zero hz, Bool.toNat_true]
      omega
    · rw [beq_eq_false_iff_ne.2 hz, Nat.succ_div_of_mod_ne_zero hz]
      rfl

/-- The signal falls where the counter reaches a multiple of the period. -/
theorem falls_eq_falling {c : UInt16} {x : Nat} (hc : c.toNat = x % 2 ^ 16) :
    (gatedBit c tac && !gatedBit (c + 1) tac) = falling tac x := by
  have hnext : (c + 1).toNat = (x + 1) % 2 ^ 16 := by
    rw [UInt16.toNat_add, hc]
    exact Nat.mod_add_mod x (2 ^ 16) 1
  unfold gatedBit falling
  rw [hc, hnext, period_eq]
  cases tac.toNat.testBit 2 with
  | false => rfl
  | true =>
    simp only [Bool.true_and, Nat.testBit_eq_decide_div_mod_eq]
    rcases selectedBit_mem tac with h | h | h | h
    all_goals
      rw [h, Bool.eq_iff_iff]
      simp only [Bool.and_eq_true, Bool.not_eq_true', decide_eq_true_eq, decide_eq_false_iff_not,
        beq_iff_eq]
      omega

end Edges

/-- The timer counter, the cycles until its reload and whether the interrupt has been requested. -/
structure Tally where
  tima : Nat
  delay : Nat
  requested : Bool

namespace Tally

/-- Cycles that pass after `e` falls, the last of them `phase` cycles ago, when the timer counter
was at `t` and the modulo is `m`. -/
def after (t m e phase : Nat) : Tally :=
  let overflow := 256 - t
  if e < overflow then ⟨t + e, 0, false⟩
  else
    let lap := (e - overflow) % (256 - m)
    if lap = 0 ∧ phase < 4 then ⟨0, 4 - phase, decide (overflow < e)⟩ else ⟨m + lap, 0, true⟩

def cycle (m : Nat) (fallen : Bool) (k : Tally) : Tally :=
  let tima := if k.delay = 1 then m else k.tima
  ⟨if fallen then (tima + 1) % 256 else tima,
    if fallen ∧ tima = 255 then 4 else k.delay - 1,
    k.requested || k.delay == 1⟩

variable {t m e phase : Nat}

theorem after_of_lt (he : e < 256 - t) : after t m e phase = ⟨t + e, 0, false⟩ := if_pos he

theorem after_of_waiting (he : 256 - t ≤ e) (hl : (e - (256 - t)) % (256 - m) = 0)
    (hp : phase < 4) : after t m e phase = ⟨0, 4 - phase, decide (256 - t < e)⟩ :=
  (if_neg (Nat.not_lt.2 he)).trans (if_pos ⟨hl, hp⟩)

theorem after_of_reloaded (he : 256 - t ≤ e)
    (h : (e - (256 - t)) % (256 - m) = 0 → 4 ≤ phase) :
    after t m e phase = ⟨m + (e - (256 - t)) % (256 - m), 0, true⟩ :=
  (if_neg (Nat.not_lt.2 he)).trans (if_neg fun hw => Nat.not_lt.2 (h hw.1) hw.2)

theorem after_of_le (he : 256 - t ≤ e) :
    (after t m e phase).tima =
        (if (e - (256 - t)) % (256 - m) = 0 ∧ phase < 4 then 0
          else m + (e - (256 - t)) % (256 - m)) ∧
      ((after t m e phase).requested = true ↔ 256 - t < e ∨ 4 ≤ phase) := by
  by_cases hw : (e - (256 - t)) % (256 - m) = 0 ∧ phase < 4
  · have hp : ¬4 ≤ phase := Nat.not_le.2 hw.2
    rw [after_of_waiting he hw.1 hw.2, if_pos hw]
    simp [hp]
  · rw [if_neg hw, after_of_reloaded he fun hl => Nat.not_lt.1 fun hp => hw ⟨hl, hp⟩]
    -- A lap that is not complete shows that the first overflow lies behind an earlier fall.
    have hlater : 256 - t < e ∨ 4 ≤ phase := by
      rcases Nat.lt_or_ge phase 4 with hp | hp
      · refine .inl (Nat.lt_of_le_of_ne he ?_)
        rintro rfl
        exact hw ⟨by rw [Nat.sub_self, Nat.zero_mod], hp⟩
      · exact .inr hp
    simp [hlater]

/-- Without a fall only a reload that is pending comes nearer, or takes place. -/
theorem cycle_of_rest : (after t m e phase).cycle m false = after t m e (phase + 1) := by
  rcases Nat.lt_or_ge e (256 - t) with he | he
  · rw [after_of_lt he, after_of_lt he]
    rfl
  by_cases hl : (e - (256 - t)) % (256 - m) = 0
  · rcases Nat.lt_trichotomy phase 3 with hp | rfl | hp
    · have hdelay : 4 - phase ≠ 1 := by omega
      have hnext : 4 - phase - 1 = 4 - (phase + 1) := by omega
      rw [after_of_waiting he hl (by omega), after_of_waiting he hl (by omega)]
      simp [cycle, hdelay, hnext]
    · rw [after_of_waiting he hl (by decide), after_of_reloaded he fun _ => by decide, hl]
      simp [cycle]
    · rw [after_of_reloaded he fun _ => by omega, after_of_reloaded he fun _ => by omega]
      rfl
  · rw [after_of_reloaded he fun h => absurd h hl, after_of_reloaded he fun h => absurd h hl]
    rfl

/-- A fall finds no reload pending. It counts, and from the last value it starts another one. -/
theorem cycle_of_fall (ht : t < 256) (hm : m < 256) (hp : 4 ≤ phase) :
    (after t m e phase).cycle m true = after t m (e + 1) 0 := by
  rcases Nat.lt_or_ge e (256 - t) with he | he
  · rw [after_of_lt he]
    rcases Nat.lt_or_ge (e + 1) (256 - t) with he' | he'
    · have hmod : (t + e + 1) % 256 = t + (e + 1) := by omega
      have hne : t + e ≠ 255 := by omega
      rw [after_of_lt he']
      simp [cycle, hmod, hne]
    · have hlast : t + e = 255 := by omega
      have hover : e + 1 = 256 - t := by omega
      have hlap : (e + 1 - (256 - t)) % (256 - m) = 0 := by
        rw [hover, Nat.sub_self, Nat.zero_mod]
      rw [after_of_waiting he' hlap (by decide)]
      simp [cycle, hlast, hover]
  · rw [after_of_reloaded he fun _ => hp]
    have hlap : (e + 1 - (256 - t)) % (256 - m) =
        ((e - (256 - t)) % (256 - m) + 1) % (256 - m) := by
      rw [Nat.mod_add_mod]
      congr 1
      omega
    have hlt : (e - (256 - t)) % (256 - m) < 256 - m := Nat.mod_lt _ (by omega)
    have he' : 256 - t ≤ e + 1 := by omega
    generalize (e - (256 - t)) % (256 - m) = lap at hlap hlt
    rcases Nat.lt_or_ge (lap + 1) (256 - m) with hl | hl
    · have hmod : (m + lap + 1) % 256 = m + (lap + 1) := by omega
      have hne : m + lap ≠ 255 := by omega
      rw [Nat.mod_eq_of_lt hl] at hlap
      rw [after_of_reloaded he' (by omega), hlap]
      simp [cycle, hmod, hne]
    · have hlast : m + lap = 255 := by omega
      have hfull : lap + 1 = 256 - m := by omega
      rw [hfull, Nat.mod_self] at hlap
      rw [after_of_waiting he' hlap (by decide)]
      have hlater : 256 - t < e + 1 := by omega
      simp [cycle, hlast, hlater]

theorem cycle_after (tac : UInt8) {start x : Nat} (ht : t < 256) (hm : m < 256) (h : start ≤ x) :
    (after t m (edges tac start x) (x % period tac)).cycle m (falling tac x) =
      after t m (edges tac start (x + 1)) ((x + 1) % period tac) := by
  have hperiod := period_mem tac
  have hedges := edges_succ tac h
  cases hf : falling tac x with
  | true =>
    obtain ⟨-, hz⟩ : tac.toNat.testBit 2 = true ∧ (x + 1) % period tac = 0 := by
      simpa [falling] using hf
    have hphase : 4 ≤ x % period tac := by
      rcases hperiod with hp | hp | hp | hp
      all_goals
        rw [hp] at hz ⊢
        omega
    rw [hf, Bool.toNat_true] at hedges
    rw [cycle_of_fall ht hm hphase, hedges, hz]
  | false =>
    have hsame : edges tac start (x + 1) = edges tac start x := by
      rw [hedges, hf]
      rfl
    rw [cycle_of_rest, hsame]
    cases hen : tac.toNat.testBit 2 with
    | true =>
      have hz : (x + 1) % period tac ≠ 0 := by simpa [falling, hen] using hf
      have hphase : (x + 1) % period tac = x % period tac + 1 := by
        rcases hperiod with hp | hp | hp | hp
        all_goals
          rw [hp] at hz ⊢
          omega
      rw [hphase]
    | false =>
      -- A timer that is switched off never overflows, so that the phase does not matter.
      have hzero : edges tac start x < 256 - t := by
        have he : edges tac start x = 0 := if_neg (by simp [hen])
        omega
      rw [after_of_lt hzero, after_of_lt hzero]

structure Shown (r : UInt8) (k : Tally) (t : Timer) (c : TimerCells) : Prop where
  tima : c.tima.toNat = k.tima
  delay : t.delay = k.delay
  requests : c.requests = if k.requested then r ||| 0x04 else r

theorem counted_toNat (fallen : Bool) (v : UInt8) (delay : Nat) :
    (counted fallen v delay).1.toNat = (if fallen then (v.toNat + 1) % 256 else v.toNat) ∧
      (counted fallen v delay).2 = if fallen ∧ v.toNat = 255 then 4 else delay := by
  have hlast : v = 0xff ↔ v.toNat = 255 := by
    rw [← UInt8.toNat_inj]
    rfl
  cases fallen with
  | false => exact ⟨rfl, rfl⟩
  | true =>
    simp only [counted, if_true, hlast, true_and, and_true]
    exact UInt8.toNat_add v 1

theorem Shown.cycle {r : UInt8} {k : Tally} {t : Timer} {c : TimerCells} (h : Shown r k t c) :
    Shown r (k.cycle c.tma.toNat (t.latch && !gatedBit (t.counter + 1) c.tac)) (t.cycle c).1
      (t.cycle c).2 := by
  have hdue : t.reloads = decide (k.delay = 1) := by
    rw [← h.delay]
    rfl
  have hvalue : (if t.reloads then c.tma else c.tima).toNat =
      if k.delay = 1 then c.tma.toNat else k.tima := by
    rw [hdue, ← h.tima]
    by_cases hd : k.delay = 1
    · simp [hd]
    · simp [hd]
  simp only [cycle_eq]
  generalize (t.latch && !gatedBit (t.counter + 1) c.tac) = fallen
  obtain ⟨htima, hdelay⟩ :=
    counted_toNat fallen (if t.reloads then c.tma else c.tima) (t.delay - 1)
  rw [hvalue] at htima hdelay
  refine ⟨htima, ?_, ?_⟩
  · rw [h.delay] at hdelay ⊢
    exact hdelay
  · rw [hdue, h.requests]
    by_cases hd : k.delay = 1
    · cases hr : k.requested with
      | false => simp [Tally.cycle, hd, hr]
      | true => simp [Tally.cycle, hd, hr, UInt8.or_assoc]
    · simp [Tally.cycle, hd]

end Tally

theorem run_succ (n : Nat) (t : Timer) (c : TimerCells) :
    run (n + 1) t c = (run n t c).1.cycle (run n t c).2 := by
  induction n generalizing t c with
  | zero => rfl
  | succ n ih => exact ih (t.cycle c).1 (t.cycle c).2

structure Elapsed (t : Timer) (c : TimerCells) (n : Nat) (t' : Timer) (c' : TimerCells) : Prop where
  counter : t'.counter.toNat = (t.counter.toNat + n) % 2 ^ 16
  inStep : t'.InStep c'
  tma : c'.tma = c.tma
  tac : c'.tac = c.tac
  shown : Tally.Shown c.requests
    (.after c.tima.toNat c.tma.toNat
      (edges c.tac t.counter.toNat (t.counter.toNat + n))
      ((t.counter.toNat + n) % period c.tac)) t' c'

namespace Elapsed
variable {t t' : Timer} {c c' : TimerCells} {n : Nat}

theorem zero (h : t.InStep c) (hd : t.delay = 0) : Elapsed t c 0 t c where
  counter := (Nat.mod_eq_of_lt t.counter.toNat_lt).symm
  inStep := h
  tma := rfl
  tac := rfl
  shown := by
    have hlt : 0 < 256 - c.tima.toNat := Nat.sub_pos_of_lt c.tima.toNat_lt
    rw [Nat.add_zero, edges_self, Tally.after_of_lt hlt]
    exact ⟨rfl, hd, rfl⟩

theorem cycle (h : Elapsed t c n t' c') : Elapsed t c (n + 1) (t'.cycle c').1 (t'.cycle c').2 where
  counter := by
    have hcounter : (t'.cycle c').1.counter = t'.counter + 1 := by rw [cycle_eq]
    rw [hcounter, UInt16.toNat_add, h.counter]
    exact Nat.mod_add_mod _ (2 ^ 16) 1
  inStep := inStep_cycle
  tma := by
    rw [cycle_eq]
    exact h.tma
  tac := by
    rw [cycle_eq]
    exact h.tac
  shown := by
    let x := t.counter.toNat + n
    have hfalls : (t'.latch && !gatedBit (t'.counter + 1) c'.tac) = falling c.tac x := by
      rw [h.inStep.latch, h.tac]
      exact falls_eq_falling c.tac h.counter
    have hshown := h.shown.cycle
    rw [hfalls, h.tma] at hshown
    have hafter := Tally.cycle_after c.tac c.tima.toNat_lt c.tma.toNat_lt
      (show t.counter.toNat ≤ x from Nat.le_add_right _ _)
    rw [hafter] at hshown
    exact hshown

theorem run (h : t.InStep c) (hd : t.delay = 0) (n : Nat) :
    Elapsed t c n (Timer.run n t c).1 (Timer.run n t c).2 := by
  induction n with
  | zero => exact zero h hd
  | succ n ih =>
    rw [run_succ]
    exact ih.cycle

end Elapsed

end Timer

namespace Board

/-- The closed form of any number of cycles, on a board whose timer is in step and has no reload
pending. The timer counter first goes up from where it is; from its overflow on it goes round from
the modulo to the last value, but for the four cycles after each overflow, where it is zero. The
interrupt is requested when the first of these delays is over. No other cell changes. -/
theorem timer_closed_form (b : Board) (hs : b.timer.InStep b.memory.timerCells)
    (hd : b.timer.delay = 0) (n : Nat) :
    let c₀ := b.timer.counter.toNat
    let t₀ := (b.memory.get Cell.tima).toNat
    let m := (b.memory.get Cell.tma).toNat
    let tac := b.memory.get Cell.tac
    let P := Timer.period tac
    let E := if tac.toNat.testBit 2 then (c₀ + n) / P - c₀ / P else 0
    let q := (E - (256 - t₀)) % (256 - m)
    let later := b.tickTimer n
    later.timer.counter.toNat = (c₀ + n) % 65536 ∧
    later.memory.get Cell.div = (later.timer.counter >>> 8).toUInt8 ∧
    (E < 256 - t₀ →
      (later.memory.get Cell.tima).toNat = t₀ + E ∧
        later.memory.get Cell.requests = b.memory.get Cell.requests) ∧
    (256 - t₀ ≤ E →
      (later.memory.get Cell.tima).toNat = (if q = 0 ∧ (c₀ + n) % P < 4 then 0 else m + q) ∧
        later.memory.get Cell.requests =
          if 256 - t₀ < E ∨ 4 ≤ (c₀ + n) % P then b.memory.get Cell.requests ||| 0x04
          else b.memory.get Cell.requests) ∧
    (∀ cell, cell ≠ Cell.div → cell ≠ Cell.tima → cell ≠ Cell.requests →
      later.memory.get cell = b.memory.get cell) := by
  intro c₀ t₀ m tac P E q later
  have h := Timer.Elapsed.run hs hd n
  rw [← timerCells_driveTimer] at h
  have hshown : Timer.Tally.Shown (b.memory.get Cell.requests)
      (.after t₀ m E ((c₀ + n) % P)) later.timer later.memory.timerCells := h.shown
  refine ⟨h.counter, h.inStep.div, ?_, ?_, ?_⟩
  · intro he
    rw [Timer.Tally.after_of_lt he] at hshown
    exact ⟨hshown.tima, hshown.requests⟩
  · intro he
    obtain ⟨htima, hrequested⟩ := @Timer.Tally.after_of_le t₀ m E ((c₀ + n) % P) he
    refine ⟨hshown.tima.trans htima, hshown.requests.trans ?_⟩
    simp only [hrequested]
  · intro cell hdiv htima hrequests
    by_cases htma : cell = Cell.tma
    · rw [htma]
      exact h.tma
    by_cases htac : cell = Cell.tac
    · rw [htac]
      exact h.tac
    apply get_driveTimer b _ _ hrequests
    simp [timerOwned, hdiv, htima, htma, htac]

/-- The timer at its highest rate, three short of an overflow: two rounds from the modulo `FE` later
it has just overflown again. -/
theorem timer_closed_form_second_round :
    let cells : TimerCells := ⟨0, 0xfd, 0xfe, 0xfd, 0xe0⟩
    let b := { Board.new #[] (.rom #[]) with memory := Memory.cleared.setTimerCells cells }
    b.timer.InStep b.memory.timerCells ∧ b.timer.delay = 0 ∧
      (b.tickTimer (5 * 16 + 3)).memory.get Cell.tima = 0 ∧
      (b.tickTimer (5 * 16 + 4)).memory.get Cell.tima = 0xfe ∧
      (b.tickTimer (5 * 16 + 3)).memory.get Cell.requests = 0xe4 := by
  intro cells b
  have hcells : b.memory.timerCells = cells := Memory.timerCells_setTimerCells _ _
  have hinStep : b.timer.InStep cells := ⟨by decide, by decide⟩
  have hs : b.timer.InStep b.memory.timerCells := by
    rw [hcells]
    exact hinStep
  obtain ⟨-, htima, htma, htac, hrequests⟩ := TimerCells.mk.inj hcells
  obtain ⟨-, -, -, hwaiting, -⟩ := timer_closed_form b hs rfl (5 * 16 + 3)
  obtain ⟨-, -, -, hreloaded, -⟩ := timer_closed_form b hs rfl (5 * 16 + 4)
  simp only [htima, htma, htac, hrequests] at hwaiting hreloaded
  obtain ⟨hzero, hrequested⟩ := hwaiting (by decide)
  obtain ⟨hmodulo, -⟩ := hreloaded (by decide)
  exact ⟨hs, rfl, UInt8.toNat_inj.1 (hzero.trans (by decide)),
    UInt8.toNat_inj.1 (hmodulo.trans (by decide)), hrequested.trans (by decide)⟩

end Board
end DotMatrix
