import Mathlib.Data.Nat.Bitwise
import DotMatrix.Board.Timer

/-! # Edges of the timer's signal

Every event that can let the signal fall ends in the same edge detection, which counts at most once
and leaves the latch at the signal it has seen.
-/
namespace DotMatrix.Timer

/-- The counter bit that the lower two bits of the control select. -/
def selectedBit (tac : UInt8) : Nat :=
  match tac.toNat.testBit 1, tac.toNat.testBit 0 with
  | false, false => 9
  | false, true => 3
  | true, false => 5
  | true, true => 7

/-- The selected bit of the counter, which the third bit of the control lets through. -/
def gatedBit (counter : UInt16) (tac : UInt8) : Bool :=
  tac.toNat.testBit 2 && counter.toNat.testBit (selectedBit tac)

section Signal
variable (tac : UInt8)

theorem enabled_eq : TimerControl.enabled tac = tac.toNat.testBit 2 := by
  have hmask : (tac &&& 0x04).toNat = (tac.toNat.testBit 2).toNat * 2 ^ 2 := by
    rw [UInt8.toNat_and]
    exact Nat.and_two_pow _ 2
  unfold TimerControl.enabled
  rw [Bool.eq_iff_iff, bne_iff_ne, Ne, ← UInt8.toNat_inj, hmask]
  cases tac.toNat.testBit 2 <;> decide

theorem counterBit_eq : TimerControl.counterBit tac = selectedBit tac := by
  have hlow : tac.toNat % 4 = 2 * (tac.toNat.testBit 1).toNat + (tac.toNat.testBit 0).toNat := by
    rw [Nat.toNat_testBit, Nat.toNat_testBit]
    omega
  unfold TimerControl.counterBit selectedBit
  rw [hlow]
  cases tac.toNat.testBit 1 <;> cases tac.toNat.testBit 0 <;> rfl

theorem signal_eq (counter : UInt16) : signal counter tac = gatedBit counter tac := by
  rw [signal, enabled_eq, counterBit_eq, gatedBit]

end Signal

def counted (fallen : Bool) (tima : UInt8) (delay : Nat) : UInt8 × Nat :=
  if fallen then (tima + 1, if tima = 0xff then 4 else delay) else (tima, delay)

/-- The latch is at the signal, and the divider shows the upper byte of the counter. -/
structure InStep (t : Timer) (c : TimerCells) : Prop where
  latch : t.latch = gatedBit t.counter c.tac
  div : c.div = Word.high t.counter

variable (t : Timer) (c : TimerCells)

theorem detectEdge_eq :
    t.detectEdge c =
      let now := gatedBit t.counter c.tac
      let (tima, delay) := counted (t.latch && !now) c.tima t.delay
      ({ t with latch := now, delay }, { c with tima }) := by
  unfold detectEdge increment counted
  rw [signal_eq]
  by_cases hf : (t.latch && !gatedBit t.counter c.tac) = true
  · by_cases ht : c.tima = 0xff
    · simp only [hf, ht, if_true, overflowDelay]
      rfl
    · simp only [hf, ht, if_true, if_false]
  · simp only [hf, Bool.false_eq_true, if_false]

theorem countDown_eq :
    t.countDown c =
      ({ t with delay := t.delay - 1, guard := if t.reloads then reloadGuard else t.guard },
        { c with
          tima := if t.reloads then c.tma else c.tima
          requests := if t.reloads then c.requests ||| 0x04 else c.requests }) := by
  unfold countDown
  by_cases h : t.reloads = true
  · have hd : t.delay = 1 := by simpa [reloads] using h
    simp only [h, hd, if_true]
  · simp only [h, Bool.false_eq_true, if_false]

/-- In a cycle the counter advances, a reload that is due is carried out, and then the signal of
the new counter is looked at. -/
theorem cycle_eq :
    t.cycle c =
      let counter := t.counter + 1
      let now := gatedBit counter c.tac
      let (tima, delay) :=
        counted (t.latch && !now) (if t.reloads then c.tma else c.tima) (t.delay - 1)
      (⟨counter, now, delay, if t.reloads then reloadGuard else t.guard - 1⟩,
        { c with
          div := Word.high counter
          tima
          requests := if t.reloads then c.requests ||| 0x04 else c.requests }) := by
  simp only [cycle, countDown_eq, detectEdge_eq]
  rfl

theorem reset_eq :
    t.reset c =
      let now := gatedBit 0 c.tac
      let (tima, delay) := counted (t.latch && !now) c.tima t.delay
      ({ t with counter := 0, latch := now, delay }, { c with div := 0, tima }) := by
  simp only [reset, detectEdge_eq]

theorem setControl_eq (v : UInt8) :
    t.setControl c v =
      let now := gatedBit t.counter (v ||| 0xf8)
      let (tima, delay) := counted (t.latch && !now) c.tima t.delay
      ({ t with latch := now, delay }, { c with tac := v ||| 0xf8, tima }) := by
  simp only [setControl, detectEdge_eq]

section InStep
variable {t c}

theorem inStep_cycle : InStep (t.cycle c).1 (t.cycle c).2 := by
  rw [cycle_eq]
  exact ⟨rfl, rfl⟩

theorem inStep_reset : InStep (t.reset c).1 (t.reset c).2 := by
  have hd : 0 = Word.high 0 := by decide
  rw [reset_eq]
  exact ⟨rfl, hd⟩

theorem InStep.setControl (h : t.InStep c) (v : UInt8) :
    InStep (t.setControl c v).1 (t.setControl c v).2 := by
  rw [setControl_eq]
  exact ⟨rfl, h.div⟩

theorem InStep.setModulo (h : t.InStep c) (v : UInt8) : InStep t (t.setModulo c v) :=
  ⟨h.latch, h.div⟩

theorem InStep.run (n : Nat) {t : Timer} {c : TimerCells} (h : t.InStep c) :
    InStep (Timer.run n t c).1 (Timer.run n t c).2 := by
  induction n generalizing t c with
  | zero => exact h
  | succ n ih => exact ih inStep_cycle

end InStep

end DotMatrix.Timer
