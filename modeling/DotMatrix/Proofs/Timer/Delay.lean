import DotMatrix.Proofs.Timer.Reload

/-! # The delay before a reload

Between an overflow and its reload the timer counter takes no stores, but it still counts, and a
reload that came shortly before still passes on what is stored to the modulo. The cycles alone are
too few for the signal to rise and fall: every counter bit that can drive it stays up for at least
eight of them.
-/
namespace DotMatrix

namespace Timer

/-- A bit that has come up within fewer than eight counts is still up one count later. -/
theorem testBit_add_succ {x k m : Nat} (hk : k = 3 ∨ k = 5 ∨ k = 7 ∨ k = 9)
    (hlow : x.testBit k = false) (hm : m < 8) (hhigh : (x + m).testBit k = true) :
    (x + (m + 1)).testBit k = true := by
  rw [Nat.testBit_eq_decide_div_mod_eq] at *
  rw [decide_eq_false_iff_not] at hlow
  rw [decide_eq_true_eq] at *
  rcases hk with rfl | rfl | rfl | rfl
  all_goals omega

theorem selectedBit_mem (tac : UInt8) :
    selectedBit tac = 3 ∨ selectedBit tac = 5 ∨ selectedBit tac = 7 ∨ selectedBit tac = 9 := by
  unfold selectedBit
  split
  all_goals simp

theorem testBit_toNat_add (c : UInt16) (m : Nat) {k : Nat} (hk : k < 16) :
    (c + UInt16.ofNat m).toNat.testBit k = (c.toNat + m).testBit k := by
  have hsum : (c + UInt16.ofNat m).toNat = (c.toNat + m) % 2 ^ 16 := by
    rw [UInt16.toNat_add, UInt16.toNat_ofNat', Nat.add_mod_mod]
  rw [hsum, Nat.testBit_mod_two_pow, decide_eq_true hk, Bool.true_and]

/-- Cycles alone do not let a low signal rise and fall again at once. -/
theorem gatedBit_add_succ {c : UInt16} {tac : UInt8} {m : Nat} (hlow : gatedBit c tac = false)
    (hm : m < 8) (hhigh : gatedBit (c + UInt16.ofNat m) tac = true) :
    gatedBit (c + UInt16.ofNat (m + 1)) tac = true := by
  have hk := selectedBit_mem tac
  have hlt : selectedBit tac < 16 := by omega
  unfold gatedBit at *
  rw [Bool.and_eq_true, testBit_toNat_add c m hlt] at hhigh
  rw [hhigh.1, Bool.true_and] at hlow
  rw [hhigh.1, Bool.true_and, testBit_toNat_add c (m + 1) hlt]
  exact testBit_add_succ hk hlow hm hhigh.2

end Timer

namespace Clockwork

/-- The acts leave the divider and the control cell alone, and the modulo as long as an earlier
reload is fresh. -/
def quiet (w : Clockwork) : List Timer.Act → Bool
  | [] => true
  | a :: acts => a.avoids Cell.div && a.avoids Cell.tac &&
      (a.avoids Cell.tma || w.timer.guard == 0) && (w.act a).quiet acts

structure Holding (n : Nat) (w : Clockwork) : Prop where
  delay : w.timer.delay = 4 - n
  tima : w.cells.tima = 0
  latch : w.timer.latch = w.signal
  low : ∃ c, Timer.gatedBit c w.cells.tac = false ∧ w.timer.counter = c + UInt16.ofNat n

namespace Holding
variable {w : Clockwork} {n : Nat}

theorem start {a : Timer.Act} (h : w.overflows a = true) : Holding 0 (w.act a) := by
  obtain ⟨hfalls, hbefore⟩ : w.falls a = true ∧ w.before a = 0xff := by
    simpa [overflows] using h
  have hfallen : (a.pulses = true ∧ w.timer.latch = true) ∧ (w.act a).signal = false := by
    simpa [falls] using hfalls
  obtain ⟨⟨hp, -⟩, hsignal⟩ := hfallen
  obtain ⟨hcount, hlatch⟩ := act_of_pulses (w := w) hp
  refine ⟨?_, ?_, hlatch, ?_⟩
  · rw [delay_act, if_pos h]
  · rw [hfalls, hbefore] at hcount
    exact congrArg Prod.fst hcount
  · exact ⟨_, hsignal, (UInt16.add_zero _).symm⟩

theorem cycle (h : Holding n w) (hn : n < 3) : Holding (n + 1) (w.act .cycle) := by
  obtain ⟨-, -, -, htac, hcounter⟩ := cycle_fields w
  obtain ⟨c, hlow, hc⟩ := h.low
  have hnext : (w.act .cycle).timer.counter = c + UInt16.ofNat (n + 1) := by
    rw [hcounter, hc, UInt16.add_assoc, UInt16.ofNat_add]
    rfl
  have hfalls : w.falls .cycle = false := by
    cases hl : w.timer.latch with
    | false => simp [falls, hl]
    | true =>
      have hhigh : Timer.gatedBit (c + UInt16.ofNat n) w.cells.tac = true := by
        rw [← hc]
        exact h.latch.symm.trans hl
      have hstays : (w.act .cycle).signal = true := by
        unfold signal
        rw [hnext, htac]
        exact Timer.gatedBit_add_succ hlow (by omega) hhigh
      simp [falls, hstays]
  have hoverflows : w.overflows .cycle = false := by
    rw [overflows, hfalls, Bool.false_and]
  have hdue : w.timer.delay ≠ 1 := by
    rw [h.delay]
    omega
  obtain ⟨hcount, hlatch⟩ := act_of_pulses (w := w) (a := .cycle) rfl
  refine ⟨?_, ?_, hlatch, c, ?_, hnext⟩
  · rw [delay_act, hoverflows, delayBefore, h.delay]
    exact (Nat.sub_add_eq 4 n 1).symm
  · rw [hfalls] at hcount
    have htima : (w.act .cycle).cells.tima = w.before .cycle := congrArg Prod.fst hcount
    rw [htima, before, if_neg hdue, h.tima]
  · rw [htac]
    exact hlow

theorem write (h : Holding n w) (hn : n < 4) {address : UInt16} {v : UInt8}
    (hdiv : address ≠ Cell.div) (htac : address ≠ Cell.tac)
    (htma : address ≠ Cell.tma ∨ w.timer.guard = 0) : Holding n (w.write address v) := by
  have hp : (Timer.Act.write address v).pulses = false := by
    simp [Timer.Act.pulses, hdiv, htac]
  have hlocked : w.timer.locked = true := by
    have hd : 0 < w.timer.delay := by
      rw [h.delay]
      omega
    simp [Timer.locked, hd]
  obtain ⟨htimer, hcontrol, htima⟩ := write_unpulsed (w := w) hp
  refine ⟨by rw [htimer, h.delay], ?_, ?_, ?_⟩
  · rw [htima, if_neg, h.tima]
    rintro (⟨-, hunlocked⟩ | ⟨hmodulo, hguard⟩)
    · rw [hlocked] at hunlocked
      cases hunlocked
    · rcases htma with hne | hzero
      · exact hne hmodulo
      · omega
  · unfold signal
    rw [htimer, hcontrol]
    exact h.latch
  · rw [htimer, hcontrol]
    exact h.low

theorem run {acts : List Timer.Act} (h : Holding n w) (hn : n + acts.count .cycle < 4)
    (hq : w.quiet acts = true) : Holding (n + acts.count .cycle) (w.run acts) := by
  induction acts generalizing w n with
  | nil => exact h
  | cons a acts ih =>
    rw [quiet, Bool.and_eq_true, Bool.and_eq_true, Bool.and_eq_true] at hq
    obtain ⟨⟨⟨hdiv, htac⟩, htma⟩, hq⟩ := hq
    cases a with
    | cycle =>
      have hcount : n + (Timer.Act.cycle :: acts).count .cycle = n + 1 + acts.count .cycle := by
        rw [List.count_cons_self, Nat.add_assoc, Nat.add_comm 1]
      rw [hcount] at hn ⊢
      exact ih (h.cycle (by omega)) hn hq
    | write address v =>
      have hcount : (Timer.Act.write address v :: acts).count .cycle = acts.count .cycle :=
        List.count_cons_of_ne (fun he => by cases he)
      have hmodulo : address ≠ Cell.tma ∨ w.timer.guard = 0 := by
        simpa [Timer.Act.avoids] using htma
      rw [hcount] at hn ⊢
      exact ih (h.write (by omega) (bne_iff_ne.1 hdiv) (bne_iff_ne.1 htac) hmodulo) hn hq

end Holding

def passedOn (w : Clockwork) : Timer.Act → Option UInt8
  | .write address v => if address = Cell.tma ∧ 0 < w.timer.guard then some v else none
  | .cycle => none

/-- While a reload is pending and not carried out, the timer counter moves by an edge and by what an
earlier reload passes on. -/
theorem tima_of_pending {w : Clockwork} (hd : 0 < w.timer.delay) {a : Timer.Act}
    (ha : a = .cycle → 1 < w.timer.delay) :
    (w.act a).cells.tima =
      if w.falls a then w.cells.tima + 1 else (w.passedOn a).getD w.cells.tima := by
  cases hp : a.pulses with
  | true =>
    have hbefore : w.before a = w.cells.tima := by
      cases a with
      | cycle =>
        have hlater := ha rfl
        exact if_neg (by omega)
      | write => rfl
    have hnone : w.passedOn a = none := by
      cases a with
      | cycle => rfl
      | write address v =>
        rw [Timer.Act.pulses, Bool.or_eq_true, beq_iff_eq, beq_iff_eq] at hp
        apply if_neg
        rintro ⟨rfl, -⟩
        exact absurd hp (by decide)
    have hcount := congrArg Prod.fst (act_of_pulses (w := w) hp).1
    rw [hbefore] at hcount
    rw [hnone]
    refine hcount.trans ?_
    unfold Timer.counted
    split <;> rfl
  | false =>
    have hfalls : w.falls a = false := by
      rw [falls, hp, Bool.false_and, Bool.false_and]
    rw [hfalls, if_neg Bool.false_ne_true]
    cases a with
    | cycle => cases hp
    | write address v =>
      have hlocked : w.timer.locked = true := by
        simp [Timer.locked, hd]
      refine (write_unpulsed hp).2.2.trans ?_
      rw [hlocked, passedOn]
      by_cases hm : address = Cell.tma ∧ 0 < w.timer.guard
      · rw [if_pos (.inr hm), if_pos hm]
        rfl
      · rw [if_neg hm, if_neg]
        · rfl
        · rintro (⟨-, hunlocked⟩ | hmodulo)
          · cases hunlocked
          · exact hm hmodulo

/-- A cycle takes one off the delay at most, and nothing else shortens it. -/
theorem sub_le_delay_act (w : Clockwork) (a : Timer.Act) (h : w.timer.delay ≤ 4) :
    w.timer.delay - [a].count .cycle ≤ (w.act a).timer.delay ∧ (w.act a).timer.delay ≤ 4 := by
  have hbefore : w.delayBefore a = w.timer.delay - [a].count .cycle := by
    cases a with
    | cycle => rfl
    | write => rfl
  rw [delay_act, hbefore]
  split
  · omega
  · omega

theorem sub_le_delay_run (w : Clockwork) (acts : List Timer.Act) (h : w.timer.delay ≤ 4) :
    w.timer.delay - acts.count .cycle ≤ (w.run acts).timer.delay := by
  induction acts generalizing w with
  | nil => exact Nat.sub_le _ _
  | cons a acts ih =>
    obtain ⟨hact, hle⟩ := w.sub_le_delay_act a h
    have hrun : (w.act a).timer.delay - acts.count .cycle ≤ (w.run (a :: acts)).timer.delay :=
      ih (w.act a) hle
    have hcount : (a :: acts).count .cycle = [a].count .cycle + acts.count .cycle := by
      rw [← List.count_append]
      rfl
    omega

end Clockwork

namespace Board

/-- From an overflow until its reload, four cycles later, the timer counter reads zero if neither
the divider nor the control cell is written, nor the modulo while an earlier reload is fresh. A
write that lets the signal fall increments it all the same, and a fresh reload passes a store to the
modulo on; nothing else moves it before the reload. -/
theorem zero_until_reload (b : Board) (hb : b.hooks = []) (first : Timer.Act)
    (hfirst : b.clockwork.overflows first = true) (acts : List Timer.Act)
    (hn : acts.count .cycle < 4) :
    let overflown := b.apply first.event
    let c := overflown.run (acts.map Timer.Act.event)
    (overflown.clockwork.quiet acts = true → c.peek Cell.tima = 0) ∧
    (∀ a : Timer.Act, (acts ++ [a]).count .cycle < 4 →
      (c.apply a.event).peek Cell.tima =
        if c.clockwork.falls a then c.peek Cell.tima + 1
        else (c.clockwork.passedOn a).getD (c.peek Cell.tima)) := by
  intro overflown c
  have hoverflown : overflown.hooks = [] := hooks_apply hb first.event
  have hc : c.hooks = [] := hooks_run _ hoverflown
  constructor
  · intro hq
    have hstart := Clockwork.Holding.start hfirst
    rw [← clockwork_apply hb] at hstart
    have hrun := hstart.run (by omega) hq
    rw [← clockwork_run hoverflown] at hrun
    exact hrun.tima
  · intro a ha
    have hdelay : overflown.clockwork.timer.delay = 4 := by
      rw [clockwork_apply hb, Clockwork.delay_act, if_pos hfirst]
    have hpending : 4 - acts.count .cycle ≤ c.clockwork.timer.delay := by
      rw [clockwork_run hoverflown, ← hdelay]
      exact overflown.clockwork.sub_le_delay_run acts (Nat.le_of_eq hdelay)
    have hlater : a = .cycle → 1 < c.clockwork.timer.delay := by
      rintro rfl
      rw [List.count_append, List.count_singleton_self] at ha
      omega
    rw [peek_tima, peek_tima, clockwork_apply hc]
    exact Clockwork.tima_of_pending (by omega) hlater

/-- The overflow while another counter bit is up. That bit is selected and cleared before the
reload, and the timer counter reads one. -/
theorem zero_until_reload_edge :
    let acts := [.write Cell.tac 0x06, .write Cell.div 0]
    ∃ b, b = (start #[] (.rom #[]) false).run (brink.map Timer.Act.event) ∧
      b.clockwork.overflows .cycle = true ∧
      let c := (b.apply (.timer 1)).run (acts.map Timer.Act.event)
      c.timer.delay = 4 ∧ c.peek Cell.tima = 1 := by
  intro acts
  obtain ⟨b, hrun, -, hfirst, hnext, hclockwork⟩ := exists_brink
  refine ⟨b, hrun, hfirst, ?_⟩
  intro c
  have hdelay : c.timer.delay = c.clockwork.timer.delay := rfl
  rw [peek_tima, hdelay, clockwork_run hnext, hclockwork]
  decide +kernel

/-- Without such writes: a store to the modulo and one to the timer counter are made meanwhile. -/
theorem zero_until_reload_stores :
    let acts := [.cycle, .write Cell.tma 0x55, .write Cell.tima 0x66, .cycle, .cycle]
    ∃ b, b = (start #[] (.rom #[]) false).run (brink.map Timer.Act.event) ∧ b.hooks = [] ∧
      b.clockwork.overflows .cycle = true ∧ acts.count .cycle < 4 ∧
      (b.apply (.timer 1)).clockwork.quiet acts = true ∧
      ((b.apply (.timer 1)).run (acts.map Timer.Act.event)).peek Cell.tima = 0 := by
  intro acts
  obtain ⟨b, hrun, hb, hfirst, -, hclockwork⟩ := exists_brink
  have hquiet : (b.apply (.timer 1)).clockwork.quiet acts = true := by
    rw [hclockwork]
    decide +kernel
  have hfew : acts.count .cycle < 4 := by decide
  exact ⟨b, hrun, hb, hfirst, hfew, hquiet,
    (zero_until_reload b hb .cycle hfirst acts hfew).1 hquiet⟩

end Board
end DotMatrix
