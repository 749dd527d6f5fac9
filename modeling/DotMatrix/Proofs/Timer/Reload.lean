import DotMatrix.Proofs.Timer.Clockwork

/-! # The reload after an overflow

Two countdowns follow an overflow: four cycles until the modulo is reloaded and the interrupt
requested, and four more for which the reload stays fresh. As long as the timer counter does not
overflow again the number of cycles alone tells where they stand, whatever is written meanwhile.
-/
namespace DotMatrix

namespace Clockwork

def calm (w : Clockwork) : List Timer.Act → Bool
  | [] => true
  | a :: acts => !w.overflows a && a.avoids Cell.requests && (w.act a).calm acts

theorem calm_cons {w : Clockwork} {a : Timer.Act} {acts : List Timer.Act}
    (h : w.calm (a :: acts) = true) :
    w.overflows a = false ∧ a.avoids Cell.requests = true ∧ (w.act a).calm acts = true := by
  rw [calm, Bool.and_eq_true, Bool.and_eq_true, Bool.not_eq_true'] at h
  exact ⟨h.1.1, h.1.2, h.2⟩

/-- A number of cycles after an overflow, at which the cell of requests held `r`. -/
structure Reloading (r : UInt8) (n : Nat) (w : Clockwork) : Prop where
  delay : w.timer.delay = 4 - n
  guard : 4 ≤ n → w.timer.guard = 8 - n
  requests : w.cells.requests = if n < 4 then r else r ||| 0x04

namespace Reloading
variable {w : Clockwork} {r : UInt8} {n : Nat}

theorem start {a : Timer.Act} (h : w.overflows a = true) :
    Reloading (w.act a).cells.requests 0 (w.act a) where
  delay := by rw [delay_act, if_pos h]
  guard h := absurd h (by decide)
  requests := rfl

theorem cycle (h : Reloading r n w) (hc : w.overflows .cycle = false) :
    Reloading r (n + 1) (w.act .cycle) := by
  obtain ⟨hguard, hrequests, -⟩ := cycle_fields w
  have hdelay : (w.act .cycle).timer.delay = w.timer.delay - 1 := by
    rw [delay_act, hc]
    rfl
  have hdue : w.timer.delay = 1 ↔ n = 3 := by
    rw [h.delay]
    omega
  refine ⟨?_, ?_, ?_⟩
  · rw [hdelay, h.delay]
    omega
  · intro hn
    rw [hguard]
    split
    · omega
    · rw [h.guard (by omega)]
      omega
  · rw [hrequests, h.requests]
    by_cases hn : n = 3
    · rw [if_pos (hdue.2 hn), if_pos (by omega), if_neg (by omega)]
    · rw [if_neg (mt hdue.1 hn)]
      have hiff : n < 4 ↔ n + 1 < 4 := by omega
      simp only [hiff]

theorem write (h : Reloading r n w) {address : UInt16} {v : UInt8}
    (hc : w.overflows (.write address v) = false) (hr : address ≠ Cell.requests) :
    Reloading r n (w.write address v) := by
  obtain ⟨hguard, -, hrequests⟩ := write_fields w address v
  have hdelay : (w.write address v).timer.delay = w.timer.delay := by
    have hd := delay_act w (.write address v)
    rw [hc] at hd
    exact hd
  exact ⟨hdelay.trans h.delay, fun hn => hguard.trans (h.guard hn), (hrequests hr).trans h.requests⟩

/-- The cycles of a calm run are all that moves the countdowns. -/
theorem run {acts : List Timer.Act} (h : Reloading r n w) (hcalm : w.calm acts = true) :
    Reloading r (n + acts.count .cycle) (w.run acts) := by
  induction acts generalizing w n with
  | nil => exact h
  | cons a acts ih =>
    obtain ⟨hc, hr, hcalm⟩ := calm_cons hcalm
    cases a with
    | cycle =>
      have hn : n + (Timer.Act.cycle :: acts).count .cycle = n + 1 + acts.count .cycle := by
        rw [List.count_cons_self, Nat.add_assoc, Nat.add_comm 1]
      rw [hn]
      exact ih (h.cycle hc) hcalm
    | write address v =>
      have hn : (Timer.Act.write address v :: acts).count .cycle = acts.count .cycle :=
        List.count_cons_of_ne (fun he => by cases he)
      rw [hn]
      exact ih (h.write hc (bne_iff_ne.1 hr)) hcalm

/-- Stores to the timer counter are dropped until the end of the eighth cycle. -/
theorem locked (h : Reloading r n w) : w.timer.locked = decide (n < 8) := by
  have hl : w.timer.locked = (decide (0 < w.timer.delay) || decide (0 < w.timer.guard)) := rfl
  rw [hl, h.delay]
  rcases Nat.lt_or_ge n 4 with hn | hn
  · have hd : 0 < 4 - n := by omega
    have hlt : n < 8 := by omega
    rw [decide_eq_true hd, decide_eq_true hlt, Bool.true_or]
  · have hd : ¬0 < 4 - n := by omega
    have hg : 0 < 8 - n ↔ n < 8 := by omega
    rw [h.guard hn, decide_eq_false hd, Bool.false_or, decide_eq_decide]
    exact hg

end Reloading

end Clockwork

namespace Board

/-- From an overflow on, as long as the timer counter does not overflow again and the requests are
not written. The timer's request is made in the fourth cycle, which also reloads the timer counter
with the modulo as it is then, before the edge that may fall in the same cycle. Until the end of
the eighth cycle stores to the timer counter are dropped, and from then on they are made. Stores to
the modulo are always made, and between the fourth and the eighth cycle, not later, they reach the
timer counter too. -/
theorem reload_follows_overflow (b : Board) (hb : b.hooks = []) (first : Timer.Act)
    (hfirst : b.clockwork.overflows first = true) (acts : List Timer.Act)
    (hcalm : (b.apply first.event).clockwork.calm acts = true) :
    let overflown := b.apply first.event
    let r := overflown.peek Cell.requests
    let c := overflown.run (acts.map Timer.Act.event)
    let n := acts.count .cycle
    c.peek Cell.requests = (if n < 4 then r else r ||| 0x04) ∧
    (n = 3 → (c.apply (.timer 1)).peek Cell.requests = r ||| 0x04 ∧
      (c.apply (.timer 1)).peek Cell.tima =
        c.peek Cell.tma + if c.clockwork.falls .cycle then 1 else 0) ∧
    (n < 8 → ∀ v, (c.write Cell.tima v).peek Cell.tima = c.peek Cell.tima) ∧
    (∀ v, (c.write Cell.tma v).peek Cell.tma = v) ∧
    (4 ≤ n → n < 8 → ∀ v, (c.write Cell.tma v).peek Cell.tima = v) ∧
    (8 ≤ n → ∀ v, (c.write Cell.tima v).peek Cell.tima = v ∧
      (c.write Cell.tma v).peek Cell.tima = c.peek Cell.tima) := by
  intro overflown r c n
  have hoverflown : overflown.hooks = [] := hooks_apply hb first.event
  have hc : c.hooks = [] := hooks_run _ hoverflown
  have h : Clockwork.Reloading r n c.clockwork := by
    have hstart := Clockwork.Reloading.start hfirst
    rw [← clockwork_apply hb] at hstart
    have hrun := hstart.run hcalm
    rw [Nat.zero_add, ← clockwork_run hoverflown] at hrun
    exact hrun
  have hcycle : (c.apply (.timer 1)).clockwork = c.clockwork.act .cycle :=
    clockwork_apply hc .cycle
  refine ⟨h.requests, ?_, ?_, ?_, ?_, ?_⟩
  · intro hn
    have hdelay : c.clockwork.timer.delay = 1 := by
      rw [h.delay, hn]
    have hcount := congrArg Prod.fst (Clockwork.act_of_pulses (w := c.clockwork)
      (a := .cycle) rfl).1
    have hrequests : c.clockwork.cells.requests = r := by
      rw [h.requests, hn]
      rfl
    rw [peek_requests, peek_tima, peek_tma, hcycle]
    constructor
    · rw [(Clockwork.cycle_fields _).2.1, if_pos hdelay, hrequests]
    · refine hcount.trans ?_
      have hbefore : c.clockwork.before .cycle = c.clockwork.cells.tma := if_pos hdelay
      rw [hbefore]
      cases c.clockwork.falls .cycle with
      | true => rfl
      | false => exact (UInt8.add_zero _).symm
  · intro hn v
    rw [peek_tima, peek_tima, clockwork_write hc, Clockwork.tima_write_tima, h.locked,
      decide_eq_true hn, if_pos rfl]
  · intro v
    rw [peek_tma, clockwork_write hc, (Clockwork.write_fields _ _ v).2.1, if_pos rfl]
  · intro hn hn' v
    rw [peek_tima, clockwork_write hc, Clockwork.tima_write_tma, h.guard hn, if_pos (by omega)]
  · intro hn v
    constructor
    · rw [peek_tima, clockwork_write hc, Clockwork.tima_write_tima, h.locked,
        decide_eq_false (by omega)]
      rfl
    · rw [peek_tima, peek_tima, clockwork_write hc, Clockwork.tima_write_tma, h.guard (by omega),
        if_neg (by omega)]

/-- A run in which the timer counter stands before an overflow, the signal being high. -/
def brink : List Timer.Act :=
  List.replicate 47 .cycle ++ [.write Cell.tma 0x20, .write Cell.tima 0xff, .write Cell.tac 0x05]

theorem clockwork_brink :
    ((start #[] (.rom #[]) false).run (brink.map Timer.Act.event)).clockwork =
      ⟨⟨47, true, 0, 0⟩, ⟨0, 0xff, 0x20, 0xfd, 0xe0⟩⟩ := by
  rw [clockwork_run rfl, clockwork_start]
  decide +kernel

/-- The next cycle lets the timer counter overflow. -/
theorem exists_brink :
    ∃ b, b = (start #[] (.rom #[]) false).run (brink.map Timer.Act.event) ∧ b.hooks = [] ∧
      b.clockwork.overflows .cycle = true ∧ (b.apply (.timer 1)).hooks = [] ∧
      (b.apply (.timer 1)).clockwork = ⟨⟨48, false, 4, 0⟩, ⟨0, 0, 0x20, 0xfd, 0xe0⟩⟩ := by
  obtain ⟨b, hrun⟩ : ∃ b, b = (start #[] (.rom #[]) false).run (brink.map Timer.Act.event) :=
    ⟨_, rfl⟩
  have hb : b.hooks = [] := hrun ▸ hooks_run _ rfl
  have hclockwork : b.clockwork = ⟨⟨47, true, 0, 0⟩, ⟨0, 0xff, 0x20, 0xfd, 0xe0⟩⟩ :=
    hrun ▸ clockwork_brink
  have hnext : (b.apply (.timer 1)).clockwork = b.clockwork.act .cycle := clockwork_apply hb .cycle
  refine ⟨b, hrun, hb, ?_, hooks_apply hb _, ?_⟩
  · rw [hclockwork]
    decide +kernel
  · rw [hnext, hclockwork]
    decide +kernel

/-- Five cycles after the overflow, where a store to the modulo reaches the timer counter. -/
theorem reload_follows_overflow_modulo :
    let acts := [.write Cell.tima 0x77, .cycle, .cycle, .cycle, .cycle, .cycle]
    ∃ b, b = (start #[] (.rom #[]) false).run (brink.map Timer.Act.event) ∧ b.hooks = [] ∧
      b.clockwork.overflows .cycle = true ∧ (b.apply (.timer 1)).clockwork.calm acts = true ∧
      let c := (b.apply (.timer 1)).run (acts.map Timer.Act.event)
      c.peek Cell.requests = 0xe4 ∧ (c.write Cell.tima 0x99).peek Cell.tima = 0x20 ∧
        (c.write Cell.tma 0x42).peek Cell.tima = 0x42 := by
  intro acts
  obtain ⟨b, hrun, hb, hfirst, hnext, hclockwork⟩ := exists_brink
  have hcalm : (b.apply (.timer 1)).clockwork.calm acts = true := by
    rw [hclockwork]
    decide +kernel
  refine ⟨b, hrun, hb, hfirst, hcalm, ?_⟩
  intro c
  have hloaded : c.peek Cell.tima = 0x20 := by
    rw [peek_tima, clockwork_run hnext, hclockwork]
    decide +kernel
  have hr : (b.apply (.timer 1)).peek Cell.requests = 0xe0 := by
    rw [peek_requests, hclockwork]
  obtain ⟨hrequests, -, hdropped, -, hfresh, -⟩ :=
    reload_follows_overflow b hb .cycle hfirst acts hcalm
  refine ⟨?_, (hdropped (by decide) 0x99).trans hloaded, hfresh (by decide) (by decide) 0x42⟩
  rw [Timer.Act.event, hr] at hrequests
  exact hrequests

end Board
end DotMatrix
