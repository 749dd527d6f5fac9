import DotMatrix.Proofs.Board.Image
import DotMatrix.Proofs.Interrupt.Order
import DotMatrix.Proofs.Processor.Switch

/-! # Interrupts are enabled one instruction late

What an instruction and a check make of the interrupt switch hangs on nothing else of the machine,
so the switch is an automaton of its own. Followed from power-on, it shows between which
instructions an interrupt can come.
-/
namespace DotMatrix

namespace MasterEnable

/-- The switch after an instruction. An enable that was scheduled takes effect, unless the
instruction is the one that disables. -/
def after (m : MasterEnable) : Instruction → MasterEnable
  | .disableInterrupts => ⟨false, false⟩
  | .reti => ⟨true, false⟩
  | .enableInterrupts => if m.scheduled then ⟨true, false⟩ else ⟨m.enabled, true⟩
  | _ => if m.scheduled then ⟨true, false⟩ else ⟨m.enabled, false⟩

variable (m : MasterEnable) (i : Instruction)

theorem settleIme_switch : Machine.settleIme m (i.switch m) = m.after i := by
  obtain ⟨enabled, scheduled⟩ := m
  cases i <;> cases scheduled <;> rfl

variable {m i}

/-- Nothing else than the instruction for it leaves an enable scheduled. -/
theorem eq_of_scheduled_after (h : (m.after i).scheduled = true) : i = .enableInterrupts := by
  obtain ⟨enabled, scheduled⟩ := m
  cases i with
  | enableInterrupts => rfl
  | _ => cases scheduled <;> cases h

theorem after_of_scheduled (h : m.scheduled = true) :
    m.after i = if i = .disableInterrupts then ⟨false, false⟩ else ⟨true, false⟩ := by
  obtain ⟨enabled, scheduled⟩ := m
  cases h
  cases i <;> rfl

/-- A switch that is off stays off, but for the two instructions that turn it on. -/
theorem after_off (hr : i ≠ .reti) (he : i ≠ .enableInterrupts) : off.after i = off := by
  cases i with
  | reti => exact absurd rfl hr
  | enableInterrupts => exact absurd rfl he
  | _ => rfl

end MasterEnable

namespace Machine

section Round
variable {β : Type} [Bus β] (s : Machine β)

def round : Machine β :=
  match s.step with
  | .ok (_, t) => t.service.2
  | .error _ => s

def interrupted? : Option Interrupt :=
  match s.step with
  | .ok (_, t) => t.dispatched?
  | .error _ => none

theorem ime_proceed (i : Instruction) :
    (s.proceed (some i)).2.cpu.ime = s.cpu.ime.after i := by
  have hs (t : Machine β) (address : UInt16) :
      (t.executeAt address i).2.cpu.ime = t.cpu.ime.after i := by
    rw [← MasterEnable.settleIme_switch]
    exact congrArg (settleIme t.cpu.ime) (ime_execute _ i)
  exact hs _ _

theorem ime_service :
    s.service.2.cpu.ime = if s.dispatched?.isSome then .off else s.cpu.ime := by
  have hr : s.roused.cpu.ime = s.cpu.ime := by
    unfold roused
    split <;> rfl
  rw [service_eq]
  cases s.dispatched? with
  | none => exact hr
  | some i => rfl

theorem isSome_dispatched?_iff : s.dispatched?.isSome = true ↔ dispatchCycles ≤ s.service.1 := by
  rw [service_eq]
  cases s.dispatched? <;> cases s.rouses <;> simp [wakeCycles, dispatchCycles]

variable {s} {i : Instruction}

theorem idle_of_fetch (h : s.fetch = .ok (some i)) : s.cpu.idle = false := by
  unfold fetch at h
  cases hi : s.cpu.idle with
  | false => rfl
  | true =>
    rw [hi] at h
    cases h

theorem fetch_of_idle (h : s.cpu.idle = true) : s.fetch = .ok none := if_pos h

theorem idle_of_fetch_none (h : s.fetch = .ok none) : s.cpu.idle = true := by
  unfold fetch at h
  cases hi : s.cpu.idle with
  | true => rfl
  | false =>
    rw [hi] at h
    cases hd : decode s.bus s.registers.pc with
    | ok i =>
      rw [hd] at h
      cases h
    | error fault =>
      rw [hd] at h
      cases h

theorem step_of_fetch {fetched : Option Instruction} (h : s.fetch = .ok fetched) :
    s.step = .ok (s.proceed fetched) := by
  unfold step
  rw [h]
  rfl

theorem round_of_fetch {fetched : Option Instruction} (h : s.fetch = .ok fetched) :
    s.round = (s.proceed fetched).2.service.2 ∧
      s.interrupted? = (s.proceed fetched).2.dispatched? := by
  unfold round interrupted?
  rw [step_of_fetch h]
  exact ⟨rfl, rfl⟩

theorem round_of_fault {fault : Fault} (h : s.fetch = .error fault) :
    s.round = s ∧ s.interrupted? = none := by
  have hs : s.step = .error fault := by
    unfold step
    rw [h]
    rfl
  unfold round interrupted?
  rw [hs]
  exact ⟨rfl, rfl⟩

end Round

section Run
variable {β : Type} [Bus β] {turn : Nat → Machine β}

/-- A processor that goes round by round from power-on. Between two rounds anything can happen to
its bus, and it can be woken. -/
structure Running (turn : Nat → Machine β) : Prop where
  start : (turn 0).cpu = .powerOn ∨ (turn 0).cpu = .postBoot
  next : ∀ k, (turn (k + 1)).cpu = (turn k).round.cpu ∨ (turn (k + 1)).cpu = (turn k).round.cpu.wake

def Still (turn : Nat → Machine β) (k j : Nat) : Prop :=
  ∀ m, k < m → m < j → ∀ i, (turn m).fetch ≠ .ok (some i)

theorem Running.ime_succ (h : Running turn) (k : Nat) :
    (turn (k + 1)).cpu.ime = (turn k).round.cpu.ime := by
  rcases h.next k with hk | hk
  · rw [hk]
  · rw [hk]
    rfl

/-- An enable waits for the next instruction only while the processor is awake to execute it. -/
def Ready (c : Cpu) : Prop := c.ime.scheduled = true → c.idle = false

theorem ready_proceed {s : Machine β} {fetched : Option Instruction} (hs : Ready s.cpu)
    (hf : s.fetch = .ok fetched) : Ready (s.proceed fetched).2.cpu := by
  cases fetched with
  | none => exact hs
  | some i =>
    intro hp
    rw [ime_proceed] at hp
    obtain rfl := MasterEnable.eq_of_scheduled_after hp
    have hawake : s.cpu.idle = false := idle_of_fetch hf
    exact hawake

theorem ready_service {s : Machine β} (hs : Ready s.cpu) : Ready s.service.2.cpu := by
  intro hp
  rw [ime_service] at hp
  rw [service_eq]
  cases hd : s.dispatched? with
  | some i =>
    rw [hd] at hp
    cases hp
  | none =>
    rw [hd] at hp
    have hawake : s.cpu.halted = false ∧ s.cpu.stopped = false := by
      simpa [Cpu.idle] using hs hp
    have hr : s.rouses = false := by
      unfold rouses
      rw [hawake.1]
      rfl
    have hq : s.roused = s := by
      unfold roused
      rw [hr]
      rfl
    simp only [Option.elim_none, hq]
    exact hs hp

theorem ready_round {s : Machine β} (hs : Ready s.cpu) : Ready s.round.cpu := by
  cases hf : s.fetch with
  | error fault =>
    rw [(round_of_fault hf).1]
    exact hs
  | ok fetched =>
    rw [(round_of_fetch hf).1]
    exact ready_service (ready_proceed hs hf)

theorem Running.ready (h : Running turn) (k : Nat) : Ready (turn k).cpu := by
  induction k with
  | zero =>
    intro hp
    rcases h.start with hs | hs
    · rw [hs]
      rfl
    · rw [hs]
      rfl
  | succ k ih =>
    have hr := ready_round ih
    rcases h.next k with hk | hk
    · rw [hk]
      exact hr
    · rw [hk]
      intro _
      rfl

/-- Where an enable is scheduled and no instruction comes, no interrupt comes either. -/
theorem Running.scheduled_still (h : Running turn) {k : Nat}
    (hp : (turn k).cpu.ime.scheduled = true) (hn : ∀ i, (turn k).fetch ≠ .ok (some i)) :
    (turn (k + 1)).cpu.ime = (turn k).cpu.ime ∧ (turn k).interrupted? = none := by
  rw [h.ime_succ]
  cases hf : (turn k).fetch with
  | error fault =>
    obtain ⟨hr, hi⟩ := round_of_fault hf
    rw [hr, hi]
    exact ⟨rfl, rfl⟩
  | ok fetched =>
    cases fetched with
    | some i => exact absurd hf (hn i)
    | none =>
      have hidle := idle_of_fetch_none hf
      rw [h.ready k hp] at hidle
      cases hidle

/-- A scheduled enable waits for the next instruction. -/
theorem Running.ime_of_still (h : Running turn) {k j : Nat} (hkj : k < j)
    (hp : (turn (k + 1)).cpu.ime.scheduled = true) (hs : Still turn k j) :
    (turn j).cpu.ime = (turn (k + 1)).cpu.ime := by
  induction j with
  | zero => exact absurd hkj (Nat.not_lt_zero k)
  | succ j ih =>
    rcases Nat.lt_succ_iff_lt_or_eq.1 hkj with hlt | rfl
    · have hj : (turn j).cpu.ime = (turn (k + 1)).cpu.ime := by
        apply ih hlt
        intro m hkm hmj
        exact hs m hkm (Nat.lt_succ_of_lt hmj)
      have hn := hs j hlt (Nat.lt_succ_self j)
      rw [← hj] at hp ⊢
      exact (h.scheduled_still hp hn).1
    · rfl

/-- What a round makes of the switch. -/
theorem Running.ime_of_executed (h : Running turn) {k : Nat} {i : Instruction}
    (hf : (turn k).fetch = .ok (some i)) :
    (turn (k + 1)).cpu.ime =
      if (turn k).interrupted?.isSome then .off else (turn k).cpu.ime.after i := by
  obtain ⟨hr, hi⟩ := round_of_fetch hf
  rw [h.ime_succ, hr, hi, ime_service, ime_proceed]

/-- An idle period leaves the switch to the check, and a fault leaves it to nobody. -/
theorem Running.ime_of_not_executed (h : Running turn) {k : Nat}
    (hn : ∀ i, (turn k).fetch ≠ .ok (some i)) :
    (turn (k + 1)).cpu.ime =
      if (turn k).interrupted?.isSome then .off else (turn k).cpu.ime := by
  rw [h.ime_succ]
  cases hf : (turn k).fetch with
  | error fault =>
    obtain ⟨hr, hi⟩ := round_of_fault hf
    rw [hr, hi]
    rfl
  | ok fetched =>
    cases fetched with
    | some i => exact absurd hf (hn i)
    | none =>
      obtain ⟨hr, hi⟩ := round_of_fetch hf
      rw [hr, hi, ime_service]
      rfl

/-- An interrupt comes only in a round that ends with the switch on. -/
theorem interrupted?_eq_none {s : Machine β}
    (h : ∀ fetched, s.fetch = .ok fetched → (s.proceed fetched).2.cpu.ime.enabled = false) :
    s.interrupted? = none := by
  cases hf : s.fetch with
  | error fault => exact (round_of_fault hf).2
  | ok fetched =>
    have hd : (s.proceed fetched).2.dispatched? = none := by
      unfold dispatched?
      rw [h fetched hf]
      rfl
    exact (round_of_fetch hf).2.trans hd

/-- After round `k` and before round `j` nothing has turned the switch on: it was not returned from
an interrupt, and no instruction has followed one that schedules an enable. -/
structure Barred (turn : Nat → Machine β) (k j : Nat) : Prop where
  return_free : ∀ l, k < l → l < j → (turn l).fetch ≠ .ok (some .reti)
  enable_last : ∀ l, k < l → l < j → (turn l).fetch = .ok (some .enableInterrupts) → Still turn l j

theorem Barred.of_succ {k j : Nat} (h : Barred turn k (j + 1)) : Barred turn k j := by
  constructor
  · intro l hkl hlj
    exact h.return_free l hkl (Nat.lt_succ_of_lt hlj)
  · intro l hkl hlj hl m hlm hmj
    exact h.enable_last l hkl (Nat.lt_succ_of_lt hlj) hl m hlm (Nat.lt_succ_of_lt hmj)

/-- Before round `j` the switch is off, and an enable is scheduled only by an instruction that came
after round `k`. -/
def Disarmed (turn : Nat → Machine β) (k j : Nat) : Prop :=
  (turn j).cpu.ime = .off ∨ (turn j).cpu.ime = ⟨false, true⟩ ∧
    ∃ l, k < l ∧ l < j ∧ (turn l).fetch = .ok (some .enableInterrupts)

theorem Running.disarmed_succ (h : Running turn) {k j : Nat} (hkj : k < j)
    (hb : Barred turn k (j + 1)) (hd : Disarmed turn k j) :
    (turn j).interrupted? = none ∧ Disarmed turn k (j + 1) := by
  by_cases hx : ∃ i, (turn j).fetch = .ok (some i)
  · obtain ⟨i, hf⟩ := hx
    have hoff : (turn j).cpu.ime = .off := by
      rcases hd with hoff | ⟨-, l, hkl, hlj, hl⟩
      · exact hoff
      · have hs := hb.enable_last l hkl (Nat.lt_succ_of_lt hlj) hl
        exact absurd hf (hs j hlj (Nat.lt_succ_self j) i)
    have hr : i ≠ .reti := by
      rintro rfl
      exact hb.return_free j hkj (Nat.lt_succ_self j) hf
    have hend : ((turn j).proceed (some i)).2.cpu.ime.enabled = false := by
      rw [ime_proceed, hoff]
      by_cases he : i = .enableInterrupts
      · rw [he]
        rfl
      · rw [MasterEnable.after_off hr he]
        rfl
    have hn : (turn j).interrupted? = none := by
      apply interrupted?_eq_none
      intro fetched hf'
      rw [hf] at hf'
      cases hf'
      exact hend
    have hime := h.ime_of_executed hf
    rw [hn, hoff] at hime
    refine ⟨hn, ?_⟩
    by_cases he : i = .enableInterrupts
    · subst he
      exact .inr ⟨hime, j, hkj, Nat.lt_succ_self j, hf⟩
    · left
      rw [hime]
      exact MasterEnable.after_off hr he
  · have hnone : ∀ i, (turn j).fetch ≠ .ok (some i) := fun i hf => hx ⟨i, hf⟩
    have hn : (turn j).interrupted? = none := by
      apply interrupted?_eq_none
      intro fetched hf
      cases fetched with
      | some i => exact absurd hf (hnone i)
      | none =>
        have hsame : ((turn j).proceed none).2.cpu.ime = (turn j).cpu.ime := rfl
        rw [hsame]
        rcases hd with hoff | ⟨hoff, -⟩
        · rw [hoff]
          rfl
        · rw [hoff]
    have hime := h.ime_of_not_executed hnone
    rw [hn] at hime
    refine ⟨hn, ?_⟩
    rcases hd with hoff | ⟨hoff, l, hkl, hlj, hl⟩
    · exact .inl (hime.trans hoff)
    · exact .inr ⟨hime.trans hoff, l, hkl, Nat.lt_succ_of_lt hlj, hl⟩

/-- A dispatch turns the switch off, and it stays off as long as nothing turns it on again. -/
theorem Running.disarmed (h : Running turn) {k j : Nat} (hk : (turn k).interrupted? ≠ none)
    (hkj : k < j) (hb : Barred turn k j) : Disarmed turn k j := by
  induction j with
  | zero => exact absurd hkj (Nat.not_lt_zero k)
  | succ j ih =>
    rcases Nat.lt_succ_iff_lt_or_eq.1 hkj with hlt | rfl
    · exact (h.disarmed_succ hlt hb (ih hlt hb.of_succ)).2
    · have hs : (turn k).interrupted?.isSome = true := Option.isSome_iff_ne_none.2 hk
      left
      by_cases hx : ∃ i, (turn k).fetch = .ok (some i)
      · obtain ⟨i, hf⟩ := hx
        rw [h.ime_of_executed hf, if_pos hs]
      · rw [h.ime_of_not_executed fun i hf => hx ⟨i, hf⟩, if_pos hs]

theorem Running.turned_on (h : Running turn) {k m : Nat} (hkm : k < m)
    (hk : (turn k).interrupted? ≠ none) (hm : (turn m).interrupted? ≠ none) :
    ∃ l, k < l ∧ l ≤ m ∧ ((turn l).fetch = .ok (some .reti) ∨
      (turn l).fetch = .ok (some .enableInterrupts) ∧
        ∃ n i, l < n ∧ n ≤ m ∧ (turn n).fetch = .ok (some i)) := by
  refine Classical.byContradiction fun hnone => ?_
  have hb : Barred turn k (m + 1) := by
    constructor
    · intro l hkl hlm hl
      exact hnone ⟨l, hkl, Nat.le_of_lt_succ hlm, .inl hl⟩
    · intro l hkl hlm hl n hln hnm i hf
      exact hnone ⟨l, hkl, Nat.le_of_lt_succ hlm, .inr ⟨hl, n, i, hln, Nat.le_of_lt_succ hnm, hf⟩⟩
  have hd := h.disarmed hk hkm hb.of_succ
  exact hm (h.disarmed_succ hkm hb hd).1

/-- An enable is scheduled where none was before. It is lost to an interrupt, which can only come
where interrupts were enabled before, or it waits for the next instruction. -/
theorem Running.enable_waits (h : Running turn) {k : Nat}
    (hf : (turn k).fetch = .ok (some .enableInterrupts))
    (hp : (turn k).cpu.ime.scheduled = false) :
    ((turn k).interrupted? ≠ none →
      (turn k).cpu.ime.enabled = true ∧ (turn (k + 1)).cpu.ime = .off) ∧
    ((turn k).interrupted? = none → ∀ j, k < j → Still turn k j →
      (turn j).cpu.ime = ⟨(turn k).cpu.ime.enabled, true⟩) := by
  have ha : (turn k).cpu.ime.after .enableInterrupts = ⟨(turn k).cpu.ime.enabled, true⟩ := by
    unfold MasterEnable.after
    rw [hp]
    rfl
  have hime := h.ime_of_executed hf
  rw [ha] at hime
  constructor
  · intro hi
    refine ⟨?_, ?_⟩
    · rw [← Bool.not_eq_false]
      intro hoff
      apply hi
      apply interrupted?_eq_none
      intro fetched hf'
      rw [hf] at hf'
      cases hf'
      rw [ime_proceed, ha]
      exact hoff
    · rw [hime, if_pos (Option.isSome_iff_ne_none.2 hi)]
  · intro hi j hkj hs
    rw [hi] at hime
    have hwaits : (turn (k + 1)).cpu.ime.scheduled = true := by
      rw [hime]
      rfl
    exact (h.ime_of_still hkj hwaits hs).trans hime

/-- Off and with nothing scheduled, the switch lets no interrupt through before the end of the
instruction that follows an enable. -/
theorem Running.not_interrupted (h : Running turn) {k m : Nat}
    (hf : (turn k).fetch = .ok (some .enableInterrupts)) (hoff : (turn k).cpu.ime = .off)
    (hkm : k ≤ m) (hs : Still turn k (m + 1)) : (turn m).interrupted? = none := by
  have hp : (turn k).cpu.ime.scheduled = false := by
    rw [hoff]
    rfl
  obtain ⟨hlost, hwaits⟩ := h.enable_waits hf hp
  have hk : (turn k).interrupted? = none := by
    refine Classical.byContradiction fun hi => ?_
    have he := (hlost hi).1
    rw [hoff] at he
    cases he
  rcases Nat.eq_or_lt_of_le hkm with rfl | hlt
  · exact hk
  · have hm : Still turn k m := by
      intro l hkl hlm
      exact hs l hkl (Nat.lt_succ_of_lt hlm)
    have hime := hwaits hk m hlt hm
    apply (h.scheduled_still _ (hs m hlt (Nat.lt_succ_self m))).2
    rw [hime]

end Run

section Delay

/-- The interrupt switch after an instruction is told by the instruction and the switch before it;
a check clears it if it dispatches and leaves it otherwise, and an idle period leaves it. In a run
from power-on a scheduled enable takes effect at the end of the next instruction, unless that
disables interrupts or one came first; it is never scheduled in HALT. Where the switch was off and
nothing scheduled, no interrupt comes between an enable and the end of the next instruction. After
an interrupt the next one comes only after an enable with an instruction behind it, or a return
that enables. -/
theorem enabling_is_delayed {β : Type} [Bus β] :
    (∀ (s : Machine β) (i : Instruction), s.fetch = .ok (some i) →
      ∃ n t, s.step = .ok (n, t) ∧ t.cpu.ime = s.cpu.ime.after i) ∧
    (∀ s : Machine β, s.cpu.idle = true → ∃ n t, s.step = .ok (n, t) ∧ t.cpu.ime = s.cpu.ime) ∧
    (∀ s : Machine β, (s.dispatched?.isSome = true ↔ dispatchCycles ≤ s.service.1) ∧
      s.service.2.cpu.ime = if s.dispatched?.isSome then ⟨false, false⟩ else s.cpu.ime) ∧
    ∀ turn : Nat → Machine β, Running turn →
      (∀ k, (turn k).fetch = .ok (some .enableInterrupts) →
        (turn k).cpu.ime.scheduled = false →
        ((turn k).interrupted? ≠ none →
          (turn k).cpu.ime.enabled = true ∧ (turn (k + 1)).cpu.ime = ⟨false, false⟩) ∧
        ((turn k).interrupted? = none → ∀ j, k < j → Still turn k j →
          (turn j).cpu.ime = ⟨(turn k).cpu.ime.enabled, true⟩ ∧ (turn j).cpu.idle = false ∧
            ∀ i n t, (turn j).fetch = .ok (some i) → (turn j).step = .ok (n, t) →
              t.cpu.ime = if i = .disableInterrupts then ⟨false, false⟩ else ⟨true, false⟩)) ∧
      (∀ k, (turn k).fetch = .ok (some .enableInterrupts) → (turn k).cpu.ime = ⟨false, false⟩ →
        ∀ m, k ≤ m → Still turn k (m + 1) → (turn m).interrupted? = none) ∧
      (∀ k, ((turn k).cpu.ime.scheduled = true → (turn k).cpu.halted = false) ∧
        ∀ n t, (turn k).step = .ok (n, t) → t.cpu.ime.scheduled = true → t.cpu.halted = false) ∧
      ∀ k m, k < m → (turn k).interrupted? ≠ none → (turn m).interrupted? ≠ none →
        ∃ l, k < l ∧ l ≤ m ∧ ((turn l).fetch = .ok (some .reti) ∨
          (turn l).fetch = .ok (some .enableInterrupts) ∧
            ∃ n i, l < n ∧ n ≤ m ∧ (turn n).fetch = .ok (some i)) := by
  refine ⟨?_, ?_, fun s => ⟨isSome_dispatched?_iff s, ime_service s⟩, ?_⟩
  · intro s i hf
    exact ⟨_, _, step_of_fetch hf, ime_proceed s i⟩
  · intro s hidle
    exact ⟨_, _, step_of_fetch (fetch_of_idle hidle), rfl⟩
  · intro turn h
    have awake {c : Cpu} (hc : Ready c) (hp : c.ime.scheduled = true) : c.halted = false := by
      have hidle := hc hp
      simp only [Cpu.idle, Bool.or_eq_false_iff] at hidle
      exact hidle.1
    refine ⟨?_, fun k hf hoff m => h.not_interrupted hf hoff, ?_, fun k m => h.turned_on⟩
    · intro k hf hp
      obtain ⟨hlost, hwaits⟩ := h.enable_waits hf hp
      refine ⟨hlost, ?_⟩
      intro hi j hkj hs
      have hime := hwaits hi j hkj hs
      have hj : (turn j).cpu.ime.scheduled = true := by rw [hime]
      refine ⟨hime, h.ready j hj, ?_⟩
      intro i n t hfi hst
      rw [step_of_fetch hfi] at hst
      have ht : ((turn j).proceed (some i)).2 = t := congrArg Prod.snd (Except.ok.inj hst)
      rw [← ht, ime_proceed]
      exact MasterEnable.after_of_scheduled hj
    · intro k
      refine ⟨awake (h.ready k), ?_⟩
      intro n t hst
      cases hf : (turn k).fetch with
      | error fault =>
        unfold step at hst
        rw [hf] at hst
        cases hst
      | ok fetched =>
        rw [step_of_fetch hf] at hst
        have ht : ((turn k).proceed fetched).2 = t := congrArg Prod.snd (Except.ok.inj hst)
        rw [← ht]
        exact awake (ready_proceed (h.ready k) hf)

end Delay

section Twice

def rounds {β : Type} [Bus β] (s : Machine β) (between : Nat → β → β) : Nat → Machine β
  | 0 => s
  | k + 1 => (rounds s between k).round.mapBus (between k)

theorem running_rounds {β : Type} [Bus β] {s : Machine β} (between : Nat → β → β)
    (h : s.cpu = .powerOn ∨ s.cpu = .postBoot) : Running (s.rounds between) :=
  ⟨h, fun _ => .inl rfl⟩

/-- A program that enables the first source and then interrupts, by two instructions in a row; the
vector of the source returns at once. -/
def enablesTwice : Bytes :=
  Bytes.zeros 0x40 ++ #[0xd9] ++ Bytes.zeros 0xbf ++ #[0xe0, 0xff, 0xfb, 0xfb]

theorem at?_enablesTwice :
    let decoded := Instruction.at? fun address => enablesTwice.readOpen address.toNat
    decoded 0x40 = some .reti ∧ decoded 0x100 = some (.storeAHigh 0xff) ∧
      decoded 0x102 = some .enableInterrupts ∧ decoded 0x103 = some .enableInterrupts := by
  have hbytes : enablesTwice.readOpen 0x40 = 0xd9 ∧ enablesTwice.readOpen 0x100 = 0xe0 ∧
      enablesTwice.readOpen 0x101 = 0xff ∧ enablesTwice.readOpen 0x102 = 0xfb ∧
      enablesTwice.readOpen 0x103 = 0xfb := by
    simp [enablesTwice, Bytes.readOpen, Bytes.zeros, Array.getElem_push]
  obtain ⟨hreturn, hstore, hoperand, hfirst, hsecond⟩ := hbytes
  refine ⟨?_, ?_, ?_, ?_⟩
  · change Instruction.ofBytes? (enablesTwice.readOpen 0x40) _ _ = _
    rw [hreturn]
    rfl
  · change Instruction.ofBytes? (enablesTwice.readOpen 0x100) (enablesTwice.readOpen 0x101) _ = _
    rw [hstore, hoperand]
    rfl
  · change Instruction.ofBytes? (enablesTwice.readOpen 0x102) _ _ = _
    rw [hfirst]
    rfl
  · change Instruction.ofBytes? (enablesTwice.readOpen 0x103) _ _ = _
    rw [hsecond]
    rfl

def entering : Machine Board := ⟨.postBoot, Board.start #[] (.rom enablesTwice) true⟩

def listening : Machine Board where
  cpu := { Cpu.postBoot with registers.pc := 0x102, instructionStart := 0x100, cycles := 12 }
  bus := entering.bus.write Cell.enables 0x01

theorem fetch_of_plays {s : Machine Board} {image : Bytes} {i : Instruction}
    (h : s.bus.Plays image) (hidle : s.cpu.idle = false) (hpc : s.registers.pc < 0x7ffe)
    (hi : Instruction.at? (fun address => image.readOpen address.toNat) s.registers.pc = some i) :
    s.fetch = .ok (some i) := by
  have hat : Instruction.at? (Bus.peek s.bus) s.registers.pc = some i := (h.at? hpc).trans hi
  unfold fetch decode
  rw [hidle, hat]
  rfl

/-- As long as interrupts are off and the processor is awake, a round is its instruction. -/
theorem round_of_off {β : Type} [Bus β] {s : Machine β} {i : Instruction}
    (hf : s.fetch = .ok (some i)) (hh : (s.proceed (some i)).2.cpu.halted = false)
    (he : (s.proceed (some i)).2.cpu.ime.enabled = false) : s.round = (s.proceed (some i)).2 := by
  rw [(round_of_fetch hf).1, service_eq]
  simp [dispatched?, rouses, roused, hh, he]

theorem enables_listening : listening.bus.peek Cell.enables = 0x01 := Memory.get_set_self _ _ _

theorem pending_listening : pending listening.bus = 0x01 := by
  have hrequests : listening.bus.peek Cell.requests = 0xe1 := by
    have hw : (entering.bus.write Cell.enables 0x01).memory.get Cell.requests =
        entering.bus.memory.get Cell.requests :=
      Board.get_write_of_ne rfl Cell.enables 0x01 (by decide) (by decide) (by decide)
    rw [peek_requests, listening, hw]
    simp [entering, Board.start, Board.skipBoot, Board.postBootCells, Memory.get_set,
      Cell.requests, Cell.display, Cell.backgroundPalette, Cell.objectPalette0,
      Cell.objectPalette1, Cell.boot]
  have hp : pending listening.bus = Interrupt.sources
    (listening.bus.peek Cell.enables &&& listening.bus.peek Cell.requests) := rfl
  rw [hp, enables_listening, hrequests]
  rfl

theorem plays_entering : entering.bus.Plays enablesTwice := ⟨rfl, rfl, rfl⟩

theorem plays_listening : listening.bus.Plays enablesTwice := plays_entering.write Cell.enables 0x01

theorem fetch_entering : entering.fetch = .ok (some (.storeAHigh 0xff)) :=
  fetch_of_plays plays_entering rfl (by decide) at?_enablesTwice.2.1

theorem fetch_listening : listening.fetch = .ok (some .enableInterrupts) :=
  fetch_of_plays plays_listening rfl (by decide) at?_enablesTwice.2.2.1

variable {between : Nat → Board → Board}

theorem rounds_one (h : between 0 = id) : entering.rounds between 1 = listening := by
  have hr : entering.round = listening := round_of_off fetch_entering rfl rfl
  rw [rounds, rounds, hr, h]
  rfl

theorem rounds_two (h : between 0 = id) (h' : between 1 = id) :
    entering.rounds between 2 = (listening.proceed (some .enableInterrupts)).2 := by
  have hr : listening.round = (listening.proceed (some .enableInterrupts)).2 :=
    round_of_off fetch_listening rfl rfl
  rw [rounds, rounds_one h, hr, h']
  rfl

/-- Between the two instructions the first of them has scheduled an enable, and after the second
the interrupt comes. -/
theorem second_enable :
    let s := (listening.proceed (some .enableInterrupts)).2
    s.fetch = .ok (some .enableInterrupts) ∧ s.interrupted? = some .vblank := by
  intro s
  have hf : s.fetch = .ok (some .enableInterrupts) :=
    fetch_of_plays plays_listening rfl (by decide) at?_enablesTwice.2.2.2
  have hd : (s.proceed (some .enableInterrupts)).2.dispatched? =
    Interrupt.first? (pending listening.bus) := rfl
  refine ⟨hf, ?_⟩
  rw [(round_of_fetch hf).2, hd, pending_listening]
  rfl

theorem dispatched?_reti {β : Type} [Bus β] {s : Machine β} (hs : s.cpu.stopped = false) :
    (s.proceed (some .reti)).2.dispatched? =
      Interrupt.first? (pending (s.proceed (some .reti)).2.bus) := by
  have hstopped : (s.proceed (some .reti)).2.cpu.stopped = false := hs
  unfold dispatched?
  rw [ime_proceed, hstopped]
  rfl

/-- A source requested again at its vector is dispatched as soon as the program returns. -/
theorem return_lets_interrupt_in {s : Machine Board} (hplays : s.bus.Plays enablesTwice)
    (hidle : s.cpu.idle = false) (hpc : s.registers.pc = 0x40)
    (henables : s.bus.peek Cell.enables = 0x01) :
    (s.mapBus (·.request 0x01)).interrupted? ≠ none := by
  let again := s.mapBus (·.request 0x01)
  have hagain : again.bus.Plays enablesTwice :=
    ⟨hplays.hooks, hplays.controller, hplays.bootMapped⟩
  have hentry : again.registers.pc = 0x40 := hpc
  have hf : again.fetch = .ok (some .reti) := by
    apply fetch_of_plays hagain hidle
    · rw [hentry]
      decide
    · rw [hentry]
      exact at?_enablesTwice.1
  have hstopped : again.cpu.stopped = false := (Bool.or_eq_false_iff.1 hidle).2
  have hrequests : again.bus.peek Cell.requests = s.bus.peek Cell.requests ||| 0x01 :=
    Memory.get_set_self _ _ _
  have hlistens : again.bus.peek Cell.enables = 0x01 :=
    (Memory.get_set_ne _ _ (by decide)).trans henables
  have hp : pending (again.proceed (some .reti)).2.bus = Interrupt.sources
      (again.bus.peek Cell.enables &&& again.bus.peek Cell.requests) := rfl
  have hfirst (x : UInt8) : Interrupt.first? (Interrupt.sources (0x01 &&& (x ||| 0x01))) ≠ none :=
    Grid.forall_byte
      (P := fun x => Interrupt.first? (Interrupt.sources (0x01 &&& (x ||| 0x01))) ≠ none)
      (by decide +kernel) x
  rw [(round_of_fetch hf).2, dispatched?_reti hstopped, hp, hlistens, hrequests]
  exact hfirst _

/-- What the vector finds: the same program, and the source still enabled. -/
theorem at_vector {s : Machine Board} (hplays : s.bus.Plays enablesTwice)
    (hd : s.dispatched? = some .vblank) (hsp : s.registers.sp = 0xfffe)
    (henables : s.bus.peek Cell.enables = 0x01) :
    s.service.2.bus.Plays enablesTwice ∧ s.service.2.cpu.idle = false ∧
      s.service.2.registers.pc = 0x40 ∧ s.service.2.bus.peek Cell.enables = 0x01 := by
  obtain ⟨hcpu, -⟩ := service_of_some hd
  refine ⟨kept_service Board.busInvariant_plays hplays fun h v => h.poke Cell.requests v, ?_, ?_,
    ?_⟩
  · rw [hcpu]
    exact (first?_of_dispatched? hd).1
  · unfold registers
    rw [hcpu]
    rfl
  · rw [enables_service_of_some hplays.hooks hd (by rw [hsp]; decide) (by rw [hsp]; decide)]
    exact henables

/-- Requested again after the interrupt, the source is dispatched again one round later. -/
theorem interrupted_again :
    let s := (listening.proceed (some .enableInterrupts)).2
    (s.round.mapBus (·.request 0x01)).interrupted? ≠ none := by
  intro s
  obtain ⟨hf, hi⟩ := second_enable
  obtain ⟨hr, hd⟩ := round_of_fetch hf
  have hbus : (s.proceed (some .enableInterrupts)).2.bus = listening.bus := rfl
  have hsp : (s.proceed (some .enableInterrupts)).2.registers.sp = 0xfffe := rfl
  rw [hd] at hi
  rw [hr]
  generalize (s.proceed (some .enableInterrupts)).2 = t at hi hbus hsp
  obtain ⟨hplays', hidle, hpc, henables⟩ :=
    at_vector (hbus ▸ plays_listening) hi hsp (hbus ▸ enables_listening)
  exact return_lets_interrupt_in hplays' hidle hpc henables

/-- Two enables in a row, their source being enabled and requested: the second one is executed with
interrupts off, and the interrupt comes right after it. -/
theorem second_enable_lets_interrupt_in :
    let turn := entering.rounds fun _ => id
    Running turn ∧ (turn 2).fetch = .ok (some .enableInterrupts) ∧
      (turn 2).cpu.ime.enabled = false ∧ (turn 2).interrupted? = some .vblank := by
  intro turn
  have htwo : turn 2 = (listening.proceed (some .enableInterrupts)).2 := rounds_two rfl rfl
  obtain ⟨hf, hi⟩ := second_enable
  rw [htwo]
  exact ⟨running_rounds _ (.inr rfl), hf, rfl, hi⟩

/-- The same two enables, and the source is requested again while its vector is entered. The first
enable waits for the second one, and the second interrupt for the return. -/
theorem enabling_is_delayed_twice :
    let turn := entering.rounds fun k => if k = 2 then (·.request 0x01) else id
    (turn 1).fetch = .ok (some .enableInterrupts) ∧ (turn 1).cpu.ime = ⟨false, false⟩ ∧
      (turn 1).interrupted? = none ∧ (turn 2).cpu.ime = ⟨false, true⟩ ∧
      (turn 2).cpu.halted = false ∧
      (∃ n t, (turn 2).step = .ok (n, t) ∧ t.cpu.ime = ⟨true, false⟩) ∧
      (turn 2).interrupted? ≠ none ∧ (turn 3).interrupted? ≠ none ∧
      ∃ l, 2 < l ∧ l ≤ 3 ∧ ((turn l).fetch = .ok (some .reti) ∨
        (turn l).fetch = .ok (some .enableInterrupts) ∧
          ∃ n i, l < n ∧ n ≤ 3 ∧ (turn n).fetch = .ok (some i)) := by
  intro turn
  let s := (listening.proceed (some .enableInterrupts)).2
  have hone : turn 1 = listening := rounds_one rfl
  have htwo : turn 2 = s := rounds_two rfl rfl
  obtain ⟨hf, hi⟩ := second_enable
  obtain ⟨executed, idle, checked, running⟩ := enabling_is_delayed (β := Board)
  obtain ⟨waits, held, awake, turned⟩ := running turn (running_rounds _ (.inr rfl))
  have hfirst : (turn 1).fetch = .ok (some .enableInterrupts) := hone ▸ fetch_listening
  have hoff : (turn 1).cpu.ime = ⟨false, false⟩ := hone ▸ rfl
  have hquiet : (turn 1).interrupted? = none := by
    apply held 1 hfirst hoff 1 (Nat.le_refl 1)
    intro m hm hm'
    omega
  have hsched : (turn 1).cpu.ime.scheduled = false := by rw [hoff]
  obtain ⟨hime, -, hnext⟩ := (waits 1 hfirst hsched).2 hquiet 2 (by decide) fun m hm hm' => by omega
  have hwaiting : (turn 2).cpu.ime = ⟨false, true⟩ := by rw [hime, hoff]
  have hsecond : (turn 2).fetch = .ok (some .enableInterrupts) := htwo ▸ hf
  obtain ⟨n, t, hstep, -⟩ := executed (turn 2) .enableInterrupts hsecond
  have hinterrupted : (turn 2).interrupted? ≠ none := by
    rw [htwo, hi]
    exact Option.some_ne_none _
  have hlater : (turn 3).interrupted? ≠ none := by
    have hthree : turn 3 = (turn 2).round.mapBus (·.request 0x01) := rfl
    rw [hthree, htwo]
    exact interrupted_again
  refine ⟨hfirst, hoff, hquiet, hwaiting, (awake 2).1 (by rw [hwaiting]), ⟨n, t, hstep, ?_⟩,
    hinterrupted, hlater, turned 2 3 (by decide) hinterrupted hlater⟩
  exact hnext _ n t hsecond hstep

end Twice

end Machine
end DotMatrix
