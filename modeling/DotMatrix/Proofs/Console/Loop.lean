import DotMatrix.Console.Program
import DotMatrix.Console.Transcript
import DotMatrix.Proofs.Board.Watching
import DotMatrix.Proofs.Device.Pace

/-! # The loop of the command line

A session with a limit is taken up again after every pause. Each turn leaves room for fewer pauses,
so it ends, and with it the program, at the limit or at a fault.
-/
namespace DotMatrix

namespace Narrated

theorem board_tellAll (b : Narrated) (l : List Notice) : (b.tellAll l).board = b.board := by
  induction l generalizing b with
  | nil => rfl
  | cons n l ih =>
    have htell : (b.tell n).board = b.board := by
      unfold tell
      split <;> rfl
    exact (ih (b.tell n)).trans htell

theorem board_tickTimer (b : Narrated) (n : Nat) : (b.tickTimer n).board = b.board.tickTimer n :=
  board_tellAll _ _

theorem board_tick (b : Narrated) (n : Nat) : (b.tick n).board = b.board.tick n := by
  unfold tick tell
  dsimp only
  split
  · split <;> rfl
  · rfl

end Narrated

namespace Session

def flushed (s : Session) : Session :=
  { s with device := s.device.mapBus fun bus => bus.takeNotices.2 }

/-- The last of so many turns and one, or the one that the session is over with. -/
def after (fuel : Nat) : Nat → Session → Turn × Session
  | 0, s => s.turn fuel
  | turns + 1, s => match s.turn fuel with
    | (.continues, t) => after fuel turns t.flushed
    | done => done

/-- Nothing that is attached to the device of a session reaches its board. -/
theorem board_passTime (d : ConsoleDevice) (n : Nat) :
    (d.passTime n).board = (d.board.tickTimer n).tick n := by
  have hticked : (d.passTime n).board = ((d.machine.bus.tickTimer n).tick n).board := by
    obtain ⟨machine, header, keypad, screen, peripherals, breakpoints, asked, resumeAt, countdown,
      cycles⟩ := d
    cases peripherals with
    | cons p => exact nomatch p
    | nil =>
      unfold Device.passTime Device.countInput
      dsimp only
      split <;> rfl
  rw [hticked, Narrated.board_tick, Narrated.board_tickTimer]
  rfl

theorem watch_passTime (d : ConsoleDevice) (n : Nat) :
    (d.passTime n).board.watch = d.board.watch := by
  rw [board_passTime, Board.watch_tick]
  rfl

section Turn
variable {s : Session} {limit : Nat} (fuel : Nat)

/-- A report goes to the bus alone. -/
theorem reportPause_eq (d : ConsoleDevice) (event : BreakEvent) :
    reportPause d event = d.mapBus fun _ => (reportPause d event).machine.bus := by
  unfold reportPause reportInstruction
  dsimp only
  split
  · rfl
  · rfl

inductive TurnEnd (limit : Nat) (s : Session) : Turn → Session → Prop where
  | continues {t : Session} (limited : t.limit = some limit)
      (unasked : t.device.exitRequested = false)
      (fewer : t.device.pausesLeft limit < s.device.pausesLeft limit)
      (overshoot : t.device.cycles < limit + 44) : TurnEnd limit s .continues t
  | ends {t : Session} (reached : limit ≤ t.device.cycles)
      (overshoot : s.device.cycles < limit + 44 → t.device.cycles < limit + 44) :
      TurnEnd limit s .ends t
  | fails {t : Session} {fault : Fault} : TurnEnd limit s (.fails fault) t

theorem advance_of_limit (hl : s.limit = some limit) :
    s.advance fuel = (some (s.device.runFor (limit - s.device.cycles)).1,
      (s.device.runFor (limit - s.device.cycles)).2) := by
  unfold advance
  rw [hl]

theorem turn_of_elapsed (hl : s.limit = some limit)
    (hrun : (s.device.runFor (limit - s.device.cycles)).1 = .ok .cyclesElapsed) :
    (s.turn fuel).1 = .ends := by
  unfold turn
  rw [advance_of_limit fuel hl, hrun]

theorem turn_ends (hl : s.limit = some limit) (hx : s.device.exitRequested = false) :
    TurnEnd limit s (s.turn fuel).1 (s.turn fuel).2 := by
  obtain ⟨-, hend⟩ := Device.resume_eq_runFor s.device (limit - s.device.cycles)
    (Nat.lt_succ_self _)
  unfold turn
  rw [advance_of_limit fuel hl]
  generalize s.device.runFor (limit - s.device.cycles) = r at hend ⊢
  obtain ⟨exit, e⟩ := r
  cases hend with
  | requested asked =>
    have hasked : s.device.exitRequested = true := asked
    rw [hx] at hasked
    cases hasked
  | stands reached still =>
    have hstill : e.cycles = s.device.cycles := still
    have hreached : limit ≤ e.cycles := by
      have hc : s.device.announce.cycles = s.device.cycles := rfl
      omega
    exact .ends hreached fun h => hstill ▸ h
  | elapsed before reached overshoot =>
    have hc : s.device.announce.cycles = s.device.cycles := rfl
    dsimp only at reached overshoot
    have hle : limit ≤ e.cycles ∧ e.cycles < limit + 44 := by omega
    exact .ends hle.1 fun _ => hle.2
  | paused before fewer overshoot kept =>
    have hc : s.device.announce.cycles = s.device.cycles := rfl
    have hlimit : s.device.cycles + (limit - s.device.cycles) = limit := by omega
    rw [hlimit] at fewer overshoot
    dsimp only
    rw [reportPause_eq]
    exact .continues hl (kept.trans hx) fewer overshoot
  | failed before => exact .fails

theorem after_of_continues {fuel : Nat} (h : (s.turn fuel).1 = .continues) (turns : Nat) :
    s.after fuel (turns + 1) = (s.turn fuel).2.flushed.after fuel turns := by
  rw [after]
  generalize s.turn fuel = r at h ⊢
  obtain ⟨turn, t⟩ := r
  obtain rfl : turn = .continues := h
  rfl

theorem after_of_over {fuel : Nat} (h : (s.turn fuel).1 ≠ .continues) (turns : Nat) :
    s.after fuel turns = s.turn fuel := by
  cases turns with
  | zero => rfl
  | succ turns =>
    rw [after]
    generalize s.turn fuel = r at h ⊢
    obtain ⟨turn, t⟩ := r
    cases turn with
    | continues => exact absurd rfl h
    | ends | fails => rfl

theorem cycles_of_ends (hl : s.limit = some limit) (hx : s.device.exitRequested = false)
    (hc : s.device.cycles < limit + 44) (h : (s.turn fuel).1 = .ends) :
    limit ≤ (s.turn fuel).2.device.cycles ∧ (s.turn fuel).2.device.cycles < limit + 44 := by
  have hturn := turn_ends fuel hl hx
  rw [h] at hturn
  cases hturn with
  | ends reached overshoot => exact ⟨reached, overshoot hc⟩

/-- With more turns than pauses can fit below the limit the session is over, and less than one step
behind the limit unless it has failed. -/
theorem after_over (turns : Nat) (hl : s.limit = some limit) (hx : s.device.exitRequested = false)
    (hc : s.device.cycles < limit + 44) (h : s.device.pausesLeft limit ≤ turns) :
    (s.after fuel turns).1 ≠ .continues ∧
      ((s.after fuel turns).1 = .ends → limit ≤ (s.after fuel turns).2.device.cycles ∧
        (s.after fuel turns).2.device.cycles < limit + 44) := by
  induction turns generalizing s with
  | zero =>
    have hover : (s.turn fuel).1 ≠ .continues := by
      intro hcontinues
      have hturn := turn_ends fuel hl hx
      rw [hcontinues] at hturn
      cases hturn with
      | continues limited unasked fewer overshoot => omega
    exact ⟨hover, cycles_of_ends fuel hl hx hc⟩
  | succ turns ih =>
    by_cases hcontinues : (s.turn fuel).1 = .continues
    · have hturn := turn_ends fuel hl hx
      rw [hcontinues] at hturn
      rw [after_of_continues hcontinues]
      cases hturn with
      | continues limited unasked fewer overshoot =>
        have hfewer : (s.turn fuel).2.flushed.device.pausesLeft limit ≤ turns :=
          Nat.le_of_lt_succ (Nat.lt_of_lt_of_le fewer h)
        exact ih limited unasked overshoot hfewer
    · rw [after_of_over hcontinues]
      exact ⟨hcontinues, cycles_of_ends fuel hl hx hc⟩

end Turn
end Session

namespace Program
variable {m : Type → Type} [Monad m] [FileSystem m] [Terminal m]

def settle (turn : Turn) (s : Session) : m Stage := do
  let s ← flush s
  match turn with
  | .continues => return .running s
  | .ends => close s
  | .fails fault => fail fault

theorem advance_eq (s : Session) :
    (advance s : m Stage) = settle (s.turn stepsPerTurn).1 (s.turn stepsPerTurn).2 := rfl

/-- The program advanced so many times, or until it exits. -/
def drive : Nat → Stage → m Stage
  | 0, stage => return stage
  | _ + 1, .exited code => return .exited code
  | turns + 1, .running s => do drive turns (← advance s)

/-- The program is over after an action, whatever the files and the terminal answer. -/
def Exits (x : m Stage) : Prop := ∃ code : m UInt8, x = Stage.exited <$> code

section Exit
variable [LawfulMonad m]

omit [FileSystem m] [Terminal m] in
theorem Exits.pure (code : UInt8) : Exits (Pure.pure (.exited code) : m Stage) :=
  ⟨Pure.pure code, (map_pure _ _).symm⟩

omit [FileSystem m] [Terminal m] in
theorem Exits.bind {α : Type} {x : m α} {f : α → m Stage} (h : ∀ a, Exits (f a)) :
    Exits (x >>= f) := by
  have hf : f = fun a => Stage.exited <$> (h a).choose := funext fun a => (h a).choose_spec
  refine ⟨x >>= fun a => (h a).choose, ?_⟩
  rw [map_bind, ← hf]

omit [FileSystem m] in
theorem exits_fail (fault : Fault) : Exits (fail fault : m Stage) :=
  .bind fun _ => .pure 1

theorem exits_close (s : Session) : Exits (close s : m Stage) := by
  refine .bind fun s => .bind fun saved => ?_
  obtain ⟨_ | _, device⟩ := saved
  · exact exits_fail _
  · exact .bind fun _ => .pure 0

theorem exits_settle {turn : Turn} (h : turn ≠ .continues) (s : Session) :
    Exits (settle turn s : m Stage) := by
  refine .bind fun s => ?_
  cases turn with
  | continues => exact absurd rfl h
  | ends => exact exits_close s
  | fails fault => exact exits_fail fault

/-- A program that is over stays so. -/
theorem Exits.bind_drive {x : m Stage} (h : Exits x) (turns : Nat) : x >>= drive turns = x := by
  obtain ⟨code, rfl⟩ := h
  have hd : (fun c => drive turns (Stage.exited c) : UInt8 → m Stage) =
      fun c => Pure.pure (.exited c) := by
    funext c
    cases turns <;> rfl
  rw [bind_map_left, hd, bind_pure_comp]

/-- The program tells what its turns have told and otherwise does what the last of them calls
for. -/
theorem drive_eq (turns : Nat) (s : Session) :
    ∃ told : List Notice, (drive (turns + 1) (.running s) : m Stage) =
      (told.forM fun n => Terminal.complain n.line) >>= fun _ =>
        settle (s.after stepsPerTurn turns).1 (s.after stepsPerTurn turns).2 := by
  have quietly (x : m Stage) :
      ∃ told : List Notice, x = (told.forM fun n => Terminal.complain n.line) >>= fun _ => x :=
    ⟨[], (pure_bind _ fun _ => x).symm⟩
  induction turns generalizing s with
  | zero =>
    have hone : (drive 1 (.running s) : m Stage) = advance s := bind_pure (advance s)
    rw [hone, advance_eq]
    exact quietly _
  | succ turns ih =>
    have hmore : (drive (turns + 2) (.running s) : m Stage) =
        advance s >>= drive (turns + 1) := rfl
    rw [hmore, advance_eq, Session.after]
    generalize s.turn stepsPerTurn = r
    obtain ⟨turn, t⟩ := r
    cases turn with
    | continues =>
      obtain ⟨told, htold⟩ := ih t.flushed
      refine ⟨t.device.machine.bus.takeNotices.1 ++ told, ?_⟩
      have hsettle : (settle .continues t : m Stage) =
          (t.device.machine.bus.takeNotices.1.forM fun n => Terminal.complain n.line) >>= fun _ =>
            pure (.running t.flushed) :=
        (bind_assoc _ _ _).trans (congrArg _ (funext fun _ => pure_bind _ _))
      have happend (first : List Notice) :
          ((first ++ told).forM fun n => (Terminal.complain n.line : m Unit)) =
            (first.forM fun n => Terminal.complain n.line) >>= fun _ =>
              told.forM fun n => Terminal.complain n.line := List.forM_append
      dsimp only
      rw [hsettle, happend, bind_assoc, bind_assoc]
      exact congrArg _ (funext fun _ => (pure_bind _ _).trans htold)
    | ends =>
      dsimp only
      rw [(exits_settle Turn.noConfusion t).bind_drive]
      exact quietly _
    | fails fault =>
      dsimp only
      rw [(exits_settle Turn.noConfusion t).bind_drive]
      exact quietly _

end Exit

/-- On any bus a step that executes costs 4 to 44 cycles in whole machine cycles, so a run for some
cycles is what its loop comes to in at most a quarter as many steps, and one whose cycles have
elapsed is less than a step behind its limit. No two pauses before an instruction follow each other,
whatever is told in between. So a session that is taken up again after every pause ends, at its
limit in the same sense or at a fault, and the program exits. -/
theorem limited_runs_end (β ι ρ π : Type) [Mainboard β] [Keypad ι] [Screen ρ] [Peripheral π β]
    [LawfulMonad m] (s : Session) {limit : Nat} (hl : s.limit = some limit)
    (hx : s.device.exitRequested = false) (hc : s.device.cycles < limit) :
    (∀ d : Device β ι ρ π,
      (∀ outcome, d.step.1 = .ok outcome → Device.pausedBefore d.step.1 = false →
        ∃ cost, CostWithin 44 cost ∧ d.step.2.cycles = d.cycles + cost ∧
          ∀ n, outcome = .executed n → n = cost) ∧
      (Device.pausedBefore d.step.1 = true →
        ∀ f, Device.pausedBefore (d.step.2.mapBus f).step.1 = false) ∧
      ∀ n,
        (∀ fuel, (n + 3) / 4 < fuel →
          Device.resume (some (d.cycles + n)) fuel d.announce =
            (some (d.runFor n).1, (d.runFor n).2)) ∧
        ((d.runFor n).1 = .ok .cyclesElapsed →
          (n = 0 → (d.runFor n).2.cycles = d.cycles) ∧
          (0 < n → d.cycles + n ≤ (d.runFor n).2.cycles ∧
            (d.runFor n).2.cycles < d.cycles + n + 44))) ∧
    ∀ turns, 2 * ((limit - s.device.cycles + 3) / 4) + 1 ≤ turns →
      let last := s.after stepsPerTurn turns
      ((last.1 = .ends ∧ limit ≤ last.2.device.cycles ∧ last.2.device.cycles < limit + 44) ∨
        ∃ fault, last.1 = .fails fault) ∧
      Exits (drive (turns + 1) (.running s) : m Stage) := by
  constructor
  · intro d
    refine ⟨fun _ => Device.cost_step, Device.pausedBefore_step_step, ?_⟩
    intro n
    exact ⟨fun fuel h => (Device.resume_eq_runFor d n h).1, Device.cycles_runFor⟩
  · intro turns hturns last
    have hleft : s.device.pausesLeft limit ≤ turns :=
      Nat.le_trans (s.device.pausesLeft_le limit) hturns
    obtain ⟨hover, hends⟩ := Session.after_over stepsPerTurn turns hl hx
      (Nat.lt_add_right 44 hc) hleft
    constructor
    · cases ht : last.1 with
      | continues => exact absurd ht hover
      | ends => exact .inl ⟨rfl, hends ht⟩
      | fails fault => exact .inr ⟨fault, rfl⟩
    · obtain ⟨told, htold⟩ := drive_eq (m := m) turns s
      rw [htold]
      exact .bind fun _ => exits_settle hover _

section Entry

/-- A device at the start of a boot image that begins with NOP, with a breakpoint there. -/
def atEntry : ConsoleDevice where
  machine := ⟨.powerOn, .ofBoard (some .info) (Board.new #[0x00] (.rom #[]))⟩
  header := ⟨"", "", 0, "", 0, 0, 0, 0, 0, 0, 0, 0⟩
  keypad := ⟨⟩
  screen := ⟨0⟩
  peripherals := []
  breakpoints := [.address 0]
  exitRequested := false
  resumeAt := none
  inputCountdown := 0
  cycles := 0

def pausedAtEntry : ConsoleDevice := { atEntry with resumeAt := some 0 }

def entrySession (d : ConsoleDevice) : Session := ⟨d, some 4, false, ⟨""⟩, ""⟩

/-- Nothing waits on a new board, so the step after the pause is the instruction alone. -/
theorem step_pausedAtEntry : pausedAtEntry.announce.step.1 = .ok (.executed 4) := by
  have henables : (Board.new #[0x00] (.rom #[])).memory.get Cell.enables = 0 := by
    simp [Board.new, Memory.get_set, Cell.joypad, Cell.tac, Cell.requests, Cell.boot, Cell.enables]
  have hpending :
      Machine.pending (pausedAtEntry.announce.machine.proceed (some .nop)).2.bus = 0 := by
    change Interrupt.sources ((Board.new #[0x00] (.rom #[])).memory.get Cell.enables &&& _) = 0
    rw [henables, UInt8.zero_and]
    rfl
  have hcarried : pausedAtEntry.announce.machine.carryOut (some .nop) =
      (4, (pausedAtEntry.announce.machine.proceed (some .nop)).2) := by
    rw [Machine.carryOut, Machine.service_of_pending_eq_zero hpending]
    rfl
  refine Device.step_of_unwatched (Device.breakEvent?_of_resumeAt rfl) rfl hcarried ?_
  rw [Session.watch_passTime]
  rfl

theorem turn_pausedAtEntry : ((entrySession pausedAtEntry).turn stepsPerTurn).1 = .ends :=
  Session.turn_of_elapsed stepsPerTurn rfl
    (Device.runFor_of_executed rfl (by decide) step_pausedAtEntry (Nat.le_refl 4))

theorem turn_atEntry :
    ((entrySession atEntry).turn stepsPerTurn).1 = .continues ∧
      ((entrySession atEntry).turn stepsPerTurn).2.flushed = entrySession pausedAtEntry :=
  ⟨rfl, rfl⟩

/-- The breakpoint pauses the first turn and cannot hold the session up: the second one executes the
instruction and ends at the limit. -/
theorem limited_runs_end_at_entry :
    let s := entrySession atEntry
    s.limit = some 4 ∧ s.device.exitRequested = false ∧ s.device.cycles < 4 ∧
      (s.turn stepsPerTurn).1 = .continues ∧
      Device.pausedBefore (atEntry.step.2.mapBus fun bus => bus.takeNotices.2).step.1 = false ∧
      (s.after stepsPerTurn 3).1 = .ends ∧ 4 ≤ (s.after stepsPerTurn 3).2.device.cycles ∧
        (s.after stepsPerTurn 3).2.device.cycles < 48 := by
  intro s
  have hc : s.device.cycles < 4 := by decide
  obtain ⟨hpaused, hresumed⟩ := turn_atEntry
  have hover : ((entrySession pausedAtEntry).turn stepsPerTurn).1 ≠ .continues := by
    rw [turn_pausedAtEntry]
    exact Turn.noConfusion
  have hends : (s.after stepsPerTurn 3).1 = .ends := by
    rw [Session.after_of_continues hpaused, hresumed, Session.after_of_over hover,
      turn_pausedAtEntry]
  obtain ⟨steps, turns⟩ := limited_runs_end Narrated NoKeypad FrameCounter Empty
    (m := StateM Transcript) s rfl rfl hc
  obtain ⟨-, apart, -⟩ := steps atEntry
  refine ⟨rfl, rfl, hc, hpaused, apart rfl _, ?_⟩
  rcases (turns 3 (by decide)).1 with hlast | ⟨fault, hfails⟩
  · exact hlast
  · rw [hends] at hfails
    cases hfails

end Entry

end Program
end DotMatrix
