import DotMatrix.Device.Run
import DotMatrix.Proofs.Board.Run
import DotMatrix.Proofs.Cartridge.History
import DotMatrix.Proofs.Device.Transparency
import DotMatrix.Proofs.Processor.Invariant

/-! # Invariants of a device

A step reaches the board through the processor, the passing of time, the peripherals and the keypad.
What survives each of these survives every step, and what survives the host as well survives
whatever happens to a device.
-/
namespace DotMatrix

/-- A property of a board that requests and the keypad cannot break. -/
structure Board.Quiet (p : Board → Prop) : Prop where
  request : ∀ {b}, p b → ∀ sources, p (b.request sources)
  button : ∀ {b}, p b → ∀ button pressed, p (b.updateButton button pressed).2

structure Board.Invariant (p : Board → Prop) : Prop where
  bus : BusInvariant p
  poke : ∀ {b}, p b → ∀ v, p (b.poke Cell.requests v)
  event : ∀ {b}, p b → ∀ e : Board.Event, p (b.apply e)
  hit : ∀ {b}, p b → p b.takeHit.2

theorem Board.Invariant.quiet {p : Board → Prop} (h : Board.Invariant p) : Board.Quiet p where
  request hb sources := h.event hb (.request sources)
  button hb button pressed := h.event hb (.button button pressed)

def Keeping (π : Type) [Peripheral π Board] (p : Board → Prop) : Prop :=
  ∀ (q : π) {b : Board} (cycles : Nat), p b → p (Peripheral.tick q b cycles).2.2

namespace Device
variable {ι ρ π : Type} {p : Board → Prop} {d : Device Board ι ρ π}

section Quiet
variable (h : Board.Quiet p)
include h

theorem kept_sampleButtons [Keypad ι] (keypad : ι) {b : Board} (hb : p b) :
    p (sampleButtons keypad b).2 := by
  have sampled (l : List Button) (pressed : Bool) {b : Board} (hb : p b) :
      p (l.foldl (fun (r : Bool × Board) button =>
        (r.1 || (r.2.updateButton button (Keypad.held keypad button)).1,
          (r.2.updateButton button (Keypad.held keypad button)).2)) (pressed, b)).2 := by
    induction l generalizing pressed b with
    | nil => exact hb
    | cons button l ih => exact ih _ (h.button hb button (Keypad.held keypad button))
  exact sampled Button.all false hb

theorem kept_pollInput [Keypad ι] (hd : p d.board) : p d.pollInput.board := by
  have hs := kept_sampleButtons h (Keypad.refresh d.keypad).2 hd
  have hr : p ((sampleButtons (Keypad.refresh d.keypad).2 d.board).2.request
      Interrupt.joypad.mask) := h.request hs _
  unfold pollInput leaveStop
  dsimp only
  repeat' split
  · exact hr
  · exact hr
  · exact hs
  · exact hd

theorem kept_countInput [Keypad ι] (n : Nat) (hd : p d.board) : p (d.countInput n).board := by
  unfold countInput
  dsimp only
  split
  · exact kept_pollInput h hd
  · exact hd

end Quiet

theorem kept_tickPeripherals [Screen ρ] [Peripheral π Board] (hπ : Keeping π p) (n : Nat)
    (l : List π) {b : Board} (hb : p b) (screen : ρ) :
    p (tickPeripherals n l b screen).2.1 := by
  induction l generalizing b screen with
  | nil => exact hb
  | cons q rest ih => exact ih (hπ q n hb) _

section Time
variable (h : Board.Invariant p)
include h

theorem kept_passTime [Keypad ι] [Screen ρ] [Peripheral π Board] (hπ : Keeping π p) (n : Nat)
    (hd : p d.board) : p (d.passTime n).board := by
  have ht : p ((d.board.tickTimer n).tick n) := h.event (h.event hd (.timer n)) (.tick n)
  have hq : p (d.afterPeripherals n).board := kept_tickPeripherals hπ n d.peripherals ht d.screen
  exact kept_countInput h.quiet n hq

theorem kept_settleWatch (address : UInt16) (n : Nat) (hd : p d.board) :
    p (d.settleWatch address n).2.board := by
  unfold settleWatch
  split
  · exact hd
  · exact h.hit hd

end Time

section Step
variable [Keypad ι] [Screen ρ] [Peripheral π Board] (h : Board.Invariant p) (hπ : Keeping π p)
include h hπ

theorem kept_carryOut (fetched : Option Instruction) (hd : p d.board) :
    p (d.carryOut fetched).2.board := by
  have hp : p (d.machine.proceed fetched).2.bus := Machine.kept_proceed h.bus hd fetched
  have hs : p (d.machine.proceed fetched).2.service.2.bus :=
    Machine.kept_service h.bus hp fun hb v => h.poke hb v
  exact kept_settleWatch h _ _ (kept_passTime h hπ _ hs)

theorem kept_step (hd : p d.board) : p d.step.2.board := by
  cases hb : d.breakEvent? with
  | some event =>
    rw [step_of_breakEvent hb]
    exact hd
  | none =>
    cases hf : d.machine.fetch with
    | error fault =>
      rw [step_of_fetch_error hb hf]
      exact hd
    | ok fetched =>
      rw [step_of_fetch_ok hb hf]
      exact kept_carryOut h hπ fetched hd

end Step

/-- What a host can do to a device: run it, sample its keypad, and reach for the board, the
cartridge in its slot or the processor between two steps. -/
inductive Reached [Keypad ι] [Screen ρ] [Peripheral π Board] (d : Device Board ι ρ π) :
    Device Board ι ρ π → Prop where
  | start : Reached d d
  | step {e : Device Board ι ρ π} (before : Reached d e) : Reached d e.step.2
  | poll {e : Device Board ι ρ π} (before : Reached d e) : Reached d e.pollInput
  | board {e : Device Board ι ρ π} (before : Reached d e) (event : Board.Event) :
      Reached d (e.modifyBoard (·.apply event))
  | slot {e : Device Board ι ρ π} (before : Reached d e) (event : Controller.Event) :
      Reached d (e.modifyBoard fun b => { b with controller := b.controller.apply event })
  | processor {e : Device Board ι ρ π} (before : Reached d e) (f : Cpu → Cpu) :
      Reached d { e with machine := e.machine.mapCpu f }
  | attach {e : Device Board ι ρ π} (before : Reached d e) (q : π) : Reached d (e.attach q)
  | exit {e : Device Board ι ρ π} (before : Reached d e) (requested : Bool) :
      Reached d { e with exitRequested := requested }

section Reached
variable [Keypad ι] [Screen ρ] [Peripheral π Board] {e : Device Board ι ρ π}

/-- A run is made of steps. -/
theorem Reached.resume (limit : Option Nat) (fuel : Nat) (hr : Reached d e) :
    Reached d (e.resume limit fuel).2 := by
  induction fuel generalizing e with
  | zero => exact hr
  | succ fuel ih =>
    have hs := hr.step
    unfold Device.resume
    generalize e.step = r at hs ⊢
    obtain ⟨_ | ⟨_ | _⟩, next⟩ := r
    all_goals
      dsimp only
      split
      · exact hr.exit false
      · split
        · exact hr
        · first
          | exact hs
          | exact ih hs

theorem Reached.runFor (n : Nat) (hr : Reached d e) : Reached d (e.runFor n).2 := by
  have hs := hr.resume (some (e.cycles + n)) (n + 1)
  unfold Device.runFor
  change Reached d (Device.resume (some (e.cycles + n)) (n + 1) e.announce).2 at hs
  generalize Device.resume (some (e.cycles + n)) (n + 1) e.announce = r at hs ⊢
  obtain ⟨_ | _, next⟩ := r
  · exact hs
  · exact hs

theorem kept_reached (h : Board.Invariant p) (hπ : Keeping π p)
    (hslot : ∀ {b}, p b → ∀ event, p { b with controller := b.controller.apply event })
    (hd : p d.board) (hr : Reached d e) : p e.board := by
  induction hr with
  | start => exact hd
  | step _ ih => exact kept_step h hπ ih
  | poll _ ih => exact kept_pollInput h.quiet ih
  | board _ event ih => exact h.event ih event
  | slot _ event ih => exact hslot ih event
  | processor _ f ih => exact ih
  | attach _ q ih => exact ih
  | exit _ requested ih => exact ih

end Reached

end Device
end DotMatrix
