import DotMatrix.Proofs.Interrupt.Service
import DotMatrix.Proofs.Processor.Switch

/-! # What a step costs

Every instruction takes a multiple of four cycles, at least four and at most 24. The interrupt check
adds four where it ends HALT and twenty where it dispatches. A processor that sleeps executes
nothing, and HALT itself takes four cycles only, so no step pays for all of them.
-/
namespace DotMatrix

def CostWithin (bound n : Nat) : Prop := 4 ∣ n ∧ 4 ≤ n ∧ n ≤ bound

instance (bound n : Nat) : Decidable (CostWithin bound n) :=
  inferInstanceAs (Decidable (_ ∧ _ ∧ _))

namespace Instruction

theorem costWithin_placeCost (p : Place) {plain memory bound : Nat}
    (hp : CostWithin bound plain) (hm : CostWithin bound memory) :
    CostWithin bound (placeCost p plain memory) := by
  unfold placeCost
  split
  · exact hm
  · exact hp

theorem costWithin_branchCost (condition : Option Condition) {plain taken skipped bound : Nat}
    (hp : CostWithin bound plain) (ht : CostWithin bound taken) (hs : CostWithin bound skipped) :
    CostWithin bound (branchCost condition plain taken skipped).taken ∧
      CostWithin bound ((branchCost condition plain taken skipped).notTaken.getD
        (branchCost condition plain taken skipped).taken) := by
  cases condition with
  | none => exact ⟨hp, hp⟩
  | some _ => exact ⟨ht, hs⟩

theorem costWithin_taken (i : Instruction) : CostWithin 24 i.cost.taken := by
  cases i with
  | load target source =>
    have hplace (p : Place) := costWithin_placeCost p (by decide : CostWithin 24 4)
      (by decide : CostWithin 24 8)
    change CostWithin 24 (max (placeCost target 4 8) (placeCost source 4 8))
    rw [Nat.max_def]
    split
    · exact hplace source
    · exact hplace target
  | loadImmediate target | inc target | dec target | byteOp _ target | shift _ target
  | testBit _ target | resetBit _ target | setBit _ target =>
    exact costWithin_placeCost target (by decide) (by decide)
  | jumpRelative condition | jump condition | call condition | ret condition =>
    exact (costWithin_branchCost condition (by decide) (by decide) (by decide)).1
  | _ =>
    simp only [cost]
    decide

/-- Only a branch can be skipped, and that costs something too. -/
theorem costWithin_notTaken (i : Instruction) :
    CostWithin 24 (i.cost.notTaken.getD i.cost.taken) := by
  have htaken := i.costWithin_taken
  cases i with
  | jumpRelative condition | jump condition | call condition | ret condition =>
    exact (costWithin_branchCost condition (by decide) (by decide) (by decide)).2
  | _ => exact htaken

end Instruction

namespace Machine
variable {β : Type} [Bus β] (s : Machine β)

theorem costWithin_execute (i : Instruction) : CostWithin 24 (s.execute i).1 := by
  unfold execute
  split
  · exact i.costWithin_taken
  · exact i.costWithin_notTaken

/-- What follows a fetch: the instruction or an idle period, and the interrupt check. -/
def carryOut (fetched : Option Instruction) : Nat × Machine β :=
  ((s.proceed fetched).1 + (s.proceed fetched).2.service.1, (s.proceed fetched).2.service.2)

/-- A check costs something in HALT and for a dispatch. -/
theorem cost_service_of_running (h : s.cpu.halted = false) :
    s.service.1 = 0 ∨ s.service.1 = 20 := by
  have hr : s.rouses = false := by
    unfold rouses
    rw [h]
    rfl
  rw [service_eq, hr]
  cases s.dispatched?.isSome
  · exact .inl rfl
  · exact .inr rfl

theorem cost_service_le : 4 ∣ s.service.1 ∧ s.service.1 ≤ 24 := by
  rw [service_eq]
  cases s.rouses <;> cases s.dispatched?.isSome
  all_goals
    simp only [wakeCycles, dispatchCycles]
    decide

variable {s}

theorem service_of_pending_eq_zero (h : pending s.bus = 0) : s.service = (0, s) := by
  unfold service
  rw [h]
  rfl

theorem halted_proceed {i : Instruction} (hf : s.fetch = .ok (some i)) (hi : i ≠ .halt) :
    (s.proceed (some i)).2.cpu.halted = false := by
  have hawake : s.cpu.halted = false := by
    unfold fetch Cpu.idle at hf
    cases hh : s.cpu.halted with
    | false => rfl
    | true =>
      rw [hh] at hf
      cases hf
  exact (halted_execute _ hi).trans hawake

/-- A step of the processor together with the check costs 4 to 44 cycles. The dearest is a taken
call with a dispatch after it. -/
theorem costWithin_carryOut {fetched : Option Instruction} (hf : s.fetch = .ok fetched) :
    CostWithin 44 (s.carryOut fetched).1 := by
  obtain ⟨hdvd, hle⟩ := cost_service_le (s.proceed fetched).2
  have short (h : (s.proceed fetched).1 = 4) : CostWithin 44 (s.carryOut fetched).1 := by
    unfold CostWithin carryOut
    rw [h]
    dsimp only
    omega
  cases fetched with
  | none => exact short rfl
  | some i =>
    by_cases hi : i = .halt
    · subst hi
      exact short rfl
    · have hspent : CostWithin 24 (s.proceed (some i)).1 := costWithin_execute _ i
      have hserving := cost_service_of_running _ (halted_proceed hf hi)
      unfold CostWithin carryOut at *
      dsimp only
      omega

end Machine
end DotMatrix
