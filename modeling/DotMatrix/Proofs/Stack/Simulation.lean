import DotMatrix.Proofs.Stack.Layout

/-! # The stack in memory is a stack

A sequence of pushes and pops run on a machine next to the same sequence on a list: the words of the
list lie in memory from `SP` up to where the stack began, so every pop gives what the list gives.
-/
namespace DotMatrix

namespace Stack

inductive Op where
  | push (w : UInt16)
  | pop
  deriving DecidableEq, Repr

/-- The words popped from a list in their order, and what is left of it; an empty list cannot be
popped. -/
def run? : List Op → List UInt16 → Option (List UInt16 × List UInt16)
  | [], stack => some ([], stack)
  | .push w :: rest, stack => run? rest (w :: stack)
  | .pop :: _, [] => none
  | .pop :: rest, w :: stack => (run? rest stack).map fun (popped, left) => (w :: popped, left)

def deepest : List Op → Nat → Nat
  | [], depth => depth
  | .push _ :: rest, depth => deepest rest (depth + 1)
  | .pop :: rest, depth => max depth (deepest rest (depth - 1))

theorem le_deepest (ops : List Op) (depth : Nat) : depth ≤ deepest ops depth := by
  induction ops generalizing depth with
  | nil => exact Nat.le_refl depth
  | cons op rest ih =>
    cases op with
    | push w => exact Nat.le_trans (Nat.le_succ depth) (ih (depth + 1))
    | pop => exact Nat.le_max_left _ _

end Stack

namespace Machine

def runStack {β : Type} [Bus β] : List Stack.Op → Machine β → List UInt16 × Machine β
  | [], s => ([], s)
  | .push w :: rest, s => runStack rest (s.push w)
  | .pop :: rest, s =>
    let (w, s) := s.pop
    let (popped, s) := runStack rest s
    (w :: popped, s)

end Machine

namespace Stack
variable {start s : Machine Board} {n : Nat} {w : UInt16} {stack : List UInt16}

/-- A machine that holds some words on its stack, and differs from where it started by nothing but
`SP`, the cells touched on the way and what the watch list has noted. -/
structure Holds (start : Machine Board) (n : Nat) (stack : List UInt16) (s : Machine Board) :
    Prop where
  cpu : s.cpu = { start.cpu with registers.sp := s.registers.sp }
  sp : s.registers.sp.toNat + 2 * stack.length = start.registers.sp.toNat
  lies : Lies s.bus.memory s.registers.sp stack
  board : ∃ memory watch, s.bus = { start.bus with memory, watch }
  kept : ∀ cell, ¬Touched start.registers.sp n cell →
    s.bus.memory.get cell = start.bus.memory.get cell

theorem holds_start (start : Machine Board) (n : Nat) : Holds start n [] start :=
  ⟨rfl, rfl, trivial, ⟨_, _, rfl⟩, fun _ _ => rfl⟩

theorem Holds.hooks (h : Holds start n stack s) : s.bus.hooks = start.bus.hooks := by
  obtain ⟨memory, watch, hboard⟩ := h.board
  rw [hboard]

/-- `SP` is lower by two bytes for every word. -/
theorem Holds.sp_eq (h : Holds start n stack s) :
    s.registers.sp = start.registers.sp - 2 * .ofNat stack.length := by
  have hsum := h.sp
  have hlt := start.registers.sp.toNat_lt
  apply UInt16.toNat_inj.1
  simp only [UInt16.toNat_sub, UInt16.toNat_mul, UInt16.toNat_ofNat', UInt16.reduceToNat]
  omega

/-- A push stores its word below the others, whose cells it does not reach. -/
theorem Holds.push (h : Holds start n stack s) (hb : start.bus.hooks = [])
    (room : Room start.registers.sp n) (hn : 2 * (stack.length + 1) ≤ n) (w : UInt16) :
    Holds start n (w :: stack) (s.push w) := by
  have fresh := room.fresh h.sp hn
  obtain ⟨watch, hw⟩ := Board.writeWord_inside (h.hooks.trans hb) (room.inside _ fresh.touchedLow)
    (room.inside _ fresh.touchedHigh) w
  have hbus : (s.push w).bus = Bus.writeWord s.bus (s.registers.sp - 2) w := rfl
  have hsp : (s.push w).registers.sp = s.registers.sp - 2 := rfl
  have hmemory : (s.push w).bus.memory = s.bus.memory.setWord (s.registers.sp - 2) w := by
    rw [hbus, hw]
  have hkept {cell : UInt16}
      (hne : cell ≠ s.registers.sp - 2 ∧ cell ≠ s.registers.sp - 2 + 1) :
      (s.push w).bus.memory.get cell = s.bus.memory.get cell := by
    rw [hmemory]
    exact Memory.get_setWord_of_ne _ _ hne.1 hne.2
  have hback : s.registers.sp - 2 + 2 = s.registers.sp := UInt16.sub_add_cancel _ _
  refine ⟨?_, ?_, ?_, ?_, ?_⟩
  · change { s.cpu with registers.sp := s.registers.sp - 2 } = _
    rw [h.cpu]
    rfl
  · have hsum := h.sp
    have hlow := fresh.low
    rw [hsp, List.length_cons]
    omega
  · constructor
    · rw [hmemory, hsp, Memory.word_setWord]
    · -- The older words begin where `SP` stood, above both bytes of the new one.
      have hlt := start.registers.sp.toNat_lt
      have hsum := h.sp
      rw [hsp, hback]
      exact h.lies.congr (by omega) fun cell hcell => hkept (fresh.ne_of_le hcell)
  · obtain ⟨memory, watch', hboard⟩ := h.board
    rw [hbus, hw, hboard]
    exact ⟨_, _, rfl⟩
  · intro cell hcell
    exact (hkept (fresh.ne_of_untouched hcell)).trans (h.kept cell hcell)

/-- A pop gives the word pushed last and leaves the others. -/
theorem Holds.pop (h : Holds start n (w :: stack) s) (room : Room start.registers.sp n)
    (hn : 2 * (stack.length + 1) ≤ n) : s.pop.1 = w ∧ Holds start n stack s.pop.2 := by
  have hsum : (s.registers.sp + 2).toNat + 2 * stack.length = start.registers.sp.toNat := by
    have hsp := h.sp
    have hlt := start.registers.sp.toNat_lt
    rw [List.length_cons] at hsp
    simp only [UInt16.toNat_add, UInt16.reduceToNat]
    omega
  have fresh := room.fresh hsum hn
  have hlow := room.inside _ fresh.touchedLow
  have hhigh := room.inside _ fresh.touchedHigh
  have hback : s.registers.sp + 2 - 2 = s.registers.sp := UInt16.add_sub_cancel _ _
  rw [hback] at hlow hhigh
  obtain ⟨watch, hr⟩ := Board.readWord_inside (b := s.bus) hlow hhigh
  have hpop : s.pop =
      (s.bus.memory.word s.registers.sp,
        ⟨{ s.cpu with registers.sp := s.registers.sp + 2 }, { s.bus with watch }⟩) := by
    unfold Machine.pop
    rw [hr]
  rw [hpop]
  refine ⟨h.lies.1, ?_, hsum, h.lies.2, ?_, h.kept⟩
  · change { s.cpu with registers.sp := s.registers.sp + 2 } = _
    rw [h.cpu]
  · obtain ⟨memory, watch', hboard⟩ := h.board
    rw [hboard]
    exact ⟨_, _, rfl⟩

/-- Word by word the machine pops what the list pops, by induction on the sequence. -/
theorem Holds.run {ops : List Op} {popped left : List UInt16} (h : Holds start n stack s)
    (hb : start.bus.hooks = []) (room : Room start.registers.sp n)
    (hn : 2 * deepest ops stack.length ≤ n) (hrun : run? ops stack = some (popped, left)) :
    (s.runStack ops).1 = popped ∧ Holds start n left (s.runStack ops).2 := by
  induction ops generalizing s stack popped with
  | nil =>
    cases hrun
    exact ⟨rfl, h⟩
  | cons op rest ih =>
    cases op with
    | push w =>
      have hdepth := le_deepest rest (stack.length + 1)
      rw [deepest] at hn
      exact ih (h.push hb room (by omega) w) hn hrun
    | pop =>
      cases stack with
      | nil => cases hrun
      | cons w stack =>
        rw [deepest, List.length_cons, Nat.add_sub_cancel] at hn
        obtain ⟨⟨popped', left'⟩, hrest, heq⟩ := Option.map_eq_some_iff.1 hrun
        cases heq
        obtain ⟨hw, hpop⟩ := h.pop room (by omega)
        obtain ⟨hpopped, hleft⟩ := ih hpop (by omega) hrest
        refine ⟨?_, hleft⟩
        change s.pop.1 :: (s.pop.2.runStack rest).1 = _
        rw [hw, hpopped]

/-- Where no touched cell shows, nothing shows differently. -/
theorem Holds.peek (h : Holds start n stack s) {address : UInt16}
    (ha : ∀ cell ∈ Region.behind? address, ¬Touched start.registers.sp n cell) :
    s.bus.peek address = start.bus.peek address := by
  have hkept := h.kept
  obtain ⟨memory, watch, hboard⟩ := h.board
  rw [hboard] at hkept ⊢
  exact Board.peek_congr rfl rfl (fun _ => rfl) (fun _ _ => rfl) fun cell hcell =>
    hkept cell (ha cell hcell)

end Stack
end DotMatrix
