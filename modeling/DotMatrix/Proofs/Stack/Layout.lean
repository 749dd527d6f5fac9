import DotMatrix.Proofs.Board.Footprint

/-! # A stack in memory

Words pushed one after another lie in memory below the top that the stack began at, the last one at
`SP`. As long as they stay in memory without effects of its own, a push stores a word there, a pop
finds it, and nothing else changes.
-/
namespace DotMatrix

namespace Memory
variable (m : Memory) (address w : UInt16)

/-- The word at an address, its low byte first. -/
def word : UInt16 := Word.join (m.get (address + 1)) (m.get address)

def setWord : Memory := (m.set address (Word.low w)).set (address + 1) (Word.high w)

theorem succ_ne_self : address + 1 ≠ address := by
  rw [Ne, ← UInt16.toNat_inj, UInt16.toNat_add]
  have := address.toNat_lt
  simp only [UInt16.reduceToNat]
  omega

@[simp]
theorem word_setWord : (m.setWord address w).word address = w := by
  rw [word, setWord, get_set_self, get_set_ne _ _ (succ_ne_self address), get_set_self,
    Word.join_high_low]

variable {address}

theorem get_setWord_of_ne {cell : UInt16} (hlow : cell ≠ address) (hhigh : cell ≠ address + 1) :
    (m.setWord address w).get cell = m.get cell := by
  rw [setWord, get_set_ne _ _ hhigh.symm, get_set_ne _ _ hlow.symm]

end Memory

namespace Stack

def Inside (address : UInt16) : Prop :=
  0xc000 ≤ address ∧ address < 0xe000 ∨ 0xff80 ≤ address ∧ address < 0xffff

instance (address : UInt16) : Decidable (Inside address) :=
  inferInstanceAs (Decidable (_ ∨ _))

/-- The cells of a stack that has grown to so many bytes from its top downwards. -/
def Touched (top : UInt16) (n : Nat) (cell : UInt16) : Prop :=
  cell.toNat < top.toNat ∧ top.toNat ≤ cell.toNat + n

/-- A stack can grow to so many bytes without wrapping or leaving the memory for it. -/
structure Room (top : UInt16) (n : Nat) : Prop where
  unwrapped : n ≤ top.toNat
  inside : ∀ cell, Touched top n cell → Inside cell

section Cells
variable {address : UInt16}

theorem Inside.behind? (h : Inside address) : Region.behind? address = some address := by
  rw [Region.behind?_eq_some_iff]
  simp only [Inside, UInt16.le_iff_toNat_le, UInt16.lt_iff_toNat_lt, UInt16.reduceToNat] at h
  omega

theorem Inside.unwired (h : Inside address) : address ∉ Cell.wired := by
  intro hw
  simp only [Cell.wired, List.mem_cons, List.not_mem_nil, or_false] at hw
  rcases hw with rfl | rfl | rfl | rfl | rfl | rfl | rfl | rfl
  all_goals exact absurd h (by decide)

theorem Inside.peek (h : Inside address) (b : Board) :
    b.peek address = b.memory.get address := by
  apply Board.peek_eq_get h.behind?
  rintro rfl
  exact h.unwired (by decide)

end Cells
end Stack

namespace Board
variable {b : Board} {address : UInt16}

/-- A checked write to stack memory stores its byte, and the watch list may take note. -/
theorem write_inside (hb : b.hooks = []) (h : Stack.Inside address) (v : UInt8) :
    ∃ watch, b.write address v = { b with memory := b.memory.set address v, watch } := by
  refine ⟨b.watch.noteWrite address v, ?_⟩
  by_cases hp : address < Cell.page
  · rw [write_of_lt_page v hp]
    exact poke_of_behind? v h.behind?
  · exact write_unwired v hb (UInt16.not_lt.1 hp) h.unwired

theorem writeWord_inside (hb : b.hooks = []) (hlow : Stack.Inside address)
    (hhigh : Stack.Inside (address + 1)) (w : UInt16) :
    ∃ watch, Bus.writeWord b address w =
      { b with memory := b.memory.setWord address w, watch } := by
  obtain ⟨watch, hw⟩ := write_inside hb hlow (Word.low w)
  have hb' : (b.write address (Word.low w)).hooks = [] := by rw [hw, hb]
  obtain ⟨watch', hw'⟩ := write_inside hb' hhigh (Word.high w)
  refine ⟨watch', hw'.trans ?_⟩
  rw [hw]
  rfl

/-- A word read is the one that shows, whatever memory it is in. -/
theorem readWord_eq (b : Board) (address : UInt16) :
    ∃ watch, Bus.readWord b address =
      (Word.join (b.peek (address + 1)) (b.peek address), { b with watch }) := ⟨_, rfl⟩

theorem readWord_inside (hlow : Stack.Inside address) (hhigh : Stack.Inside (address + 1)) :
    ∃ watch, Bus.readWord b address = (b.memory.word address, { b with watch }) := by
  obtain ⟨watch, hr⟩ := readWord_eq b address
  rw [hlow.peek, hhigh.peek] at hr
  exact ⟨watch, hr⟩

end Board

namespace Stack

section Words
variable {m m' : Memory} {sp : UInt16} {stack : List UInt16}

/-- Words that follow each other in memory, the last one pushed first. -/
def Lies (m : Memory) : UInt16 → List UInt16 → Prop
  | _, [] => True
  | sp, w :: stack => m.word sp = w ∧ Lies m (sp + 2) stack

/-- Words stay where they lie as long as nothing changes from there upwards. -/
theorem Lies.congr (h : Lies m sp stack) (hsp : sp.toNat + 2 * stack.length < 0x10000)
    (hkept : ∀ cell, sp.toNat ≤ cell.toNat → m'.get cell = m.get cell) : Lies m' sp stack := by
  induction stack generalizing sp with
  | nil => trivial
  | cons w stack ih =>
    rw [List.length_cons] at hsp
    have hnext : (sp + 1).toNat = sp.toNat + 1 := by
      simp only [UInt16.toNat_add, UInt16.reduceToNat]
      omega
    have hrest : (sp + 2).toNat = sp.toNat + 2 := by
      simp only [UInt16.toNat_add, UInt16.reduceToNat]
      omega
    refine ⟨?_, ih h.2 (by omega) fun cell hcell => hkept cell (by omega)⟩
    rw [Memory.word, hkept sp (Nat.le_refl _), hkept (sp + 1) (by omega)]
    exact h.1

end Words

section Growth
variable {top sp : UInt16} {n depth : Nat}

/-- Where `SP` stands above a word that there is room for: it does not wrap, and both bytes of the
word are touched. -/
structure Fresh (top sp : UInt16) (n : Nat) : Prop where
  low : (sp - 2).toNat + 2 = sp.toNat
  high : (sp - 2 + 1).toNat + 1 = sp.toNat
  touchedLow : Touched top n (sp - 2)
  touchedHigh : Touched top n (sp - 2 + 1)

theorem Room.fresh (h : Room top n) (hsp : sp.toNat + 2 * depth = top.toNat)
    (hn : 2 * (depth + 1) ≤ n) : Fresh top sp n := by
  have hunwrapped := h.unwrapped
  have hlt := sp.toNat_lt
  have hlow : (sp - 2).toNat + 2 = sp.toNat := by
    simp only [UInt16.toNat_sub, UInt16.reduceToNat]
    omega
  have hhigh : (sp - 2 + 1).toNat + 1 = sp.toNat := by
    rw [UInt16.toNat_add]
    simp only [UInt16.reduceToNat]
    omega
  refine ⟨hlow, hhigh, ?_, ?_⟩
  · unfold Touched
    omega
  · unfold Touched
    omega

/-- A fresh word lies below what `SP` stood at. -/
theorem Fresh.ne_of_le (h : Fresh top sp n) {cell : UInt16} (hcell : sp.toNat ≤ cell.toNat) :
    cell ≠ sp - 2 ∧ cell ≠ sp - 2 + 1 := by
  have hlow := h.low
  have hhigh := h.high
  constructor
  · rintro rfl
    omega
  · rintro rfl
    omega

theorem Fresh.ne_of_untouched (h : Fresh top sp n) {cell : UInt16} (hcell : ¬Touched top n cell) :
    cell ≠ sp - 2 ∧ cell ≠ sp - 2 + 1 := by
  constructor
  · rintro rfl
    exact hcell h.touchedLow
  · rintro rfl
    exact hcell h.touchedHigh

end Growth
end Stack
end DotMatrix
