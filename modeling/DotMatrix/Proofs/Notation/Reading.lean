import Mathlib.Algebra.Group.Nat.Defs
import DotMatrix.Processor.Notation

/-! # Reading the notation back

An assembler for one line. Its words stand between spaces: a mnemonic and at most two operands, the
first one with a comma behind it if there is a second. Each operand tells by its first characters
what it is, but for the carry condition, which looks like a register; the mnemonic tells the two
apart. So every instruction is read back from its own text.
-/
namespace DotMatrix

namespace Hex

def number (cs : List Char) : Nat := cs.foldl (fun n c => 16 * n + (value? c).getD 0) 0

theorem number_digits {width n : Nat} (h : n < 16 ^ width) : number (digits width n) = n := by
  induction width generalizing n with
  | zero =>
    have hzero : n = 0 := Nat.lt_one_iff.1 h
    subst hzero
    rfl
  | succ width ih =>
    have hupper : number (digits width (n / 16)) = n / 16 := by
      apply ih
      rw [Nat.pow_succ] at h
      omega
    have hlast : value? (digit (n % 16)) = some (n % 16) :=
      value?_digit _ (Nat.mod_lt _ (by decide))
    unfold number at hupper ⊢
    rw [digits, List.foldl_append, hupper, List.foldl_cons, hlast]
    exact Nat.div_add_mod n 16

theorem space_not_mem_digits (width n : Nat) : ' ' ∉ digits width n := by
  have hdigit : ∀ k : Fin 16, ' ' ≠ digit k := by decide
  induction width generalizing n with
  | zero => exact List.not_mem_nil
  | succ width ih =>
    rw [digits, List.mem_append, List.mem_singleton]
    rintro (hm | hm)
    · exact ih _ hm
    · exact hdigit ⟨n % 16, Nat.mod_lt _ (by decide)⟩ hm

end Hex

section Mnemonic

def Mnemonic.ofText? (cs : List Char) : Option Mnemonic := all.find? (·.text = String.ofList cs)

theorem Mnemonic.ofText?_text (m : Mnemonic) : ofText? m.text.toList = some m := by
  rw [ofText?, String.ofList_toList]
  cases m <;> rfl

theorem Mnemonic.space_not_mem_text (m : Mnemonic) : ' ' ∉ m.text.toList := by
  cases m <;> decide +kernel

end Mnemonic

namespace Operand

/-- What an operand is read as: a carry condition looks like the register. -/
def asRead : Operand → Operand
  | .condition (some .c) => .byteRegister .c .immediate
  | o => o

def named : List Operand :=
  [Register.a, .b, .c, .d, .e, .h, .l].map (.byteRegister · .immediate) ++
    [Register.bc, .de, .hl, .sp, .af].map (.wordRegister · .immediate) ++
    [Register.bc, .de, .hl].map (.wordRegister · .memory) ++
    [.wordRegister .hl .memoryUp, .wordRegister .hl .memoryDown, .byteRegister .c .memory] ++
    [Condition.nz, .z, .nc].map (.condition ∘ some) ++ (List.range 8).map (.bit ∘ UInt8.ofNat)

/-- Two digits are a byte and four are a word. -/
def literal (digits : List Char) (mode : Addressing) : Operand :=
  if digits.length = 2 then .byte (UInt8.ofNat (Hex.number digits)) mode
  else .word (UInt16.ofNat (Hex.number digits)) mode

def signed? : List Char → Option Int8
  | '+' :: digits => some (Int8.ofInt (Nat.ofDigitChars 10 digits 0))
  | '-' :: digits => some (Int8.ofInt (-Nat.ofDigitChars 10 digits 0))
  | _ => none

def ofText? : List Char → Option Operand
  | '$' :: digits => some (literal digits .immediate)
  | '(' :: '$' :: digits => some (literal digits.dropLast .memory)
  | 's' :: 'p' :: sign :: digits => (signed? (sign :: digits)).map (.displaced .sp · .immediate)
  | '+' :: digits => (signed? ('+' :: digits)).map .offset
  | '-' :: digits => (signed? ('-' :: digits)).map .offset
  | name => named.find? (·.text.toList = name)

/-- An operand that is one word and can be read back. -/
structure Readable (o : Operand) : Prop where
  read : ofText? o.text.toList = some o.asRead
  solid : ' ' ∉ o.text.toList

instance (o : Operand) : Decidable o.Readable :=
  decidable_of_iff (ofText? o.text.toList = some o.asRead ∧ ' ' ∉ o.text.toList)
    ⟨fun h => ⟨h.1, h.2⟩, fun h => ⟨h.1, h.2⟩⟩

theorem readable_of_place (p : Place) : p.operand.Readable := by
  cases p <;> decide +kernel

theorem readable_of_pair (p : Pair) : p.operand.Readable := by
  cases p <;> decide +kernel

theorem readable_of_stackPair (p : StackPair) : p.operand.Readable := by
  cases p <;> decide +kernel

theorem readable_of_pointer (p : Pointer) : p.operand.Readable := by
  cases p <;> decide +kernel

theorem readable_condition (condition : Condition) :
    (Operand.condition (some condition)).Readable := by
  cases condition <;> decide +kernel

theorem readable_bit (n : Fin 8) : (bit (UInt8.ofNat n)).Readable := by
  revert n
  decide +kernel

section Signed

theorem space_not_mem_decimal (n : Nat) : ' ' ∉ Nat.toDigits 10 n := by
  intro hm
  have hdigit := Nat.isDigit_of_mem_toDigits (by decide) (by decide) hm
  exact absurd hdigit (by decide)

theorem toList_signedText (e : Int8) :
    ∃ sign n, (signedText e).toList = sign :: Nat.toDigits 10 n ∧
      (sign = '+' ∧ Int8.ofInt n = e ∨ sign = '-' ∧ Int8.ofInt (-n) = e) := by
  by_cases h : 0 ≤ e.toInt
  · have hn : (e.toInt.toNat : Int) = e.toInt := Int.toNat_of_nonneg h
    refine ⟨'+', e.toInt.toNat, ?_, .inl ⟨rfl, ?_⟩⟩
    · rw [signedText, if_pos h, Nat.toString_eq_ofList_toDigits]
      exact String.toList_append.trans (congrArg ('+' :: ·) String.toList_ofList)
    · rw [hn, Int8.ofInt_toInt]
  · have hn : -(e.toInt.natAbs : Int) = e.toInt := by omega
    refine ⟨'-', e.toInt.natAbs, ?_, .inr ⟨rfl, ?_⟩⟩
    · rw [signedText, if_neg h, Nat.toString_eq_ofList_toDigits]
      exact String.toList_append.trans (congrArg ('-' :: ·) String.toList_ofList)
    · rw [hn, Int8.ofInt_toInt]

theorem readable_offset (e : Int8) : (offset e).Readable := by
  obtain ⟨sign, n, ht, hs⟩ := toList_signedText e
  have htext : (offset e).text.toList = sign :: Nat.toDigits 10 n := ht
  have hspace := space_not_mem_decimal n
  rcases hs with ⟨rfl, he⟩ | ⟨rfl, he⟩
  all_goals
    constructor
    · rw [htext]
      simp only [ofText?, signed?, Nat.ofDigitChars_ten_toDigits, he]
      rfl
    · rw [htext]
      simpa using hspace

theorem readable_displaced (e : Int8) : (displaced .sp e .immediate).Readable := by
  obtain ⟨sign, n, ht, hs⟩ := toList_signedText e
  have htext : (displaced .sp e .immediate).text.toList =
      's' :: 'p' :: sign :: Nat.toDigits 10 n := by
    rw [← ht]
    exact String.toList_append
  have hspace := space_not_mem_decimal n
  rcases hs with ⟨rfl, he⟩ | ⟨rfl, he⟩
  all_goals
    constructor
    · rw [htext]
      simp only [ofText?, signed?, Nat.ofDigitChars_ten_toDigits, he]
      rfl
    · rw [htext]
      simpa using hspace

end Signed

section Literal

theorem literal_byte (v : UInt8) (mode : Addressing) :
    literal (Hex.digits 2 v.toNat) mode = .byte v mode := by
  rw [literal, if_pos (Hex.length_digits 2 _), Hex.number_digits v.toNat_lt, UInt8.ofNat_toNat]

theorem literal_word (v : UInt16) (mode : Addressing) :
    literal (Hex.digits 4 v.toNat) mode = .word v mode := by
  have hlength : ¬(Hex.digits 4 v.toNat).length = 2 := by
    rw [Hex.length_digits]
    decide
  rw [literal, if_neg hlength, Hex.number_digits v.toNat_lt, UInt16.ofNat_toNat]

/-- A literal stands for itself, and in parentheses for the cell at it. -/
theorem readable_of_digits {o : Operand} {width n : Nat} {mode : Addressing}
    (hmode : mode = .immediate ∨ mode = .memory)
    (ht : o.text = let shown := "$" ++ String.ofList (Hex.digits width n)
      if mode.indirect then enclosed shown else shown)
    (hr : o.asRead = literal (Hex.digits width n) mode) : o.Readable := by
  have hspace := Hex.space_not_mem_digits width n
  rcases hmode with rfl | rfl
  · have htext : o.text.toList = '$' :: Hex.digits width n := by
      rw [ht]
      exact String.toList_append.trans (congrArg ('$' :: ·) String.toList_ofList)
    constructor
    · rw [htext, hr]
      rfl
    · rw [htext]
      simpa using hspace
  · have htext : o.text.toList = '(' :: '$' :: (Hex.digits width n ++ [')']) := by
      rw [ht]
      change ("(" ++ ("$" ++ String.ofList (Hex.digits width n)) ++ ")").toList = _
      simp only [String.toList_append, String.toList_ofList]
      rfl
    constructor
    · rw [htext, hr]
      simp only [ofText?, List.dropLast_concat]
    · rw [htext]
      simpa using hspace

theorem readable_byte (v : UInt8) {mode : Addressing}
    (h : mode = .immediate ∨ mode = .memory) : (byte v mode).Readable :=
  readable_of_digits h rfl (literal_byte v mode).symm

theorem readable_word (v : UInt16) {mode : Addressing}
    (h : mode = .immediate ∨ mode = .memory) : (word v mode).Readable :=
  readable_of_digits h rfl (literal_word v mode).symm

end Literal

end Operand

namespace Listing

/-- The operands that are shown: the absent condition of a jump is not. -/
def operands (l : Listing) : List Operand :=
  match l.left with
  | some (.condition none) => l.right.toList
  | left => left.toList ++ l.right.toList

def words (m : Mnemonic) : List Operand → List (List Char)
  | [] => [m.text.toList]
  | [x] => [m.text.toList, x.text.toList]
  | x :: y :: _ => [m.text.toList, x.text.toList ++ [','], y.text.toList]

section Shown
variable {m : Mnemonic} {x : Operand} {right : Option Operand}

theorem operands_of_shown (h : x ≠ .condition none) :
    (⟨m, some x, right⟩ : Listing).operands = x :: right.toList := by
  unfold operands
  split
  · rename_i hx
    exact absurd (Option.some.inj hx) h
  · rfl

theorem text_of_shown (h : x ≠ .condition none) :
    (⟨m, some x, right⟩ : Listing).text =
      right.elim (m.text ++ " " ++ x.text) (m.text ++ " " ++ x.text ++ ", " ++ ·.text) := by
  cases x with
  | condition shown =>
    cases shown with
    | none => exact absurd rfl h
    | some _ => cases right <;> rfl
  | _ => cases right <;> rfl

end Shown

/-- A line is its words with spaces between them. -/
theorem toList_text (l : Listing) (h : l.left = none → l.right = none) :
    l.text.toList = [' '].intercalate (words l.mnemonic l.operands) := by
  obtain ⟨m, left, right⟩ := l
  cases left with
  | none =>
    cases h rfl
    exact (List.append_nil _).symm
  | some x =>
    by_cases hx : x = .condition none
    · subst hx
      cases right with
      | none => exact (List.append_nil _).symm
      | some y =>
        change (m.text ++ " " ++ y.text).toList = [' '].intercalate [m.text.toList, y.text.toList]
        simp [List.intercalate]
    · rw [text_of_shown hx, operands_of_shown hx]
      cases right with
      | none => simp [words, List.intercalate]
      | some y => simp [words, List.intercalate]

/-- Every operand that is shown can be read back, and there is no second one alone. -/
structure Legible (l : Listing) : Prop where
  left : ∀ x, l.left = some x → x = .condition none ∨ x.Readable
  right : ∀ y, l.right = some y → y.Readable
  filled : l.left = none → l.right = none

section Legible
variable {m : Mnemonic} {x y : Operand}

theorem legible_bare : Legible ⟨m, none, none⟩ := ⟨nofun, nofun, fun _ => rfl⟩

theorem legible_unary (hx : x.Readable) : Legible ⟨m, some x, none⟩ :=
  ⟨fun _ h => .inr (Option.some.inj h ▸ hx), nofun, nofun⟩

theorem legible_binary (hx : x.Readable) (hy : y.Readable) : Legible ⟨m, some x, some y⟩ :=
  ⟨fun _ h => .inr (Option.some.inj h ▸ hx), fun _ h => Option.some.inj h ▸ hy, nofun⟩

theorem legible_branch (condition : Option Condition) {right : Option Operand}
    (hy : ∀ y, right = some y → y.Readable) :
    Legible ⟨m, some (.condition condition), right⟩ := by
  refine ⟨?_, hy, nofun⟩
  intro x h
  cases h
  cases condition with
  | none => exact .inl rfl
  | some tested => exact .inr (Operand.readable_condition tested)

end Legible

theorem Legible.operands {l : Listing} (h : l.Legible) : ∀ o ∈ l.operands, o.Readable := by
  obtain ⟨m, left, right⟩ := l
  have hright : ∀ o ∈ right.toList, o.Readable := fun o ho => h.right o (Option.mem_toList.1 ho)
  cases left with
  | none => exact hright
  | some x =>
    by_cases hx : x = .condition none
    · subst hx
      exact hright
    · have hleft : x.Readable := (h.left x rfl).resolve_left hx
      rw [operands_of_shown hx]
      exact List.forall_mem_cons.2 ⟨hleft, hright⟩

theorem space_not_mem_words (m : Mnemonic) {l : List Operand} (h : ∀ o ∈ l, o.Readable) :
    ∀ w ∈ words m l, ' ' ∉ w := by
  have hm := m.space_not_mem_text
  match l with
  | [] => simpa [words] using hm
  | [x] =>
    have hx := (h x List.mem_cons_self).solid
    simpa [words] using ⟨hm, hx⟩
  | x :: y :: _ =>
    have hx := (h x List.mem_cons_self).solid
    have hy := (h y (List.mem_cons_of_mem x List.mem_cons_self)).solid
    simpa [words] using ⟨hm, hx, hy⟩

theorem length_operands_le (l : Listing) : l.operands.length ≤ 2 := by
  have hlength (o : Option Operand) : o.toList.length ≤ 1 := by
    cases o with
    | none => exact Nat.zero_le 1
    | some x => exact Nat.le_refl 1
  have hl := hlength l.left
  have hr := hlength l.right
  unfold operands
  split
  · omega
  · rw [List.length_append]
    omega

end Listing

section Tables

def Place.ofOperand? (o : Operand) : Option Place :=
  [.b, .c, .d, .e, .h, .l, .atHl, .a].find? (·.operand = o)

def Pair.ofOperand? (o : Operand) : Option Pair := [.bc, .de, .hl, .sp].find? (·.operand = o)

def StackPair.ofOperand? (o : Operand) : Option StackPair :=
  [.bc, .de, .hl, .af].find? (·.operand = o)

def Pointer.ofOperand? (o : Operand) : Option Pointer :=
  [.bc, .de, .hlUp, .hlDown].find? (·.operand = o)

def Condition.ofOperand? (o : Operand) : Option Condition :=
  [.nz, .z, .nc, .c].find? fun condition => (Operand.condition (some condition)).asRead = o

def ByteOp.ofMnemonic? (m : Mnemonic) : Option ByteOp :=
  [.add, .adc, .sub, .sbc, .and, .xor, .or, .cp].find? (·.mnemonic = m)

def Shift.ofMnemonic? (m : Mnemonic) : Option Shift :=
  [.rlc, .rrc, .rl, .rr, .sla, .sra, .swap, .srl].find? (·.mnemonic = m)

def AccumulatorRotation.ofMnemonic? (m : Mnemonic) : Option AccumulatorRotation :=
  [.rlca, .rrca, .rla, .rra].find? (·.mnemonic = m)

def bitOfOperand? (v : UInt8) : Option (Fin 8) :=
  (List.finRange 8).find? fun bit => UInt8.ofNat bit = v

def slotOfTarget? (v : UInt8) : Option (Fin 8) :=
  (List.finRange 8).find? (Instruction.restartTarget · = v)

end Tables

namespace Instruction
open Listing

def bare? : Mnemonic → Option Instruction
  | .nop => some .nop
  | .halt => some .halt
  | .di => some .disableInterrupts
  | .ei => some .enableInterrupts
  | .daa => some .decimalAdjust
  | .cpl => some .complement
  | .scf => some .setCarry
  | .ccf => some .flipCarry
  | .ret => some (.ret none)
  | .reti => some .reti
  | m => (AccumulatorRotation.ofMnemonic? m).map .rotateA

/-- Instructions with one operand; what is left over are the shifts. -/
def unary? : Mnemonic → Operand → Option Instruction
  | .stop, .byte v _ => some (.stop v)
  | .inc, x => (Place.ofOperand? x).map .inc <|> (Pair.ofOperand? x).map .incWord
  | .dec, x => (Place.ofOperand? x).map .dec <|> (Pair.ofOperand? x).map .decWord
  | .jr, .offset e => some (.jumpRelative none e)
  | .jp, .word v _ => some (.jump none v)
  | .jp, .wordRegister _ _ => some .jumpHl
  | .call, .word v _ => some (.call none v)
  | .ret, x => (Condition.ofOperand? x).map (.ret ∘ some)
  | .rst, .byte v _ => (slotOfTarget? v).map .restart
  | .push, x => (StackPair.ofOperand? x).map .push
  | .pop, x => (StackPair.ofOperand? x).map .pop
  | m, x => do return .shift (← Shift.ofMnemonic? m) (← Place.ofOperand? x)

def load? : Operand → Operand → Option Instruction
  | .word v _, .byteRegister _ _ => some (.storeAAt v)
  | .word v _, _ => some (.storeSp v)
  | .byteRegister .c ⟨_, true, _, _⟩, _ => some .storeAHighC
  | _, .byteRegister .c ⟨_, true, _, _⟩ => some .fetchAHighC
  | _, .word v ⟨_, true, _, _⟩ => some (.fetchAAt v)
  | x, .word v _ => (Pair.ofOperand? x).map (.loadWord · v)
  | x, .byte v _ => (Place.ofOperand? x).map (.loadImmediate · v)
  | _, .displaced _ e _ => some (.loadHlSp e)
  | .wordRegister .sp _, _ => some .loadSpHl
  | x, y =>
    (Pointer.ofOperand? x).map .storeA <|> (Pointer.ofOperand? y).map .fetchA <|>
      do return .load (← Place.ofOperand? x) (← Place.ofOperand? y)

/-- Instructions with two operands; what is left over works on the accumulator. -/
def binary? : Mnemonic → Operand → Operand → Option Instruction
  | .ld, x, y => load? x y
  | .ldh, .byte v _, _ => some (.storeAHigh v)
  | .ldh, _, .byte v _ => some (.fetchAHigh v)
  | .jr, x, .offset e => (Condition.ofOperand? x).map fun tested => .jumpRelative (some tested) e
  | .jp, x, .word v _ => (Condition.ofOperand? x).map fun tested => .jump (some tested) v
  | .call, x, .word v _ => (Condition.ofOperand? x).map fun tested => .call (some tested) v
  | .bit, .bit v, y => do return .testBit (← bitOfOperand? v) (← Place.ofOperand? y)
  | .res, .bit v, y => do return .resetBit (← bitOfOperand? v) (← Place.ofOperand? y)
  | .set, .bit v, y => do return .setBit (← bitOfOperand? v) (← Place.ofOperand? y)
  | .add, .wordRegister _ _, .offset e => some (.addSp e)
  | .add, .wordRegister _ _, y => (Pair.ofOperand? y).map .addHl
  | m, _, .byte v _ => (ByteOp.ofMnemonic? m).map (.byteOpImmediate · v)
  | m, _, y => do return .byteOp (← ByteOp.ofMnemonic? m) (← Place.ofOperand? y)

def ofOperands? (m : Mnemonic) : List Operand → Option Instruction
  | [] => bare? m
  | [x] => unary? m x
  | [x, y] => binary? m x y
  | _ => none

theorem ofOperands?_listing (i : Instruction) :
    ofOperands? i.listing.mnemonic (i.listing.operands.map Operand.asRead) = some i := by
  cases i with
  | rotateA op => cases op <;> rfl
  | load t s => cases t <;> cases s <;> rfl
  | loadImmediate t v | inc t | dec t => cases t <;> rfl
  | loadWord t v | incWord t | decWord t | addHl t => cases t <;> rfl
  | storeA t | fetchA t => cases t <;> rfl
  | byteOp op s => cases op <;> cases s <;> rfl
  | byteOpImmediate op v => cases op <;> rfl
  | shift op t => cases op <;> cases t <;> rfl
  | testBit n t | resetBit n t | setBit n t =>
    revert n
    cases t <;> decide
  | jumpRelative condition _ | jump condition _ | call condition _ | ret condition =>
    cases condition with
    | none => rfl
    | some tested => cases tested <;> rfl
  | restart n =>
    revert n
    decide
  | push s | pop s => cases s <;> rfl
  | _ => rfl

theorem legible_listing (i : Instruction) : i.listing.Legible := by
  have ha := Operand.readable_of_place .a
  have hhl := Operand.readable_of_pair .hl
  have hsp := Operand.readable_of_pair .sp
  have hc : (Operand.byteRegister .c .memory).Readable := by decide +kernel
  have hbyte (v : UInt8) := Operand.readable_byte v (.inl rfl)
  have hword (v : UInt16) := Operand.readable_word v (.inl rfl)
  have hcell (v : UInt8) := Operand.readable_byte v (.inr rfl)
  have hwide (v : UInt16) := Operand.readable_word v (.inr rfl)
  cases i with
  | stop v => exact legible_unary (hbyte v)
  | restart n => exact legible_unary (hbyte _)
  | load t s => exact legible_binary (Operand.readable_of_place t) (Operand.readable_of_place s)
  | loadImmediate t v => exact legible_binary (Operand.readable_of_place t) (hbyte v)
  | loadWord t v => exact legible_binary (Operand.readable_of_pair t) (hword v)
  | storeA t => exact legible_binary (Operand.readable_of_pointer t) ha
  | fetchA s => exact legible_binary ha (Operand.readable_of_pointer s)
  | storeAAt v => exact legible_binary (hwide v) ha
  | fetchAAt v => exact legible_binary ha (hwide v)
  | storeAHigh v => exact legible_binary (hcell v) ha
  | fetchAHigh v => exact legible_binary ha (hcell v)
  | storeAHighC => exact legible_binary hc ha
  | fetchAHighC => exact legible_binary ha hc
  | storeSp v => exact legible_binary (hwide v) hsp
  | loadSpHl => exact legible_binary hsp hhl
  | loadHlSp e => exact legible_binary hhl (Operand.readable_displaced e)
  | inc t | dec t => exact legible_unary (Operand.readable_of_place t)
  | incWord t | decWord t => exact legible_unary (Operand.readable_of_pair t)
  | addHl s => exact legible_binary hhl (Operand.readable_of_pair s)
  | addSp e => exact legible_binary hsp (Operand.readable_offset e)
  | byteOp op s => exact legible_binary ha (Operand.readable_of_place s)
  | byteOpImmediate op v => exact legible_binary ha (hbyte v)
  | shift op t => exact legible_unary (Operand.readable_of_place t)
  | testBit n t | resetBit n t | setBit n t =>
    exact legible_binary (Operand.readable_bit n) (Operand.readable_of_place t)
  | jumpRelative condition e =>
    exact legible_branch condition fun _ h => Option.some.inj h ▸ Operand.readable_offset e
  | jump condition v | call condition v =>
    exact legible_branch condition fun _ h => Option.some.inj h ▸ hword v
  | jumpHl => exact legible_branch none fun _ h => Option.some.inj h ▸ hhl
  | ret condition => exact legible_branch condition nofun
  | push s | pop s => exact legible_unary (Operand.readable_of_stackPair s)
  | _ => exact legible_bare

/-- Reads the words of a line; a first operand has a comma behind it if a second one follows. -/
def ofWords? : List (List Char) → Option Instruction
  | [m] => do ofOperands? (← Mnemonic.ofText? m) []
  | [m, x] => do ofOperands? (← Mnemonic.ofText? m) [← Operand.ofText? x]
  | [m, x, y] => do
    ofOperands? (← Mnemonic.ofText? m) [← Operand.ofText? x.dropLast, ← Operand.ofText? y]
  | _ => none

theorem ofWords?_words (m : Mnemonic) {l : List Operand} (hl : l.length ≤ 2)
    (h : ∀ o ∈ l, o.Readable) :
    ofWords? (words m l) = ofOperands? m (l.map Operand.asRead) := by
  match l with
  | [] =>
    simp only [words, ofWords?, m.ofText?_text]
    rfl
  | [x] =>
    have hx := (h x List.mem_cons_self).read
    simp only [words, ofWords?, m.ofText?_text, hx]
    rfl
  | [x, y] =>
    have hx := (h x List.mem_cons_self).read
    have hy := (h y (List.mem_cons_of_mem x List.mem_cons_self)).read
    simp only [words, ofWords?, m.ofText?_text, List.dropLast_concat, hx, hy]
    rfl
  | x :: y :: z :: l =>
    simp only [List.length_cons] at hl
    omega

def ofText? (line : String) : Option Instruction := ofWords? (line.toList.splitOn ' ')

/-- Every instruction is read back from its own text. -/
theorem ofText?_text (i : Instruction) : ofText? i.text = some i := by
  have hlegible := i.legible_listing
  have hreadable := hlegible.operands
  have hne : words i.listing.mnemonic i.listing.operands ≠ [] := by
    unfold words
    split <;> exact List.cons_ne_nil _ _
  have hwords : i.text.toList.splitOn ' ' =
      words i.listing.mnemonic i.listing.operands := by
    rw [text, toList_text _ hlegible.filled]
    exact List.splitOn_intercalate ' ' (space_not_mem_words _ hreadable) hne
  rw [ofText?, hwords, ofWords?_words _ i.listing.length_operands_le hreadable,
    ofOperands?_listing]

end Instruction
end DotMatrix
