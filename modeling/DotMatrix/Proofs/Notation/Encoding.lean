import Mathlib.Tactic.IntervalCases
import DotMatrix.Board.Basic
import DotMatrix.Processor.Execution
import DotMatrix.Proofs.Grid.Arithmetic
import DotMatrix.Proofs.Notation.Reading

/-! # The encoding of an instruction

The bytes that an instruction is decoded from: an opcode put together from its block, row and
column, and operands with the lower byte first.
-/
namespace DotMatrix

section Codes

def Place.code : Place → Nat
  | .b => 0
  | .c => 1
  | .d => 2
  | .e => 3
  | .h => 4
  | .l => 5
  | .atHl => 6
  | .a => 7

def Pair.code : Pair → Nat
  | .bc => 0
  | .de => 1
  | .hl => 2
  | .sp => 3

def StackPair.code : StackPair → Nat
  | .bc => 0
  | .de => 1
  | .hl => 2
  | .af => 3

def Pointer.code : Pointer → Nat
  | .bc => 0
  | .de => 1
  | .hlUp => 2
  | .hlDown => 3

def Condition.code : Condition → Nat
  | .nz => 0
  | .z => 1
  | .nc => 2
  | .c => 3

def ByteOp.code : ByteOp → Nat
  | .add => 0
  | .adc => 1
  | .sub => 2
  | .sbc => 3
  | .and => 4
  | .xor => 5
  | .or => 6
  | .cp => 7

def Shift.code : Shift → Nat
  | .rlc => 0
  | .rrc => 1
  | .rl => 2
  | .rr => 3
  | .sla => 4
  | .sra => 5
  | .swap => 6
  | .srl => 7

def AccumulatorRotation.code : AccumulatorRotation → Nat
  | .rlca => 0
  | .rrca => 1
  | .rla => 2
  | .rra => 3

theorem Place.code_ofCode (n : Nat) : (Place.ofCode n).code = n % 8 := by
  have h : n % 8 < 8 := Nat.mod_lt _ (by decide)
  unfold ofCode
  interval_cases n % 8 <;> rfl

theorem ByteOp.code_ofCode (n : Nat) : (ByteOp.ofCode n).code = n % 8 := by
  have h : n % 8 < 8 := Nat.mod_lt _ (by decide)
  unfold ofCode
  interval_cases n % 8 <;> rfl

end Codes

namespace Instruction

def opcode (block row column : Nat) : UInt8 := UInt8.ofNat (64 * block + 8 * row + column)

def littleEndian (w : UInt16) : List UInt8 := [Word.low w, Word.high w]

def bytes : Instruction → List UInt8
  | .nop => [opcode 0 0 0]
  | .storeSp w => opcode 0 1 0 :: littleEndian w
  | .stop v => [opcode 0 2 0, v]
  | .jumpRelative none e => [opcode 0 3 0, e.toUInt8]
  | .jumpRelative (some condition) e => [opcode 0 (4 + condition.code) 0, e.toUInt8]
  | .loadWord t w => opcode 0 (2 * t.code) 1 :: littleEndian w
  | .addHl s => [opcode 0 (2 * s.code + 1) 1]
  | .storeA t => [opcode 0 (2 * t.code) 2]
  | .fetchA s => [opcode 0 (2 * s.code + 1) 2]
  | .incWord t => [opcode 0 (2 * t.code) 3]
  | .decWord t => [opcode 0 (2 * t.code + 1) 3]
  | .inc t => [opcode 0 t.code 4]
  | .dec t => [opcode 0 t.code 5]
  | .loadImmediate t v => [opcode 0 t.code 6, v]
  | .rotateA op => [opcode 0 op.code 7]
  | .decimalAdjust => [opcode 0 4 7]
  | .complement => [opcode 0 5 7]
  | .setCarry => [opcode 0 6 7]
  | .flipCarry => [opcode 0 7 7]
  | .halt => [opcode 1 6 6]
  | .load t s => [opcode 1 t.code s.code]
  | .byteOp op s => [opcode 2 op.code s.code]
  | .ret (some condition) => [opcode 3 condition.code 0]
  | .storeAHigh v => [opcode 3 4 0, v]
  | .addSp e => [opcode 3 5 0, e.toUInt8]
  | .fetchAHigh v => [opcode 3 6 0, v]
  | .loadHlSp e => [opcode 3 7 0, e.toUInt8]
  | .pop t => [opcode 3 (2 * t.code) 1]
  | .ret none => [opcode 3 1 1]
  | .reti => [opcode 3 3 1]
  | .jumpHl => [opcode 3 5 1]
  | .loadSpHl => [opcode 3 7 1]
  | .jump (some condition) w => opcode 3 condition.code 2 :: littleEndian w
  | .storeAHighC => [opcode 3 4 2]
  | .storeAAt w => opcode 3 5 2 :: littleEndian w
  | .fetchAHighC => [opcode 3 6 2]
  | .fetchAAt w => opcode 3 7 2 :: littleEndian w
  | .jump none w => opcode 3 0 3 :: littleEndian w
  | .shift op t => [opcode 3 1 3, opcode 0 op.code t.code]
  | .testBit n s => [opcode 3 1 3, opcode 1 n s.code]
  | .resetBit n t => [opcode 3 1 3, opcode 2 n t.code]
  | .setBit n t => [opcode 3 1 3, opcode 3 n t.code]
  | .disableInterrupts => [opcode 3 6 3]
  | .enableInterrupts => [opcode 3 7 3]
  | .call (some condition) w => opcode 3 condition.code 4 :: littleEndian w
  | .push s => [opcode 3 (2 * s.code) 5]
  | .call none w => opcode 3 1 5 :: littleEndian w
  | .byteOpImmediate op v => [opcode 3 op.code 6, v]
  | .restart n => [opcode 3 n 7]

section Decoding
variable {second third : UInt8}

theorem littleEndian_join : littleEndian (Word.join third second) = [second, third] := by
  rw [littleEndian, Word.low_join, Word.high_join]

theorem opcode_eq (op : UInt8) :
    opcode (op.toNat / 64) (op.toNat / 8 % 8) (op.toNat % 8) = op := by
  have h : 64 * (op.toNat / 64) + 8 * (op.toNat / 8 % 8) + op.toNat % 8 = op.toNat := by omega
  rw [opcode, h, UInt8.ofNat_toNat]

theorem bytes_escaped (code : UInt8) : (escaped code).bytes = [0xcb, code] :=
  Grid.forall_byte (P := fun code => (escaped code).bytes = [0xcb, code]) (by decide +kernel) code

theorem length_escaped (code : UInt8) : (escaped code).length = 2 := by
  unfold escaped
  split <;> rfl

theorem bytes_firstBlock {row column : Nat} (hr : row < 8) (hc : column < 8) :
    let i := firstBlock row column second (Word.join third second)
    i.bytes = [opcode 0 row column, second, third].take i.length := by
  interval_cases column <;> interval_cases row
  all_goals
    first
    | rfl
    | simp only [firstBlock]
      exact congrArg (opcode _ _ _ :: ·) littleEndian_join

theorem bytes_lastBlock? {row column : Nat} (hr : row < 8) (hc : column < 8) {i : Instruction}
    (h : lastBlock? row column second (Word.join third second) = some i) :
    i.bytes = [opcode 3 row column, second, third].take i.length := by
  interval_cases column <;> interval_cases row
  all_goals
    first
    | cases h; rfl
    | cases h; exact congrArg (opcode _ _ _ :: ·) littleEndian_join
    | cases h

theorem bytes_load (row column : Nat) :
    (load (.ofCode row) (.ofCode column)).bytes = [opcode 1 (row % 8) (column % 8)] := by
  rw [bytes, Place.code_ofCode, Place.code_ofCode]

theorem bytes_byteOp (row column : Nat) :
    (byteOp (.ofCode row) (.ofCode column)).bytes = [opcode 2 (row % 8) (column % 8)] := by
  rw [bytes, ByteOp.code_ofCode, Place.code_ofCode]

theorem bytes_ofBytes? {op : UInt8} {i : Instruction} (h : ofBytes? op second third = some i) :
    i.bytes = [op, second, third].take i.length := by
  have hr : op.toNat / 8 % 8 < 8 := Nat.mod_lt _ (by decide)
  have hc : op.toNat % 8 < 8 := Nat.mod_lt _ (by decide)
  have hblock : op.toNat / 64 < 4 := by
    have := op.toNat_lt
    omega
  have hop := opcode_eq op
  by_cases hescape : op = 0xcb
  · subst hescape
    obtain rfl : escaped second = i := by simpa [ofBytes?] using h
    rw [bytes_escaped, length_escaped]
    rfl
  simp only [ofBytes?, if_neg hescape] at h
  generalize hrow : op.toNat / 8 % 8 = row at *
  generalize hcolumn : op.toNat % 8 = column at *
  generalize op.toNat / 64 = block at *
  interval_cases block
  case «0» =>
    cases h
    rw [← hop]
    exact bytes_firstBlock hr hc
  case «1» =>
    by_cases hhalt : op = 0x76
    · subst hhalt
      cases h
      rfl
    · rw [if_neg hhalt] at h
      cases h
      rw [bytes_load, Nat.mod_eq_of_lt hr, Nat.mod_eq_of_lt hc, hop]
      rfl
  case «2» =>
    cases h
    rw [bytes_byteOp, Nat.mod_eq_of_lt hr, Nat.mod_eq_of_lt hc, hop]
    rfl
  case «3» =>
    rw [← hop]
    exact bytes_lastBlock? hr hc h

end Decoding

section Disassembly
variable {memory : UInt16 → UInt8} {address : UInt16} {i : Instruction}

/-- Bytes of a memory from an address on; addresses wrap at sixteen bits. -/
def bytesFrom (memory : UInt16 → UInt8) (address : UInt16) (n : Nat) : List UInt8 :=
  (List.range n).map fun k => memory (address + UInt16.ofNat k)

theorem length_le (i : Instruction) : i.length ≤ 3 := by
  unfold length
  split <;> decide

theorem take_bytesFrom {n m : Nat} (h : n ≤ m) :
    (bytesFrom memory address m).take n = bytesFrom memory address n := by
  rw [bytesFrom, ← List.map_take, List.take_range, Nat.min_eq_left h, bytesFrom]

theorem bytes_at? (h : at? memory address = some i) :
    i.bytes = bytesFrom memory address i.length := by
  rw [bytes_ofBytes? h, ← take_bytesFrom i.length_le]
  simp [bytesFrom, List.range_succ]

/-- A line of disassembly stands for one encoding. Reading it gives back the bytes in memory that it
was made from, and so two lines agree only where the bytes do. -/
theorem notation_is_unambiguous {b c : Board} {p q : UInt16} {i j : Instruction}
    (hi : Machine.decode b p = .ok i) (hj : Machine.decode c q = .ok j) :
    (ofText? i.text).map bytes = some (bytesFrom b.peek p i.length) ∧
      (i.text = j.text → i.length = j.length ∧
        ∀ k < i.length, b.peek (p + UInt16.ofNat k) = c.peek (q + UInt16.ofNat k)) := by
  have hb : i.bytes = bytesFrom b.peek p i.length := bytes_at? (Machine.decode_eq_ok_iff.1 hi)
  have hc : j.bytes = bytesFrom c.peek q j.length := bytes_at? (Machine.decode_eq_ok_iff.1 hj)
  refine ⟨by rw [ofText?_text, Option.map_some, hb], fun htext => ?_⟩
  obtain rfl : i = j := by
    simpa [ofText?_text] using congrArg ofText? htext
  exact ⟨rfl, fun k hk => List.map_inj_left.1 (hb.symm.trans hc) k (List.mem_range.2 hk)⟩

/-- A branch at the start of a cartridge, and the same branch across the end of memory. -/
theorem notation_is_unambiguous_wrapping :
    let b := Board.new #[] (.rom #[0x20, 0xfe])
    let c := { Board.new #[] (.rom #[0xfe]) with memory := Memory.cleared.set 0xffff 0x20 }
    let i := jumpRelative (some .nz) (-2)
    Machine.decode b 0 = .ok i ∧ Machine.decode c 0xffff = .ok i ∧
      (ofText? i.text).map bytes = some (bytesFrom b.peek 0 2) ∧
      ∀ k < 2, b.peek (0 + UInt16.ofNat k) = c.peek (0xffff + UInt16.ofNat k) := by
  intro b c i
  have hb : Machine.decode b 0 = .ok i := by
    have hopcode : b.peek 0 = 0x20 := rfl
    have hoperand : b.peek 1 = 0xfe := rfl
    refine Machine.decode_eq_ok_iff.2 ?_
    change ofBytes? (b.peek 0) (b.peek 1) (b.peek 2) = some i
    rw [hopcode, hoperand]
    rfl
  have hc : Machine.decode c 0xffff = .ok i := by
    have hopcode : c.peek 0xffff = 0x20 := Memory.get_set_self _ _ _
    have hoperand : c.peek 0 = 0xfe := rfl
    refine Machine.decode_eq_ok_iff.2 ?_
    change ofBytes? (c.peek 0xffff) (c.peek 0) (c.peek 1) = some i
    rw [hopcode, hoperand]
    rfl
  obtain ⟨hread, hsame⟩ := notation_is_unambiguous hb hc
  exact ⟨hb, hc, hread, (hsame rfl).2⟩

end Disassembly
end Instruction
end DotMatrix
