import DotMatrix.Proofs.Grid.Tables

/-! # The processor follows the opcode grid

Operands first: the tables of the grid pick what the decoder's operand codes name. Then the rows:
each of them does what the instruction does that the decoder reads in its place. Lengths and cycles
are compared opcode by opcode.
-/
namespace DotMatrix.Grid

section Operands
variable (s : State) (r : Registers)

theorem cc_eq_holds (f : Flags) (i : Fin 4) : cc f i = (Condition.ofCode i).holds f := by
  match i with
  | 0 | 1 | 2 | 3 => rfl

theorem rp_eq_ofPair (i : Fin 4) : rp r i = r.ofPair (Pair.ofCode i) := by
  match i with
  | 0 | 1 | 2 => exact word_eq_join _ _
  | 3 => rfl

theorem rp_two : rp r 2 = r.hl := word_eq_join _ _

theorem setRp_eq_setPair (i : Fin 4) (w : UInt16) : setRp r i w = r.setPair (Pair.ofCode i) w := by
  match i with
  | 0 | 1 | 2 => simp only [setRp, upper_eq_high, lower_eq_low]; rfl
  | 3 => rfl

theorem setRp_two (w : UInt16) : setRp r 2 w = r.setHl w := setRp_eq_setPair r 2 w

theorem rp2_eq_ofStackPair (i : Fin 4) : rp2 r i = r.ofStackPair (StackPair.ofCode i) := by
  match i with
  | 0 | 1 | 2 => exact word_eq_join _ _
  | 3 => simp only [rp2, word_eq_join, packed_eq_toByte]; rfl

theorem setRp2_eq_setStackPair (i : Fin 4) (w : UInt16) :
    setRp2 r i w = r.setStackPair (StackPair.ofCode i) w := by
  match i with
  | 0 => exact setRp_eq_setPair r 0 w
  | 1 => exact setRp_eq_setPair r 1 w
  | 2 => exact setRp_eq_setPair r 2 w
  | 3 => simp only [setRp2, upper_eq_high, lower_eq_low, unpacked_eq_ofByte]; rfl

theorem storeWord_eq_writeWord (address w : UInt16) :
    storeWord s address w = { s with bus := Bus.writeWord s.bus address w } := by
  simp only [storeWord, upper_eq_high, lower_eq_low]
  rfl

theorem get_eq_readPlace (i : Fin 8) : get s i = s.readPlace (Place.ofCode i) := by
  match i with
  | 0 | 1 | 2 | 3 | 4 | 5 | 7 => rfl
  | 6 => exact congrArg (load s) (rp_two _)

theorem put_eq_writePlace (i : Fin 8) (v : UInt8) :
    put s i v = s.writePlace (Place.ofCode i) v := by
  match i with
  | 0 | 1 | 2 | 3 | 4 | 5 | 7 => rfl
  | 6 => exact congrArg (store s · v) (rp_two _)

theorem modify_eq_updatePlace (i : Fin 8) (f : UInt8 → Flags → UInt8 × Flags) :
    modify s i f = s.updatePlace (Place.ofCode i) f := by
  simp only [modify, get_eq_readPlace, put_eq_writePlace]
  rfl

theorem replace_eq_mapPlace (i : Fin 8) (f : UInt8 → UInt8) :
    replace s i f = s.mapPlace (Place.ofCode i) f := by
  simp only [replace, get_eq_readPlace, put_eq_writePlace]
  rfl

theorem accumulate_eq (i : Fin 8) (v : UInt8) :
    accumulate s i v = s.mapRegisters (Arithmetic.accumulate (ByteOp.ofCode i) v) := by
  by_cases h : ByteOp.ofCode i = .cp
  · simp only [accumulate, alu_eq_apply, if_pos h, Machine.mapRegisters, Arithmetic.accumulate]
  · simp only [accumulate, alu_eq_apply, if_neg h, Machine.mapRegisters, Arithmetic.accumulate]

theorem push_eq (w : UInt16) : push s w = s.push w := by
  simp only [push, storeWord_eq_writeWord]
  rfl

theorem pop_eq : pop s = s.pop := by
  simp only [pop, word_eq_join]
  rfl

theorem call_eq (target : UInt16) : call s target = s.call target := by
  simp only [call, push_eq]
  rfl

theorem ret_eq : ret s = s.ret := by
  simp only [ret, pop_eq]
  rfl

theorem jumpBy_eq (e : UInt8) :
    jumpBy s e = s.jump (s.registers.pc + Word.displacement e.toInt8) := by
  simp only [jumpBy, ofNat_add_signed]
  rfl

end Operands

theorem complement_eq (v : UInt8) : 255 - v = ~~~v :=
  forall_byte (P := fun v => 255 - v = ~~~v) (by decide +kernel) v

theorem accumulatorRow_eq (row : Fin 8) (s : State) :
    { s with cpu.registers := accumulatorRow row s.cpu.registers } =
      s.perform (Instruction.accumulatorRow row) := by
  have hr (i : Fin 8) (a : UInt8) (c : Bool) := rot_eq_shift i a c
  match row with
  | 0 => simp only [accumulatorRow, hr]; rfl
  | 1 => simp only [accumulatorRow, hr]; rfl
  | 2 => simp only [accumulatorRow, hr]; rfl
  | 3 => simp only [accumulatorRow, hr]; rfl
  | 4 => simp only [accumulatorRow, daa_eq_decimalAdjust]; rfl
  | 5 => simp only [accumulatorRow, complement_eq]; rfl
  | 6 => rfl
  | 7 => rfl

section Rows
variable (s : State) (n : UInt8) (nn : UInt16)

theorem block0_column1 (row : Fin 8) :
    block0 row 1 n nn s = s.perform (Instruction.firstBlock row 1 n nn) := by
  let p : Fin 4 := ⟨row / 2, by omega⟩
  have hp : rp s.registers (row / 2) = s.registers.ofPair (.ofCode (row / 2)) := rp_eq_ofPair _ p
  simp only [block0, Instruction.firstBlock]
  split
  · exact congrArg (fun r => s.mapRegisters fun _ => r) (setRp_eq_setPair s.registers p nn)
  · simp only [hp, rp_two, setRp_two, wordSum_eq_addWord]
    rfl

theorem stepped_eq_movePointer (r : Registers) (p : Fin 4) :
    stepped r p = r.movePointer (Pointer.ofCode p) := by
  match p with
  | 0 | 1 => rfl
  | 2 | 3 =>
    simp only [stepped, rp_two, setRp_two]
    rfl

theorem rp_eq_pointer (r : Registers) (p : Fin 4) :
    rp r (min p 2) = r.pointer (Pointer.ofCode p) := by
  match p with
  | 0 => exact rp_eq_ofPair r 0
  | 1 => exact rp_eq_ofPair r 1
  | 2 | 3 => exact rp_eq_ofPair r 2

theorem block0_column2 (row : Fin 8) :
    block0 row 2 n nn s = s.perform (Instruction.firstBlock row 2 n nn) := by
  let p : Fin 4 := ⟨row / 2, by omega⟩
  have hm (r : Registers) : stepped r (row / 2) = r.movePointer (.ofCode (row / 2)) :=
    stepped_eq_movePointer r p
  have hp : rp s.registers (min (row / 2) 2) = s.registers.pointer (.ofCode (row / 2)) :=
    rp_eq_pointer _ p
  simp only [block0, Instruction.firstBlock, hm, hp]
  split
  · rfl
  · rfl

theorem block0_column3 (row : Fin 8) :
    block0 row 3 n nn s = s.perform (Instruction.firstBlock row 3 n nn) := by
  let p : Fin 4 := ⟨row / 2, by omega⟩
  have hp : rp s.registers (row / 2) = s.registers.ofPair (.ofCode (row / 2)) := rp_eq_ofPair _ p
  have hs (w : UInt16) :
      setRp s.registers (row / 2) w = s.registers.setPair (.ofCode (row / 2)) w :=
    setRp_eq_setPair _ p w
  simp only [block0, Instruction.firstBlock, hp, hs]
  split
  · rfl
  · rfl

theorem block0_eq (row column : Fin 8) :
    block0 row column n nn s = s.perform (Instruction.firstBlock row column n nn) := by
  match column with
  | 0 =>
    match row with
    | 0 | 2 => rfl
    | 1 => exact storeWord_eq_writeWord s nn _
    | 3 | 4 | 5 | 6 | 7 => exact jumpBy_eq s n
  | 1 => exact block0_column1 s n nn row
  | 2 => exact block0_column2 s n nn row
  | 3 => exact block0_column3 s n nn row
  | 4 => exact (modify_eq_updatePlace s row _).trans (congrArg _ incremented_eq_inc)
  | 5 => exact (modify_eq_updatePlace s row _).trans (congrArg _ decremented_eq_dec)
  | 6 => exact put_eq_writePlace s row n
  | 7 => exact accumulatorRow_eq row s

theorem block1_eq (row column : Fin 8) :
    block1 row column s = s.perform (if row.val = 6 ∧ column.val = 6 then .halt
      else .load (.ofCode row) (.ofCode column)) := by
  simp only [block1, get_eq_readPlace, put_eq_writePlace]
  split
  · rfl
  · rfl

theorem block2_eq (row column : Fin 8) :
    block2 row column s = s.perform (.byteOp (.ofCode row) (.ofCode column)) := by
  simp only [block2, get_eq_readPlace, accumulate_eq]
  rfl

theorem highPage_eq (v : UInt8) : 0xff00 + v.toUInt16 = Machine.highPage v := by
  apply UInt16.toNat_inj.1
  simp [Machine.highPage, Word.join]

theorem block3_column0 (row : Fin 8) {i : Instruction}
    (h : Instruction.lastBlock? row 0 n nn = some i) : block3 row 0 n nn s = s.perform i := by
  match row with
  | 0 | 1 | 2 | 3 => cases h; exact ret_eq s
  | 4 => cases h; exact congrArg (s.write · s.registers.a) (highPage_eq n)
  | 5 => cases h; simp only [block3, moved_eq_displace]; rfl
  | 6 => cases h; exact congrArg s.loadA (highPage_eq n)
  | 7 => cases h; simp only [block3, moved_eq_displace, setRp_two]; rfl

theorem popPair_eq (p : Fin 4) :
    { (pop s).2 with cpu.registers := setRp2 (pop s).2.cpu.registers p (pop s).1 } =
      s.perform (.pop (.ofCode p)) := by
  rw [setRp2_eq_setStackPair, pop_eq]
  rfl

theorem block3_column1 (row : Fin 8) (m : MasterEnable) (cycles : Nat) {i : Instruction}
    (h : Instruction.lastBlock? row 1 n nn = some i) :
    finish (block3 row 1 n nn s) m cycles = finish (s.perform i) m cycles := by
  match row with
  | 0 => cases h; exact congrArg (finish · m cycles) (popPair_eq s 0)
  | 2 => cases h; exact congrArg (finish · m cycles) (popPair_eq s 1)
  | 4 => cases h; exact congrArg (finish · m cycles) (popPair_eq s 2)
  | 6 => cases h; exact congrArg (finish · m cycles) (popPair_eq s 3)
  | 1 => cases h; exact congrArg (finish · m cycles) (ret_eq s)
  | 3 =>
    cases h
    change finish (ret s) m cycles = finish s.ret m cycles
    rw [ret_eq]
  | 5 => cases h; exact congrArg (fun w => finish (jumpTo s w) m cycles) (rp_two _)
  | 7 =>
    cases h
    exact congrArg (fun w => finish { s with cpu.registers.sp := w } m cycles) (rp_two _)

theorem block3_column2 (row : Fin 8) {i : Instruction}
    (h : Instruction.lastBlock? row 2 n nn = some i) : block3 row 2 n nn s = s.perform i := by
  match row with
  | 0 | 1 | 2 | 3 | 5 | 7 => cases h; rfl
  | 4 => cases h; exact congrArg (s.write · s.registers.a) (highPage_eq s.registers.c)
  | 6 => cases h; exact congrArg s.loadA (highPage_eq s.registers.c)

theorem block3_column5 (row : Fin 8) {i : Instruction}
    (h : Instruction.lastBlock? row 5 n nn = some i) : block3 row 5 n nn s = s.perform i := by
  have hpush (p : Fin 4) := congrArg (push s) (rp2_eq_ofStackPair s.registers p)
  match row with
  | 0 => cases h; exact (hpush 0).trans (push_eq s _)
  | 2 => cases h; exact (hpush 1).trans (push_eq s _)
  | 4 => cases h; exact (hpush 2).trans (push_eq s _)
  | 6 => cases h; exact (hpush 3).trans (push_eq s _)
  | 1 => cases h; exact call_eq s nn
  | 3 | 5 | 7 => cases h

theorem restartTarget_eq (slot : Fin 8) :
    UInt16.ofNat (8 * slot) = (Instruction.restartTarget slot).toUInt16 := by
  decide +revert

/-- The rows of DI, EI and RETI leave the switch to the end of the step. -/
theorem block3_eq (row column : Fin 8) (m : MasterEnable) (cycles : Nat) {i : Instruction}
    (h : Instruction.lastBlock? row column n nn = some i) :
    finish (block3 row column n nn s) m cycles = finish (s.perform i) m cycles := by
  match column with
  | 0 => exact congrArg (finish · m cycles) (block3_column0 s n nn row h)
  | 1 => exact block3_column1 s n nn row m cycles h
  | 2 => exact congrArg (finish · m cycles) (block3_column2 s n nn row h)
  | 3 =>
    match row with
    | 0 | 6 | 7 => cases h; rfl
    | 1 | 2 | 3 | 4 | 5 => cases h
  | 4 =>
    match row with
    | 0 | 1 | 2 | 3 => cases h; exact congrArg (finish · m cycles) (call_eq s nn)
    | 4 | 5 | 6 | 7 => cases h
  | 5 => exact congrArg (finish · m cycles) (block3_column5 s n nn row h)
  | 6 => cases h; exact congrArg (finish · m cycles) (accumulate_eq s row n)
  | 7 =>
    cases h
    have hr : Fin.ofNat 8 row.val = row := Fin.ofNat_val_eq_self row
    simp only [hr]
    exact congrArg (finish · m cycles) ((call_eq s _).trans (congrArg _ (restartTarget_eq row)))

theorem testBit_eq (v : UInt8) (b : Fin 8) :
    (!v.toNat.testBit b) = (v &&& Machine.bitMask b == 0) :=
  forall_byte (P := fun v => ∀ b : Fin 8, (!v.toNat.testBit b) = (v &&& Machine.bitMask b == 0))
    (by decide +kernel) v b

theorem clearBit_eq (v : UInt8) (b : Fin 8) :
    (if v.toNat.testBit b then UInt8.ofNat (v.toNat - 2 ^ b.val) else v) =
      v &&& ~~~Machine.bitMask b :=
  forall_byte (P := fun v => ∀ b : Fin 8,
    (if v.toNat.testBit b then UInt8.ofNat (v.toNat - 2 ^ b.val) else v) =
      v &&& ~~~Machine.bitMask b) (by decide +kernel) v b

theorem raiseBit_eq (v : UInt8) (b : Fin 8) :
    (if v.toNat.testBit b then v else UInt8.ofNat (v.toNat + 2 ^ b.val)) =
      v ||| Machine.bitMask b :=
  forall_byte (P := fun v => ∀ b : Fin 8,
    (if v.toNat.testBit b then v else UInt8.ofNat (v.toNat + 2 ^ b.val)) =
      v ||| Machine.bitMask b) (by decide +kernel) v b

theorem ofCode_mod (k : Nat) : Place.ofCode (k % 8) = Place.ofCode k := by
  simp only [Place.ofCode, Nat.mod_mod]

theorem escaped_eq (code : UInt8) : escaped code s = s.perform (.escaped code) := by
  let row : Fin 8 := ⟨y code, y_lt code⟩
  let column : Fin 8 := ⟨z code, z_lt code⟩
  have hrow : Fin.ofNat 8 (code.toNat / 8 % 8) = row := by
    rw [← y_eq]
    exact Fin.ofNat_val_eq_self row
  have hplace : Place.ofCode code.toNat = Place.ofCode (z code) := by
    rw [z_eq, ofCode_mod]
  have hx : x code < 4 := by
    rw [x_eq]
    exact Nat.div_lt_of_lt_mul code.toNat_lt
  simp only [escaped, Instruction.escaped, ← x_eq, hrow, hplace]
  obtain hx | hx | hx | hx : x code = 0 ∨ x code = 1 ∨ x code = 2 ∨ x code = 3 := by omega
  all_goals rw [hx]
  · have hf : (fun (v : UInt8) (f : Flags) => rot (y code) v f.carry) =
        fun v f => Arithmetic.shift (.ofCode (y code)) v f.carry :=
      funext fun v => funext fun f => rot_eq_shift row v f.carry
    rw [hf, ← y_eq]
    exact modify_eq_updatePlace s column _
  · rw [show get s (z code) = s.readPlace (.ofCode (z code)) from get_eq_readPlace s column]
    exact congrArg (fun b => { (s.readPlace (.ofCode (z code))).2 with
      cpu.registers.f := ⟨b, false, true, (s.readPlace (.ofCode (z code))).2.registers.f.carry⟩ })
      (testBit_eq _ row)
  · exact (replace_eq_mapPlace s column _).trans
      (congrArg (s.mapPlace (.ofCode (z code))) (funext fun v => clearBit_eq v row))
  · exact (replace_eq_mapPlace s column _).trans
      (congrArg (s.mapPlace (.ofCode (z code))) (funext fun v => raiseBit_eq v row))

theorem eq_halt_iff (op : UInt8) (h : x op = 1) : op = 0x76 ↔ y op = 6 ∧ z op = 6 :=
  forall_byte (P := fun op => x op = 1 → (op = 0x76 ↔ y op = 6 ∧ z op = 6))
    (by decide +kernel) op h

/-- Apart from the switch, an opcode has the effect of the instruction it begins. -/
theorem effect_eq (op b c : UInt8) (m : MasterEnable) (spent : Nat) {i : Instruction}
    (h : Instruction.ofBytes? op b c = some i) :
    finish (effect op b (word c b) s) m spent = finish (s.perform i) m spent := by
  rw [word_eq_join]
  by_cases hcb : op = 0xcb
  · subst hcb
    cases h
    exact congrArg (finish · m spent) (escaped_eq s b)
  · let row : Fin 8 := ⟨y op, y_lt op⟩
    let column : Fin 8 := ⟨z op, z_lt op⟩
    simp only [Instruction.ofBytes?, if_neg hcb, ← x_eq, ← y_eq, ← z_eq] at h
    simp only [effect, if_neg hcb]
    cases hx : x op with
    | zero =>
      rw [hx] at h
      cases h
      exact congrArg (finish · m spent) (block0_eq s b _ row column)
    | succ k =>
      match k with
      | 0 =>
        simp only [hx, eq_halt_iff op hx] at h
        cases h
        exact congrArg (finish · m spent) (block1_eq s row column)
      | 1 =>
        rw [hx] at h
        cases h
        exact congrArg (finish · m spent) (block2_eq s row column)
      | _ + 2 =>
        rw [hx] at h
        exact block3_eq s b _ row column m spent h

theorem meets_eq (op b : UInt8) {i : Instruction}
    (h : ∀ m, i.traits m = traits m op b) :
    s.meets i.condition = (condition? op).all (cc s.cpu.registers.f) := by
  have hc : i.condition = (condition? op).map .ofCode := congrArg Traits.condition (h .off)
  rw [Machine.meets, hc]
  cases hk : condition? op with
  | none => rfl
  | some k => exact (cc_eq_holds _ ⟨k, condition?_lt hk⟩).symm

theorem spent_eq (op b : UInt8) (taken : Bool) {i : Instruction}
    (h : ∀ m, i.traits m = traits m op b) :
    (if taken then i.cost.taken else i.cost.notTaken.getD i.cost.taken) = cycles op b taken := by
  have hc : i.cost = (traits .off op b).cost := congrArg Traits.cost (h .off)
  rw [hc, traits]
  by_cases hk : condition? op = none
  · rw [if_pos hk]
    cases taken with
    | true => rfl
    | false => simp only [cycles, hk]; rfl
  · rw [if_neg hk]
    cases taken <;> rfl

/-- Executing an instruction behind its bytes is the effect of the opcode, if it is taken. -/
theorem finish_execute (op b c : UInt8) {i : Instruction}
    (hi : Instruction.ofBytes? op b c = some i) (h : ∀ m, i.traits m = traits m op b) :
    let taken := (condition? op).all (cc s.cpu.registers.f)
    let m := imeAfter op s.cpu.ime
    (s.execute i).1 = cycles op b taken ∧
      finish (s.execute i).2 m (s.execute i).1 =
        finish (if taken then effect op b (word c b) s else s) m (cycles op b taken) := by
  intro taken m
  have hs := spent_eq op b taken h
  have hm : s.meets i.condition = taken := meets_eq s op b h
  by_cases ht : taken = true
  · rw [if_pos ht] at hs
    rw [Machine.execute, if_pos (hm.trans ht), if_pos ht, ← hs]
    exact ⟨rfl, (effect_eq s op b c m _ hi).symm⟩
  · rw [if_neg ht] at hs
    rw [Machine.execute, if_neg (hm ▸ ht), if_neg ht, ← hs]
    exact ⟨rfl, rfl⟩

end Rows

/-- A step of a processor that is awake and stands before an instruction is a step of the grid. -/
theorem step_eq_grid (s : State) (awake : s.cpu.halted = false) (running : s.cpu.stopped = false)
    (h : s.bus.peek s.registers.pc ∉ holes) : s.step = .ok (step s) := by
  let pc := s.registers.pc
  let op := s.bus.peek pc
  let b := s.bus.peek (pc + 1)
  obtain ⟨i, hi, ht⟩ := exists_ofBytes? b (s.bus.peek (pc + 2)) h
  have hidle : s.cpu.idle = false := by simp [Cpu.idle, awake, running]
  have hdecode : Machine.decode s.bus pc = .ok i := by
    simp only [Machine.decode, Instruction.at?]
    exact hi ▸ rfl
  have hstep : s.step = .ok (s.proceed (some i)) := by
    simp only [Machine.step, Machine.fetch, hidle]
    exact congrArg (fun r => (r.map some).map s.proceed) hdecode
  have hlength : lengths.getD op.toNat 1 = i.length := (congrArg Traits.length (ht .off)).symm
  let t : State :=
    { s with
      cpu.instructionStart := pc
      cpu.registers.pc := pc + UInt16.ofNat (lengths.getD op.toNat 1) }
  have hswitch : Machine.settleIme s.cpu.ime (t.execute i).2.cpu.ime = imeAfter op s.cpu.ime := by
    rw [Machine.ime_execute, ← settleIme_switched s.cpu.ime op b]
    exact congrArg (Machine.settleIme _) (congrArg Traits.switched (ht s.cpu.ime))
  obtain ⟨hspent, hfinish⟩ := finish_execute t op b (s.bus.peek (pc + 2)) hi ht
  have hproceed : s.proceed (some i) = ((t.execute i).1,
      finish (t.execute i).2 (Machine.settleIme s.cpu.ime (t.execute i).2.cpu.ime)
        (t.execute i).1) := by
    simp only [t, hlength]
    rfl
  rw [hstep, hproceed, hswitch]
  exact congrArg Except.ok (Prod.ext hspent hfinish)

/-- `CALL $1234` at the start of a boot image. -/
theorem step_eq_grid_call :
    let s : State := ⟨.powerOn, Board.new #[0xcd, 0x34, 0x12] (.rom #[])⟩
    s.bus.peek s.registers.pc ∉ holes ∧ s.step = .ok (step s) ∧ (step s).1 = 24 ∧
      (step s).2.registers.pc = 0x1234 ∧ (step s).2.registers.sp = 0xfffe := by
  intro s
  have hb : s.bus.peek s.registers.pc ∉ holes := by decide
  have hs : s.step = .ok (step s) := step_eq_grid s rfl rfl hb
  refine ⟨hb, hs, ?_, ?_, ?_⟩
  · decide
  · decide
  · decide

end DotMatrix.Grid
