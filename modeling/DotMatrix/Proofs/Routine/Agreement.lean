import DotMatrix.Proofs.Grid.Correspondence
import DotMatrix.Proofs.Routine.Basic

/-! # Routines accept every instruction

The routine of a listing that belongs to an instruction never refuses it and does what the
instruction does, whatever the machine. Operands come first, then the routines that several
mnemonics share, then the instructions one by one.
-/
namespace DotMatrix.Routine

variable {β : Type}

section Runs
variable (s : Machine β) {α γ : Type}

@[simp]
theorem run_pure (a : α) : (pure a : Routine β α) s = .ok a s := rfl

@[simp]
theorem run_get : (get : Routine β (Machine β)) s = .ok s s := rfl

@[simp]
theorem run_set (t : Machine β) : (set t : Routine β PUnit) s = .ok ⟨⟩ t := rfl

@[simp]
theorem run_modify (f : Machine β → Machine β) : (modify f : Routine β Unit) s = .ok () (f s) := rfl

@[simp]
theorem run_bind (x : Routine β α) (f : α → Routine β γ) :
    (x >>= f) s = match x s with
      | .ok a t => f a t
      | .error e t => .error e t := by
  cases h : x s with
  | ok a t => simp only [bind, EStateM.bind, h]
  | error e t => simp only [bind, EStateM.bind, h]

@[simp]
theorem run_map (f : α → γ) (x : Routine β α) :
    (f <$> x) s = match x s with
      | .ok a t => .ok (f a) t
      | .error e t => .error e t := by
  cases h : x s with
  | ok a t => simp only [Functor.map, EStateM.map, h]
  | error e t => simp only [Functor.map, EStateM.map, h]

end Runs

section Values

@[simp]
theorem low_toUInt16 (v : UInt8) : Word.low v.toUInt16 = v := by
  simp [Word.low]

@[simp]
theorem readByte_a (r : Registers) : r.readByte .a = r.a := low_toUInt16 r.a

@[simp]
theorem writeByte_a (r : Registers) (v : UInt8) : r.writeByte .a v = { r with a := v } :=
  congrArg (fun a => { r with a }) (low_toUInt16 v)

theorem word_bitMask (n : Fin 8) :
    1 <<< (UInt8.ofNat n).toUInt16 = (Machine.bitMask n).toUInt16 := by
  revert n
  decide

theorem word_and_eq_zero (v mask : UInt8) :
    (v.toUInt16 &&& mask.toUInt16 == 0) = (v &&& mask == 0) := by
  rw [← UInt8.toUInt16_and]
  exact decide_eq_decide.2 (UInt8.toUInt16_inj (b := 0))

end Values

section Addresses
variable (s : Machine β)

theorem address?_pointer (p : Pointer) : address? s p.operand = some (s.registers.pointer p) := by
  cases p <;> rfl

theorem movePointer_pointer (p : Pointer) :
    movePointer s p.operand = s.mapRegisters (·.movePointer p) := by
  have moved : movePointer s p.operand =
      s.mapRegisters fun _ => s.registers.movePointer p := by
    cases p <;> rfl
  exact moved

theorem address?_high (v : UInt8) : address? s (.byte v .memory) = some (Machine.highPage v) :=
  congrArg some (Grid.highPage_eq v)

theorem address?_highC :
    address? s (.byteRegister .c .memory) = some (Machine.highPage s.registers.c) := by
  have hc : s.registers.readByte .c = s.registers.c := low_toUInt16 _
  have ha : address? s (.byteRegister .c .memory) =
    some (0xff00 + (s.registers.readByte .c).toUInt16) := rfl
  rw [ha, hc, Grid.highPage_eq]

end Addresses

variable [Bus β] (s : Machine β) (l : Listing)

section Operands

theorem readOperand_at {o : Operand} {address : UInt16} (h : address? s o = some address) :
    readOperand l o s =
      .ok (s.read address).1.toUInt16 (movePointer (s.read address).2 o) := by
  simp [readOperand, h]

theorem writeOperand_at {o : Operand} {address : UInt16} (h : address? s o = some address)
    (w : UInt16) :
    writeOperand l o w s = .ok () (movePointer (s.write address w.toUInt8) o) := by
  simp [writeOperand, h]

theorem readOperand_bit (n : UInt8) : readOperand l (.bit n) s = .ok n.toUInt16 s := rfl

theorem readOperand_place (p : Place) :
    readOperand l p.operand s = .ok (s.readPlace p).1.toUInt16 (s.readPlace p).2 := by
  have hb (r : Register) : readOperand l (.byteRegister r .immediate) s =
    .ok (s.registers.readByte r).toUInt16 s := rfl
  cases p with
  | atHl => rfl
  | _ =>
    refine (hb _).trans ?_
    simp only [Registers.readByte, Registers.readWord, low_toUInt16]
    rfl

theorem writeOperand_place (p : Place) (w : UInt16) :
    writeOperand l p.operand w s = .ok () (s.writePlace p w.toUInt8) := by
  have hb (r : Register) : writeOperand l (.byteRegister r .immediate) w s =
    .ok () (s.mapRegisters (·.writeByte r w.toUInt8)) := rfl
  cases p with
  | atHl => rfl
  | _ =>
    refine (hb _).trans ?_
    simp only [Registers.writeByte, Registers.writeWord, low_toUInt16]
    rfl

end Operands

section Loads

/-- A load to a place, once its listing is known not to be one of the two special loads. -/
theorem load_to_place (p : Place) (source : Operand) {v : UInt8} {t : Machine β}
    (hl : (load l : Routine β Unit) = readOperand l source >>= writeOperand l p.operand)
    (hr : readOperand l source s = .ok v.toUInt16 t) :
    load l s = .ok () (t.writePlace p v) := by
  have hw := writeOperand_place t l p v.toUInt16
  rw [UInt8.toUInt8_toUInt16] at hw
  rw [hl, run_bind, hr]
  exact hw

theorem load_to_a (source : Operand) {address : UInt16}
    (hl : (load l : Routine β Unit) = readOperand l source >>= writeOperand l Place.a.operand)
    (h : address? s source = some address) :
    load l s = .ok () ((movePointer (s.read address).2 source).writePlace .a (s.read address).1) :=
  load_to_place s l .a source hl (readOperand_at s l h)

theorem load_from_a (target : Operand) {address : UInt16}
    (hl : (load l : Routine β Unit) = readOperand l Place.a.operand >>= writeOperand l target)
    (h : address? s target = some address) :
    load l s = .ok () (movePointer (s.write address s.registers.a) target) := by
  have hw := writeOperand_at s l h s.registers.a.toUInt16
  rw [UInt8.toUInt8_toUInt16] at hw
  rw [hl, run_bind, readOperand_place]
  exact hw

end Loads

section Arithmetic

theorem moveByOne_place {p : Place} (h : l.left = some p.operand) (word : UInt16 → UInt16)
    (byte : UInt8 → Flags → UInt8 × Flags) :
    moveByOne l word byte s = .ok () (s.updatePlace p byte) := by
  have hp : (moveByOne l word byte : Routine β Unit) = (do
      let v := (← readOperand l p.operand).toUInt8
      let result := byte v (← get).flags
      writeOperand l p.operand result.1.toUInt16
      setFlags result.2) := by
    unfold moveByOne left
    rw [h]
    cases p <;> rfl
  rw [hp]
  simp only [run_bind, run_get, readOperand_place, writeOperand_place, UInt8.toUInt8_toUInt16,
    setFlags, run_modify]
  rfl

theorem shift_place {p : Place} (h : l.left = some p.operand) (op : Shift) :
    shift l op s = .ok () (s.updatePlace p fun v f => Arithmetic.shift op v f.carry) := by
  simp only [shift, left, h, run_bind, run_pure, run_get, readOperand_place, writeOperand_place,
    UInt8.toUInt8_toUInt16, setFlags, run_modify]
  rfl

theorem accumulate_of {op : ByteOp} {target source : Operand} {v : UInt8} {t : Machine β}
    (hm : l.mnemonic = op.mnemonic) (ht : l.left = some target) (hs : l.right = some source)
    (hr : readOperand l source s = .ok v.toUInt16 t) (ha : t.registers.a = s.registers.a) :
    accumulate l s = .ok () (t.mapRegisters (Arithmetic.accumulate op v)) := by
  cases op <;>
  · simp only [accumulate, operands, ht, hs, hm, hr, ByteOp.mnemonic, byteOperation?, writeByte,
      setFlags, run_bind, run_pure, run_get, readByte_a, writeByte_a, UInt8.toUInt8_toUInt16, ← ha]
    rfl

omit [Bus β] in
theorem rotateAccumulator_eq (op : Shift) :
    rotateAccumulator op s = .ok () (s.mapRegisters fun r =>
      let (result, flags) := Arithmetic.shift op r.a r.f.carry
      { r with a := result, f := { flags with zero := false } }) := by
  simp only [rotateAccumulator, writeByte, setFlags, run_bind, run_get, run_modify, readByte_a,
    writeByte_a]
  rfl

end Arithmetic

section Branches

/-- The instructions that a condition can skip have the cycles that a routine then asks for. -/
theorem skippable (i : Instruction) : i.condition = none ∨ i.cost.notTaken.isSome := by
  cases i with
  | jumpRelative condition _ | jump condition _ | call condition _ | ret condition =>
    cases condition with
    | none => exact .inl rfl
    | some _ => exact .inr rfl
  | _ => exact .inl rfl

omit [Bus β] in
theorem notTaken_eq {condition : Option Condition} {cost : Cost}
    (hk : condition = none ∨ cost.notTaken.isSome) (h : ¬ s.meets condition) :
    notTaken l cost s = .ok (cost.notTaken.getD cost.taken) s := by
  rcases hk with rfl | hk
  · exact absurd rfl h
  · obtain ⟨skipped, hk⟩ := Option.isSome_iff_exists.1 hk
    simp [notTaken, hk]

theorem branch_eq (address : UInt16) (calling : Bool) {condition : Option Condition}
    {target : Operand} {cost : Cost} (hc : l.left = some (.condition condition))
    (ht : l.right = some target) (hd : destination l s.registers.pc target s = .ok address s)
    (hk : condition = none ∨ cost.notTaken.isSome) :
    branch l cost calling s =
      if s.meets condition then
        .ok cost.taken ((if calling then s.push s.registers.pc else s).jump address)
      else .ok (cost.notTaken.getD cost.taken) s := by
  have hm : meets s (.condition condition) = s.meets condition := rfl
  have hd : destination l (s.registers.readWord .pc) target s = .ok address s := hd
  have ho : (operands l : Routine β _) s = .ok (.condition condition, target) s := by
    simp [operands, hc, ht]
  unfold branch
  rw [run_bind, ho]
  by_cases h : s.meets condition = true
  · rw [if_pos h]
    cases calling with
    | true =>
      simp only [run_bind, run_get, hm, h, hd, if_true]
      rfl
    | false =>
      simp only [run_bind, run_get, hm, h, hd, if_true]
      rfl
  · rw [if_neg h]
    simp [hm, h, notTaken_eq s l hk h]

theorem ret_eq {condition : Option Condition} {cost : Cost}
    (hc : l.left = some (.condition condition)) (hk : condition = none ∨ cost.notTaken.isSome) :
    ret l cost s =
      if s.meets condition then .ok cost.taken s.ret
      else .ok (cost.notTaken.getD cost.taken) s := by
  have hm : meets s (.condition condition) = s.meets condition := rfl
  have ho : (left l : Routine β _) s = .ok (.condition condition) s := by
    simp [left, hc]
  unfold ret
  rw [run_bind, run_get]
  by_cases h : s.meets condition = true
  · rw [if_pos h]
    simp [ho, hm, h, jump, popWord]
    rfl
  · rw [if_neg h]
    simp [ho, hm, h, notTaken_eq s l hk h]

end Branches

section Instructions
variable {s}

/-- An instruction without a condition is settled by what its routine does to the machine. -/
theorem ofListing_plain {i : Instruction} {r : Routine β Unit} (hc : i.condition = none)
    (hl : ofListing i.listing i.cost = (do r; return i.cost.taken))
    (hr : r s = .ok () (s.perform i)) :
    ofListing i.listing i.cost s = .ok (s.execute i).1 (s.execute i).2 := by
  have he : s.execute i = (i.cost.taken, s.perform i) := by
    unfold Machine.execute
    rw [hc]
    rfl
  rw [hl, he, run_bind, hr]
  rfl

theorem ofListing_conditional {i : Instruction}
    (hl : ofListing i.listing i.cost s =
      if s.meets i.condition then .ok i.cost.taken (s.perform i)
      else .ok (i.cost.notTaken.getD i.cost.taken) s) :
    ofListing i.listing i.cost s = .ok (s.execute i).1 (s.execute i).2 := by
  rw [hl, Machine.execute]
  split <;> rfl

variable (s)

theorem ofListing_eq (i : Instruction) :
    ofListing i.listing i.cost s = .ok (s.execute i).1 (s.execute i).2 := by
  cases i with
  | nop => rfl
  | halt => rfl
  | stop operand => rfl
  | disableInterrupts => rfl
  | enableInterrupts => rfl
  | rotateA op => cases op <;> exact ofListing_plain rfl rfl (rotateAccumulator_eq s _)
  | decimalAdjust =>
    refine ofListing_plain (r := decimalAdjust) rfl rfl ?_
    simp only [decimalAdjust, writeByte, setFlags, run_bind, run_get, run_modify, readByte_a,
      writeByte_a]
    rfl
  | complement =>
    refine ofListing_plain (r := complement) rfl rfl ?_
    simp only [complement, writeByte, setFlags, run_bind, run_get, run_modify, readByte_a,
      writeByte_a]
    rfl
  | setCarry => rfl
  | flipCarry => rfl
  | load target source =>
    refine ofListing_plain rfl rfl
      (load_to_place s _ target source.operand ?_ (readOperand_place s _ source))
    cases target <;> cases source <;> rfl
  | loadImmediate target v =>
    refine ofListing_plain rfl rfl (load_to_place s _ target (.byte v .immediate) ?_ rfl)
    cases target <;> rfl
  | loadWord target w => cases target <;> rfl
  | storeA target =>
    have hr := load_from_a s (Instruction.storeA target).listing target.operand
      (by cases target <;> rfl) (address?_pointer s target)
    rw [movePointer_pointer] at hr
    exact ofListing_plain rfl rfl hr
  | fetchA source =>
    have hr := load_to_a s (Instruction.fetchA source).listing source.operand
      (by cases source <;> rfl) (address?_pointer s source)
    rw [movePointer_pointer] at hr
    exact ofListing_plain rfl rfl hr
  | storeAAt address =>
    exact ofListing_plain rfl rfl (load_from_a s _ (.word address .memory) rfl rfl)
  | fetchAAt address =>
    exact ofListing_plain rfl rfl (load_to_a s _ (.word address .memory) rfl rfl)
  | storeAHigh v =>
    exact ofListing_plain rfl rfl (load_from_a s _ (.byte v .memory) rfl (address?_high s v))
  | fetchAHigh v =>
    exact ofListing_plain rfl rfl (load_to_a s _ (.byte v .memory) rfl (address?_high s v))
  | storeAHighC =>
    exact ofListing_plain rfl rfl
      (load_from_a s _ (.byteRegister .c .memory) rfl (address?_highC s))
  | fetchAHighC =>
    exact ofListing_plain rfl rfl (load_to_a s _ (.byteRegister .c .memory) rfl (address?_highC s))
  | storeSp address => rfl
  | loadSpHl => rfl
  | loadHlSp e => rfl
  | inc target => exact ofListing_plain rfl rfl (moveByOne_place s _ rfl _ _)
  | dec target => exact ofListing_plain rfl rfl (moveByOne_place s _ rfl _ _)
  | incWord target => cases target <;> rfl
  | decWord target => cases target <;> rfl
  | addHl source => cases source <;> rfl
  | addSp e => rfl
  | byteOp op source =>
    have hr := accumulate_of s (Instruction.byteOp op source).listing rfl rfl rfl
      (readOperand_place s _ source) (by cases source <;> rfl)
    refine ofListing_plain rfl ?_ hr
    cases op with
    | add => cases source <;> rfl
    | _ => rfl
  | byteOpImmediate op v =>
    have hr := accumulate_of s (Instruction.byteOpImmediate op v).listing rfl rfl rfl rfl rfl
    refine ofListing_plain rfl ?_ hr
    cases op <;> rfl
  | shift op target => cases op <;> exact ofListing_plain rfl rfl (shift_place s _ rfl _)
  | testBit n source =>
    refine ofListing_plain (r := testBit _) rfl rfl ?_
    simp only [testBit, operands, Instruction.listing, run_bind, run_pure, run_get,
      readOperand_bit, readOperand_place, word_bitMask, word_and_eq_zero, setFlags, run_modify]
    rfl
  | resetBit n target =>
    refine ofListing_plain (r := changeBit _ _) rfl rfl ?_
    simp only [changeBit, operands, Instruction.listing, run_bind, run_pure, readOperand_bit,
      readOperand_place, writeOperand_place, word_bitMask, UInt16.toUInt8_and, UInt16.toUInt8_not,
      UInt8.toUInt8_toUInt16]
    rfl
  | setBit n target =>
    refine ofListing_plain (r := changeBit _ _) rfl rfl ?_
    simp only [changeBit, operands, Instruction.listing, run_bind, run_pure, readOperand_bit,
      readOperand_place, writeOperand_place, word_bitMask, UInt16.toUInt8_or,
      UInt8.toUInt8_toUInt16]
    rfl
  | jumpRelative condition e =>
    exact ofListing_conditional
      (branch_eq s _ (s.registers.pc + Word.displacement e) false rfl rfl rfl
        (skippable (.jumpRelative condition e)))
  | jump condition target =>
    exact ofListing_conditional
      (branch_eq s _ target false rfl rfl rfl (skippable (.jump condition target)))
  | jumpHl => rfl
  | call condition target =>
    exact ofListing_conditional
      (branch_eq s _ target true rfl rfl rfl (skippable (.call condition target)))
  | ret condition => exact ofListing_conditional (ret_eq s _ rfl (skippable (.ret condition)))
  | reti => rfl
  | restart slot => rfl
  | push source => cases source <;> rfl
  | pop target => cases target <;> rfl

end Instructions

/-- A step by routines ends as a step does. When it fails the machine is the one it began with. -/
theorem step_eq : step s = ofStep s s.step := by
  unfold step Machine.step Machine.fetch
  rw [run_bind, run_get]
  cases hi : s.cpu.idle with
  | true =>
    simp [hi]
    rfl
  | false =>
    cases hd : Machine.decode s.bus s.registers.pc with
    | error fault =>
      simp [hi, hd]
      rfl
    | ok i =>
      simp [hi, hd, Except.map, ofListing_eq]
      rfl

end DotMatrix.Routine
