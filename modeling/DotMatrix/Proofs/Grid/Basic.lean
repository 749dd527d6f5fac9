import Mathlib.Algebra.Group.Nat.Defs
import DotMatrix.Board.Basic
import DotMatrix.Proofs.Grid.Arithmetic

/-! # The opcode grid

A second account of one processor step, read off the opcode byte as the data sheets of the SM83 lay
it out. The byte splits into `x` (bits 7-6), `y` (bits 5-3) and `z` (bits 2-0), and `y` into `p`
(its upper bits) and `q` (its lowest). Operands are picked from the tables `r`, `rp`, `rp2` and `cc`
by these numbers; lengths and cycles stand in tables by opcode. There is no decoded instruction:
every row acts on the machine directly.
-/
namespace DotMatrix.Grid

abbrev State := Machine Board

def x (op : UInt8) : Nat := (op >>> 6).toNat

def y (op : UInt8) : Nat := (op >>> 3 &&& 7).toNat

def z (op : UInt8) : Nat := (op &&& 7).toNat

theorem x_eq (op : UInt8) : x op = op.toNat / 64 :=
  forall_byte (P := fun op => x op = op.toNat / 64) (by decide +kernel) op

theorem y_eq (op : UInt8) : y op = op.toNat / 8 % 8 :=
  forall_byte (P := fun op => y op = op.toNat / 8 % 8) (by decide +kernel) op

theorem z_eq (op : UInt8) : z op = op.toNat % 8 :=
  forall_byte (P := fun op => z op = op.toNat % 8) (by decide +kernel) op

theorem y_lt (op : UInt8) : y op < 8 := by
  rw [y_eq]
  exact Nat.mod_lt _ (by decide)

theorem z_lt (op : UInt8) : z op < 8 := by
  rw [z_eq]
  exact Nat.mod_lt _ (by decide)

def holes : List UInt8 := [0xd3, 0xdb, 0xdd, 0xe3, 0xe4, 0xeb, 0xec, 0xed, 0xf4, 0xfc, 0xfd]

def lengths : List Nat :=
  [1, 3, 1, 1, 1, 1, 2, 1, 3, 1, 1, 1, 1, 1, 2, 1,
    2, 3, 1, 1, 1, 1, 2, 1, 2, 1, 1, 1, 1, 1, 2, 1,
    2, 3, 1, 1, 1, 1, 2, 1, 2, 1, 1, 1, 1, 1, 2, 1,
    2, 3, 1, 1, 1, 1, 2, 1, 2, 1, 1, 1, 1, 1, 2, 1] ++
  List.replicate 128 1 ++
  [1, 1, 3, 3, 3, 1, 2, 1, 1, 1, 3, 2, 3, 3, 2, 1,
    1, 1, 3, 1, 3, 1, 2, 1, 1, 1, 3, 1, 3, 1, 2, 1,
    2, 1, 1, 1, 1, 1, 2, 1, 2, 1, 3, 1, 1, 1, 2, 1,
    2, 1, 1, 1, 1, 1, 2, 1, 2, 1, 3, 1, 1, 1, 2, 1]

/-- Machine cycles, of four clock cycles each, by opcode; a branch is not taken. The holes and the
escape `CB` have none of their own. -/
def machineCycles : List Nat :=
  [1, 3, 2, 2, 1, 1, 2, 1, 5, 2, 2, 2, 1, 1, 2, 1,
    1, 3, 2, 2, 1, 1, 2, 1, 3, 2, 2, 2, 1, 1, 2, 1,
    2, 3, 2, 2, 1, 1, 2, 1, 2, 2, 2, 2, 1, 1, 2, 1,
    2, 3, 2, 2, 3, 3, 3, 1, 2, 2, 2, 2, 1, 1, 2, 1,
    1, 1, 1, 1, 1, 1, 2, 1, 1, 1, 1, 1, 1, 1, 2, 1,
    1, 1, 1, 1, 1, 1, 2, 1, 1, 1, 1, 1, 1, 1, 2, 1,
    1, 1, 1, 1, 1, 1, 2, 1, 1, 1, 1, 1, 1, 1, 2, 1,
    2, 2, 2, 2, 2, 2, 1, 2, 1, 1, 1, 1, 1, 1, 2, 1,
    1, 1, 1, 1, 1, 1, 2, 1, 1, 1, 1, 1, 1, 1, 2, 1,
    1, 1, 1, 1, 1, 1, 2, 1, 1, 1, 1, 1, 1, 1, 2, 1,
    1, 1, 1, 1, 1, 1, 2, 1, 1, 1, 1, 1, 1, 1, 2, 1,
    1, 1, 1, 1, 1, 1, 2, 1, 1, 1, 1, 1, 1, 1, 2, 1,
    2, 3, 3, 4, 3, 4, 2, 4, 2, 4, 3, 0, 3, 6, 2, 4,
    2, 3, 3, 0, 3, 4, 2, 4, 2, 4, 3, 0, 3, 0, 2, 4,
    3, 3, 2, 0, 0, 4, 2, 4, 4, 1, 4, 0, 0, 0, 2, 4,
    3, 3, 2, 1, 0, 4, 2, 4, 3, 2, 4, 1, 0, 0, 2, 4]

def branchCycles (op : UInt8) : Nat :=
  if x op = 0 then 1 else if z op = 0 ∨ z op = 4 then 3 else 1

/-- Cycles behind the escape, by the second byte: `(HL)` is read, and but for BIT written. -/
def escapedCycles (code : UInt8) : Nat :=
  if z code ≠ 6 then 2 else if x code = 1 then 3 else 4

def condition? (op : UInt8) : Option Nat :=
  if x op = 0 ∧ z op = 0 ∧ 4 ≤ y op then some (y op - 4)
  else if x op = 3 ∧ (z op = 0 ∨ z op = 2 ∨ z op = 4) ∧ y op < 4 then some (y op)
  else none

/-- `cc[i]`: NZ Z NC C. -/
def cc (f : Flags) (i : Nat) : Bool :=
  match i with
  | 0 => !f.zero
  | 1 => f.zero
  | 2 => !f.carry
  | _ => f.carry

def load (s : State) (address : UInt16) : UInt8 × State :=
  ((s.bus.read address).1, { s with bus := (s.bus.read address).2 })

def store (s : State) (address : UInt16) (v : UInt8) : State :=
  { s with bus := s.bus.write address v }

def storeWord (s : State) (address w : UInt16) : State :=
  store (store s address (lower w)) (address + 1) (upper w)

/-- `rp[i]`: BC DE HL SP. -/
def rp (r : Registers) (i : Nat) : UInt16 :=
  match i with
  | 0 => word r.b r.c
  | 1 => word r.d r.e
  | 2 => word r.h r.l
  | _ => r.sp

def setRp (r : Registers) (i : Nat) (w : UInt16) : Registers :=
  match i with
  | 0 => { r with b := upper w, c := lower w }
  | 1 => { r with d := upper w, e := lower w }
  | 2 => { r with h := upper w, l := lower w }
  | _ => { r with sp := w }

/-- `rp2[i]`: BC DE HL AF. -/
def rp2 (r : Registers) (i : Nat) : UInt16 := if i < 3 then rp r i else word r.a (packed r.f)

def setRp2 (r : Registers) (i : Nat) (w : UInt16) : Registers :=
  if i < 3 then setRp r i w else { r with a := upper w, f := unpacked (lower w) }

/-- `r[i]`: B C D E H L (HL) A. -/
def get (s : State) (i : Nat) : UInt8 × State :=
  match i with
  | 0 => (s.cpu.registers.b, s)
  | 1 => (s.cpu.registers.c, s)
  | 2 => (s.cpu.registers.d, s)
  | 3 => (s.cpu.registers.e, s)
  | 4 => (s.cpu.registers.h, s)
  | 5 => (s.cpu.registers.l, s)
  | 6 => load s (rp s.cpu.registers 2)
  | _ => (s.cpu.registers.a, s)

def put (s : State) (i : Nat) (v : UInt8) : State :=
  match i with
  | 0 => { s with cpu.registers.b := v }
  | 1 => { s with cpu.registers.c := v }
  | 2 => { s with cpu.registers.d := v }
  | 3 => { s with cpu.registers.e := v }
  | 4 => { s with cpu.registers.h := v }
  | 5 => { s with cpu.registers.l := v }
  | 6 => store s (rp s.cpu.registers 2) v
  | _ => { s with cpu.registers.a := v }

def modify (s : State) (i : Nat) (f : UInt8 → Flags → UInt8 × Flags) : State :=
  let (v, s) := get s i
  let (result, flags) := f v s.cpu.registers.f
  let s := put s i result
  { s with cpu.registers.f := flags }

def replace (s : State) (i : Nat) (f : UInt8 → UInt8) : State :=
  let (v, s) := get s i
  put s i (f v)

def accumulate (s : State) (i : Nat) (v : UInt8) : State :=
  let (a, f) := alu i s.cpu.registers.a v s.cpu.registers.f.carry
  { s with cpu.registers.a := a, cpu.registers.f := f }

def loadA (s : State) (address : UInt16) : State :=
  let (v, s) := load s address
  { s with cpu.registers.a := v }

def jumpTo (s : State) (address : UInt16) : State := { s with cpu.registers.pc := address }

def jumpBy (s : State) (e : UInt8) : State :=
  jumpTo s (UInt16.ofNat ((s.cpu.registers.pc.toNat + signed e) % 65536).toNat)

def push (s : State) (w : UInt16) : State :=
  let sp := s.cpu.registers.sp - 2
  storeWord { s with cpu.registers.sp := sp } sp w

def pop (s : State) : UInt16 × State :=
  let sp := s.cpu.registers.sp
  let (lo, s) := load s sp
  let (hi, s) := load s (sp + 1)
  (word hi lo, { s with cpu.registers.sp := sp + 2 })

def call (s : State) (target : UInt16) : State := jumpTo (push s s.cpu.registers.pc) target

def ret (s : State) : State :=
  let (target, s) := pop s
  jumpTo s target

def stepped (r : Registers) (p : Nat) : Registers :=
  match p with
  | 2 => setRp r 2 (rp r 2 + 1)
  | 3 => setRp r 2 (rp r 2 - 1)
  | _ => r

/-- Opcodes with `x = 0` and `z = 7`, on the accumulator and the flags. -/
def accumulatorRow (y : Nat) (r : Registers) : Registers :=
  match y with
  | 4 =>
    let (a, f) := daa r.a r.f
    { r with a, f }
  | 5 => { r with a := 255 - r.a, f := ⟨r.f.zero, true, true, r.f.carry⟩ }
  | 6 => { r with f := ⟨r.f.zero, false, false, true⟩ }
  | 7 => { r with f := ⟨r.f.zero, false, false, !r.f.carry⟩ }
  | y =>
    let (a, f) := rot y r.a r.f.carry
    { r with a, f := { f with zero := false } }

/-- Opcodes with `x = 0`. -/
def block0 (y z : Nat) (n : UInt8) (nn : UInt16) (s : State) : State :=
  let r := s.cpu.registers
  match z with
  | 0 =>
    match y with
    | 0 => s
    | 1 => storeWord s nn r.sp
    | 2 => { s with cpu.stopped := true }
    | _ => jumpBy s n
  | 1 =>
    if y % 2 = 0 then { s with cpu.registers := setRp r (y / 2) nn }
    else
      let (w, f) := wordSum (rp r 2).toNat (rp r (y / 2)).toNat r.f
      { s with cpu.registers := { setRp r 2 w with f } }
  | 2 =>
    let address := rp r (min (y / 2) 2)
    if y % 2 = 0 then
      let s := store s address r.a
      { s with cpu.registers := stepped s.cpu.registers (y / 2) }
    else
      let (v, s) := load s address
      { s with cpu.registers := { stepped s.cpu.registers (y / 2) with a := v } }
  | 3 =>
    let w := rp r (y / 2)
    { s with cpu.registers := setRp r (y / 2) (if y % 2 = 0 then w + 1 else w - 1) }
  | 4 => modify s y incremented
  | 5 => modify s y decremented
  | 6 => put s y n
  | _ => { s with cpu.registers := accumulatorRow y r }

/-- Opcodes with `x = 1`: HALT takes the place of a load from `(HL)` to itself. -/
def block1 (y z : Nat) (s : State) : State :=
  if y = 6 ∧ z = 6 then { s with cpu.halted := true }
  else
    let (v, s) := get s z
    put s y v

def block2 (y z : Nat) (s : State) : State :=
  let (v, s) := get s z
  accumulate s y v

def block3 (y z : Nat) (n : UInt8) (nn : UInt16) (s : State) : State :=
  let r := s.cpu.registers
  match z with
  | 0 =>
    match y with
    | 4 => store s (0xff00 + n.toUInt16) r.a
    | 5 =>
      let (sp, f) := moved r.sp n
      { s with cpu.registers := { r with sp, f } }
    | 6 => loadA s (0xff00 + n.toUInt16)
    | 7 =>
      let (w, f) := moved r.sp n
      { s with cpu.registers := { setRp r 2 w with f } }
    | _ => ret s
  | 1 =>
    if y % 2 = 0 then
      let (w, s) := pop s
      { s with cpu.registers := setRp2 s.cpu.registers (y / 2) w }
    else
      match y with
      | 5 => jumpTo s (rp r 2)
      | 7 => { s with cpu.registers.sp := rp r 2 }
      | _ => ret s
  | 2 =>
    match y with
    | 4 => store s (0xff00 + r.c.toUInt16) r.a
    | 5 => store s nn r.a
    | 6 => loadA s (0xff00 + r.c.toUInt16)
    | 7 => loadA s nn
    | _ => jumpTo s nn
  | 3 => if y = 0 then jumpTo s nn else s
  | 4 => call s nn
  | 5 => if y % 2 = 0 then push s (rp2 r (y / 2)) else call s nn
  | 6 => accumulate s y n
  | _ => call s (UInt16.ofNat (8 * y))

def escaped (code : UInt8) (s : State) : State :=
  match x code with
  | 0 => modify s (z code) fun v f => rot (y code) v f.carry
  | 1 =>
    let (v, s) := get s (z code)
    { s with cpu.registers.f :=
      ⟨!v.toNat.testBit (y code), false, true, s.cpu.registers.f.carry⟩ }
  | 2 => replace s (z code) fun v =>
    if v.toNat.testBit (y code) then UInt8.ofNat (v.toNat - 2 ^ y code) else v
  | _ => replace s (z code) fun v =>
    if v.toNat.testBit (y code) then v else UInt8.ofNat (v.toNat + 2 ^ y code)

/-- The effect of an opcode whose condition, if it has one, holds. The interrupt master switch is
left to `imeAfter`. -/
def effect (op n : UInt8) (nn : UInt16) (s : State) : State :=
  if op = 0xcb then escaped n s
  else match x op with
    | 0 => block0 (y op) (z op) n nn s
    | 1 => block1 (y op) (z op) s
    | 2 => block2 (y op) (z op) s
    | _ => block3 (y op) (z op) n nn s

/-- The interrupt master switch after an opcode: DI, RETI and EI set it, and an enable that was
scheduled before the opcode takes effect after it. -/
def imeAfter (op : UInt8) (before : MasterEnable) : MasterEnable :=
  if op = 0xf3 then ⟨false, false⟩
  else if op = 0xd9 ∨ before.scheduled then ⟨true, false⟩
  else ⟨before.enabled, op = 0xfb⟩

def cycles (op n : UInt8) (taken : Bool) : Nat :=
  if op = 0xcb then 4 * escapedCycles n
  else if taken ∧ condition? op ≠ none then 4 * (machineCycles.getD op.toNat 0 + branchCycles op)
  else 4 * machineCycles.getD op.toNat 0

def finish (s : State) (ime : MasterEnable) (spent : Nat) : State :=
  { s with cpu.ime := ime, cpu.cycles := s.cpu.cycles + spent }

def step (s : State) : Nat × State :=
  let pc := s.cpu.registers.pc
  let op := s.bus.peek pc
  let n := s.bus.peek (pc + 1)
  let nn := word (s.bus.peek (pc + 2)) n
  let ime := imeAfter op s.cpu.ime
  let next := pc + UInt16.ofNat (lengths.getD op.toNat 1)
  let s := { s with cpu.instructionStart := pc, cpu.registers.pc := next }
  let taken := (condition? op).all (cc s.cpu.registers.f)
  let s := if taken then effect op n nn s else s
  (cycles op n taken, finish s ime (cycles op n taken))

end DotMatrix.Grid
