import DotMatrix.Cartridge.Controller

/-! # Histories of a cartridge

What happened to a cartridge is kept as a list, the newest event first. A register holds what was
written to its addresses last, so the banks in the windows and the cell behind an address of the RAM
window are functions of the history alone.
-/
namespace DotMatrix

namespace Controller

inductive Event where
  | write (address : UInt16) (v : UInt8)
  | tick (cycles : Nat)
  | load (dump : Bytes)

def Event.written? (register : UInt16 → Bool) : Event → Option UInt8
  | .write address v => if register address then some v else none
  | .tick _ | .load _ => none

def apply (c : Controller) : Event → Controller
  | .write address v => c.write address v
  | .tick cycles => c.tick cycles
  | .load dump => c.loadRam dump

def after (c : Controller) (past : List Event) : Controller := past.foldr (fun e c => c.apply e) c

theorem after_append (c : Controller) (newer older : List Event) :
    c.after (newer ++ older) = (c.after older).after newer := List.foldr_append

/-- The value last written to a register, 0 before the first write. -/
def last (register : UInt16 → Bool) (past : List Event) : UInt8 :=
  (past.findSome? (Event.written? register)).getD 0

theorem last_cons (register : UInt16 → Bool) (e : Event) (past : List Event) :
    last register (e :: past) = (e.written? register).getD (last register past) := by
  unfold last
  rw [List.findSome?_cons]
  cases e.written? register <;> rfl

theorem last_cons_of_none {register : UInt16 → Bool} {e : Event}
    (h : e.written? register = none) (past : List Event) :
    last register (e :: past) = last register past := by
  rw [last_cons, h, Option.getD_none]

theorem after_eq {σ : Type} {slot : σ → Controller} {step : σ → Event → σ}
    (hstep : ∀ s e, (slot s).apply e = slot (step s e)) (s : σ) (past : List Event) :
    (slot s).after past = slot (past.foldr (fun e s => step s e) s) := by
  induction past with
  | nil => rfl
  | cons e past ih =>
    rw [List.foldr_cons, ← hstep, ← ih]
    rfl

section Parts
variable {σ α : Type} {step : σ → Event → σ} {s : σ} (part : σ → α)

/-- A part of a state that only the writes to one register set is as the newest one left it. -/
theorem eq_newest {register : UInt16 → Bool} {decode : UInt8 → α}
    (hstep : ∀ s e, part (step s e) = (e.written? register).elim (part s) decode)
    (past : List Event) :
    part (past.foldr (fun e s => step s e) s) =
      (past.findSome? (Event.written? register)).elim (part s) decode := by
  induction past with
  | nil => rfl
  | cons e past ih =>
    rw [List.foldr_cons, hstep, ih, List.findSome?_cons]
    cases e.written? register <;> rfl

/-- Where the part starts as a write of 0 would leave it, it is a function of the last value. -/
theorem eq_last {register : UInt16 → Bool} {decode : UInt8 → α}
    (hstep : ∀ s e, part (step s e) = (e.written? register).elim (part s) decode)
    (hstart : part s = decode 0) (past : List Event) :
    part (past.foldr (fun e s => step s e) s) = decode (last register past) := by
  rw [eq_newest part hstep past, last, hstart]
  cases past.findSome? (Event.written? register) <;> rfl

theorem eq_start (hstep : ∀ s e, part (step s e) = part s) (past : List Event) :
    part (past.foldr (fun e s => step s e) s) = part s := by
  induction past with
  | nil => rfl
  | cons e past ih => exact (hstep _ e).trans ih

end Parts

end Controller

open Controller (Event last)

inductive Banking where
  | mbc1
  | mbc2
  | mbc3 (clock : Bool)
  deriving DecidableEq, Repr

namespace Banking

def build (rom : Bytes) (ramBanks : Nat) (battery : Bool) : Banking → Controller
  | .mbc1 => .mbc1 (.new rom ramBanks battery)
  | .mbc2 => .mbc2 (.new rom battery)
  | .mbc3 clock => .mbc3 (.new rom ramBanks battery clock)

section Registers

def unlocking : Banking → UInt16 → Bool
  | .mbc2, address => address < 0x4000 && address &&& 0x0100 == 0
  | _, address => address < 0x2000

def selecting : Banking → UInt16 → Bool
  | .mbc2, address => address < 0x4000 && address &&& 0x0100 != 0
  | _, address => 0x2000 ≤ address && address < 0x4000

def second (address : UInt16) : Bool := 0x4000 ≤ address && address < 0x6000

def mode (address : UInt16) : Bool := 0x6000 ≤ address && address < 0x8000

def steering : Banking → UInt16 → Bool
  | .mbc1, address => 0x2000 ≤ address && address < 0x8000
  | kind, address => kind.selecting address

end Registers

section Selection
variable (past : List Event)

def unlocked (kind : Banking) : Bool := (last kind.unlocking past).toNat % 16 == 0xa

def orOne (n : Nat) : Nat := if n = 0 then 1 else n

/-- The bank asked for in the upper ROM window. -/
def selected : Banking → Nat
  | .mbc1 =>
    ((last second past).toNat &&& 3) <<< 5 |||
      orOne ((last Banking.mbc1.selecting past).toNat &&& 0x1f)
  | .mbc2 => orOne ((last Banking.mbc2.selecting past).toNat &&& 0x0f)
  | .mbc3 clock => orOne ((last (Banking.mbc3 clock).selecting past).toNat &&& 0x7f)

def advanced : Bool := (last mode past).toNat % 2 == 1

def low (n : Nat) : Banking → Nat
  | .mbc1 => if advanced past then ((last second past).toNat &&& 3) <<< 5 % n else 0
  | .mbc2 | .mbc3 _ => 0

/-- What the second register of the third controller selects: a bank of RAM or a part of the
clock. -/
def selector : Nat := (last second past).toNat % 16

def showsClock : Banking → Bool
  | .mbc3 clock => clock && (Banking.mbc3 clock).unlocked past && 8 ≤ selector past &&
      selector past ≤ 0xc
  | _ => false

def ramBank? (banks : Nat) : Banking → Option Nat
  | .mbc1 =>
    if banks = 0 then none
    else if advanced past then some (((last second past).toNat &&& 3) % banks)
    else some 0
  | .mbc2 => some 0
  | .mbc3 _ => if banks = 0 ∨ 3 < selector past then none else some (selector past % banks)

end Selection

section Ram

def ramSize (banks : Nat) : Banking → Nat
  | .mbc2 => 0x200
  | _ => banks * 0x2000

/-- The cell of RAM that an address stands for after a history, if for any. -/
def cell? (kind : Banking) (banks : Nat) (past : List Event) (address : UInt16) : Option Nat :=
  if 0xa000 ≤ address ∧ address < 0xc000 ∧ kind.unlocked past then
    match kind with
    | .mbc2 => some (address.toNat % 0x200)
    | kind => (kind.ramBank? past banks).map fun bank => (address.toNat - 0xa000) + bank * 0x2000
  else none

def kept : Banking → UInt8 → UInt8
  | .mbc2, v => v &&& 0x0f
  | _, v => v

def shown : Banking → UInt8 → UInt8
  | .mbc2, v => v ||| 0xf0
  | _, v => v

/-- The byte last stored in a cell of RAM, 0 before the first one. -/
def contents (kind : Banking) (banks cell : Nat) : List Event → UInt8
  | [] => 0
  | .write address v :: past =>
    if kind.cell? banks past address = some cell then kind.kept v
    else kind.contents banks cell past
  | .tick _ :: past => kind.contents banks cell past
  | .load dump :: _ => kind.kept (dump.getD cell 0)

end Ram

end Banking
end DotMatrix
