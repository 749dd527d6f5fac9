import DotMatrix.Cartridge.Bank

/-! # The first bank controller

A five-bit register selects the ROM bank of the upper window. A second, two-bit register extends it
and, in the advanced mode, also picks the bank of the lower ROM window and of RAM.
-/
namespace DotMatrix

structure Mbc1 where
  rom : Bytes
  ram : Bytes
  primary : UInt8
  secondary : UInt8
  ramEnabled : Bool
  advanced : Bool
  battery : Bool
  deriving DecidableEq

namespace Mbc1

def new (rom : Bytes) (ramBanks : Nat) (battery : Bool) : Mbc1 where
  rom := rom
  ram := .zeros (ramBanks * Bank.ramSize)
  primary := 1
  secondary := 0
  ramEnabled := false
  advanced := false
  battery := battery

def lowRomBank (m : Mbc1) : Nat :=
  if m.advanced then m.secondary.toNat * 32 % Bank.romCount m.rom else 0

def romBank (m : Mbc1) : Nat :=
  (m.secondary.toNat * 32 + m.primary.toNat) % Bank.romCount m.rom

def ramBank (m : Mbc1) : Nat :=
  if m.advanced ∧ 0 < Bank.ramCount m.ram then m.secondary.toNat % Bank.ramCount m.ram else 0

def ramOffset? (m : Mbc1) (address : UInt16) : Option Nat :=
  if m.ramEnabled && !m.ram.isEmpty then some (Bank.ramOffset m.ramBank address) else none

def read (m : Mbc1) (address : UInt16) : UInt8 :=
  if address < 0x4000 then Bank.romByte m.rom m.lowRomBank address
  else if address < 0x8000 then Bank.romByte m.rom m.romBank address
  else if 0xa000 ≤ address ∧ address < 0xc000 then
    match m.ramOffset? address with
    | some offset => m.ram.readOpen offset
    | none => 0xff
  else 0xff

def write (m : Mbc1) (address : UInt16) (v : UInt8) : Mbc1 :=
  if address < 0x2000 then { m with ramEnabled := Bank.unlocks v }
  else if address < 0x4000 then { m with primary := Bank.nonzero (v &&& 0x1f) }
  else if address < 0x6000 then { m with secondary := v &&& 0x03 }
  else if address < 0x8000 then { m with advanced := v &&& 0x01 == 1 }
  else if 0xa000 ≤ address ∧ address < 0xc000 then
    match m.ramOffset? address with
    | some offset => { m with ram := m.ram.setIfInBounds offset v }
    | none => m
  else m

def loadRam (m : Mbc1) (dump : Bytes) : Mbc1 := { m with ram := dump.fit m.ram.size }

end Mbc1
end DotMatrix
