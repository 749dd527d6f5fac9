import DotMatrix.Cartridge.Bank

/-! # The second bank controller

It holds 512 half-bytes of RAM itself, which repeat through the whole RAM window and read with the
upper nibble set. Bit 8 of the address tells its two registers apart.
-/
namespace DotMatrix

structure Mbc2 where
  rom : Bytes
  ram : Vector UInt8 0x200
  selected : UInt8
  ramEnabled : Bool
  battery : Bool
  deriving DecidableEq

namespace Mbc2

def new (rom : Bytes) (battery : Bool) : Mbc2 where
  rom := rom
  ram := Vector.replicate _ 0
  selected := 1
  ramEnabled := false
  battery := battery

def romBank (m : Mbc2) : Nat := m.selected.toNat % Bank.romCount m.rom

/-- The half-byte behind an address of the RAM window. -/
def cell (address : UInt16) : Fin 0x200 := Fin.ofNat _ address.toNat

def read (m : Mbc2) (address : UInt16) : UInt8 :=
  if address < 0x4000 then Bank.romByte m.rom 0 address
  else if address < 0x8000 then Bank.romByte m.rom m.romBank address
  else if 0xa000 ≤ address ∧ address < 0xc000 ∧ m.ramEnabled then m.ram[cell address] ||| 0xf0
  else 0xff

def write (m : Mbc2) (address : UInt16) (v : UInt8) : Mbc2 :=
  if address < 0x4000 then
    if address &&& 0x0100 = 0 then { m with ramEnabled := Bank.unlocks v }
    else { m with selected := Bank.nonzero (v &&& 0x0f) }
  else if 0xa000 ≤ address ∧ address < 0xc000 ∧ m.ramEnabled then
    { m with ram := m.ram.set (cell address) (v &&& 0x0f) }
  else m

def loadRam (m : Mbc2) (dump : Bytes) : Mbc2 :=
  { m with ram := Vector.ofFn fun i => dump.getD i 0 &&& 0x0f }

end Mbc2
end DotMatrix
