import DotMatrix.Cartridge.Mbc1
import DotMatrix.Cartridge.Mbc2
import DotMatrix.Cartridge.Mbc3

/-! # The cartridge slot

What can be plugged in: a bare ROM, one of the three bank controllers, or a flat board of 64 KiB of
RAM for test benches, wired to the address bus without any banking.
-/
namespace DotMatrix

inductive Controller where
  | rom (image : Bytes)
  | mbc1 (board : Mbc1)
  | mbc2 (board : Mbc2)
  | mbc3 (board : Mbc3)
  | flat (cells : Memory)

namespace Controller

def read (c : Controller) (address : UInt16) : UInt8 :=
  match c with
  | .rom image => if address < 0x8000 then image.readOpen address.toNat else 0xff
  | .mbc1 m => m.read address
  | .mbc2 m => m.read address
  | .mbc3 m => m.read address
  | .flat cells => cells.get address

def write (c : Controller) (address : UInt16) (v : UInt8) : Controller :=
  match c with
  | .rom image => .rom image
  | .mbc1 m => .mbc1 (m.write address v)
  | .mbc2 m => .mbc2 (m.write address v)
  | .mbc3 m => .mbc3 (m.write address v)
  | .flat cells => .flat (cells.set address v)

def ram : Controller → Bytes
  | .rom _ => #[]
  | .mbc1 m => m.ram
  | .mbc2 m => m.ram.toArray
  | .mbc3 m => m.ram
  | .flat _ => #[]

def loadRam (c : Controller) (dump : Bytes) : Controller :=
  match c with
  | .rom image => .rom image
  | .mbc1 m => .mbc1 (m.loadRam dump)
  | .mbc2 m => .mbc2 (m.loadRam dump)
  | .mbc3 m => .mbc3 (m.loadRam dump)
  | .flat cells => .flat cells

def romBank : Controller → Nat
  | .rom _ => 1
  | .mbc1 m => m.romBank
  | .mbc2 m => m.romBank
  | .mbc3 m => m.romBank
  | .flat _ => 1

/-- The RAM bank, or the selector that stands in for it. -/
def ramBank : Controller → Nat
  | .rom _ => 0
  | .mbc1 m => m.ramBank
  | .mbc2 _ => 0
  | .mbc3 m => m.selector.toNat
  | .flat _ => 0

def hasBattery : Controller → Bool
  | .rom _ => false
  | .mbc1 m => m.battery
  | .mbc2 m => m.battery
  | .mbc3 m => m.battery
  | .flat _ => false

def name : Controller → String
  | .rom _ => "ROM"
  | .mbc1 _ => "MBC1"
  | .mbc2 _ => "MBC2"
  | .mbc3 m => if m.clock.isSome then "MBC3+RTC" else "MBC3"
  | .flat _ => "FLAT"

def tick (c : Controller) (cycles : Nat) : Controller :=
  match c with
  | .mbc3 m => .mbc3 (m.tick cycles)
  | c => c

end Controller
end DotMatrix
