import DotMatrix.Cartridge.Header
import DotMatrix.Journal.Notice

/-! # What a cartridge tells

The notices of a write to a bank controller, and those of a cartridge being inserted.
-/
namespace DotMatrix

def Mbc1.writeNotice? (m : Mbc1) (address : UInt16) (v : UInt8) : Option Notice :=
  if address < 0x8000 then
    let m := m.write address v
    if address < 0x2000 then some (.ramSwitched .mbc1 m.ramEnabled)
    else if address < 0x4000 then some (.romBankSelected .mbc1 m.romBank)
    else if address < 0x6000 then some (.secondarySet m.secondary m.romBank m.ramBank)
    else some (.modeSet m.advanced)
  else if 0xa000 ≤ address ∧ address < 0xc000 ∧ (m.ramOffset? address).isNone then
    some (.ramWriteDropped .mbc1 address)
  else none

def Mbc2.writeNotice? (m : Mbc2) (address : UInt16) (v : UInt8) : Option Notice :=
  if address < 0x4000 then
    let m := m.write address v
    if address &&& 0x0100 = 0 then some (.ramSwitched .mbc2 m.ramEnabled)
    else some (.romBankSelected .mbc2 m.romBank)
  else if 0xa000 ≤ address ∧ address < 0xc000 ∧ !m.ramEnabled then
    some (.ramWriteDropped .mbc2 address)
  else none

namespace Mbc3

def latchNotice? (m : Mbc3) (v : UInt8) : Option Notice :=
  if m.latchArmed ∧ v = 1 then m.clock.map fun c => .clockLatched c.live else none

/-- The notice of a write to the open RAM window that reaches neither RAM nor a clock register. -/
def windowNotice? (m : Mbc3) (address : UInt16) : Option Notice :=
  if (ClockRegister.ofSelector? m.selector).isNone ∧ (m.ramOffset? address).isNone then
    some (.windowUnmapped m.selector)
  else none

def writeNotice? (m : Mbc3) (address : UInt16) (v : UInt8) : Option Notice :=
  if address < 0x6000 then
    let m := m.write address v
    if address < 0x2000 then some (.ramSwitched .mbc3 m.unlocked)
    else if address < 0x4000 then some (.romBankSelected .mbc3 m.romBank)
    else some (.windowSelected m.selector)
  else if address < 0x8000 then m.latchNotice? v
  else if 0xa000 ≤ address ∧ address < 0xc000 then
    if m.unlocked then m.windowNotice? address else some (.ramWriteDropped .mbc3 address)
  else none

end Mbc3

def Controller.writeNotice? (c : Controller) (address : UInt16) (v : UInt8) : Option Notice :=
  match c with
  | .rom _ => some (.romWriteIgnored v address)
  | .mbc1 m => m.writeNotice? address v
  | .mbc2 m => m.writeNotice? address v
  | .mbc3 m => m.writeNotice? address v
  | .flat _ => none

namespace Header

/-- What is told of a controller and of the header that asked for it. The ROM size is looked at
only where the banks are told. -/
def controllerNotices (verbosity : Verbosity) (h : Header) (c : Controller) : List Notice :=
  let told : Notice := .cartridgeBanks c.name h.romBanks h.ramBanks h.hasBattery
  let size : List Notice :=
    if verbosity.admits told.level ∧ (romBanks? h.romSize).isNone then [.unknownRomSize h.romSize]
    else []
  size ++ [told, .loaded h.title c.name]

def insertionNotices (verbosity : Verbosity) (h : Header) (image : Bytes) : List Notice :=
  let checksum : List Notice :=
    if h.checksumHolds image then [] else [.checksumMismatch h.title]
  let ramSize : List Notice :=
    if (ramBanks? h.ramSize).isNone then [.unknownRamSize h.ramSize] else []
  let controller := match h.controller image with
    | .error _ => []
    | .ok c => h.controllerNotices verbosity c
  checksum ++ ramSize ++ controller

end Header
end DotMatrix
