import DotMatrix.Cartridge.Controller
import DotMatrix.Fault

/-! # The cartridge header

The bytes from `0134` to `014D` of an image name the program, declare the hardware on the cartridge
and end in a checksum.
-/
namespace DotMatrix

structure Header where
  title : String
  manufacturer : String
  cgbFlag : UInt8
  licensee : String
  sgbFlag : UInt8
  type : UInt8
  romSize : UInt8
  ramSize : UInt8
  destination : UInt8
  oldLicensee : UInt8
  version : UInt8
  checksum : UInt8
  deriving DecidableEq, Repr

namespace Header

def titleStart : Nat := 0x134

def manufacturerStart : Nat := 0x13f

def cgbFlagAt : Nat := 0x143

def licenseeStart : Nat := 0x144

def sgbFlagAt : Nat := 0x146

def checksumAt : Nat := 0x14d

/-- The first offset behind the header. -/
def size : Nat := 0x150

def field (image : Bytes) (start stop : Nat) : List UInt8 := (image.extract start stop).toList

/-- A printable ASCII character stands for itself, any other for a question mark. -/
def character (v : UInt8) : Char :=
  if 0x20 ≤ v ∧ v ≤ 0x7e then Char.ofNat v.toNat else '?'

/-- The text of a field: its bytes up to a zero, less the spaces at the end. -/
def fieldText (bytes : List UInt8) : String :=
  let shown := (bytes.takeWhile (· != 0)).map character
  String.ofList (shown.reverse.dropWhile (· == ' ')).reverse

/-- Where the title ends: a cartridge that knows of colour gives its last bytes to the
manufacturer. -/
def titleStop (cgbFlag : UInt8) : Nat :=
  if cgbFlag &&& 0x80 = 0 then licenseeStart else manufacturerStart

def read (image : Bytes) : Header :=
  let byte := image.readOpen
  { title := fieldText (field image titleStart (titleStop (byte cgbFlagAt)))
    manufacturer := fieldText (field image manufacturerStart cgbFlagAt)
    cgbFlag := byte cgbFlagAt
    licensee := fieldText (field image licenseeStart sgbFlagAt)
    sgbFlag := byte sgbFlagAt
    type := byte 0x147
    romSize := byte 0x148
    ramSize := byte 0x149
    destination := byte 0x14a
    oldLicensee := byte 0x14b
    version := byte 0x14c
    checksum := byte checksumAt }

def parse (image : Bytes) : Except Fault Header :=
  if image.size < size then .error (.imageTooSmall image.size) else .ok (read image)

/-- What the checksum byte of an image should be: every byte, and one for each, taken from zero. -/
def computeChecksum? (image : Bytes) : Option UInt8 :=
  if image.size < checksumAt then none
  else some ((field image titleStart checksumAt).foldl (fun sum v => sum - v - 1) 0)

def checksumHolds (h : Header) (image : Bytes) : Bool := computeChecksum? image == some h.checksum

def romBanks? (code : UInt8) : Option Nat :=
  if code ≤ 0x08 then some (2 <<< code.toNat)
  else if code = 0x52 then some 72
  else if code = 0x53 then some 80
  else if code = 0x54 then some 96
  else none

def ramBanks? (code : UInt8) : Option Nat :=
  if code = 0x00 then some 0
  else if code = 0x01 ∨ code = 0x02 then some 1
  else if code = 0x03 then some 4
  else if code = 0x04 then some 16
  else if code = 0x05 then some 8
  else none

/-- The declared ROM banks; an unknown code counts as the smallest ROM. -/
def romBanks (h : Header) : Nat := (romBanks? h.romSize).getD 2

/-- The declared RAM banks; an unknown code counts as no RAM. -/
def ramBanks (h : Header) : Nat := (ramBanks? h.ramSize).getD 0

def hasBattery (h : Header) : Bool := [0x03, 0x06, 0x0f, 0x10, 0x13].contains h.type

def hasClock (h : Header) : Bool := [0x0f, 0x10].contains h.type

def controller (h : Header) (image : Bytes) : Except Fault Controller :=
  if h.type = 0x00 then .ok (.rom image)
  else if 0x01 ≤ h.type ∧ h.type ≤ 0x03 then .ok (.mbc1 (.new image h.ramBanks h.hasBattery))
  else if h.type = 0x05 ∨ h.type = 0x06 then .ok (.mbc2 (.new image h.hasBattery))
  else if 0x0f ≤ h.type ∧ h.type ≤ 0x13 then
    .ok (.mbc3 (.new image h.ramBanks h.hasBattery h.hasClock))
  else .error (.unsupportedCartridge h.type)

end Header
end DotMatrix
