/-! # The memory map

Every address belongs to one region. Some cells of the last page are wired to the hardware.
-/
namespace DotMatrix

inductive Region where
  | rom | video | external | work | echo | objects | unusable | io | high
  deriving DecidableEq, Repr

namespace Region

def of (address : UInt16) : Region :=
  if address < 0x8000 then .rom
  else if address < 0xa000 then .video
  else if address < 0xc000 then .external
  else if address < 0xe000 then .work
  else if address < 0xfe00 then .echo
  else if address < 0xfea0 then .objects
  else if address < 0xff00 then .unusable
  else if address < 0xff80 then .io
  else .high

end Region

def unecho (address : UInt16) : UInt16 := address - 0x2000

namespace Cell

def joypad : UInt16 := 0xff00

/-- The upper byte of the timer's counter. -/
def div : UInt16 := 0xff04

/-- The timer counter. -/
def tima : UInt16 := 0xff05

/-- The modulo that the timer counter is reloaded with. -/
def tma : UInt16 := 0xff06

/-- The control of the timer. -/
def tac : UInt16 := 0xff07

def requests : UInt16 := 0xff0f

def display : UInt16 := 0xff40

def dma : UInt16 := 0xff46

def backgroundPalette : UInt16 := 0xff47

def objectPalette0 : UInt16 := 0xff48

def objectPalette1 : UInt16 := 0xff49

def boot : UInt16 := 0xff50

def enables : UInt16 := 0xffff

/-- The first address of the page in which writes can be hooked. -/
def page : UInt16 := 0xff00

/-- The cells where a checked write has an effect of its own. -/
def wired : List UInt16 := [joypad, div, tima, tma, tac, requests, dma, boot]

end Cell
end DotMatrix
