import DotMatrix.Hex
import DotMatrix.Word
import DotMatrix.Processor.Flags

/-! # The register file

Eight byte registers, four of which pair up with another, and two words. A register name can be
used at either width: a byte read of a word register gives its low byte, and a byte written to one
is extended with zeros.
-/
namespace DotMatrix

inductive Register where
  | a | b | c | d | e | h | l | f | af | bc | de | hl | sp | pc
  deriving DecidableEq, Repr

structure Registers where
  a : UInt8
  f : Flags
  b : UInt8
  c : UInt8
  d : UInt8
  e : UInt8
  h : UInt8
  l : UInt8
  sp : UInt16
  pc : UInt16
  deriving DecidableEq, Repr, Inhabited

namespace Registers

def cleared : Registers := ⟨0, .none, 0, 0, 0, 0, 0, 0, 0, 0⟩

def postBoot : Registers where
  a := 0x01
  f := ⟨true, false, true, true⟩
  b := 0x00
  c := 0x13
  d := 0x00
  e := 0xd8
  h := 0x01
  l := 0x4d
  sp := 0xfffe
  pc := 0x0100

def af (r : Registers) : UInt16 := Word.join r.a r.f.toByte

def bc (r : Registers) : UInt16 := Word.join r.b r.c

def de (r : Registers) : UInt16 := Word.join r.d r.e

def hl (r : Registers) : UInt16 := Word.join r.h r.l

def setAf (r : Registers) (w : UInt16) : Registers :=
  { r with a := Word.high w, f := .ofByte (Word.low w) }

def setBc (r : Registers) (w : UInt16) : Registers :=
  { r with b := Word.high w, c := Word.low w }

def setDe (r : Registers) (w : UInt16) : Registers :=
  { r with d := Word.high w, e := Word.low w }

def setHl (r : Registers) (w : UInt16) : Registers :=
  { r with h := Word.high w, l := Word.low w }

def readWord (r : Registers) : Register → UInt16
  | .a => r.a.toUInt16
  | .b => r.b.toUInt16
  | .c => r.c.toUInt16
  | .d => r.d.toUInt16
  | .e => r.e.toUInt16
  | .h => r.h.toUInt16
  | .l => r.l.toUInt16
  | .f => r.f.toByte.toUInt16
  | .af => r.af
  | .bc => r.bc
  | .de => r.de
  | .hl => r.hl
  | .sp => r.sp
  | .pc => r.pc

def readByte (r : Registers) (x : Register) : UInt8 := Word.low (r.readWord x)

def writeWord (r : Registers) (x : Register) (w : UInt16) : Registers :=
  match x with
  | .a => { r with a := Word.low w }
  | .b => { r with b := Word.low w }
  | .c => { r with c := Word.low w }
  | .d => { r with d := Word.low w }
  | .e => { r with e := Word.low w }
  | .h => { r with h := Word.low w }
  | .l => { r with l := Word.low w }
  | .f => { r with f := .ofByte (Word.low w) }
  | .af => r.setAf w
  | .bc => r.setBc w
  | .de => r.setDe w
  | .hl => r.setHl w
  | .sp => { r with sp := w }
  | .pc => { r with pc := w }

def writeByte (r : Registers) (x : Register) (v : UInt8) : Registers := r.writeWord x v.toUInt16

@[simp]
theorem bc_setBc (r : Registers) (w : UInt16) : (r.setBc w).bc = w := Word.join_high_low w

@[simp]
theorem de_setDe (r : Registers) (w : UInt16) : (r.setDe w).de = w := Word.join_high_low w

@[simp]
theorem hl_setHl (r : Registers) (w : UInt16) : (r.setHl w).hl = w := Word.join_high_low w

def text (r : Registers) : String :=
  s!"A: ${Hex.byte r.a}  F: ${Hex.byte r.f.toByte}  B: ${Hex.byte r.b}  C: ${Hex.byte r.c}  " ++
    s!"D: ${Hex.byte r.d}  E: ${Hex.byte r.e}  H: ${Hex.byte r.h}  L: ${Hex.byte r.l}  " ++
    s!"SP: ${Hex.word r.sp}  PC: ${Hex.word r.pc}"

end Registers
end DotMatrix
