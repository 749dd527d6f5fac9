import DotMatrix.Hex

/-! # Numbers on the command line

A number is read from the left, and what is wrong first decides the fault: a character that is no
digit, or a digit that takes the number past the largest one allowed.
-/
namespace DotMatrix

inductive NumberFault where
  | empty
  | invalidDigit
  | tooLarge
  deriving DecidableEq, Repr

def NumberFault.message : NumberFault → String
  | .empty => "cannot parse integer from empty string"
  | .invalidDigit => "invalid digit found in string"
  | .tooLarge => "number too large to fit in target type"

namespace Number

def digit? (base : Nat) (c : Char) : Option Nat := (Hex.value? c).filter (· < base)

/-- Goes on reading digits behind a number that has been read. -/
def readDigits (base largest : Nat) : Nat → List Char → Except NumberFault Nat
  | n, [] => .ok n
  | n, c :: rest =>
    match digit? base c with
    | none => .error .invalidDigit
    | some d =>
      if largest < n * base + d then .error .tooLarge
      else readDigits base largest (n * base + d) rest

/-- Reads a number, which may have a plus in front. -/
def read (base largest : Nat) : List Char → Except NumberFault Nat
  | [] => .error .empty
  | ['+'] => .error .invalidDigit
  | '+' :: digits => readDigits base largest 0 digits
  | digits => readDigits base largest 0 digits

/-- Takes away every leading zero that is followed by the mark. -/
def dropMarks (mark : Char) : List Char → List Char
  | '0' :: c :: rest => if c = mark then dropMarks mark rest else '0' :: c :: rest
  | cs => cs

def hexDigits (cs : List Char) : List Char :=
  (dropMarks 'X' (dropMarks 'x' cs)).dropWhile (· == '$')

def largestHex : Nat := UInt32.size - 1

def readHex (text : String) : Except String Nat :=
  match read 16 largestHex (hexDigits text.toList) with
  | .ok n => .ok n
  | .error fault => .error s!"invalid hex value \"{text}\": {fault.message}"

/-- Reads a hexadecimal number below `size`, which is called `what` when it is out of range. -/
def readBelow (what : String) (size : Nat) (text : String) : Except String Nat := do
  let n ← readHex text
  if n < size then return n else throw s!"{what} ${Hex.natural n} is out of range"

def readAddress (text : String) : Except String UInt16 :=
  (readBelow "address" UInt16.size text).map UInt16.ofNat

def readOpcode (text : String) : Except String UInt8 :=
  (readBelow "opcode" UInt8.size text).map UInt8.ofNat

def largestCount : Nat := UInt64.size - 1

def readCount (text : String) : Except String Nat :=
  match read 10 largestCount text.toList with
  | .ok n => .ok n
  | .error fault => .error fault.message

end Number
end DotMatrix
