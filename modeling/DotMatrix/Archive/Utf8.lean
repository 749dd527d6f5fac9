/-! # Reading UTF-8 that may be damaged

Bytes that begin a character and do not go on as one count as a single replacement character, and
so does a byte that begins none. On text that is in order nothing is replaced.
-/
namespace DotMatrix.Utf8

def replacement : Char := '\ufffd'

/-- A character that has begun: the bounds of its next byte, how many follow that one, and the bits
collected so far. -/
structure Begun where
  least : UInt8
  greatest : UInt8
  following : Nat
  bits : Nat
  deriving DecidableEq, Repr

/-- The character of several bytes that a byte begins. Forms that are longer than need be, halves of
a surrogate pair and numbers beyond the last character are ruled out by their second byte. -/
def Begun.ofLead? (v : UInt8) : Option Begun :=
  if v < 0xc2 then none
  else if v < 0xe0 then some ⟨0x80, 0xbf, 0, v.toNat % 32⟩
  else if v < 0xf0 then
    some ⟨if v = 0xe0 then 0xa0 else 0x80, if v = 0xed then 0x9f else 0xbf, 1, v.toNat % 16⟩
  else if v < 0xf5 then
    some ⟨if v = 0xf0 then 0x90 else 0x80, if v = 0xf4 then 0x8f else 0xbf, 2, v.toNat % 8⟩
  else none

def first (v : UInt8) : List Char × Option Begun :=
  if v < 0x80 then ([Char.ofNat v.toNat], none)
  else match Begun.ofLead? v with
    | some begun => ([], some begun)
    | none => ([replacement], none)

def step (state : Option Begun) (v : UInt8) : List Char × Option Begun :=
  match state with
  | none => first v
  | some c =>
    if c.least ≤ v ∧ v ≤ c.greatest then
      let bits := c.bits * 64 + v.toNat % 64
      match c.following with
      | 0 => ([Char.ofNat bits], none)
      | n + 1 => ([], some ⟨0x80, 0xbf, n, bits⟩)
    else
      let (shown, state) := first v
      (replacement :: shown, state)

def decodeFrom (state : Option Begun) : List UInt8 → List Char
  | [] => if state.isSome then [replacement] else []
  | v :: rest => (step state v).1 ++ decodeFrom (step state v).2 rest

def decode (raw : List UInt8) : String := String.ofList (decodeFrom none raw)

end DotMatrix.Utf8
