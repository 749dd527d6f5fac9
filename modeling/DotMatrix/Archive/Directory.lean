import DotMatrix.Archive.Field

/-! # Where the directory of an archive lies

An archive ends in a record that tells where its directory begins and how many entries it lists. A
comment may follow, and other bytes may stand in front of the archive or behind it, so every place
that holds the mark of an end record is a candidate, from the last one on. Numbers that do not fit
the record stand in a wide record in front of it, which a locator points to. Offsets count from the
start of the archive.
-/
namespace DotMatrix.Archive

/-- How far the archive lies behind the start of the file, where its directory begins, and the
entries in it. -/
structure Directory where
  lead : Nat
  start : Nat
  count : Nat
  deriving DecidableEq, Repr

def endMark : List UInt8 := [0x50, 0x4b, 0x05, 0x06]

def wideEndMark : List UInt8 := [0x50, 0x4b, 0x06, 0x06]

def locatorMark : List UInt8 := [0x50, 0x4b, 0x06, 0x07]

def entryMark : List UInt8 := [0x50, 0x4b, 0x01, 0x02]

def entrySize : Nat := 46

@[specialize]
def firstFrom {α : Type} (f : Nat → Option α) : Nat → Nat → Option α
  | 0, _ => none
  | count + 1, place =>
    match f place with
    | some a => some a
    | none => firstFrom f count (place + 1)

/-- The first place from one on that holds a mark all of which lies before another. -/
def markBetween? (b : Bytes) (mark : List UInt8) (first last : Nat) : Option Nat :=
  firstFrom (fun place => if b.holds place mark then some place else none)
    (last + 1 - mark.length - first) first

structure EndRecord where
  disk : Nat
  directoryDisk : Nat
  entriesHere : Nat
  entries : Nat
  offset : Nat
  deriving DecidableEq, Repr

namespace EndRecord

/-- The end record at a place; its comment must be there as well. -/
def at? (b : Bytes) (place : Nat) : Option EndRecord := do
  guard (b.holds place endMark)
  let commentLength ← b.number? (place + 20) 2
  guard (place + 22 + commentLength ≤ b.size)
  return {
    disk := ← b.number? (place + 4) 2
    directoryDisk := ← b.number? (place + 6) 2
    entriesHere := ← b.number? (place + 8) 2
    entries := ← b.number? (place + 10) 2
    offset := ← b.number? (place + 16) 4 }

/-- A number of the record may stand for one that does not fit. -/
def mayBeWide (e : EndRecord) : Bool := e.entries == 0xffff || e.offset == 0xffffffff

/-- The directory that the record at a place tells of. It begins with the first entry to be found
from its offset on; an empty one ends where the record begins. -/
def directory? (e : EndRecord) (b : Bytes) (place : Nat) : Option Directory := do
  let lead ← if e.entries = 0 then some (place - e.offset)
    else (markBetween? b entryMark e.offset place).map (· - e.offset)
  guard (e.disk = e.directoryDisk)
  return ⟨lead, e.offset + lead, e.entriesHere⟩

end EndRecord

/-- What points to a wide end record. -/
structure Locator where
  disk : Nat
  offset : Nat
  disks : Nat
  deriving DecidableEq, Repr

def Locator.size : Nat := 20

def Locator.at? (b : Bytes) (place : Nat) : Option Locator := do
  guard (b.holds place locatorMark)
  return {
    disk := ← b.number? (place + 4) 4
    offset := ← b.number? (place + 8) 8
    disks := ← b.number? (place + 16) 4 }

structure WideEndRecord where
  writtenBy : Nat
  needed : Nat
  disk : Nat
  directoryDisk : Nat
  entriesHere : Nat
  entries : Nat
  offset : Nat
  deriving DecidableEq, Repr

namespace WideEndRecord

/-- The wide end record at a place. It reaches up to its locator, and the directory that it tells of
fits in front of it. -/
def at? (b : Bytes) (l : Locator) (locatorAt place : Nat) : Option WideEndRecord := do
  guard (b.holds place wideEndMark)
  let size ← b.number? (place + 4) 8
  guard (44 ≤ size ∧ place + 12 + size = locatorAt)
  let e : WideEndRecord := {
    writtenBy := ← b.number? (place + 12) 2
    needed := ← b.number? (place + 14) 2
    disk := ← b.number? (place + 16) 4
    directoryDisk := ← b.number? (place + 20) 4
    entriesHere := ← b.number? (place + 24) 8
    entries := ← b.number? (place + 32) 8
    offset := ← b.number? (place + 48) 8 }
  guard (e.directoryDisk = l.disk ∧ e.entries * entrySize + e.offset ≤ place)
  return e

end WideEndRecord

def Locator.directory? (l : Locator) (b : Bytes) (place : Nat) : Option Directory := do
  guard (l.disks ≤ 1)
  let (e, found) ← firstFrom (fun p => (WideEndRecord.at? b l place p).map (·, p))
    (place - l.offset) l.offset
  guard (e.entriesHere ≤ e.entries ∧ e.needed ≤ e.writtenBy ∧ e.disk = e.directoryDisk)
  let lead := found - l.offset
  return ⟨lead, e.offset + lead, e.entries⟩

def directoryAt? (b : Bytes) (place : Nat) : Option Directory := do
  let e ← EndRecord.at? b place
  let locatorAt := place - Locator.size
  match if e.mayBeWide && Locator.size ≤ place then Locator.at? b locatorAt else none with
  | some l => l.directory? b locatorAt
  | none => e.directory? b place

end DotMatrix.Archive
