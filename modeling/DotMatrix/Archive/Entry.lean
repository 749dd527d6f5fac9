import DotMatrix.Archive.CodePage
import DotMatrix.Archive.Crc32
import DotMatrix.Archive.Directory
import DotMatrix.Archive.Utf8

/-! # What the directory tells of an entry

A description may go on in extra fields: numbers that do not fit, a name in Unicode, times, how the
entry is encrypted. Each has a kind and a length. Of the kinds that are known here one that is
malformed spoils the entry, and all others are passed over. Where the bytes end within a field, what
has been read so far stands.
-/
namespace DotMatrix

structure ArchiveEntry where
  rawName : Bytes
  name : String
  comment : String
  encrypted : Bool
  /-- It is encrypted in a way that an extra field tells of. -/
  sealed : Bool
  method : Nat
  checksum : Nat
  /-- Bytes that the contents take in the archive. -/
  size : Nat
  /-- Bytes of the contents when they are unpacked. -/
  fullSize : Nat
  /-- Where the header in front of the contents lies. -/
  header : Nat

namespace Archive

inductive Stop where
  | ended | malformed
  deriving DecidableEq, Repr

structure Extras where
  entry : ArchiveEntry
  rest : List UInt8

abbrev ExtraReader := EStateM Stop Extras

namespace ExtraReader

def take (count : Nat) : ExtraReader Bytes := do
  let s ← get
  if s.rest.length < count then throw .ended
  set { s with rest := s.rest.drop count }
  return (s.rest.take count).toArray

def number (width : Nat) : ExtraReader Nat :=
  return (← take width).foldr (fun v n => v.toNat + 256 * n) 0

def require (condition : Bool) : ExtraReader Unit :=
  if condition then return () else throw .malformed

def update (change : ArchiveEntry → ArchiveEntry) : ExtraReader Unit :=
  modify fun s => { s with entry := change s.entry }

def entry : ExtraReader ArchiveEntry := return (← get).entry

/-- A number that stands for one in an extra field. -/
def tooWide : Nat := 0xffffffff

/-- Reads a wide number, if it is there, and tells how many bytes it takes. -/
def replace (present : Bool) (change : Nat → ArchiveEntry → ArchiveEntry) : ExtraReader Nat := do
  if present then
    update (change (← number 8))
    return 8
  else return 0

/-- Wide numbers stand one behind the other, only those that are asked for unless there is room for
all of them. -/
def wide (length : Nat) : ExtraReader Unit := do
  let e ← entry
  let all := decide (24 ≤ length)
  let first ← replace (all || e.fullSize == tooWide) fun n e => { e with fullSize := n }
  let second ← replace (all || e.size == tooWide) fun n e => { e with size := n }
  let third ← replace (all || e.header == tooWide) fun n e => { e with header := n }
  let used := first + second + third
  require (used ≤ length)
  let _ ← take (length - used)

def times (length : Nat) : ExtraReader Unit := do
  require (length == 32)
  let _ ← number 4
  require ((← number 2) == 1)
  require ((← number 2) == 24)
  let _ ← take 24

/-- One to three times with flags that tell which; a single one may have the flags of others. -/
def stamps (length : Nat) : ExtraReader Unit := do
  let flags ← number 1
  let count := ((List.range 8).filter flags.testBit).length
  require (length == 5 || length == 1 + 4 * count)
  require (flags < 8)
  let _ ← take (length - 1)

def unicode (length : Nat) (shown : Bytes) : ExtraReader (Bytes × String) := do
  let _ ← number 1
  let checksum ← number 4
  require (5 ≤ length)
  let raw ← take (length - 5)
  require (checksum == (Crc32.checksum shown).toNat)
  match String.fromUTF8? ⟨raw⟩ with
  | some text => return (raw, text)
  | none => throw .malformed

/-- How an entry is encrypted: the version and the name of the maker, the strength, and the method
that is used inside. -/
def sealing (length : Nat) : ExtraReader Unit := do
  require (length == 7)
  let version ← number 2
  let maker ← number 2
  let strength ← number 1
  let method ← number 2
  require (maker == 0x4541)
  require (version == 1 || version == 2)
  require (1 ≤ strength && strength ≤ 3)
  update fun e => { e with sealed := true, method }

def field (kind length : Nat) : ExtraReader Unit := do
  match kind with
  | 0x0001 => wide length
  | 0x000a => times length
  | 0x5455 => stamps length
  | 0x6375 =>
    let (_, comment) ← unicode length (← entry).comment.toUTF8.data
    update fun e => { e with comment }
  | 0x7075 =>
    let (rawName, name) ← unicode length (← entry).rawName
    update fun e => { e with rawName, name }
  | 0x9901 => sealing length
  | _ =>
    let _ ← take length

def fields : Nat → ExtraReader Unit
  | 0 => return ()
  | fuel + 1 => do
    let kind ← number 2
    field kind (← number 2)
    fields fuel

end ExtraReader

def withExtras? (e : ArchiveEntry) (extra : Bytes) : Option ArchiveEntry :=
  match ExtraReader.fields extra.size ⟨e, extra.toList⟩ with
  | .error .malformed _ => none
  | .error .ended s | .ok _ s => some s.entry

def sealedMethod : Nat := 99

def readText (unicode : Bool) (raw : Bytes) : String :=
  if unicode then Utf8.decode raw.toList else CodePage.decode raw.toList

def describedAt? (b : Bytes) (place : Nat) : Option (ArchiveEntry × Nat) := do
  guard (b.holds place entryMark)
  let flags ← b.number? (place + 8) 2
  let unicode := flags.testBit 11
  let nameAt := place + entrySize
  let rawName ← b.slice? nameAt (← b.number? (place + 28) 2)
  let extraAt := nameAt + rawName.size
  let extra ← b.slice? extraAt (← b.number? (place + 30) 2)
  let commentAt := extraAt + extra.size
  let comment ← b.slice? commentAt (← b.number? (place + 32) 2)
  let e : ArchiveEntry := {
    rawName
    name := readText unicode rawName
    comment := readText unicode comment
    encrypted := flags.testBit 0
    sealed := false
    method := ← b.number? (place + 10) 2
    checksum := ← b.number? (place + 16) 4
    size := ← b.number? (place + 20) 4
    fullSize := ← b.number? (place + 24) 4
    header := ← b.number? (place + 42) 4 }
  let e ← withExtras? e extra
  guard (e.method ≠ sealedMethod ∨ e.sealed)
  return (e, commentAt + comment.size)

end Archive
end DotMatrix
