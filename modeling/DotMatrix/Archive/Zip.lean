import DotMatrix.Archive.Entry
import DotMatrix.Fault

/-! # Archives

An archive lists its entries in a directory, and in front of the contents of each stands a header. A
candidate for the directory counts only if all of its entries can be read; the header of an entry is
not looked at before the entry is opened. Only entries that are stored as they are can be opened.
-/
namespace DotMatrix
namespace Archive

/-- The entry at a place in a directory, and the place behind its description. The header of the
entry lies in front of the directory. -/
def entryAt? (b : Bytes) (dir : Directory) (place : Nat) : Option (ArchiveEntry × Nat) := do
  let (e, next) ← describedAt? b place
  let header := dir.lead + e.header
  guard (header < dir.start)
  return ({ e with header }, next)

/-- A later entry of a name takes the place of an earlier one. -/
def enlist (l : List ArchiveEntry) (e : ArchiveEntry) : List ArchiveEntry :=
  if l.any (·.name == e.name) then l.map fun x => if x.name = e.name then e else x else l ++ [e]

def readEntries? (b : Bytes) (dir : Directory) :
    Nat → Nat → List ArchiveEntry → Option (List ArchiveEntry)
  | 0, _, l => some l
  | count + 1, place, l =>
    match entryAt? b dir place with
    | none => none
    | some (e, next) => readEntries? b dir count next (enlist l e)

def entriesFrom? (b : Bytes) (place : Nat) : Option (List ArchiveEntry) := do
  let dir ← directoryAt? b place
  readEntries? b dir dir.count dir.start []

/-- The entries that the last proper end record before a place leads to. -/
def entriesBefore? (b : Bytes) : Nat → Option (List ArchiveEntry)
  | 0 => none
  | place + 1 =>
    match entriesFrom? b place with
    | some l => some l
    | none => entriesBefore? b place

def entries (b : Bytes) : Except ArchiveFault (List ArchiveEntry) :=
  match entriesBefore? b b.size with
  | some l => .ok l
  | none => .error .noDirectory

def headerMark : List UInt8 := [0x50, 0x4b, 0x03, 0x04]

def headerSize : Nat := 30

def behindHeader? (b : Bytes) (header : Nat) : Option Nat := do
  guard (b.holds header headerMark)
  let nameLength ← b.number? (header + 26) 2
  let extraLength ← b.number? (header + 28) 2
  return header + headerSize + nameLength + extraLength

/-- Ways of packing that are known, of which only the first, none at all, can be undone. -/
def knownMethods : List Nat := [0, 8, 9, 12, 14, 93, 95]

/-- Where the contents of an entry that can be opened begin. They may be packed. -/
def openEntry (b : Bytes) (e : ArchiveEntry) : Except ArchiveFault Nat := do
  if e.encrypted ∨ e.sealed then throw .encrypted
  match behindHeader? b e.header with
  | none => throw .noHeader
  | some start =>
    if knownMethods.contains e.method then return start else throw .packed

/-- The first of some entries whose name satisfies `p`, and where its contents begin. Those before
it can be opened, and it is not packed. -/
def find (b : Bytes) (p : String → Bool) :
    List ArchiveEntry → Except ArchiveFault (Option (ArchiveEntry × Nat))
  | [] => .ok none
  | e :: rest => do
    let start ← openEntry b e
    if !p e.name then find b p rest
    else if e.method ≠ 0 then throw .packed
    else return some (e, start)

def contents (b : Bytes) (e : ArchiveEntry) (start : Nat) : Except FileFault Bytes :=
  let stored := b.extract start (start + e.size)
  if (Crc32.checksum stored).toNat = e.checksum then .ok stored else .error .corrupt

end Archive
end DotMatrix
