import DotMatrix.Proofs.Cartridge.Ram

/-! # Restoring cartridge RAM

RAM that is read out and put back leaves a cartridge as it was. What is put in from elsewhere is cut
or filled up to the size of the RAM, and nothing else of the cartridge takes part in it.
-/
namespace DotMatrix

open Controller (Event)

namespace Controller

def sansRam : Controller → Controller
  | .mbc1 m => .mbc1 { m with ram := #[] }
  | .mbc2 m => .mbc2 { m with ram := .replicate _ 0 }
  | .mbc3 m => .mbc3 { m with ram := #[] }
  | c => c

theorem sansRam_loadRam (c : Controller) (dump : Bytes) : (c.loadRam dump).sansRam = c.sansRam := by
  cases c <;> simp only [loadRam, Mbc1.loadRam, Mbc2.loadRam, Mbc3.loadRam, sansRam]

/-- A cartridge is its RAM and the rest. -/
theorem loadRam_eq_self {c : Controller} {dump : Bytes} (h : (c.loadRam dump).ram = c.ram) :
    c.loadRam dump = c := by
  cases c with
  | mbc1 m => exact congrArg (fun ram => mbc1 { m with ram }) h
  | mbc2 m =>
    have hv : (m.loadRam dump).ram = m.ram := Vector.toArray_inj.1 h
    exact congrArg (fun ram => mbc2 { m with ram }) hv
  | mbc3 m => exact congrArg (fun ram => mbc3 { m with ram }) h
  | rom | flat => rfl

/-- The ROM windows do not depend on RAM. -/
theorem read_loadRam (c : Controller) (dump : Bytes) {address : UInt16} (h : address < 0x8000) :
    (c.loadRam dump).read address = c.read address := by
  cases c with
  | mbc1 m =>
    simp only [loadRam, read, Mbc1.read, if_pos h]
    rfl
  | mbc2 m => simp only [loadRam, Mbc2.loadRam, read, Mbc2.read, Mbc2.romBank, if_pos h]
  | mbc3 m =>
    simp only [loadRam, read, Mbc3.read, if_pos h]
    rfl
  | rom | flat => rfl

end Controller

namespace Banking
variable {kind : Banking} {rom : Bytes} {banks : Nat} {battery : Bool}

section Cells

theorem kept_kept (kind : Banking) (v : UInt8) : kind.kept (kind.kept v) = kind.kept v := by
  cases kind with
  | mbc2 => rw [kept, kept, UInt8.and_assoc, UInt8.and_self]
  | mbc1 | mbc3 => rfl

/-- What a cell holds fits into it. -/
theorem kept_contents (kind : Banking) (banks cell : Nat) (past : List Event) :
    kind.kept (kind.contents banks cell past) = kind.contents banks cell past := by
  induction past with
  | nil =>
    cases kind with
    | mbc2 => exact (by decide : (0 : UInt8) &&& 0x0f = 0)
    | mbc1 | mbc3 => rfl
  | cons e past ih =>
    cases e with
    | write address v =>
      unfold contents
      split
      · exact kind.kept_kept v
      · exact ih
    | tick cycles => exact ih
    | load dump => exact kind.kept_kept _

theorem kept_le (v : UInt8) : mbc2.kept v ≤ 0x0f := by
  revert v
  apply Grid.forall_byte
  decide +kernel

end Cells

section Reached
variable (past : List Event)

theorem map_kept_ram :
    ((kind.build rom banks battery).after past).ram.map kind.kept =
      ((kind.build rom banks battery).after past).ram := by
  have hsize := (kind.remembers rom banks battery past).size_ram
  apply Array.ext_getElem?
  intro i
  rw [Array.getElem?_map]
  by_cases h : i < kind.ramSize banks
  · rw [getElem?_ram h past, Option.map_some, kept_contents]
  · rw [Array.getElem?_eq_none (by omega)]
    rfl

/-- What restoring leaves in RAM is made of the dump alone. -/
theorem ram_loadRam (dump : Bytes) :
    (((kind.build rom banks battery).after past).loadRam dump).ram =
      (Bytes.fit (kind.ramSize banks) dump).map kind.kept := by
  have now := kind.remembers rom banks battery past
  rw [now.ram_load, now.size_ram]

theorem loadRam_ram (other : List Event) :
    (((kind.build rom banks battery).after past).loadRam
      ((kind.build rom banks battery).after other).ram).ram =
        ((kind.build rom banks battery).after other).ram := by
  have hsize := (kind.remembers rom banks battery other).size_ram
  rw [ram_loadRam, ← hsize, Bytes.fit_size, map_kept_ram]

theorem le_of_mem_ram {v : UInt8}
    (h : v ∈ ((mbc2.build rom banks battery).after past).ram) : v ≤ 0x0f := by
  rw [← map_kept_ram, Array.mem_map] at h
  obtain ⟨w, -, rfl⟩ := h
  exact kept_le w

/-- Reading RAM out and putting it back changes nothing, and restoring a dump takes from it what
fits, leaves nothing of what was there before and moves nothing but RAM. -/
theorem restoring (kind : Banking) (rom : Bytes) (banks : Nat) (battery : Bool) :
    let c := (kind.build rom banks battery).after past
    c.loadRam c.ram = c ∧
    (kind = .mbc2 → ∀ v ∈ c.ram, v ≤ 0x0f) ∧
    ∀ dump : Bytes,
      (c.loadRam dump).ram.size = c.ram.size ∧
      (∀ i < c.ram.size, (c.loadRam dump).ram[i]? = some (kind.kept (dump.getD i 0))) ∧
      (∀ other, (((kind.build rom banks battery).after other).loadRam dump).ram =
        (c.loadRam dump).ram) ∧
      (c.loadRam dump).sansRam = c.sansRam ∧
      ∀ address < 0x8000, (c.loadRam dump).read address = c.read address := by
  intro c
  have hsize : c.ram.size = kind.ramSize banks := (kind.remembers rom banks battery past).size_ram
  refine ⟨c.loadRam_eq_self (loadRam_ram past past), ?_, ?_⟩
  · rintro rfl v hv
    exact le_of_mem_ram past hv
  · intro dump
    have hram : (c.loadRam dump).ram = (Bytes.fit (kind.ramSize banks) dump).map kind.kept :=
      ram_loadRam past dump
    refine ⟨?_, ?_, ?_, c.sansRam_loadRam dump, fun _ => c.read_loadRam dump⟩
    · rw [hram, Array.size_map, Bytes.size_fit, hsize]
    · intro i hi
      rw [hram]
      exact getElem?_fit kind dump (hsize ▸ hi)
    · intro other
      rw [hram, ram_loadRam]

end Reached

end Banking
end DotMatrix
