import Mathlib.Algebra.BigOperators.Intervals
import Mathlib.Order.Interval.Finset.Nat
import DotMatrix.Proofs.Header.Text

/-! # The checksum of a header

The checksum byte makes the bytes of a header, and one for each that it covers, sum up to zero. So
there is one right checksum for every image, and no single byte of a header can change without being
noticed.
-/
namespace DotMatrix

theorem Bytes.readOpen_setIfInBounds {b : Bytes} {i : Nat} (h : i < b.size) (v : UInt8) (j : Nat) :
    Bytes.readOpen (b.setIfInBounds i v) j = if i = j then v else b.readOpen j := by
  simp only [Bytes.readOpen, Array.getD_eq_getD_getElem?, Array.getElem?_setIfInBounds, if_pos h]
  split
  · rfl
  · rfl

namespace Header

def byteSum (image : Bytes) (first last : Nat) : Nat :=
  ∑ i ∈ Finset.Icc first last, (image.readOpen i).toNat

def verified (image : Bytes) : Except Fault Bool := (parse image).map (·.checksumHolds image)

/-- Each byte, and one for it, is taken away modulo 256. -/
theorem toNat_foldl (bytes : List UInt8) (start : UInt8) :
    ((bytes.foldl (fun sum v => sum - v - 1) start).toNat : ℤ) =
      (start.toNat - (bytes.map UInt8.toNat).sum - bytes.length) % 256 := by
  induction bytes generalizing start with
  | nil =>
    have hs := start.toNat_lt
    simp only [List.foldl_nil, List.map_nil, List.sum_nil, List.length_nil]
    omega
  | cons v bytes ih =>
    have hstep : ((start - v - 1).toNat : ℤ) = (start.toNat - v.toNat - 1) % 256 := by
      have hv := v.toNat_lt
      rw [UInt8.toNat_sub, UInt8.toNat_sub, UInt8.toNat_one]
      omega
    rw [List.foldl_cons, ih, hstep, List.map_cons, List.sum_cons, List.length_cons]
    push_cast
    omega

section Sum
variable {image : Bytes}

theorem byteSum_succ (image : Bytes) {first last : Nat} (h : first ≤ last + 1) :
    byteSum image first (last + 1) =
      byteSum image first last + (image.readOpen (last + 1)).toNat :=
  Finset.sum_Icc_succ_top h _

theorem sum_field {first last : Nat} (h : last < image.size) :
    ((field image first (last + 1)).map UInt8.toNat).sum = byteSum image first last := by
  rw [field_eq h, List.map_map]
  rfl

/-- A byte that is put in place of another moves the sum by their difference. -/
theorem byteSum_setIfInBounds {first last i : Nat} (hf : first ≤ i) (hl : i ≤ last)
    (hs : i < image.size) (v : UInt8) :
    byteSum (image.setIfInBounds i v) first last + (image.readOpen i).toNat =
      byteSum image first last + v.toNat := by
  have hi : i ∈ Finset.Icc first last := Finset.mem_Icc.2 ⟨hf, hl⟩
  have hothers : ∀ j ∈ (Finset.Icc first last).erase i,
      (Bytes.readOpen (image.setIfInBounds i v) j).toNat = (image.readOpen j).toNat := by
    intro j hj
    rw [Bytes.readOpen_setIfInBounds hs, if_neg (Finset.ne_of_mem_erase hj).symm]
  have hself : Bytes.readOpen (image.setIfInBounds i v) i = v := by
    rw [Bytes.readOpen_setIfInBounds hs, if_pos rfl]
  unfold byteSum
  rw [← Finset.add_sum_erase _ _ hi, ← Finset.add_sum_erase _ _ hi, hself,
    Finset.sum_congr rfl hothers]
  omega

/-- A sum depends on the bytes that it is taken over. -/
theorem byteSum_congr {other : Bytes} {first last : Nat}
    (h : ∀ i, first ≤ i → i ≤ last → other.readOpen i = image.readOpen i) :
    byteSum other first last = byteSum image first last := by
  apply Finset.sum_congr rfl
  intro i hi
  obtain ⟨hf, hl⟩ := Finset.mem_Icc.1 hi
  rw [h i hf hl]

end Sum

section Checksum
variable {image : Bytes}

theorem exists_checksum (h : 0x150 ≤ image.size) :
    ∃ v, computeChecksum? image = some v ∧
      (v.toNat : ℤ) = (-25 - byteSum image 0x134 0x14c : ℤ) % 256 := by
  have hc : computeChecksum? image =
      some ((field image 0x134 0x14d).foldl (fun sum v => sum - v - 1) 0) :=
    if_neg (Nat.not_lt.2 ((by decide : 0x14d ≤ 0x150).trans h))
  have hlength : (field image 0x134 0x14d).length = 25 := by
    rw [field_eq (by omega), List.length_map, List.length_range']
  refine ⟨_, hc, ?_⟩
  rw [toNat_foldl, hlength, sum_field (by omega), UInt8.toNat_zero]
  push_cast
  omega

/-- The whole header with its checksum, and one for each of its other bytes, sums up to zero. -/
theorem verified_eq (h : 0x150 ≤ image.size) :
    verified image = .ok (decide ((byteSum image 0x134 0x14d + 25) % 256 = 0)) := by
  obtain ⟨v, hv, hsum⟩ := exists_checksum h
  have hstored : (read image).checksum = image.readOpen 0x14d := rfl
  have hsplit : byteSum image 0x134 0x14d =
      byteSum image 0x134 0x14c + (image.readOpen 0x14d).toNat := byteSum_succ image (by decide)
  have hiff : (some v == some (image.readOpen 0x14d)) = true ↔
      (byteSum image 0x134 0x14d + 25) % 256 = 0 := by
    have hb := (image.readOpen 0x14d).toNat_lt
    rw [beq_iff_eq, Option.some_inj, ← UInt8.toNat_inj, hsplit]
    omega
  unfold verified
  rw [parse_of_le h]
  refine congrArg Except.ok ?_
  change (computeChecksum? image == some (read image).checksum) = _
  rw [hv, hstored, Bool.eq_iff_iff, hiff, decide_eq_true_iff]

theorem verified_congr {other : Bytes} (hi : 0x150 ≤ image.size) (ho : 0x150 ≤ other.size)
    (h : ∀ i, 0x134 ≤ i → i ≤ 0x14d → other.readOpen i = image.readOpen i) :
    verified other = verified image := by
  rw [verified_eq hi, verified_eq ho, byteSum_congr h]

theorem computeChecksum?_congr {other : Bytes} (hi : 0x150 ≤ image.size) (ho : 0x150 ≤ other.size)
    (h : ∀ i, 0x134 ≤ i → i ≤ 0x14d → other.readOpen i = image.readOpen i) :
    computeChecksum? other = computeChecksum? image := by
  have hf : field other 0x134 0x14d = field image 0x134 0x14d :=
    field_congr (by omega) (by omega) fun i hl hu => h i hl (by omega)
  unfold computeChecksum?
  rw [if_neg (by change ¬other.size < 0x14d; omega),
    if_neg (by change ¬image.size < 0x14d; omega)]
  exact congrArg (fun bytes => some (List.foldl _ 0 bytes)) hf

/-- The checksum of an image is a sum modulo 256. Stored at its place it makes any image verify,
and once an image verifies, no single byte of its header can be replaced by another without making
it fail. The bytes around the header never matter. -/
theorem checksum_guards_header (h : 0x150 ≤ image.size) :
    (∃ v, computeChecksum? image = some v ∧
      (v.toNat : ℤ) = (-25 - byteSum image 0x134 0x14c : ℤ) % 256 ∧
      verified (image.setIfInBounds 0x14d v) = .ok true) ∧
    (∃ holds, verified image = .ok holds ∧
      (holds = true ↔ (byteSum image 0x134 0x14d + 25) % 256 = 0)) ∧
    (verified image = .ok true → ∀ i, 0x134 ≤ i → i ≤ 0x14d → ∀ v, v ≠ image.readOpen i →
      verified (image.setIfInBounds i v) = .ok false) ∧
    (∀ other : Bytes, 0x150 ≤ other.size →
      (∀ i, 0x134 ≤ i → i ≤ 0x14d → other.readOpen i = image.readOpen i) →
      computeChecksum? other = computeChecksum? image ∧ verified other = verified image) := by
  have hset (i : Nat) (v : UInt8) : 0x150 ≤ (image.setIfInBounds i v).size := by
    rw [Array.size_setIfInBounds]
    exact h
  refine ⟨?_, ?_, ?_, ?_⟩
  · obtain ⟨v, hv, hsum⟩ := exists_checksum h
    have hmoved : byteSum (image.setIfInBounds 0x14d v) 0x134 0x14d +
        (image.readOpen 0x14d).toNat = byteSum image 0x134 0x14d + v.toNat :=
      byteSum_setIfInBounds (by decide) (by decide) (by omega) v
    have hsplit : byteSum image 0x134 0x14d =
        byteSum image 0x134 0x14c + (image.readOpen 0x14d).toNat := byteSum_succ image (by decide)
    refine ⟨v, hv, hsum, ?_⟩
    rw [verified_eq (hset _ v), decide_eq_true]
    omega
  · exact ⟨_, verified_eq h, decide_eq_true_iff⟩
  · intro hv i hl hu v hne
    have hmoved : byteSum (image.setIfInBounds i v) 0x134 0x14d + (image.readOpen i).toNat =
        byteSum image 0x134 0x14d + v.toNat := byteSum_setIfInBounds hl hu (by omega) v
    have hzero : (byteSum image 0x134 0x14d + 25) % 256 = 0 := by
      rw [verified_eq h] at hv
      exact of_decide_eq_true (Except.ok.inj hv)
    have hbytes : v.toNat ≠ (image.readOpen i).toNat := mt UInt8.toNat_inj.1 hne
    have hold := (image.readOpen i).toNat_lt
    have hnew := v.toNat_lt
    rw [verified_eq (hset i v), decide_eq_false]
    omega
  · intro other ho hbytes
    exact ⟨computeChecksum?_congr h ho hbytes, verified_congr h ho hbytes⟩

/-- With its checksum the image verifies; without the first letter of its title it fails. -/
theorem checksum_guards_header_lettered :
    ∃ v, computeChecksum? lettered = some v ∧
      verified (lettered.setIfInBounds 0x14d v) = .ok true ∧
      verified ((lettered.setIfInBounds 0x14d v).setIfInBounds 0x135 0) = .ok false := by
  have hsize : 0x150 ≤ lettered.size := by decide +kernel
  obtain ⟨⟨v, hv, -, hverified⟩, -⟩ := checksum_guards_header hsize
  have hstored : 0x150 ≤ (lettered.setIfInBounds 0x14d v).size := by
    rw [Array.size_setIfInBounds]
    exact hsize
  have hletter : (0 : UInt8) ≠ Bytes.readOpen (lettered.setIfInBounds 0x14d v) 0x135 := by
    rw [Bytes.readOpen_setIfInBounds (by omega), if_neg (by decide)]
    decide +kernel
  obtain ⟨-, -, hguarded, -⟩ := checksum_guards_header hstored
  exact ⟨v, hv, hverified, hguarded hverified 0x135 (by decide) (by decide) 0 hletter⟩

end Checksum

end Header
end DotMatrix
