import Mathlib.Data.List.DropRight
import DotMatrix.Cartridge.Header
import DotMatrix.Proofs.Grid.Arithmetic

/-! # Texts in a header

A field of a header is decoded to printable ASCII that does not end in a space, whatever bytes it
holds. Decoding undoes encoding: a text of this kind that fits into a field, filled up with zeros,
is read back as it is. The title gives up its last five bytes on a cartridge that knows of colour, and
one of them tells whether it does.
-/
namespace DotMatrix.Header

/-- A text as headers have it: printable ASCII that does not end in a space. -/
structure Plain (t : String) : Prop where
  printable : ∀ c ∈ t.toList, 0x20 ≤ c.toNat ∧ c.toNat ≤ 0x7e
  trimmed : t.toList.getLast? ≠ some ' '

instance (t : String) : Decidable (Plain t) :=
  decidable_of_iff
    (t.toList.all (fun c => 0x20 ≤ c.toNat && c.toNat ≤ 0x7e) = true ∧ t.toList.getLast? ≠ some ' ')
    ⟨fun ⟨hp, ht⟩ => ⟨by simpa using hp, ht⟩, fun ⟨hp, ht⟩ => ⟨by simpa using hp, ht⟩⟩

def code (c : Char) : UInt8 := UInt8.ofNat c.toNat

/-- A field of an image holds a text, filled up with zeros. -/
structure Holds (image : Bytes) (start width : Nat) (t : String) : Prop where
  fits : t.length ≤ width
  bytes : ∀ i < width, image.readOpen (start + i) = (t.toList[i]?.map code).getD 0

/-- The bytes of the title: bit 7 of the last one leaves the other four to the manufacturer. -/
def titleWidth (image : Bytes) : Nat := if (image.readOpen 0x143).toNat.testBit 7 then 11 else 16

section Field
variable {image : Bytes} {start stop : Nat}

theorem field_eq (h : stop ≤ image.size) :
    field image start stop = (List.range' start (stop - start)).map image.readOpen := by
  apply List.ext_getElem
  · rw [field, Array.length_toList, Array.size_extract, List.length_map, List.length_range',
      Nat.min_eq_left h]
  · intro i hi hr
    rw [List.length_map, List.length_range'] at hr
    have hin : start + i < image.size := by omega
    simp only [field, Array.getElem_toList, Array.getElem_extract, List.getElem_map,
      List.getElem_range', Nat.one_mul]
    exact (Array.getElem_eq_getD 0xff).trans rfl

theorem length_field_le : (field image start stop).length ≤ stop - start := by
  rw [field, Array.length_toList, Array.size_extract]
  omega

/-- A field depends on its own bytes only. -/
theorem field_congr {other : Bytes} (hi : stop ≤ image.size) (ho : stop ≤ other.size)
    (h : ∀ i, start ≤ i → i < stop → other.readOpen i = image.readOpen i) :
    field other start stop = field image start stop := by
  rw [field_eq hi, field_eq ho]
  apply List.map_congr_left
  intro i hm
  obtain ⟨hlow, hhigh⟩ := List.mem_range'_1.1 hm
  exact h i hlow (by omega)

theorem Holds.field_eq {width : Nat} {t : String} (h : Holds image start width t)
    (hs : start + width ≤ image.size) :
    field image start (start + width) =
      t.toList.map code ++ List.replicate (width - t.length) 0 := by
  have hfits : t.toList.length ≤ width := String.length_toList ▸ h.fits
  rw [Header.field_eq hs, Nat.add_sub_cancel_left]
  apply List.ext_getElem
  · simp only [List.length_map, List.length_range', List.length_append, List.length_replicate,
      ← String.length_toList]
    omega
  · intro i hi hr
    have hw : i < width := by simpa using hi
    rw [List.getElem_map, List.getElem_range', Nat.one_mul, h.bytes i hw]
    by_cases ht : i < t.toList.length
    · rw [List.getElem_append_left (by simpa using ht), List.getElem_map,
        List.getElem?_eq_getElem ht]
      rfl
    · rw [List.getElem_append_right (by simpa using ht), List.getElem_replicate,
        List.getElem?_eq_none (Nat.not_lt.1 ht)]
      rfl

end Field

section Character

theorem toNat_character (v : UInt8) :
    0x20 ≤ (character v).toNat ∧ (character v).toNat ≤ 0x7e :=
  Grid.forall_byte (P := fun v => 0x20 ≤ (character v).toNat ∧ (character v).toNat ≤ 0x7e)
    (by decide +kernel) v

variable {c : Char}

theorem toNat_code (h : c.toNat ≤ 0x7e) : (code c).toNat = c.toNat := by
  rw [code, UInt8.toNat_ofNat']
  omega

theorem character_code (hl : 0x20 ≤ c.toNat) (hu : c.toNat ≤ 0x7e) : character (code c) = c := by
  have hcode := toNat_code hu
  have hprintable : 0x20 ≤ code c ∧ code c ≤ 0x7e := by
    rw [UInt8.le_iff_toNat_le, UInt8.le_iff_toNat_le, hcode]
    exact ⟨hl, hu⟩
  rw [character, if_pos hprintable, hcode, Char.ofNat_toNat]

theorem code_ne_zero (hl : 0x20 ≤ c.toNat) (hu : c.toNat ≤ 0x7e) : code c ≠ 0 := by
  intro h
  have hcode := toNat_code hu
  rw [h] at hcode
  change 0 = c.toNat at hcode
  omega

end Character

section Decoding

theorem toList_fieldText (bytes : List UInt8) :
    (fieldText bytes).toList =
      ((bytes.takeWhile (· != 0)).map character).rdropWhile (· == ' ') :=
  String.toList_ofList

/-- Whatever a field holds is shown as plain text. -/
theorem plain_fieldText (bytes : List UInt8) : Plain (fieldText bytes) where
  printable c hc := by
    rw [toList_fieldText] at hc
    obtain ⟨v, -, rfl⟩ := List.mem_map.1 ((List.rdropWhile_prefix _ _).subset hc)
    exact toNat_character v
  trimmed := by
    intro hlast
    have hne : (fieldText bytes).toList ≠ [] := by
      intro hnil
      rw [hnil] at hlast
      cases hlast
    rw [List.getLast?_eq_some_getLast hne, Option.some_inj] at hlast
    simp only [toList_fieldText] at hne hlast
    exact List.rdropWhile_last_not _ _ hne (beq_iff_eq.2 hlast)

theorem length_fieldText_le (bytes : List UInt8) : (fieldText bytes).length ≤ bytes.length := by
  have hdropped := (List.rdropWhile_prefix (· == ' ')
    ((bytes.takeWhile (· != 0)).map character)).length_le
  have htaken := (List.takeWhile_prefix (l := bytes) (· != 0)).length_le
  rw [List.length_map] at hdropped
  rw [← String.length_toList, toList_fieldText]
  omega

/-- Decoding undoes encoding. -/
theorem fieldText_encoded {t : String} (h : Plain t) (n : Nat) :
    fieldText (t.toList.map code ++ List.replicate n 0) = t := by
  have hcodes : ∀ v ∈ t.toList.map code, (v != 0) = true := by
    intro v hv
    obtain ⟨c, hc, rfl⟩ := List.mem_map.1 hv
    obtain ⟨hl, hu⟩ := h.printable c hc
    exact bne_iff_ne.2 (code_ne_zero hl hu)
  have htaken : (t.toList.map code ++ List.replicate n 0).takeWhile (· != 0) =
      t.toList.map code := by
    rw [List.takeWhile_append_of_pos hcodes, List.takeWhile_replicate]
    exact List.append_nil _
  have hshown : (t.toList.map code).map character = t.toList := by
    rw [List.map_map]
    refine (List.map_congr_left fun c hc => ?_).trans (List.map_id _)
    obtain ⟨hl, hu⟩ := h.printable c hc
    exact character_code hl hu
  have htrimmed : t.toList.rdropWhile (· == ' ') = t.toList := by
    rw [List.rdropWhile_eq_self_iff]
    intro hne hspace
    apply h.trimmed
    rw [List.getLast?_eq_some_getLast hne, eq_of_beq hspace]
  apply String.toList_inj.1
  rw [toList_fieldText, htaken, hshown, htrimmed]

end Decoding

section Parsing
variable {image : Bytes}

theorem parse_of_le (h : 0x150 ≤ image.size) : parse image = .ok (read image) :=
  if_neg (Nat.not_lt.2 h)

theorem titleStop_eq (image : Bytes) :
    titleStop (image.readOpen 0x143) = 0x134 + titleWidth image :=
  Grid.forall_byte
    (P := fun v => titleStop v = 0x134 + if v.toNat.testBit 7 then 11 else 16)
    (by decide +kernel) _

theorem titleWidth_le (image : Bytes) : titleWidth image ≤ 16 := by
  unfold titleWidth
  split <;> decide

/-- Only the bytes of the header have a part in what is read. -/
theorem read_congr {other : Bytes} (hi : 0x150 ≤ image.size) (ho : 0x150 ≤ other.size)
    (h : ∀ i, 0x134 ≤ i → i ≤ 0x14d → other.readOpen i = image.readOpen i) :
    read other = read image := by
  have hfield {start stop : Nat} (hstart : 0x134 ≤ start) (hstop : stop ≤ 0x14e) :
      field other start stop = field image start stop :=
    field_congr (by omega) (by omega) fun i hl hu => h i (by omega) (by omega)
  have htitle : titleStop (image.readOpen 0x143) ≤ 0x14e := by
    have hw := titleWidth_le image
    rw [titleStop_eq]
    omega
  have hflag : other.readOpen 0x143 = image.readOpen 0x143 := h _ (by decide) (by decide)
  unfold read
  simp only [cgbFlagAt, sgbFlagAt, checksumAt, titleStart, manufacturerStart, licenseeStart]
  rw [hflag, hfield (by decide) htitle, hfield (by decide) (by decide),
    hfield (by decide) (by decide), h 0x146 (by decide) (by decide),
    h 0x147 (by decide) (by decide), h 0x148 (by decide) (by decide),
    h 0x149 (by decide) (by decide), h 0x14a (by decide) (by decide),
    h 0x14b (by decide) (by decide), h 0x14c (by decide) (by decide),
    h 0x14d (by decide) (by decide)]

theorem title_read (image : Bytes) :
    (read image).title = fieldText (field image 0x134 (0x134 + titleWidth image)) :=
  congrArg (fun stop => fieldText (field image 0x134 stop)) (titleStop_eq image)

/-- A field shows plain text that is no longer than the field. -/
theorem shown_field (image : Bytes) (start width : Nat) :
    let shown := fieldText (field image start (start + width))
    Plain shown ∧ shown.length ≤ width := by
  have hlength := length_fieldText_le (field image start (start + width))
  have hfield : (field image start (start + width)).length ≤ start + width - start :=
    length_field_le
  exact ⟨plain_fieldText _, by omega⟩

theorem Holds.shown {start width : Nat} {t : String} (h : Holds image start width t)
    (ht : Plain t) (hs : start + width ≤ image.size) :
    fieldText (field image start (start + width)) = t := by
  rw [h.field_eq hs]
  exact fieldText_encoded ht _

/-- A header is parsed from every image that is long enough for one, and from its own bytes alone.
The texts in it are plain and no longer than their fields, and a plain text that stands in a field,
filled up with zeros, is read back as it is, whatever the other bytes are. -/
theorem texts_are_read_back (image : Bytes) :
    (∀ fault, parse image = .error fault ↔
      image.size < 0x150 ∧ fault = .imageTooSmall image.size) ∧
    (0x150 ≤ image.size → ∀ other : Bytes, 0x150 ≤ other.size →
      (∀ i, 0x134 ≤ i → i ≤ 0x14d → other.readOpen i = image.readOpen i) →
      parse other = parse image) ∧
    (∀ header, parse image = .ok header →
      (Plain header.title ∧ header.title.length ≤ titleWidth image) ∧
      (Plain header.manufacturer ∧ header.manufacturer.length ≤ 4) ∧
      (Plain header.licensee ∧ header.licensee.length ≤ 2)) ∧
    (0x150 ≤ image.size → ∀ t, Plain t →
      (Holds image 0x134 (titleWidth image) t →
        ∃ header, parse image = .ok header ∧ header.title = t) ∧
      (Holds image 0x13f 4 t → ∃ header, parse image = .ok header ∧ header.manufacturer = t) ∧
      (Holds image 0x144 2 t → ∃ header, parse image = .ok header ∧ header.licensee = t)) := by
  refine ⟨?_, ?_, ?_, ?_⟩
  · intro fault
    by_cases hs : image.size < 0x150
    · have hp : parse image = .error (.imageTooSmall image.size) := if_pos hs
      rw [hp]
      constructor
      · intro h
        cases h
        exact ⟨hs, rfl⟩
      · rintro ⟨-, rfl⟩
        rfl
    · rw [parse_of_le (Nat.not_lt.1 hs)]
      constructor
      · intro h
        cases h
      · rintro ⟨hshort, -⟩
        exact absurd hshort hs
  · intro hi other ho h
    rw [parse_of_le hi, parse_of_le ho, read_congr hi ho h]
  · intro header hp
    have hheader : header = read image := by
      unfold parse at hp
      split at hp
      · cases hp
      · exact (Except.ok.inj hp).symm
    rw [hheader, title_read]
    exact ⟨shown_field image 0x134 _, shown_field image 0x13f 4, shown_field image 0x144 2⟩
  · intro hs t ht
    have hparse := parse_of_le hs
    have hwidth := titleWidth_le image
    refine ⟨?_, ?_, ?_⟩
    · intro h
      exact ⟨_, hparse, (title_read image).trans (h.shown ht (by omega))⟩
    · intro h
      exact ⟨_, hparse, h.shown ht (by omega)⟩
    · intro h
      exact ⟨_, hparse, h.shown ht (by omega)⟩

end Parsing

section Lettered

/-- An image whose title fills all of its sixteen bytes, with spaces in front and within, and whose
licensee is a single letter. -/
def lettered : Bytes :=
  Bytes.zeros 0x134 ++ (" DOT  MATRIX 089".toList.map code).toArray ++ #[code 'A'] ++
    Bytes.zeros 11

/-- The manufacturer is read from the same bytes as the end of the title. -/
theorem texts_are_read_back_lettered :
    (∃ header, parse lettered = .ok header ∧ header.title = " DOT  MATRIX 089") ∧
      (∃ header, parse lettered = .ok header ∧ header.manufacturer = "X 08") ∧
      ∃ header, parse lettered = .ok header ∧ header.licensee = "A" := by
  have hsize : 0x150 ≤ lettered.size := by decide +kernel
  have hwidth : titleWidth lettered = 16 := by decide +kernel
  have htitle : Holds lettered 0x134 (titleWidth lettered) " DOT  MATRIX 089" := by
    rw [hwidth]
    exact ⟨by decide +kernel, by decide +kernel⟩
  have hmanufacturer : Holds lettered 0x13f 4 "X 08" := ⟨by decide +kernel, by decide +kernel⟩
  have hlicensee : Holds lettered 0x144 2 "A" := ⟨by decide +kernel, by decide +kernel⟩
  obtain ⟨-, -, -, hread⟩ := texts_are_read_back lettered
  exact ⟨(hread hsize _ (by decide +kernel)).1 htitle,
    (hread hsize _ (by decide +kernel)).2.1 hmanufacturer,
    (hread hsize _ (by decide +kernel)).2.2 hlicensee⟩

end Lettered

end DotMatrix.Header
