import Mathlib.Data.List.Forall2
import Mathlib.Data.Nat.Digits.Defs
import DotMatrix.Console.Number

/-! # Hexadecimal numbers on the command line

Behind the marks, which may be given any number of times, stands a numeral in base sixteen, and a
plus may come before it. A reader accepts the numerals of the numbers in its range, as long as they
may be, and answers just the number that the numeral stands for: none is cut off or wraps around.
-/
namespace DotMatrix

namespace Hex

def Spells (c : Char) (d : Nat) : Prop := d < 16 ∧ (c = digit d ∨ c = (digit d).toUpper)

instance (c : Char) (d : Nat) : Decidable (Spells c d) := inferInstanceAs (Decidable (_ ∧ _))

/-- At least one digit, the most significant one first. -/
def Numeral (cs : List Char) (n : Nat) : Prop :=
  cs ≠ [] ∧ ∃ ds, List.Forall₂ Spells cs ds ∧ Nat.ofDigits 16 ds.reverse = n

section Digit
variable {c : Char} {d n : Nat}

theorem toNat_lt_of_value? (h : value? c = some d) : c.toNat < 128 := by
  unfold value? at h
  simp only [Char.le_def, UInt32.le_iff_toNat_le] at h
  change (if 48 ≤ c.toNat ∧ c.toNat ≤ 57 then _ else if 97 ≤ c.toNat ∧ c.toNat ≤ 102 then _
    else if 65 ≤ c.toNat ∧ c.toNat ≤ 70 then _ else _) = _ at h
  split at h
  · omega
  · split at h
    · omega
    · split at h
      · omega
      · cases h

theorem value?_eq_some_iff : value? c = some d ↔ Spells c d := by
  constructor
  · intro h
    have key : ∀ k < 128, ∀ v ∈ value? (Char.ofNat k), Spells (Char.ofNat k) v := by decide +kernel
    have hc := key c.toNat (toNat_lt_of_value? h)
    rw [Char.ofNat_toNat] at hc
    exact hc d h
  · rintro ⟨hd, hc⟩
    have key : ∀ k < 16, value? (digit k).toUpper = some k := by decide
    rcases hc with rfl | rfl
    · exact value?_digit d hd
    · exact key d hd

theorem spells_digit (h : d < 16) : Spells (digit d) d := ⟨h, .inl rfl⟩

theorem spells_toUpper (h : Spells c d) : Spells c.toUpper d := by
  have key : ∀ k < 16, (digit k).toUpper.toUpper = (digit k).toUpper := by decide
  obtain ⟨hd, rfl | rfl⟩ := h
  · exact ⟨hd, .inr rfl⟩
  · exact ⟨hd, .inr (key d hd)⟩

end Digit

section Numeral
variable {c : Char} {cs : List Char} {d n : Nat}

theorem numeral_singleton (h : Spells c d) : Numeral [c] d :=
  ⟨List.cons_ne_nil _ _, [d], .cons h .nil, Nat.ofDigits_singleton⟩

theorem Numeral.snoc (h : Numeral cs n) (hc : Spells c d) : Numeral (cs ++ [c]) (16 * n + d) := by
  obtain ⟨-, ds, hds, rfl⟩ := h
  refine ⟨by simp, ds ++ [d], List.rel_append hds (.cons hc .nil), ?_⟩
  rw [List.reverse_append, List.reverse_singleton, List.singleton_append, Nat.ofDigits_cons]
  exact Nat.add_comm _ _

theorem Numeral.toUpper (h : Numeral cs n) : Numeral (cs.map Char.toUpper) n := by
  obtain ⟨hne, ds, hds, hn⟩ := h
  refine ⟨by simpa using hne, ds, ?_, hn⟩
  rw [List.forall₂_map_left_iff]
  exact hds.imp fun _ _ => spells_toUpper

theorem Numeral.spells (h : Numeral cs n) (hc : c ∈ cs) : ∃ d, Spells c d := by
  obtain ⟨-, ds, hds, -⟩ := h
  induction hds with
  | nil => cases hc
  | cons hs _ ih =>
    rcases List.mem_cons.1 hc with rfl | hc
    · exact ⟨_, hs⟩
    · exact ih hc

/-- Digits of a fixed width. -/
theorem numeral_digits {width : Nat} (hw : width ≠ 0) (h : n < 16 ^ width) :
    Numeral (digits width n) n := by
  induction width generalizing n with
  | zero => exact absurd rfl hw
  | succ width ih =>
    have hlast : Spells (digit (n % 16)) (n % 16) := spells_digit (Nat.mod_lt _ (by decide))
    cases width with
    | zero =>
      have hn : n % 16 = n := Nat.mod_eq_of_lt h
      have hnumeral : Numeral (digits 1 n) (n % 16) := numeral_singleton hlast
      rwa [hn] at hnumeral
    | succ width =>
      have hupper : n / 16 < 16 ^ (width + 1) := by
        rw [Nat.pow_succ] at h
        omega
      have hsnoc := (ih (Nat.succ_ne_zero _) hupper).snoc hlast
      rwa [Nat.div_add_mod] at hsnoc

/-- As many digits as a number needs. -/
theorem numeral_toDigits (n : Nat) : Numeral (Nat.toDigits 16 n) n := by
  have hdigit : ∀ k < 16, Spells (Nat.digitChar k) k := by decide
  induction n using Nat.strongRecOn with
  | ind n ih =>
    by_cases h : n < 16
    · rw [Nat.toDigits_of_lt_base h]
      exact numeral_singleton (hdigit n h)
    · have hmore : 16 ≤ n := Nat.not_lt.1 h
      have hsnoc := (ih (n / 16) (by omega)).snoc (hdigit (n % 16) (Nat.mod_lt _ (by decide)))
      rw [Nat.toDigits_of_base_le (by decide) hmore]
      rwa [Nat.div_add_mod] at hsnoc

end Numeral

end Hex

namespace Number

section Marks
variable {mark cs rest : List Char}

structure Trimmed (mark cs rest : List Char) : Prop where
  marks : ∃ n, cs = (List.replicate n mark).flatten ++ rest
  clear : ¬mark <+: rest

/-- A text without every `0x`, then every `0X` and then every `$` in front. -/
def Unmarked (text digits : List Char) : Prop :=
  ∃ a b, Trimmed ['0', 'x'] text a ∧ Trimmed ['0', 'X'] a b ∧ Trimmed ['$'] b digits

theorem Trimmed.mark_append (h : Trimmed mark cs rest) : Trimmed mark (mark ++ cs) rest := by
  obtain ⟨⟨n, rfl⟩, hclear⟩ := h
  refine ⟨⟨n + 1, ?_⟩, hclear⟩
  rw [List.replicate_succ, List.flatten_cons, List.append_assoc]

theorem trimmed_self (h : ¬mark <+: cs) : Trimmed mark cs cs := ⟨⟨0, rfl⟩, h⟩

theorem Trimmed.eq_of_clear (h : Trimmed mark cs rest) (hc : ¬mark <+: cs) : rest = cs := by
  obtain ⟨⟨n, rfl⟩, -⟩ := h
  cases n with
  | zero => rfl
  | succ n =>
    rw [List.replicate_succ, List.flatten_cons, List.append_assoc] at hc
    exact absurd (List.prefix_append _ _) hc

theorem Trimmed.of_mark_append (h : Trimmed mark (mark ++ cs) rest) : Trimmed mark cs rest := by
  obtain ⟨⟨n, hn⟩, hclear⟩ := h
  cases n with
  | zero =>
    obtain rfl : mark ++ cs = rest := hn
    exact absurd (List.prefix_append _ _) hclear
  | succ n =>
    rw [List.replicate_succ, List.flatten_cons, List.append_assoc] at hn
    exact ⟨⟨n, List.append_cancel_left hn⟩, hclear⟩

theorem Trimmed.unique {other : List Char} (h : Trimmed mark cs rest)
    (ho : Trimmed mark cs other) : other = rest := by
  obtain ⟨⟨n, hn⟩, hclear⟩ := h
  induction n generalizing cs with
  | zero =>
    obtain rfl : cs = rest := hn
    exact ho.eq_of_clear hclear
  | succ n ih =>
    rw [List.replicate_succ, List.flatten_cons, List.append_assoc] at hn
    subst hn
    exact ih ho.of_mark_append rfl

theorem trimmed_dropMarks (c : Char) (cs : List Char) : Trimmed ['0', c] cs (dropMarks c cs) := by
  fun_induction dropMarks c cs with
  | case1 tail ih => exact ih.mark_append
  | case2 first tail hc =>
    apply trimmed_self
    simpa using Ne.symm hc
  | case3 cs hshort =>
    apply trimmed_self
    rintro ⟨tail, rfl⟩
    exact hshort c tail rfl

theorem trimmed_dropWhile (c : Char) (cs : List Char) :
    Trimmed [c] cs (cs.dropWhile (· == c)) := by
  induction cs with
  | nil => exact trimmed_self (by simp)
  | cons first cs ih =>
    by_cases h : first = c
    · subst h
      rw [List.dropWhile_cons_of_pos (by simp)]
      exact ih.mark_append
    · rw [List.dropWhile_cons_of_neg (by simpa using h)]
      apply trimmed_self
      simpa using Ne.symm h

/-- The digits that are read are those that are left without the marks. -/
theorem unmarked_iff {text digits : List Char} :
    Unmarked text digits ↔ digits = hexDigits text := by
  constructor
  · rintro ⟨a, b, ha, hb, hd⟩
    obtain rfl := (trimmed_dropMarks 'x' text).unique ha
    obtain rfl := (trimmed_dropMarks 'X' _).unique hb
    exact (trimmed_dropWhile '$' _).unique hd
  · rintro rfl
    exact ⟨_, _, trimmed_dropMarks 'x' text, trimmed_dropMarks 'X' _, trimmed_dropWhile '$' _⟩

end Marks

section Reading
variable {base largest n m : Nat} {cs : List Char}

def continued (base : Nat) (ds : List Nat) (n : Nat) : Nat := ds.foldl (fun n d => n * base + d) n

theorem le_continued (hb : 0 < base) (ds : List Nat) (n : Nat) : n ≤ continued base ds n := by
  induction ds generalizing n with
  | nil => exact le_rfl
  | cons d ds ih =>
    calc
      n ≤ n * base + d := (Nat.le_mul_of_pos_right n hb).trans (Nat.le_add_right _ d)
      _ ≤ continued base ds (n * base + d) := ih _

theorem continued_zero (base : Nat) (ds : List Nat) :
    continued base ds 0 = Nat.ofDigits base ds.reverse := by
  rw [Nat.ofDigits_eq_foldr, List.foldr_reverse, continued]
  congr
  funext n d
  exact (Nat.add_comm _ _).trans (congrArg (d + ·) (Nat.mul_comm _ _))

/-- Digits are read up to the largest number. What is read never gets smaller, so a number that has
become too large stays so. -/
theorem readDigits_eq_ok_iff (hb : 0 < base) (hn : n ≤ largest) :
    readDigits base largest n cs = .ok m ↔ m ≤ largest ∧
      ∃ ds, List.Forall₂ (fun c d => digit? base c = some d) cs ds ∧ continued base ds n = m := by
  fun_induction readDigits base largest n cs with
  | case1 n =>
    constructor
    · intro h
      obtain rfl := Except.ok.inj h
      exact ⟨hn, [], .nil, rfl⟩
    · rintro ⟨-, ds, hds, rfl⟩
      cases hds
      rfl
  | case2 n c rest hc =>
    constructor
    · intro h
      cases h
    · rintro ⟨-, ds, hds, -⟩
      cases hds with
      | cons hd _ =>
        rw [hc] at hd
        cases hd
  | case3 n c rest d hc hlarge =>
    constructor
    · intro h
      cases h
    · rintro ⟨hm, ds, hds, rfl⟩
      cases hds with
      | @cons _ _ _ ds hd htail =>
        rw [hc] at hd
        obtain rfl := Option.some.inj hd
        have hle := le_continued hb ds (n * base + d)
        exact absurd (hlarge.trans_le (hle.trans hm)) (lt_irrefl _)
  | case4 n c rest d hc hlarge ih =>
    rw [ih (Nat.not_lt.1 hlarge)]
    constructor
    · rintro ⟨hm, ds, hds, hvalue⟩
      exact ⟨hm, d :: ds, .cons hc hds, hvalue⟩
    · rintro ⟨hm, ds, hds, hvalue⟩
      cases hds with
      | cons hd htail =>
        rw [hc] at hd
        obtain rfl := Option.some.inj hd
        exact ⟨hm, _, htail, hvalue⟩

theorem digit?_sixteen_iff {c : Char} {d : Nat} : digit? 16 c = some d ↔ Hex.Spells c d := by
  rw [digit?, Option.filter_eq_some_iff, Hex.value?_eq_some_iff]
  simp only [decide_eq_true_eq]
  exact ⟨And.left, fun h => ⟨h, h.1⟩⟩

/-- A numeral with or without a plus in front. -/
def Typed (cs : List Char) (n : Nat) : Prop :=
  Hex.Numeral cs n ∨ ∃ digits, cs = '+' :: digits ∧ Hex.Numeral digits n

theorem readDigits_sixteen_iff (hne : cs ≠ []) :
    readDigits 16 largest 0 cs = .ok n ↔ Hex.Numeral cs n ∧ n ≤ largest := by
  rw [readDigits_eq_ok_iff (by decide) (Nat.zero_le _)]
  simp only [digit?_sixteen_iff, continued_zero]
  exact ⟨fun ⟨hn, h⟩ => ⟨⟨hne, h⟩, hn⟩, fun ⟨⟨_, h⟩, hn⟩ => ⟨hn, h⟩⟩

theorem not_numeral_plus (digits : List Char) (n : Nat) : ¬Hex.Numeral ('+' :: digits) n := by
  intro h
  obtain ⟨d, hd⟩ := h.spells List.mem_cons_self
  have hvalue : Hex.value? '+' = some d := Hex.value?_eq_some_iff.2 hd
  cases hvalue

theorem typed_plus_iff {digits : List Char} : Typed ('+' :: digits) n ↔ Hex.Numeral digits n := by
  constructor
  · rintro (h | ⟨_, he, h⟩)
    · exact absurd h (not_numeral_plus digits n)
    · obtain rfl := (List.cons.inj he).2
      exact h
  · exact fun h => .inr ⟨digits, rfl, h⟩

theorem read_sixteen_iff : read 16 largest cs = .ok n ↔ Typed cs n ∧ n ≤ largest := by
  unfold read
  split
  case h_1 =>
    constructor
    · intro h
      cases h
    · rintro ⟨⟨hne, -⟩ | ⟨_, he, -⟩, -⟩
      · exact absurd rfl hne
      · cases he
  case h_2 =>
    rw [typed_plus_iff]
    constructor
    · intro h
      cases h
    · rintro ⟨⟨hne, -⟩, -⟩
      exact absurd rfl hne
  case h_3 digits hne =>
    rw [typed_plus_iff]
    exact readDigits_sixteen_iff hne
  case h_4 digits hne _ hplus =>
    rw [readDigits_sixteen_iff hne]
    constructor
    · exact fun ⟨h, hn⟩ => ⟨.inl h, hn⟩
    · rintro ⟨h | ⟨rest, rfl, -⟩, hn⟩
      · exact ⟨h, hn⟩
      · exact absurd rfl (hplus rest)

theorem readHex_eq_ok_iff {text : String} :
    readHex text = .ok n ↔ Typed (hexDigits text.toList) n ∧ n ≤ largestHex := by
  rw [← read_sixteen_iff, readHex]
  cases read 16 largestHex (hexDigits text.toList) with
  | ok k => simp only [Except.ok.injEq]
  | error fault => exact ⟨nofun, nofun⟩

/-- Every number in the range fits into what digits are read into. -/
theorem readBelow_eq_ok_iff {what text : String} {size : Nat} (hs : size ≤ UInt32.size) :
    readBelow what size text = .ok n ↔ Typed (hexDigits text.toList) n ∧ n < size := by
  have hread : readBelow what size text = .ok n ↔ readHex text = .ok n ∧ n < size := by
    unfold readBelow
    cases readHex text with
    | error reason => exact ⟨nofun, nofun⟩
    | ok k =>
      change (if k < size then pure k else throw _) = _ ↔ _
      by_cases hk : k < size
      · rw [if_pos hk]
        constructor
        · intro h
          obtain rfl := Except.ok.inj h
          exact ⟨rfl, hk⟩
        · exact And.left
      · rw [if_neg hk]
        refine ⟨nofun, ?_⟩
        rintro ⟨h, hn⟩
        obtain rfl := Except.ok.inj h
        exact absurd hn hk
  rw [hread, readHex_eq_ok_iff]
  have hlargest (h : n < size) : n ≤ largestHex := by
    change n ≤ UInt32.size - 1
    omega
  exact ⟨fun ⟨⟨h, _⟩, hn⟩ => ⟨h, hn⟩, fun ⟨h, hn⟩ => ⟨⟨h, hlargest hn⟩, hn⟩⟩

end Reading

section Exactness

/-- What is read from a text answers the number that is typed there, up to a largest one, and
refuses all else. -/
structure Exact {α : Type} (outcome : Except String α) (value : α → Nat) (largest : Nat)
    (digits : List Char) : Prop where
  accepts : ∀ a, outcome = .ok a ↔ Typed digits (value a)
  refuses : (∃ reason, outcome = .error reason) ↔ ∀ n ≤ largest, ¬Typed digits n

/-- A number in the range is told apart from the others by the word that is made of it. -/
theorem exact_readBelow {α : Type} {ofNat : Nat → α} {toNat : α → Nat} {largest : Nat}
    (hl : largest < UInt32.size) (hbound : ∀ a, toNat a ≤ largest)
    (hback : ∀ a, ofNat (toNat a) = a) (hfits : ∀ n ≤ largest, toNat (ofNat n) = n)
    (what text : String) :
    Exact ((readBelow what (largest + 1) text).map ofNat) toNat largest
      (hexDigits text.toList) := by
  have hread {n : Nat} : readBelow what (largest + 1) text = .ok n ↔
      Typed (hexDigits text.toList) n ∧ n ≤ largest := by
    rw [readBelow_eq_ok_iff hl, Nat.lt_succ_iff]
  cases hr : readBelow what (largest + 1) text with
  | ok n =>
    rw [hr] at hread
    obtain ⟨htyped, hn⟩ := hread.1 rfl
    constructor
    · intro a
      constructor
      · intro h
        obtain rfl := Except.ok.inj h
        rwa [hfits n hn]
      · intro h
        obtain rfl := Except.ok.inj (hread.2 ⟨h, hbound a⟩)
        exact congrArg Except.ok (hback a)
    · exact ⟨nofun, fun h => absurd htyped (h n hn)⟩
  | error reason =>
    have hnone (n : Nat) (hn : n ≤ largest) : ¬Typed (hexDigits text.toList) n := by
      intro h
      have hok := hread.2 ⟨h, hn⟩
      rw [hr] at hok
      cases hok
    constructor
    · exact fun a => ⟨nofun, fun h => absurd h (hnone _ (hbound a))⟩
    · exact ⟨fun _ => hnone, fun _ => ⟨reason, rfl⟩⟩

theorem exact_readAddress (text : String) :
    Exact (readAddress text) UInt16.toNat 0xffff (hexDigits text.toList) :=
  exact_readBelow (by decide) (fun a => Nat.le_of_lt_succ a.toNat_lt) (fun _ => UInt16.ofNat_toNat)
    (fun _ h => UInt16.toNat_ofNat_of_lt (Nat.lt_succ_of_le h)) "address" text

theorem exact_readOpcode (text : String) :
    Exact (readOpcode text) UInt8.toNat 0xff (hexDigits text.toList) :=
  exact_readBelow (by decide) (fun v => Nat.le_of_lt_succ v.toNat_lt) (fun _ => UInt8.ofNat_toNat)
    (fun _ h => UInt8.toNat_ofNat_of_lt (Nat.lt_succ_of_le h)) "opcode" text

def marks : List String := ["", "0x", "0X", "$"]

theorem clear_of_numeral {cs mark : List Char} {c : Char} {n : Nat} (h : Hex.Numeral cs n)
    (hc : c ∈ mark) (hv : Hex.value? c = none) : ¬mark <+: cs := by
  intro hp
  obtain ⟨d, hd⟩ := h.spells (hp.subset hc)
  rw [Hex.value?_eq_some_iff.2 hd] at hv
  cases hv

/-- A numeral begins with none of the marks, so just the one in front of it is taken away. -/
theorem unmarked_mark_append {mark written : String} {n : Nat} (hm : mark ∈ marks)
    (h : Hex.Numeral written.toList n) :
    Unmarked (mark ++ written).toList written.toList := by
  have hx : Trimmed ['0', 'x'] written.toList written.toList :=
    trimmed_self (clear_of_numeral h (c := 'x') (by simp) rfl)
  have hX : Trimmed ['0', 'X'] written.toList written.toList :=
    trimmed_self (clear_of_numeral h (c := 'X') (by simp) rfl)
  have hd : Trimmed ['$'] written.toList written.toList :=
    trimmed_self (clear_of_numeral h (c := '$') (by simp) rfl)
  rw [String.toList_append]
  simp only [marks, List.mem_cons, List.not_mem_nil, or_false] at hm
  rcases hm with rfl | rfl | rfl | rfl
  · exact ⟨_, _, hx, hX, hd⟩
  · exact ⟨_, _, hx.mark_append, hX, hd⟩
  · exact ⟨_, _, trimmed_self (by simp), hX.mark_append, hd⟩
  · exact ⟨_, _, trimmed_self (by simp), trimmed_self (by simp), hd.mark_append⟩

theorem numeral_of_written {a : UInt16} {written : String}
    (h : written ∈ [Hex.word a, (Hex.word a).toUpper, Hex.natural a.toNat,
      (Hex.natural a.toNat).toUpper]) : Hex.Numeral written.toList a.toNat := by
  have hword : Hex.Numeral (Hex.word a).toList a.toNat := by
    rw [Hex.word, String.toList_ofList]
    exact Hex.numeral_digits (by decide) a.toNat_lt
  have hnatural : Hex.Numeral (Hex.natural a.toNat).toList a.toNat := by
    rw [Hex.natural, String.toList_ofList]
    exact Hex.numeral_toDigits a.toNat
  have hupper {s : String} (hs : Hex.Numeral s.toList a.toNat) :
      Hex.Numeral s.toUpper.toList a.toNat := by
    rw [String.toUpper, String.toList_map]
    exact hs.toUpper
  simp only [List.mem_cons, List.not_mem_nil, or_false] at h
  rcases h with rfl | rfl | rfl | rfl
  · exact hword
  · exact hupper hword
  · exact hnatural
  · exact hupper hnatural

/-- Behind any number of marks of each kind in turn, a numeral in letters of either case, which may
have a plus in front, is read as the number that it stands for, and as nothing else. It is refused
if that number is out of range, as is every other text. So every address is read back from its
digits, however they are written and with or without a mark. -/
theorem hexadecimal_is_exact :
    (∀ text : String, ∃ digits, (∀ rest, Unmarked text.toList rest ↔ rest = digits) ∧
      Exact (readAddress text) UInt16.toNat 0xffff digits ∧
      Exact (readOpcode text) UInt8.toNat 0xff digits) ∧
    ∀ a : UInt16,
      (∀ mark ∈ marks, ∀ written : String, Hex.Numeral written.toList a.toNat →
        readAddress (mark ++ written) = .ok a) ∧
      ∀ written ∈ [Hex.word a, (Hex.word a).toUpper, Hex.natural a.toNat,
        (Hex.natural a.toNat).toUpper], Hex.Numeral written.toList a.toNat := by
  refine ⟨?_, fun a => ⟨?_, fun _ => numeral_of_written⟩⟩
  · exact fun text =>
      ⟨_, fun _ => unmarked_iff, exact_readAddress text, exact_readOpcode text⟩
  · intro mark hm written h
    have hdigits : written.toList = hexDigits (mark ++ written).toList :=
      unmarked_iff.1 (unmarked_mark_append hm h)
    apply ((exact_readAddress (mark ++ written)).accepts a).2
    rw [← hdigits]
    exact .inl h

/-- More digits than an address needs, of either case. -/
theorem hexadecimal_is_exact_long : "0X" ∈ marks ∧ Hex.Numeral "000000C0de".toList 0xc0de ∧
    readAddress ("0X" ++ "000000C0de") = .ok 0xc0de := by
  have hn : Hex.Numeral "000000C0de".toList 0xc0de :=
    ⟨by decide, [0, 0, 0, 0, 0, 0, 12, 0, 13, 14], by decide, by decide⟩
  have hm : "0X" ∈ marks := by decide
  exact ⟨hm, hn, (hexadecimal_is_exact.2 0xc0de).1 "0X" hm _ hn⟩

end Exactness

end Number
end DotMatrix
