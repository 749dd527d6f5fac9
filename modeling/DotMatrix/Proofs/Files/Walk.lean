import Mathlib.Tactic.SplitIfs
import DotMatrix.Files.Tree

/-! # Walks through a file tree

A path is walked segment by segment, so the path of a name below a directory leads one step further
than the directory does. What a walk has passed are directories, and it passes them again as long as
they stay.
-/
namespace DotMatrix

theorem lookup_filter_ne {α β : Type} [BEq α] [LawfulBEq α] (l : List (α × β)) {key other : α}
    (h : key ≠ other) : List.lookup key (l.filter (·.1 != other)) = l.lookup key := by
  induction l with
  | nil => rfl
  | cons entry l ih =>
    obtain ⟨found, value⟩ := entry
    by_cases hf : found = other
    · subst hf
      rw [List.filter_cons_of_neg (by simp), ih, List.lookup_cons, beq_false_of_ne h]
    · rw [List.filter_cons_of_pos (by simpa using hf), List.lookup_cons, List.lookup_cons, ih]

namespace Path

section Pieces
variable {l : List Char}

theorem pieces_ne_nil (l : List Char) : pieces l ≠ [] := by
  cases l with
  | nil => exact List.cons_ne_nil _ _
  | cons c l =>
    unfold pieces
    split
    · exact List.cons_ne_nil _ _
    · split <;> exact List.cons_ne_nil _ _

theorem pieces_append_slash (l other : List Char) :
    pieces (l ++ '/' :: other) = pieces l ++ pieces other := by
  induction l with
  | nil => rfl
  | cons c l ih =>
    by_cases hc : c = '/'
    · simp [pieces, hc, ih]
    · cases hp : pieces l with
      | nil => exact absurd hp (pieces_ne_nil l)
      | cons piece more => simp [pieces, hc, ih, hp]

theorem pieces_of_slash_not_mem (h : '/' ∉ l) : pieces l = [l] := by
  induction l with
  | nil => rfl
  | cons c l ih =>
    rw [List.mem_cons, not_or] at h
    simp [pieces, Ne.symm h.1, ih h.2]

end Pieces

section Join
variable {d : Path} {name : String}

structure IsEntry (name : String) : Prop where
  noSlash : '/' ∉ name.toList
  noNul : '\x00' ∉ name.toList
  busy : isIdle name = false
  down : name ≠ ".."

theorem segments_empty {d : Path} (h : d.isEmpty) : d.segments = [""] := by
  have hd : d.text = "" := String.isEmpty_iff.1 h
  rw [segments, hd]
  rfl

/-- The text of a name below a directory, by how the directory is written. -/
theorem join_cases (d : Path) (hn : '/' ∉ name.toList) :
    (d.text = "" ∧ (d.join name).text = name) ∨
    (∃ l, d.text.toList = l ++ ['/'] ∧ (d.join name).text.toList = l ++ '/' :: name.toList) ∨
    (d.text ≠ "" ∧ (d.join name).text.toList = d.text.toList ++ '/' :: name.toList) := by
  have hrelative : (Path.mk name).isAbsolute = false := by
    rw [isAbsolute, beq_eq_false_iff_ne]
    exact fun h => hn (List.mem_of_mem_head? h)
  unfold join
  rw [hrelative, Bool.or_false]
  by_cases he : d.isEmpty
  · rw [if_pos he]
    exact .inl ⟨String.isEmpty_iff.1 he, rfl⟩
  · have hne : d.text ≠ "" := fun h => he (String.isEmpty_iff.2 h)
    rw [if_neg he]
    by_cases hs : d.text.toList.getLast? == some '/'
    · obtain ⟨l, hl⟩ := List.getLast?_eq_some_iff.1 (eq_of_beq hs)
      rw [if_pos hs]
      refine .inr (.inl ⟨l, hl, ?_⟩)
      rw [String.toList_append, hl, List.append_assoc]
      rfl
    · rw [if_neg hs]
      refine .inr (.inr ⟨hne, ?_⟩)
      rw [String.toList_append, String.toList_append, List.append_assoc]
      rfl

theorem isAbsolute_join (d : Path) (hn : '/' ∉ name.toList) :
    (d.join name).isAbsolute = d.isAbsolute := by
  unfold isAbsolute
  rcases join_cases d hn with ⟨hd, hj⟩ | ⟨l, hd, hj⟩ | ⟨hd, hj⟩
  · have hrelative : name.toList.head? ≠ some '/' := fun h => hn (List.mem_of_mem_head? h)
    rw [hj, hd, beq_eq_false_iff_ne.2 hrelative]
    rfl
  · rw [hj, hd, List.head?_append, List.head?_append]
    rfl
  · obtain ⟨c, l, hl⟩ := List.exists_cons_of_ne_nil fun h => hd (String.toList_eq_nil_iff.1 h)
    rw [hj, hl]
    rfl

theorem isEmpty_join (d : Path) (hn : IsEntry name) : (d.join name).isEmpty = false := by
  have hname : name.toList ≠ [] := by
    intro h
    have hidle := hn.busy
    rw [String.toList_eq_nil_iff.1 h] at hidle
    cases hidle
  have hne : (d.join name).text.toList ≠ [] := by
    rcases join_cases d hn.noSlash with ⟨-, hj⟩ | ⟨l, -, hj⟩ | ⟨-, hj⟩
    · rwa [hj]
    · simp [hj]
    · simp [hj]
  exact Bool.eq_false_iff.2 fun h => hne (String.toList_eq_nil_iff.2 (String.isEmpty_iff.1 h))

theorem nul_not_mem_join {d : Path} (hd : '\x00' ∉ d.text.toList) (hn : IsEntry name) :
    '\x00' ∉ (d.join name).text.toList := by
  have hname := hn.noNul
  rcases join_cases d hn.noSlash with ⟨-, hj⟩ | ⟨l, hl, hj⟩ | ⟨-, hj⟩
  · rwa [hj]
  · rw [hl, List.mem_append, not_or] at hd
    simp [hj, hd.1, hname]
  · simp [hj, hd, hname]

end Join

end Path

namespace FileTree
variable {t t' : FileTree} {place other q : Location} {node : FileNode} {s : String}
  {l : List String}

section Nodes

theorem node?_insert_self (h : place ≠ []) : (t.insert place node).node? place = some node := by
  cases place with
  | nil => exact absurd rfl h
  | cons first place =>
    change List.lookup (first :: place) ((first :: place, node) :: _) = some node
    rw [List.lookup_cons_self]

theorem node?_insert_of_ne (h : other ≠ place) :
    (t.insert place node).node? other = t.node? other := by
  cases other with
  | nil => rfl
  | cons first other =>
    change List.lookup (first :: other) ((place, node) :: _) = List.lookup (first :: other) t.nodes
    rw [List.lookup_cons, beq_false_of_ne h]
    exact lookup_filter_ne t.nodes h

end Nodes

section Walk

theorem walk_append (t : FileTree) (place : Location) (l l' : List String) :
    t.walk place (l ++ l') = (t.walk place l).bind fun q => t.walk q l' := by
  induction l generalizing place with
  | nil => rfl
  | cons s l ih =>
    rw [List.cons_append, walk, walk]
    split
    · rfl
    · rfl
    · split_ifs
      · exact ih _
      · exact ih _
      · rfl
      · exact ih _

/-- A segment that leads nowhere asks for a directory, as every step does. -/
theorem walk_idle_cons (h : Path.isIdle s) (next : String) :
    t.walk place (s :: next :: l) = t.walk place (next :: l) := by
  rw [walk]
  split
  case h_1 hn => rw [walk, hn]
  case h_2 hn => rw [walk, hn]
  case h_3 hn => rw [if_pos h]

def Keeps (t t' : FileTree) : Prop :=
  t'.workingDirectory = t.workingDirectory ∧
    ∀ place, t.node? place = some .directory → t'.node? place = some .directory

theorem Keeps.walk (hk : t.Keeps t') (h : t.walk place l = .ok q) : t'.walk place l = .ok q := by
  induction l generalizing place with
  | nil => exact h
  | cons s l ih =>
    rw [FileTree.walk] at h ⊢
    split at h
    case h_1 => cases h
    case h_2 => cases h
    case h_3 hn =>
      rw [hk.2 _ hn]
      dsimp only
      split_ifs at h ⊢
      · exact ih h
      · exact ih h
      · exact ih h

def origin (t : FileTree) (p : Path) : Location := if p.isAbsolute then [] else t.workingDirectory

structure Proper (p : Path) : Prop where
  noNul : '\x00' ∉ p.text.toList
  nonempty : p.isEmpty = false
  short : p.text.utf8ByteSize ≤ longestPath

theorem locateSegments_of_proper {p : Path} (h : Proper p) :
    t.locateSegments p l = t.walk (t.origin p) l := by
  have hnul : p.text.toList.contains '\x00' = false := by simpa using h.noNul
  unfold locateSegments
  rw [hnul, h.nonempty, if_neg Bool.false_ne_true, if_neg Bool.false_ne_true,
    if_neg (Nat.not_lt.2 h.short)]
  rfl

theorem proper_of_locateSegments {p : Path} (h : t.locateSegments p l = .ok place) : Proper p := by
  unfold locateSegments at h
  split at h
  · cases h
  · split at h
    · cases h
    · split at h
      · cases h
      case _ hnul hempty hlong =>
        exact ⟨by simpa using hnul, by simpa using hempty, Nat.not_lt.1 hlong⟩

theorem locate_eq_ok_iff {p : Path} :
    t.locate p = .ok place ↔ Proper p ∧ t.walk (t.origin p) p.segments = .ok place := by
  constructor
  · intro h
    have hp := proper_of_locateSegments h
    exact ⟨hp, (locateSegments_of_proper hp).symm.trans h⟩
  · exact fun ⟨hp, h⟩ => (locateSegments_of_proper hp).trans h

theorem Keeps.origin (hk : t.Keeps t') (p : Path) : t'.origin p = t.origin p := by
  rw [FileTree.origin, FileTree.origin, hk.1]

theorem Keeps.locate (hk : t.Keeps t') {p : Path} (h : t.locate p = .ok place) :
    t'.locate p = .ok place := by
  obtain ⟨hp, hw⟩ := locate_eq_ok_iff.1 h
  rw [← hk.origin] at hw
  exact locate_eq_ok_iff.2 ⟨hp, hk.walk hw⟩

end Walk

section Joined
variable {d : Path} {name : String}

theorem walk_join (t : FileTree) (place : Location) (d : Path) (hn : '/' ∉ name.toList) :
    t.walk place (d.join name).segments = t.walk place (d.segments ++ [name]) := by
  have hname : (Path.pieces name.toList).map String.ofList = [name] := by
    rw [Path.pieces_of_slash_not_mem hn, List.map_singleton, String.ofList_toList]
  rcases Path.join_cases d hn with ⟨hd, hj⟩ | ⟨l, hd, hj⟩ | ⟨-, hj⟩
  · have hempty : d.isEmpty := String.isEmpty_iff.2 hd
    rw [Path.segments, hj, hname, Path.segments_empty hempty]
    exact (walk_idle_cons rfl name).symm
  · have hidle (q : Location) : t.walk q [name] = t.walk q ["", name] :=
      (walk_idle_cons rfl name).symm
    rw [Path.segments, Path.segments, hj, hd, Path.pieces_append_slash, Path.pieces_append_slash,
      List.map_append, List.map_append, hname, List.append_assoc, walk_append, walk_append]
    simp only [hidle]
    rfl
  · rw [Path.segments, Path.segments, hj, Path.pieces_append_slash, List.map_append, hname]

theorem origin_join (t : FileTree) (d : Path) (hn : '/' ∉ name.toList) :
    t.origin (d.join name) = t.origin d := by
  rw [origin, origin, Path.isAbsolute_join d hn]

/-- A path opens a directory at a place. An empty one opens the working directory. -/
structure Opens (t : FileTree) (d : Path) (place : Location) : Prop where
  noNul : '\x00' ∉ d.text.toList
  short : d.text.utf8ByteSize ≤ longestPath
  walked : t.walk (t.origin d) d.segments = .ok place
  isDirectory : t.node? place = some .directory

theorem Opens.locate (h : t.Opens d place) (hd : d.isEmpty = false) : t.locate d = .ok place :=
  locate_eq_ok_iff.2 ⟨⟨h.noNul, hd, h.short⟩, h.walked⟩

theorem Opens.kind (h : t.Opens d place) (hd : d.isEmpty = false) :
    t.kind d = some .directory := by
  have hnode : (t.locate d).toOption.bind t.node? = some .directory := by
    rw [h.locate hd]
    exact h.isDirectory
  exact congrArg (Option.map FileNode.kind) hnode

theorem opens_of_kind (h : t.kind d = some .directory) : ∃ place, t.Opens d place := by
  unfold kind lookup at h
  cases hd : t.locate d with
  | error fault =>
    rw [hd] at h
    cases h
  | ok place =>
    obtain ⟨hp, hw⟩ := locate_eq_ok_iff.1 hd
    rw [hd] at h
    obtain ⟨node, hnode, hkind⟩ := Option.map_eq_some_iff.1 h
    cases node with
    | directory => exact ⟨place, hp.noNul, hp.short, hw, hnode⟩
    | file => cases hkind

theorem Opens.of_keeps (hk : t.Keeps t') (h : t.Opens d place) : t'.Opens d place where
  noNul := h.noNul
  short := h.short
  walked := by
    rw [hk.origin]
    exact hk.walk h.walked
  isDirectory := hk.2 _ h.isDirectory

/-- The limits on a name below a directory and on the text of its path. -/
def Fits (d : Path) (name : String) : Prop :=
  name.utf8ByteSize ≤ longestName ∧ (d.join name).text.utf8ByteSize ≤ longestPath

instance (d : Path) (name : String) : Decidable (Fits d name) := inferInstanceAs (Decidable (_ ∧ _))

theorem Opens.walk_entry (h : t.Opens d place) (hn : Path.IsEntry name) :
    t.walk place [name] =
      if longestName < name.utf8ByteSize then .error .nameTooLong else .ok (place ++ [name]) := by
  rw [walk, h.isDirectory]
  dsimp only
  rw [hn.busy, if_neg Bool.false_ne_true, if_neg hn.down]
  rfl

/-- A name below a directory leads one step further, if it is within the limits. -/
theorem Opens.locate_join (h : t.Opens d place) (hn : Path.IsEntry name) :
    t.locate (d.join name) =
      if Fits d name then .ok (place ++ [name]) else .error .nameTooLong := by
  have hnul : (d.join name).text.toList.contains '\x00' = false := by
    simpa using Path.nul_not_mem_join h.noNul hn
  have hstep : t.walk (t.origin (d.join name)) (d.join name).segments = t.walk place [name] := by
    rw [origin_join t d hn.noSlash, walk_join t _ d hn.noSlash, walk_append, h.walked]
    rfl
  by_cases hlong : longestPath < (d.join name).text.utf8ByteSize
  · have hfits : ¬Fits d name := fun hf => absurd hf.2 (Nat.not_le.2 hlong)
    unfold FileTree.locate locateSegments
    rw [hnul, Path.isEmpty_join d hn, if_neg Bool.false_ne_true, if_neg Bool.false_ne_true,
      if_pos hlong, if_neg hfits]
  · have hp : Proper (d.join name) :=
      ⟨Path.nul_not_mem_join h.noNul hn, Path.isEmpty_join d hn, Nat.not_lt.1 hlong⟩
    rw [FileTree.locate, locateSegments_of_proper hp, hstep, h.walk_entry hn]
    by_cases hname : longestName < name.utf8ByteSize
    · have hfits : ¬Fits d name := fun hf => absurd hf.1 (Nat.not_le.2 hname)
      rw [if_pos hname, if_neg hfits]
    · have hfits : Fits d name := ⟨Nat.not_lt.1 hname, Nat.not_lt.1 hlong⟩
      rw [if_neg hname, if_pos hfits]

end Joined

end FileTree
end DotMatrix
