import Mathlib.Data.List.TakeWhile
import DotMatrix.Proofs.Files.Walk

/-! # Making directories

Making a directory with all that is missing above it adds directories at free places on the way
there and changes nothing else. A directory that is there already is left as it is. So a directory
that was absent or empty is an empty one once it has been made.
-/
namespace DotMatrix

namespace Path
variable {d p : Path} {first : String} {rest l : List String}

theorem slash_not_mem_pieces {cs piece : List Char} (h : piece ∈ pieces cs) : '/' ∉ piece := by
  induction cs generalizing piece with
  | nil =>
    obtain rfl := List.mem_singleton.1 h
    exact List.not_mem_nil
  | cons c cs ih =>
    unfold pieces at h
    split_ifs at h with hc
    · rcases List.mem_cons.1 h with rfl | h
      · exact List.not_mem_nil
      · exact ih h
    · cases hp : pieces cs with
      | nil => exact absurd hp (pieces_ne_nil cs)
      | cons first more =>
        rw [hp] at h ih
        rcases List.mem_cons.1 h with rfl | h
        · rw [List.mem_cons, not_or]
          exact ⟨Ne.symm hc, ih List.mem_cons_self⟩
        · exact ih (List.mem_cons_of_mem _ h)

theorem slash_not_mem_segments {s : String} (h : s ∈ p.segments) : '/' ∉ s.toList := by
  obtain ⟨piece, hp, rfl⟩ := List.mem_map.1 h
  rw [String.toList_ofList]
  exact slash_not_mem_pieces hp

theorem segments_intercalate (hne : l ≠ []) (hs : ∀ s ∈ l, '/' ∉ s.toList) :
    (Path.mk ("/".intercalate l)).segments = l := by
  induction l with
  | nil => exact absurd rfl hne
  | cons s l ih =>
    have hpieces : (pieces s.toList).map String.ofList = [s] := by
      rw [pieces_of_slash_not_mem (hs s List.mem_cons_self), List.map_singleton,
        String.ofList_toList]
    cases l with
    | nil => rwa [segments, String.intercalate_singleton]
    | cons next l =>
      have hrest := ih (List.cons_ne_nil _ _) fun s h => hs s (List.mem_cons_of_mem _ h)
      have htext : ("/".intercalate (s :: next :: l)).toList =
          s.toList ++ '/' :: ("/".intercalate (next :: l)).toList := by
        rw [String.intercalate_cons_cons, String.toList_append, String.toList_append,
          List.append_assoc]
        rfl
      rw [segments, htext, pieces_append_slash, List.map_append, hpieces]
      exact congrArg (s :: ·) hrest

/-- An absolute path is one whose first segment is empty and not the only one. -/
theorem isAbsolute_iff (p : Path) :
    p.isAbsolute ↔ ∃ rest, rest ≠ [] ∧ p.segments = "" :: rest := by
  unfold isAbsolute segments
  cases p.text.toList with
  | nil =>
    constructor
    · intro h
      cases h
    · rintro ⟨rest, hne, h⟩
      exact absurd (List.cons.inj h).2.symm hne
  | cons c cs =>
    obtain ⟨first, more, hp⟩ := List.exists_cons_of_ne_nil (pieces_ne_nil cs)
    unfold pieces
    by_cases hc : c = '/'
    · subst hc
      rw [if_pos rfl]
      refine ⟨fun _ => ⟨(pieces cs).map String.ofList, ?_, rfl⟩, fun _ => rfl⟩
      rw [hp]
      exact List.cons_ne_nil _ _
    · rw [if_neg hc, hp]
      constructor
      · intro h
        exact absurd (Option.some.inj (eq_of_beq h)) hc
      · rintro ⟨rest, -, h⟩
        have htext := congrArg String.toList (List.cons.inj h).1
        rw [String.toList_ofList] at htext
        cases htext

theorem mem_placesAbove (h : p ∈ placesAbove first rest) :
    ∃ l, l <+: rest.reverse ∧ (first = "" → l ≠ []) ∧ p = ⟨"/".intercalate (first :: l)⟩ := by
  induction rest with
  | nil =>
    unfold placesAbove at h
    split_ifs at h with hf
    · cases h
    · obtain rfl := List.mem_singleton.1 h
      exact ⟨[], List.nil_prefix, fun he => absurd he hf, by rw [String.intercalate_singleton]⟩
  | cons s rest ih =>
    have habove (h : p ∈ placesAbove first rest) :
        ∃ l, l <+: (s :: rest).reverse ∧ (first = "" → l ≠ []) ∧
          p = ⟨"/".intercalate (first :: l)⟩ := by
      obtain ⟨l, hl, hne, rfl⟩ := ih h
      refine ⟨l, hl.trans ?_, hne, rfl⟩
      rw [List.reverse_cons]
      exact List.prefix_append _ _
    unfold placesAbove at h
    split_ifs at h
    · exact habove h
    · rcases List.mem_cons.1 h with rfl | h
      · have hne : (s :: rest).reverse ≠ [] := by simp
        refine ⟨_, List.prefix_rfl, fun _ => hne, ?_⟩
        unfold ofSegments
        split
        case h_1 hroot => exact absurd (List.cons.inj hroot).2 hne
        case h_2 => rfl
      · exact habove h

/-- An ancestor is cut off from a path. -/
theorem mem_ancestors (h : p ∈ d.ancestors) :
    p.segments <+: d.segments ∧ p.isAbsolute = d.isAbsolute := by
  unfold ancestors split at h
  split at h
  · cases h
  case h_2 given below _ hsplit =>
    cases hs : d.segments with
    | nil =>
      rw [hs] at hsplit
      cases hsplit
      cases h
    | cons first rest =>
      rw [hs] at hsplit
      obtain ⟨rfl, rfl⟩ := Prod.mk.inj hsplit
      obtain ⟨l, hl, hne, rfl⟩ := mem_placesAbove h
      rw [List.reverse_reverse] at hl
      have hdropped : dropIdleEnd rest <+: rest :=
        List.reverse_suffix.1 (by simpa [dropIdleEnd] using List.dropWhile_suffix _)
      have hlrest : l <+: rest := hl.trans ((List.dropLast_prefix _).trans hdropped)
      have hbegin : first :: l <+: first :: rest := (List.prefix_cons_inj first).2 hlrest
      have hsegments : (Path.mk ("/".intercalate (first :: l))).segments = first :: l :=
        segments_intercalate (List.cons_ne_nil _ _) fun s hm =>
          slash_not_mem_segments (p := d) (hs ▸ hbegin.subset hm)
      rw [hsegments]
      refine ⟨hbegin, Bool.eq_iff_iff.2 ?_⟩
      rw [isAbsolute_iff, isAbsolute_iff, hsegments, hs]
      constructor
      · rintro ⟨_, hmore, he⟩
        cases he
        exact ⟨rest, fun hr => hmore (List.prefix_nil.1 (hr ▸ hlrest)), rfl⟩
      · rintro ⟨_, -, he⟩
        cases he
        exact ⟨l, hne rfl, rfl⟩

end Path

namespace FileTree

variable {t t' t'' : FileTree} {d p : Path} {place q : Location} {new : Location → Prop}

def makeAll (t : FileTree) (d : Path) : Except FileFault Unit × FileTree :=
  (FileSystem.makeDirectories d : StateM FileTree (Except FileFault Unit)).run t

section Growth

/-- A tree that has got some directories, at free places of a kind. -/
structure Grown (new : Location → Prop) (t t' : FileTree) : Prop where
  workingDirectory : t'.workingDirectory = t.workingDirectory
  node : ∀ place, t'.node? place = t.node? place ∨
    (t.node? place = none ∧ t'.node? place = some .directory ∧ new place)

theorem Grown.refl (new : Location → Prop) (t : FileTree) : Grown new t t :=
  ⟨rfl, fun _ => .inl rfl⟩

theorem Grown.trans (h : Grown new t t') (h' : Grown new t' t'') : Grown new t t'' where
  workingDirectory := h'.workingDirectory.trans h.workingDirectory
  node place := by
    rcases h.node place with hsame | ⟨hfree, hmade, hnew⟩
    · rw [← hsame]
      exact h'.node place
    · rcases h'.node place with hsame' | ⟨hfree', -⟩
      · exact .inr ⟨hfree, hsame'.trans hmade, hnew⟩
      · rw [hmade] at hfree'
        cases hfree'

theorem Grown.mono {other : Location → Prop} (h : Grown new t t')
    (hn : ∀ place, new place → other place) : Grown other t t' :=
  ⟨h.workingDirectory, fun place => (h.node place).imp_right fun ⟨hf, hm, hp⟩ => ⟨hf, hm, hn _ hp⟩⟩

theorem Grown.keeps (h : Grown new t t') : t.Keeps t' := by
  refine ⟨h.workingDirectory, fun place hd => ?_⟩
  rcases h.node place with hsame | ⟨-, hmade, -⟩
  · exact hsame.trans hd
  · exact hmade

/-- What is at a free place stays out if it is not of the kind. -/
theorem Grown.node?_eq_none (h : Grown new t t') (hf : t.node? place = none) (hp : ¬new place) :
    t'.node? place = none := by
  rcases h.node place with hsame | ⟨-, -, hnew⟩
  · exact hsame.trans hf
  · exact absurd hnew hp

/-- What is nowhere now was nowhere before. -/
theorem Grown.lookup_eq_none (h : Grown new t t') (hl : t'.lookup p = none) :
    t.lookup p = none := by
  unfold FileTree.lookup at hl ⊢
  cases hp : t.locate p with
  | error fault => rfl
  | ok place =>
    rw [h.keeps.locate hp] at hl
    rcases h.node place with hsame | ⟨hfree, -⟩
    · exact hsame.symm.trans hl
    · exact hfree

end Growth

section Destination

def follow (place : Location) (s : String) : Location :=
  if Path.isIdle s then place else if s = ".." then place.dropLast else place ++ [s]

/-- Where a path leads, whatever is there. -/
def destination (t : FileTree) (p : Path) : Location :=
  p.segments.foldl follow (t.origin p)

theorem eq_of_walk {l : List String} (h : t.walk place l = .ok q) : q = l.foldl follow place := by
  induction l generalizing place with
  | nil => exact (Except.ok.inj h).symm
  | cons s l ih =>
    rw [walk] at h
    split at h
    · cases h
    · cases h
    · rw [List.foldl_cons, follow]
      split_ifs at h ⊢
      · exact ih h
      · exact ih h
      · exact ih h

theorem Opens.eq_destination (h : t.Opens d place) : place = t.destination d := eq_of_walk h.walked

end Destination

section Single

/-- The segments of a path up to the last that has a character in it. -/
theorem segments_trimmed (p : Path) :
    ∃ rest : List String, (∀ s ∈ rest, s = "") ∧
      p.segments = (p.segments.reverse.dropWhile (· == "")).reverse ++ rest := by
  refine ⟨(p.segments.reverse.takeWhile (· == "")).reverse, ?_, ?_⟩
  · intro s hs
    have hm := List.mem_takeWhile_imp (List.mem_reverse.1 hs)
    exact eq_of_beq hm
  · rw [← List.reverse_append, List.takeWhile_append_dropWhile, List.reverse_reverse]

theorem foldl_follow_idle {rest : List String} (h : ∀ s ∈ rest, s = "") :
    rest.foldl follow place = place := by
  induction rest with
  | nil => rfl
  | cons s rest ih =>
    obtain rfl := h s List.mem_cons_self
    exact ih fun s hs => h s (List.mem_cons_of_mem _ hs)

/-- A directory is made at a free place. Empty ends of its path say nothing about where. -/
theorem makeDirectory_eq_ok (h : t.makeDirectory p = .ok t') :
    Proper p ∧
    (∃ l rest, (∀ s ∈ rest, s = "") ∧ p.segments = l ++ rest ∧
      t.walk (t.origin p) l = .ok (t.destination p)) ∧
    t.node? (t.destination p) = none ∧ t' = t.insert (t.destination p) .directory := by
  obtain ⟨rest, hrest, hsegments⟩ := segments_trimmed p
  unfold makeDirectory at h
  dsimp only [bind, Except.bind] at h
  split at h
  · cases h
  case _ place hl =>
    have hp := proper_of_locateSegments hl
    rw [locateSegments_of_proper hp] at hl
    have hplace : place = t.destination p := by
      rw [destination, hsegments, List.foldl_append, foldl_follow_idle hrest]
      exact eq_of_walk hl
    subst hplace
    split at h
    · cases h
    · cases h
      exact ⟨hp, ⟨_, rest, hrest, hsegments, hl⟩, ‹_›, rfl⟩

theorem makeDirectory_of_opens (h : t.Opens d place) (hd : d.isEmpty = false) :
    t.makeDirectory d = .error .alreadyExists := by
  obtain ⟨rest, hrest, hsegments⟩ := segments_trimmed d
  have hl : t.locateSegments d (d.segments.reverse.dropWhile (· == "")).reverse = .ok place := by
    rw [locateSegments_of_proper ⟨h.noNul, hd, h.short⟩]
    have hwalked := h.walked
    rw [hsegments, walk_append] at hwalked
    cases hw : t.walk (t.origin d) (d.segments.reverse.dropWhile (· == "")).reverse with
    | error fault =>
      rw [hw] at hwalked
      cases hwalked
    | ok q =>
      rw [hw] at hwalked
      have hplace : place = q := (eq_of_walk hwalked).trans (foldl_follow_idle hrest)
      exact congrArg Except.ok hplace.symm
  unfold makeDirectory
  dsimp only [bind, Except.bind]
  rw [hl]
  dsimp only
  rw [h.isDirectory]
  rfl

/-- The root is always there. -/
theorem ne_nil_of_free (h : t.node? place = none) : place ≠ [] := by
  rintro rfl
  cases h

theorem grown_insert (h : t.node? place = none) :
    Grown (· = place) t (t.insert place .directory) := by
  refine ⟨rfl, fun q => ?_⟩
  by_cases hq : q = place
  · subst hq
    exact .inr ⟨h, node?_insert_self (ne_nil_of_free h), rfl⟩
  · exact .inl (node?_insert_of_ne hq)

theorem walk_idle_of_directory {rest : List String} (hr : ∀ s ∈ rest, s = "")
    (hd : t.node? place = some .directory) : t.walk place rest = .ok place := by
  induction rest with
  | nil => rfl
  | cons s rest ih =>
    obtain rfl := hr s List.mem_cons_self
    rw [walk, hd]
    exact ih fun s hs => hr s (List.mem_cons_of_mem _ hs)

/-- A directory that has been made is there. -/
theorem opens_of_makeDirectory (h : t.makeDirectory p = .ok t') :
    ∃ place, t'.Opens p place := by
  obtain ⟨hp, ⟨l, rest, hrest, hsegments, hwalked⟩, hfree, rfl⟩ := makeDirectory_eq_ok h
  have hgrown := grown_insert hfree
  have hdirectory : (t.insert (t.destination p) .directory).node? (t.destination p) =
      some .directory :=
    node?_insert_self (ne_nil_of_free hfree)
  refine ⟨t.destination p, hp.noNul, hp.short, ?_, hdirectory⟩
  rw [hgrown.keeps.origin, hsegments, walk_append, hgrown.keeps.walk hwalked]
  exact walk_idle_of_directory hrest hdirectory

end Single

section Chain
variable {above : List Path} {fault : FileFault}

def makeOne (t : FileTree) (p : Path) : Except FileFault Unit × FileTree :=
  match t.makeDirectory p with
  | .ok t' => (.ok (), t')
  | .error fault => (if t.kind p = some .directory then .ok () else .error fault, t)

def makeChain (t : FileTree) (l : List Path) : Except FileFault Unit × FileTree :=
  (FileSystem.makeFirst l : StateM FileTree (Except FileFault Unit)).run t

theorem run_attempt_of_ok {change : FileTree → Except FileFault FileTree}
    (h : change t = .ok t') : (attempt change).run t = (.ok (), t') := by
  change attempt change t = _
  rw [attempt, h]

theorem run_attempt_of_error {change : FileTree → Except FileFault FileTree}
    (h : change t = .error fault) : (attempt change).run t = (.error fault, t) := by
  change attempt change t = _
  rw [attempt, h]

theorem run_makeDirectory_of_ok (h : t.makeDirectory p = .ok t') :
    (FileSystem.makeDirectory p : StateM FileTree (Except FileFault Unit)).run t = (.ok (), t') :=
  run_attempt_of_ok h

theorem run_makeDirectory_of_error (h : t.makeDirectory p = .error fault) :
    (FileSystem.makeDirectory p : StateM FileTree (Except FileFault Unit)).run t =
      (.error fault, t) :=
  run_attempt_of_error h

theorem run_tolerate_error (t : FileTree) (p : Path) (fault : FileFault) :
    (FileSystem.tolerate p (.error fault) : StateM FileTree (Except FileFault Unit)).run t =
      (if t.kind p = some .directory then .ok () else .error fault, t) := by
  change (if t.kind p = some .directory then _ else _ : StateM FileTree _).run t = _
  split_ifs <;> rfl

theorem run_makeOne (t : FileTree) (p : Path) :
    (do FileSystem.tolerate p (← FileSystem.makeDirectory p) :
      StateM FileTree (Except FileFault Unit)).run t = t.makeOne p := by
  rw [StateT.run_bind, makeOne]
  cases h : t.makeDirectory p with
  | ok t' =>
    rw [run_makeDirectory_of_ok h]
    rfl
  | error fault =>
    rw [run_makeDirectory_of_error h]
    exact run_tolerate_error t p fault

theorem makeChain_of_found (h : t.makeDirectory p ≠ .error .notFound) :
    t.makeChain (p :: above) = t.makeOne p := by
  rw [← run_makeOne, StateT.run_bind]
  refine (StateT.run_bind _ _ t).trans ?_
  cases hm : t.makeDirectory p with
  | ok t' =>
    rw [run_makeDirectory_of_ok hm]
    rfl
  | error fault =>
    rw [run_makeDirectory_of_error hm]
    cases fault with
    | notFound => exact absurd hm h
    | _ => rfl

/-- A place that is missing is made first. -/
theorem makeChain_of_missing (h : t.makeDirectory p = .error .notFound) :
    t.makeChain (p :: above) =
      match (t.makeChain above).1 with
      | .error fault => (.error fault, (t.makeChain above).2)
      | .ok _ => (t.makeChain above).2.makeOne p := by
  refine (StateT.run_bind _ _ t).trans ?_
  rw [run_makeDirectory_of_error h]
  refine (StateT.run_bind _ _ t).trans ?_
  have hchain : (FileSystem.makeFirst above : StateM FileTree _).run t = t.makeChain above := rfl
  rw [hchain]
  rcases t.makeChain above with ⟨fault | _, t'⟩
  · rfl
  · exact run_makeOne t' p

end Chain

section Effect

theorem destination_congr (h : t'.workingDirectory = t.workingDirectory) (p : Path) :
    t'.destination p = t.destination p := by
  rw [destination, destination, origin, origin, h]

theorem grown_makeOne (t : FileTree) (p : Path) :
    Grown (· = t.destination p) t (t.makeOne p).2 := by
  unfold makeOne
  cases h : t.makeDirectory p with
  | error fault => exact .refl _ t
  | ok t' =>
    obtain ⟨-, -, hfree, rfl⟩ := makeDirectory_eq_ok h
    exact grown_insert hfree

theorem grown_makeChain (l : List Path) (t : FileTree) :
    Grown (fun place => ∃ p ∈ l, place = t.destination p) t (t.makeChain l).2 := by
  induction l generalizing t with
  | nil => exact .refl _ t
  | cons p above ih =>
    have hone (t' : FileTree) (h : t'.workingDirectory = t.workingDirectory) :
        Grown (fun place => ∃ q ∈ p :: above, place = t.destination q) t' (t'.makeOne p).2 :=
      (grown_makeOne t' p).mono fun place hplace =>
        ⟨p, List.mem_cons_self, hplace.trans (destination_congr h p)⟩
    by_cases h : t.makeDirectory p = .error .notFound
    · have habove := (ih t).mono fun place ⟨q, hq, hplace⟩ =>
        show ∃ q ∈ p :: above, place = t.destination q from ⟨q, List.mem_cons_of_mem _ hq, hplace⟩
      rw [makeChain_of_missing h]
      split
      · exact habove
      · exact habove.trans (hone _ habove.workingDirectory)
    · rw [makeChain_of_found h]
      exact hone t rfl

theorem makeAll_of_nonempty (h : d.isEmpty = false) :
    t.makeAll d = t.makeChain (d :: d.ancestors) := by
  unfold makeAll FileSystem.makeDirectories
  rw [h]
  rfl

/-- Whatever is made on the way to a directory is the place of one of its ancestors. -/
theorem grown_makeAll (t : FileTree) (d : Path) :
    Grown (fun place => ∃ p ∈ d :: d.ancestors, place = t.destination p) t (t.makeAll d).2 := by
  cases hd : d.isEmpty with
  | true =>
    unfold makeAll FileSystem.makeDirectories
    rw [hd]
    exact .refl _ t
  | false =>
    rw [makeAll_of_nonempty hd]
    exact grown_makeChain _ t

/-- A directory that has been made is there. -/
theorem opens_makeOne (h : (t.makeOne p).1 = .ok ()) : ∃ place, (t.makeOne p).2.Opens p place := by
  unfold makeOne at h ⊢
  cases hm : t.makeDirectory p with
  | ok t' => exact opens_of_makeDirectory hm
  | error fault =>
    rw [hm] at h
    dsimp only at h ⊢
    split_ifs at h with hk
    exact opens_of_kind hk

theorem opens_makeAll (hd : d.isEmpty = false) (h : (t.makeAll d).1 = .ok ()) :
    ∃ place, (t.makeAll d).2.Opens d place := by
  rw [makeAll_of_nonempty hd] at h ⊢
  by_cases hm : t.makeDirectory d = .error .notFound
  · rw [makeChain_of_missing hm] at h ⊢
    split at h
    · cases h
    · exact opens_makeOne h
  · rw [makeChain_of_found hm] at h ⊢
    exact opens_makeOne h

/-- A directory that is there is left as it is. -/
theorem makeAll_of_opens (h : t.Opens d place) : t.makeAll d = (.ok (), t) := by
  cases hd : d.isEmpty with
  | true =>
    unfold makeAll FileSystem.makeDirectories
    rw [hd]
    rfl
  | false =>
    have hm := makeDirectory_of_opens h hd
    have hfound : t.makeDirectory d ≠ .error .notFound := by
      rw [hm]
      nofun
    rw [makeAll_of_nonempty hd, makeChain_of_found hfound, makeOne, hm]
    dsimp only
    rw [if_pos (h.kind hd)]

end Effect

section Ancestors
variable {l : List String}

theorem prefix_foldl_follow (h : ".." ∉ l) (place : Location) : place <+: l.foldl follow place := by
  induction l generalizing place with
  | nil => exact List.prefix_rfl
  | cons s l ih =>
    rw [List.mem_cons, not_or] at h
    refine List.IsPrefix.trans ?_ (ih h.2 (follow place s))
    unfold follow
    split_ifs with hidle hup
    · exact List.prefix_rfl
    · exact absurd hup.symm h.1
    · exact List.prefix_append _ _

theorem destination_leads_to (hup : ".." ∉ d.segments) (h : p ∈ d :: d.ancestors) :
    t.destination p <+: t.destination d := by
  rcases List.mem_cons.1 h with rfl | hp
  · exact List.prefix_rfl
  · obtain ⟨⟨more, hmore⟩, habsolute⟩ := Path.mem_ancestors hp
    have horigin : t.origin p = t.origin d := by rw [origin, origin, habsolute]
    rw [← hmore, List.mem_append, not_or] at hup
    rw [destination, destination, ← hmore, List.foldl_append, horigin]
    exact prefix_foldl_follow hup.2 _

end Ancestors

section Vacancy

/-- A directory can be made, if it is not there, and then has nothing in it. -/
def Vacant (t : FileTree) (d : Path) : Prop :=
  ∃ made place, t.makeAll d = (.ok (), made) ∧ made.Opens d place ∧
    ∀ name, made.node? (place ++ [name]) = none

def Rooted (t : FileTree) : Prop :=
  ∀ place name, t.node? (place ++ [name]) ≠ none → t.node? place = some .directory

theorem rooted_empty : empty.Rooted := by
  intro place name h
  cases place with
  | nil => rfl
  | cons first place =>
    refine absurd ?_ h
    have hne : first :: (place ++ [name]) ≠ ["work"] := by simp
    change List.lookup (first :: (place ++ [name])) [(["work"], FileNode.directory)] = none
    rw [List.lookup_cons, beq_false_of_ne hne]
    rfl

/-- If the way there only leads down, a directory is vacant that can be made and was absent or
empty. -/
theorem vacant_iff (hr : t.Rooted) (hup : ".." ∉ d.segments) (hd : d.isEmpty = false) :
    t.Vacant d ↔ (t.makeAll d).1 = .ok () ∧
      (t.node? (t.destination d) = none ∨ ∀ name, t.node? (t.destination d ++ [name]) = none) := by
  have hgrown := grown_makeAll t d
  have hplace {place : Location} (h : (t.makeAll d).2.Opens d place) : place = t.destination d :=
    h.eq_destination.trans (destination_congr hgrown.workingDirectory d)
  constructor
  · rintro ⟨made, place, hm, hopens, hempty⟩
    rw [hm] at hgrown hplace
    refine ⟨by rw [hm], .inr fun name => ?_⟩
    rw [← hplace hopens]
    rcases hgrown.node (place ++ [name]) with hsame | ⟨hfree, -⟩
    · exact hsame.symm.trans (hempty name)
    · exact hfree
  · rintro ⟨hm, hbefore⟩
    have hfree (name : String) : t.node? (t.destination d ++ [name]) = none := by
      rcases hbefore with habsent | hempty
      · by_contra hn
        rw [hr _ _ hn] at habsent
        cases habsent
      · exact hempty name
    obtain ⟨place, hopens⟩ := opens_makeAll hd hm
    refine ⟨_, place, Prod.ext hm rfl, hopens, fun name => ?_⟩
    rw [hplace hopens]
    apply hgrown.node?_eq_none (hfree name)
    rintro ⟨p, hp, he⟩
    have hle := (destination_leads_to (t := t) hup hp).length_le
    rw [← he, List.length_append, List.length_singleton] at hle
    omega

end Vacancy

end FileTree
end DotMatrix
