import DotMatrix.Console.Transcript
import DotMatrix.Storage.Folder
import DotMatrix.Proofs.Files.Making
import DotMatrix.Proofs.Storage.Latest

/-! # Two storages that agree

A storage in a directory that was absent or empty answers every call as one in memory does: with
what was saved last under the name. Each blob has a file of its own, since the file tells the name,
and the directory is made with the first of them.
-/
namespace DotMatrix

namespace Transcript
variable {α β : Type}

theorem onFiles_bind (act : StateM FileTree α) (next : α → StateM FileTree β) :
    onFiles (act >>= next) = onFiles act >>= fun a => onFiles (next a) := rfl

theorem tolerate_eq (p : Path) (made : Except FileFault Unit) :
    (FileSystem.tolerate p made : StateM Transcript _) = onFiles (FileSystem.tolerate p made) := by
  cases made with
  | ok => rfl
  | error fault =>
    refine Eq.trans ?_ (onFiles_bind _ _).symm
    refine congrArg (onFiles (FileSystem.kind p) >>= ·) (funext fun found => ?_)
    split <;> rfl

theorem makeFirst_eq (l : List Path) :
    (FileSystem.makeFirst l : StateM Transcript _) = onFiles (FileSystem.makeFirst l) := by
  induction l with
  | nil => rfl
  | cons p above ih =>
    refine Eq.trans ?_ (onFiles_bind _ _).symm
    refine congrArg (onFiles (FileSystem.makeDirectory p) >>= ·) (funext fun made => ?_)
    cases made with
    | ok made => exact tolerate_eq p (.ok made)
    | error fault =>
      cases fault with
      | notFound =>
        refine Eq.trans ?_ (onFiles_bind _ _).symm
        rw [← ih]
        refine congrArg (FileSystem.makeFirst above >>= ·) (funext fun above => ?_)
        cases above with
        | error fault => rfl
        | ok =>
          refine Eq.trans ?_ (onFiles_bind _ _).symm
          exact congrArg (onFiles (FileSystem.makeDirectory p) >>= ·) (funext (tolerate_eq p))
      | _ => exact tolerate_eq p _

/-- Directories are made in the files of a session, and nothing else changes. -/
theorem run_makeDirectories (t : Transcript) (d : Path) :
    (FileSystem.makeDirectories d : StateM Transcript _).run t =
      ((t.files.makeAll d).1, { t with files := (t.files.makeAll d).2 }) := by
  unfold FileTree.makeAll FileSystem.makeDirectories
  split
  · rfl
  · rw [makeFirst_eq]
    rfl

theorem files_tell (t : Transcript) (verbosity : Verbosity) (n : Notice) :
    ((Terminal.tell verbosity n : StateM Transcript Unit).run t).2.files = t.files := by
  unfold Terminal.tell
  split <;> rfl

end Transcript

namespace Storage
variable {name other : String}

structure BlobName (name : String) : Prop where
  noSlash : '/' ∉ name.toList
  noNul : '\x00' ∉ name.toList

theorem BlobName.isEntry (h : BlobName name) : Path.IsEntry (name ++ ".sav") := by
  have hlast : 'v' ∈ (name ++ ".sav").toList := by
    rw [String.toList_append]
    exact List.mem_append_right _ (by decide)
  have hne {other : String} (ho : 'v' ∉ other.toList) : name ++ ".sav" ≠ other :=
    fun he => ho (he ▸ hlast)
  refine ⟨?_, ?_, ?_, hne (by decide)⟩
  · rw [String.toList_append, List.mem_append, not_or]
    exact ⟨h.noSlash, by decide⟩
  · rw [String.toList_append, List.mem_append, not_or]
    exact ⟨h.noNul, by decide⟩
  · unfold Path.isIdle
    rw [beq_false_of_ne (hne (by decide)), beq_false_of_ne (hne (by decide))]
    rfl

/-- The file tells the name. -/
theorem eq_of_file_eq (h : name ++ ".sav" = other ++ ".sav") : name = other := by
  have htext := congrArg String.toList h
  rw [String.toList_append, String.toList_append] at htext
  exact String.toList_inj.1 (List.append_cancel_right htext)

end Storage

namespace FileTree
open Storage (BlobName)

variable {t t' : FileTree} {d : Path} {place : Location} {name : String} {data : Bytes}
  {blob : String → Option Bytes}

/-- A directory is there, and in it are the blobs of some names, each in its file. -/
structure Stocked (t : FileTree) (d : Path) (place : Location) (blob : String → Option Bytes) :
    Prop where
  opens : t.Opens d place
  nodes : ∀ name, BlobName name → t.node? (place ++ [name ++ ".sav"]) = (blob name).map .file
  fits : ∀ name, BlobName name → (blob name).isSome → Fits d (name ++ ".sav")

theorem Stocked.lookup (h : t.Stocked d place blob) (hn : BlobName name) :
    t.lookup (Storage.blobPath d name) = (blob name).map .file := by
  unfold FileTree.lookup Storage.blobPath
  rw [h.opens.locate_join hn.isEntry]
  split
  · exact h.nodes name hn
  case isFalse hf =>
    have hnone : blob name = none := by
      cases hb : blob name with
      | none => rfl
      | some data => exact absurd (h.fits name hn (by rw [hb]; rfl)) hf
    rw [hnone]
    rfl

theorem keeps_insert {node : FileNode} (h : t.node? place ≠ some .directory) :
    t.Keeps (t.insert place node) := by
  refine ⟨rfl, fun q hq => ?_⟩
  have hne : q ≠ place := by
    rintro rfl
    exact h hq
  exact (node?_insert_of_ne hne).trans hq

/-- A blob is written into its own file, and those of the other blobs stay as they are. -/
theorem Stocked.write (h : t.Stocked d place blob) (hn : BlobName name)
    (hf : Fits d (name ++ ".sav")) (data : Bytes) :
    ∃ t', t.writeFile (Storage.blobPath d name) data = .ok t' ∧
      t'.Stocked d place (Function.update blob name (some data)) := by
  have hnode : t.node? (place ++ [name ++ ".sav"]) ≠ some .directory := by
    rw [h.nodes name hn]
    cases blob name <;> nofun
  refine ⟨t.insert (place ++ [name ++ ".sav"]) (.file data), ?_, ?_, ?_, ?_⟩
  · unfold writeFile Storage.blobPath
    rw [h.opens.locate_join hn.isEntry, if_pos hf]
    dsimp only [bind, Except.bind]
    split
    · exact absurd ‹_› hnode
    · rfl
  · exact h.opens.of_keeps (keeps_insert hnode)
  · intro other ho
    by_cases hname : other = name
    · subst hname
      rw [Function.update_self]
      exact node?_insert_self (by simp)
    · rw [Function.update_of_ne hname]
      have hplace : place ++ [other ++ ".sav"] ≠ place ++ [name ++ ".sav"] := fun he =>
        hname (Storage.eq_of_file_eq (List.cons.inj (List.append_cancel_left he)).1)
      exact (node?_insert_of_ne hplace).trans (h.nodes other ho)
  · intro other ho hsome
    by_cases hname : other = name
    · exact hname ▸ hf
    · rw [Function.update_of_ne hname] at hsome
      exact h.fits other ho hsome

theorem Stocked.write_error (h : t.Stocked d place blob) (hn : BlobName name)
    (hf : ¬Fits d (name ++ ".sav")) (data : Bytes) :
    t.writeFile (Storage.blobPath d name) data = .error .nameTooLong := by
  unfold writeFile Storage.blobPath
  rw [h.opens.locate_join hn.isEntry, if_neg hf]
  rfl

theorem readFile_of_lookup {p : Path} (h : t.lookup p = some (.file data)) :
    t.readFile p = .ok data := by
  unfold FileTree.lookup at h
  unfold readFile
  cases hp : t.locate p with
  | error fault =>
    rw [hp] at h
    cases h
  | ok place =>
    rw [hp] at h
    have hnode : t.node? place = some (.file data) := h
    dsimp only [bind, Except.bind]
    rw [hnode]
    rfl

/-- The same of a directory that may still have to be made. -/
def Supplied (t : FileTree) (d : Path) (blob : String → Option Bytes) : Prop :=
  ∃ made place, t.makeAll d = (.ok (), made) ∧ made.Stocked d place blob ∧
    ∀ name, BlobName name →
      t.lookup (Storage.blobPath d name) = made.lookup (Storage.blobPath d name)

theorem Stocked.supplied (h : t.Stocked d place blob) : t.Supplied d blob :=
  ⟨t, place, makeAll_of_opens h.opens, h, fun _ _ => rfl⟩

theorem Vacant.supplied (h : t.Vacant d) : t.Supplied d fun _ => none := by
  obtain ⟨made, place, hm, hopens, hempty⟩ := h
  have hstocked : made.Stocked d place fun _ => none :=
    ⟨hopens, fun name _ => hempty _, fun _ _ hsome => by cases hsome⟩
  refine ⟨made, place, hm, hstocked, fun name hn => ?_⟩
  have hgrown := grown_makeAll t d
  rw [hm] at hgrown
  have hnone := hstocked.lookup hn
  exact (hgrown.lookup_eq_none hnone).trans hnone.symm

theorem Supplied.lookup (h : t.Supplied d blob) (hn : BlobName name) :
    t.lookup (Storage.blobPath d name) = (blob name).map .file := by
  obtain ⟨made, place, -, hstocked, hsame⟩ := h
  exact (hsame name hn).trans (hstocked.lookup hn)

end FileTree

namespace Transcript
open Storage (BlobName)

variable {t : Transcript} {d : Path} {name : String} {data : Bytes} {made written : FileTree}

abbrev folder (verbosity : Verbosity) (d : Path) : Storage (StateM Transcript) :=
  Storage.folder verbosity d

theorem run_writeFile_of_ok {p : Path} (h : t.files.writeFile p data = .ok written) :
    (FileSystem.writeFile p data : StateM Transcript (Except FileFault Unit)).run t =
      (.ok (), { t with files := written }) := by
  have hrun : (FileTree.attempt (·.writeFile p data)).run t.files = (.ok (), written) :=
    FileTree.run_attempt_of_ok h
  exact congrArg (fun r => (r.1, { t with files := r.2 })) hrun

theorem run_writeFile_of_error {p : Path} {fault : FileFault}
    (h : t.files.writeFile p data = .error fault) :
    (FileSystem.writeFile p data : StateM Transcript (Except FileFault Unit)).run t =
      (.error fault, t) := by
  have hrun : (FileTree.attempt (·.writeFile p data)).run t.files = (.error fault, t.files) :=
    FileTree.run_attempt_of_error h
  exact congrArg (fun r => (r.1, { t with files := r.2 })) hrun

theorem save_of_ok (verbosity : Verbosity) (hm : t.files.makeAll d = (.ok (), made))
    (hw : made.writeFile (Storage.blobPath d name) data = .ok written) :
    (((folder verbosity d).save name data).run t).1 = .ok () ∧
      (((folder verbosity d).save name data).run t).2.files = written := by
  have hsave : ((folder verbosity d).save name data).run t = (.ok (),
      ((Terminal.tell verbosity (.storageWrote data.size (Storage.blobPath d name).text) :
        StateM Transcript Unit).run { t with files := written }).2) := by
    refine (StateT.run_bind _ _ t).trans ?_
    rw [run_makeDirectories, hm]
    refine (StateT.run_bind _ _ _).trans ?_
    rw [run_writeFile_of_ok (t := { t with files := made }) hw]
    rfl
  rw [hsave]
  exact ⟨rfl, files_tell _ _ _⟩

/-- A blob that cannot be written is an error, though its directory has been made. -/
theorem save_of_error (verbosity : Verbosity) {fault : FileFault}
    (hm : t.files.makeAll d = (.ok (), made))
    (hw : made.writeFile (Storage.blobPath d name) data = .error fault) :
    ((folder verbosity d).save name data).run t =
      (.error (.file (Storage.blobPath d name).text fault), { t with files := made }) := by
  refine (StateT.run_bind _ _ t).trans ?_
  rw [run_makeDirectories, hm]
  refine (StateT.run_bind _ _ _).trans ?_
  rw [run_writeFile_of_error (t := { t with files := made }) hw]
  rfl

theorem run_kind (t : Transcript) (p : Path) :
    (FileSystem.kind p : StateM Transcript (Option FileKind)).run t = (t.files.kind p, t) := rfl

theorem load_of_absent (verbosity : Verbosity)
    (h : t.files.lookup (Storage.blobPath d name) = none) :
    ((folder verbosity d).load name).run t = (.ok none, t) := by
  refine (StateT.run_bind _ _ t).trans ?_
  rw [run_kind, FileTree.kind, h]
  rfl

theorem load_of_file (verbosity : Verbosity)
    (h : t.files.lookup (Storage.blobPath d name) = some (.file data)) :
    (((folder verbosity d).load name).run t).1 = .ok (some data) ∧
      (((folder verbosity d).load name).run t).2.files = t.files := by
  have hread : (FileSystem.readFile (Storage.blobPath d name) :
      StateM Transcript (Except FileFault Bytes)).run t = (.ok data, t) :=
    congrArg (fun r => (r, t)) (FileTree.readFile_of_lookup h)
  have hload : ((folder verbosity d).load name).run t = (.ok (some data),
      ((Terminal.tell verbosity (.storageRead data.size (Storage.blobPath d name).text) :
        StateM Transcript Unit).run t).2) := by
    refine (StateT.run_bind _ _ t).trans ?_
    rw [run_kind, FileTree.kind, h]
    refine (StateT.run_bind _ _ t).trans ?_
    rw [hread]
    rfl
  rw [hload]
  exact ⟨rfl, files_tell _ _ _⟩

variable {blob : String → Option Bytes}

theorem save_of_supplied (h : t.files.Supplied d blob) (hn : BlobName name)
    (hf : FileTree.Fits d (name ++ ".sav")) (verbosity : Verbosity) (data : Bytes) :
    (((folder verbosity d).save name data).run t).1 = .ok () ∧
      (((folder verbosity d).save name data).run t).2.files.Supplied d
        (Function.update blob name (some data)) := by
  obtain ⟨made, place, hm, hstocked, -⟩ := h
  obtain ⟨written, hw, hstocked'⟩ := hstocked.write hn hf data
  obtain ⟨hok, hfiles⟩ := save_of_ok verbosity hm hw
  rw [hfiles]
  exact ⟨hok, hstocked'.supplied⟩

theorem load_of_supplied (h : t.files.Supplied d blob) (hn : BlobName name)
    (verbosity : Verbosity) :
    (((folder verbosity d).load name).run t).1 = .ok (blob name) ∧
      (((folder verbosity d).load name).run t).2.files = t.files := by
  have hlookup := h.lookup hn
  cases hb : blob name with
  | none =>
    rw [hb] at hlookup
    rw [load_of_absent verbosity hlookup]
    exact ⟨rfl, rfl⟩
  | some data =>
    rw [hb] at hlookup
    exact load_of_file verbosity hlookup

theorem contains_of_supplied (h : t.files.Supplied d blob) (hn : BlobName name)
    (verbosity : Verbosity) :
    ((folder verbosity d).contains name).run t = ((blob name).isSome, t) := by
  have hcontains : ((folder verbosity d).contains name).run t =
      (decide (t.files.kind (Storage.blobPath d name) = some .file), t) := rfl
  rw [hcontains, FileTree.kind, h.lookup hn]
  cases blob name <;> rfl

end Transcript

namespace Storage

section Calls
variable {m : Type → Type} [Monad m] {σ : Type}

inductive Answer where
  | saved (outcome : Except Fault Unit)
  | loaded (outcome : Except Fault (Option Bytes))
  | contained (found : Bool)

def Answer.succeeded : Answer → Bool
  | .saved outcome => outcome.isOk
  | .loaded outcome => outcome.isOk
  | .contained _ => true

def ask (storage : Storage m) : Call → m Answer
  | .save name data => return .saved (← storage.save name data)
  | .load name => return .loaded (← storage.load name)
  | .contains name => return .contained (← storage.contains name)

def answers (storage : Storage (StateM σ)) (s : σ) (calls : List Call) : List Answer :=
  ((calls.mapM storage.ask).run s).1

def Call.name : Call → String
  | .save name _ | .load name | .contains name => name

def Call.blob? (name : String) : Call → Option Bytes
  | .save other data => if other = name then some data else none
  | .load _ | .contains _ => none

def latest (past : List Call) (name : String) : Option Bytes :=
  past.reverse.findSome? (Call.blob? name)

/-- The answer to a call that goes by what was saved last under its name. -/
def Call.expected (past : List Call) : Call → Answer
  | .save _ _ => .saved (.ok ())
  | .load name => .loaded (.ok (latest past name))
  | .contains name => .contained (latest past name).isSome

theorem latest_save (past : List Call) (name : String) (data : Bytes) :
    latest (past ++ [.save name data]) = Function.update (latest past) name (some data) := by
  funext other
  rw [latest, List.reverse_append, List.reverse_singleton, List.singleton_append,
    List.findSome?_cons, Call.blob?]
  by_cases h : name = other
  · subst h
    rw [if_pos rfl, Function.update_self]
  · rw [if_neg h, Function.update_of_ne (Ne.symm h)]
    rfl

theorem latest_of_not_saving (past : List Call) {call : Call} (h : call.saved? = none) :
    latest (past ++ [call]) = latest past := by
  funext name
  rw [latest, List.reverse_append, List.reverse_singleton, List.singleton_append,
    List.findSome?_cons]
  cases call with
  | save => cases h
  | load | contains => rfl

theorem answers_cons (storage : Storage (StateM σ)) (s : σ) (call : Call) (calls : List Call) :
    storage.answers s (call :: calls) =
      ((storage.ask call).run s).1 :: storage.answers ((storage.ask call).run s).2 calls := by
  rw [answers, List.mapM_cons]
  rfl

/-- Answers that are expected one at a time are expected throughout. -/
theorem answers_eq {storage : Storage (StateM σ)} {I : List Call → σ → Prop} {P : Call → Prop}
    (hstep : ∀ past s call, I past s → P call →
      ((storage.ask call).run s).1 = call.expected past ∧
        I (past ++ [call]) ((storage.ask call).run s).2)
    (past : List Call) {s : σ} (h : I past s) {calls : List Call} (hc : ∀ call ∈ calls, P call) :
    storage.answers s calls = calls.mapIdx fun i call => call.expected (past ++ calls.take i) := by
  induction calls generalizing past s with
  | nil => rfl
  | cons call calls ih =>
    obtain ⟨hanswer, hnext⟩ := hstep past s call h (hc call List.mem_cons_self)
    have htail := ih _ hnext fun call hm => hc call (List.mem_cons_of_mem _ hm)
    rw [answers_cons, hanswer, htail, List.mapIdx_cons]
    simp only [List.take_zero, List.append_nil, List.take_succ_cons, List.append_assoc,
      List.singleton_append]

end Calls

section Steps
variable {past : List Call} {call : Call}

theorem blobs_step {b : Blobs} (h : ∀ name, b.lookup name = latest past name) :
    ((Blobs.storage.ask call).run b).1 = call.expected past ∧
      ∀ name,
        List.lookup name ((Blobs.storage.ask call).run b).2 = latest (past ++ [call]) name := by
  cases call with
  | save name data =>
    refine ⟨rfl, fun other => ?_⟩
    rw [latest_save]
    by_cases ho : other = name
    · subst ho
      rw [Function.update_self]
      exact Blobs.lookup_insert_self b other data
    · rw [Function.update_of_ne ho, ← h]
      exact Blobs.lookup_insert_of_ne b data ho
  | load name =>
    rw [latest_of_not_saving past rfl]
    exact ⟨congrArg (Answer.loaded ∘ Except.ok) (h name), h⟩
  | contains name =>
    rw [latest_of_not_saving past rfl]
    exact ⟨congrArg (Answer.contained ∘ Option.isSome) (h name), h⟩

variable {t : Transcript} {d : Path}

/-- Names of blobs that are names of files, short enough if something is saved under them. -/
def Call.Fits (d : Path) (call : Call) : Prop :=
  ∀ name ∈ call.saved?, FileTree.Fits d (name ++ ".sav")

instance (d : Path) (call : Call) : Decidable (call.Fits d) :=
  inferInstanceAs (Decidable (∀ name ∈ call.saved?, _))

theorem folder_step (verbosity : Verbosity) (h : t.files.Supplied d (latest past))
    (hn : BlobName call.name) (hf : call.Fits d) :
    (((Transcript.folder verbosity d).ask call).run t).1 = call.expected past ∧
      (((Transcript.folder verbosity d).ask call).run t).2.files.Supplied d
        (latest (past ++ [call])) := by
  cases call with
  | save name data =>
    obtain ⟨hok, hnext⟩ := Transcript.save_of_supplied h hn (hf name rfl) verbosity data
    rw [latest_save]
    exact ⟨congrArg Answer.saved hok, hnext⟩
  | load name =>
    obtain ⟨hok, hfiles⟩ := Transcript.load_of_supplied h hn verbosity
    rw [latest_of_not_saving past rfl]
    exact ⟨congrArg Answer.loaded hok, hfiles.symm ▸ h⟩
  | contains name =>
    have hcontains := Transcript.contains_of_supplied h hn verbosity
    rw [latest_of_not_saving past rfl]
    have hanswer : ((Transcript.folder verbosity d).ask (.contains name)).run t =
        (.contained (latest past name).isSome, t) :=
      congrArg (fun r : Bool × Transcript => (Answer.contained r.1, r.2)) hcontains
    rw [hanswer]
    exact ⟨rfl, h⟩

/-- A name that is too long is what a save can fail of. -/
theorem failed_of_unfit (verbosity : Verbosity) {name : String} (data : Bytes)
    (h : t.files.Supplied d (latest past)) (hn : BlobName name)
    (hf : ¬FileTree.Fits d (name ++ ".sav")) :
    (((Transcript.folder verbosity d).ask (.save name data)).run t).1.succeeded = false := by
  obtain ⟨made, place, hm, hstocked, -⟩ := h
  have hsave := Transcript.save_of_error verbosity hm (hstocked.write_error hn hf data)
  exact congrArg (fun r => (Answer.saved r.1).succeeded) hsave

theorem fits_of_succeeded (verbosity : Verbosity) {past calls : List Call} {t : Transcript}
    {d : Path} (h : t.files.Supplied d (latest past))
    (hn : ∀ call ∈ calls, BlobName call.name)
    (hs : ∀ answer ∈ (Transcript.folder verbosity d).answers t calls, answer.succeeded) :
    ∀ call ∈ calls, call.Fits d := by
  induction calls generalizing past t with
  | nil => exact fun _ hc => absurd hc List.not_mem_nil
  | cons call calls ih =>
    rw [answers_cons] at hs
    have hname := hn call List.mem_cons_self
    have hfits : call.Fits d := by
      intro name hsaved
      cases call with
      | save other data =>
        obtain rfl := Option.some.inj hsaved
        by_contra hf
        have hfailed := failed_of_unfit verbosity data h hname hf
        exact Bool.false_ne_true (hfailed.symm.trans (hs _ List.mem_cons_self))
      | load | contains => cases hsaved
    obtain ⟨-, hnext⟩ := folder_step verbosity h hname hfits
    intro c hc
    rcases List.mem_cons.1 hc with rfl | hc
    · exact hfits
    · exact ih hnext (fun c hc => hn c (List.mem_cons_of_mem _ hc))
        (fun answer ha => hs answer (List.mem_cons_of_mem _ ha)) c hc

end Steps

/-- In a directory that was absent or empty, a storage answers as one in memory does, unless a call
fails: a blob is loaded as it was saved last under its name, whatever is saved under other names,
nothing is loaded where nothing was saved, and a blob is contained if it can be loaded. A call fails
only if it saves under a name that is too long for the file system. -/
theorem storages_agree (verbosity : Verbosity) {t : Transcript} {d : Path}
    (hd : t.files.Vacant d) (calls : List Call)
    (hn : ∀ call ∈ calls, BlobName call.name) :
    let kept := (Transcript.folder verbosity d).answers t calls
    let held := Blobs.storage.answers [] calls
    (held = calls.mapIdx fun i call => call.expected (calls.take i)) ∧
      ((∀ answer ∈ kept, answer.succeeded) → kept = held) ∧
      ((∀ answer ∈ kept, answer.succeeded) ↔ ∀ call ∈ calls, call.Fits d) := by
  intro kept held
  have hsupplied : t.files.Supplied d (latest []) := hd.supplied
  have hheld : held = calls.mapIdx fun i call => call.expected (calls.take i) :=
    answers_eq (I := fun past b => ∀ name, List.lookup name b = latest past name)
      (P := fun _ => True) (fun _ _ _ h _ => blobs_step h) [] (fun _ => rfl) fun _ _ => trivial
  have hkept (hf : ∀ call ∈ calls, call.Fits d) :
      kept = calls.mapIdx fun i call => call.expected (calls.take i) :=
    answers_eq (I := fun past (t : Transcript) => t.files.Supplied d (latest past))
      (P := fun call => BlobName call.name ∧ call.Fits d)
      (fun _ _ _ h hc => folder_step verbosity h hc.1 hc.2) [] hsupplied
      fun call hc => ⟨hn call hc, hf call hc⟩
  refine ⟨hheld, fun hs => ?_, fits_of_succeeded verbosity hsupplied hn, fun hf answer ha => ?_⟩
  · exact (hkept (fits_of_succeeded verbosity hsupplied hn hs)).trans hheld.symm
  · rw [hkept hf] at ha
    obtain ⟨i, hi, rfl⟩ := List.mem_mapIdx.1 ha
    cases calls[i] <;> rfl

/-- The directory and the one above it are made with the first blob. One name is another one with
the ending of its file. -/
theorem storages_agree_ending :
    let d : Path := ⟨"saves/red"⟩
    let t := Transcript.ofFiles .empty
    let calls : List Call := [.contains "a", .save "a" #[1], .save "a.sav" #[2], .save "a" #[3],
      .load "a", .load "a.sav", .load "b", .contains "a"]
    t.files.Vacant d ∧ (∀ call ∈ calls, BlobName call.name) ∧
      (∀ call ∈ calls, call.Fits d) ∧
      (Transcript.folder none d).answers t calls =
        [.contained false, .saved (.ok ()), .saved (.ok ()), .saved (.ok ()),
          .loaded (.ok (some #[3])), .loaded (.ok (some #[2])), .loaded (.ok none),
          .contained true] := by
  intro d t calls
  have hvacant : FileTree.empty.Vacant ⟨"saves/red"⟩ :=
    (FileTree.vacant_iff FileTree.rooted_empty (by decide +kernel) (by decide +kernel)).2
      ⟨by decide +kernel, .inl (by decide +kernel)⟩
  have hnames : ∀ call ∈ calls, BlobName call.name := by
    have hname : ∀ call ∈ calls, '/' ∉ call.name.toList ∧ '\x00' ∉ call.name.toList := by
      decide +kernel
    exact fun call hc => ⟨(hname call hc).1, (hname call hc).2⟩
  have hfits : ∀ call ∈ calls, call.Fits d := by decide +kernel
  obtain ⟨hheld, hsame, hsucceeded⟩ := storages_agree none (t := t) (d := d) hvacant calls hnames
  refine ⟨hvacant, hnames, hfits, ?_⟩
  exact (hsame (hsucceeded.2 hfits)).trans hheld

end Storage

end DotMatrix
