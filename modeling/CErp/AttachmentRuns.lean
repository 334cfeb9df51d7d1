/-
The filestore: files named by the hash of their content, under one root.

The digest is the parameter `digest`.  A file on the disk has a number of its own
beside its content, so that a file written anew under an old name is another
file.  Operations on the disk succeed; `put` renames a finished file into place
and so is one step.

`pathFor_storeFname` says that a stored name is never refused, and
`pathFor_injective` that a path belongs to one name.

Uploads and deletions of attachments in any number of tenant databases over one
filestore, step by step.

An upload puts its file, inserts its row and commits or rolls back; a deletion
reads the names of its rows, deletes the rows, and for each name counts the rows
of its own database that are left and collects the file.  Steps of any number of
them come in any order.  A row keeps the content it was uploaded with; a deletion
that has deleted keeps the files whose last row it took, until a row names them
again.

`files_outlive` says which runs keep every file that a row needs, and leave none
that a completed deletion was to collect.
-/
import CErp.Runs
import CErp.Table
import Mathlib

namespace CErp

namespace Filestore

/-- The digest of the content, as the digest library computes it. -/
abbrev Digest := List UInt8 → List UInt8

structure StoredFile where
  checksum : String
  storeFname : String
  size : ℕ
deriving DecidableEq

structure File where
  content : List UInt8
  inode : ℕ
deriving DecidableEq

/-- The files by their paths, and the number of the next one. -/
structure Disk where
  files : String → Option File
  nextInode : ℕ

def root : String := "data/filestore"

/-- `hex[d]`. -/
def hexChar (d : UInt8) : Char := "0123456789abcdef".toList.getD d.toNat '0'

def sha256Hex (digest : Digest) (bytes : List UInt8) : String :=
  String.ofList ((digest bytes).flatMap fun (b : UInt8) =>
    [hexChar (b >>> 4), hexChar (b &&& 0xF)])

def isNameChar (c : Char) : Bool :=
  ('0' ≤ c && c ≤ '9') || ('a' ≤ c && c ≤ 'f') || c == '/'

/-- The path of a `store_fname`, empty where it may not be one. -/
def pathFor (storeFname : String) : String :=
  if storeFname.isEmpty then ""
  else if !storeFname.toList.all isNameChar then ""
  else if ['.', '.'] <:+: storeFname.toList then ""
  else root ++ "/" ++ storeFname

/-- The name a content is stored under. -/
def storeFname (digest : Digest) (bytes : List UInt8) : String :=
  let h := sha256Hex digest bytes
  String.ofList (h.toList.take 2) ++ "/" ++ h

def put (digest : Digest) (disk : Disk) (bytes : List UInt8) : Disk × StoredFile :=
  let h := sha256Hex digest bytes
  let dir := root ++ "/" ++ String.ofList (h.toList.take 2)
  let abs := dir ++ "/" ++ h
  let sf : StoredFile := ⟨h, storeFname digest bytes, bytes.length⟩
  if (disk.files abs).isSome then (disk, sf)
  else (⟨Function.update disk.files abs (some ⟨bytes, disk.nextInode⟩), disk.nextInode + 1⟩, sf)

/-- The bytes, none where there is no file. -/
def get (disk : Disk) (storeFname : String) : List UInt8 :=
  match disk.files (pathFor storeFname) with
  | some f => f.content
  | none => []

def gc (disk : Disk) (storeFname : String) (remainingRefs : ℕ) : Disk :=
  if remainingRefs > 0 then disk
  else if (pathFor storeFname).isEmpty then disk
  else { disk with files := Function.update disk.files (pathFor storeFname) none }

/-! ### Names and paths -/

lemma hexChar_isNameChar (d : UInt8) : isNameChar (hexChar d) = true := by
  have hall : "0123456789abcdef".toList.all isNameChar = true := rfl
  unfold hexChar
  rw [List.getD_eq_getElem?_getD]
  cases h : "0123456789abcdef".toList[d.toNat]? with
  | none => rfl
  | some c => exact List.all_eq_true.mp hall c (List.mem_of_getElem? h)

variable (digest : Digest)

variable (bytes : List UInt8)

lemma sha256Hex_chars : ∀ c ∈ (sha256Hex digest bytes).toList, isNameChar c = true := by
  intro c hc
  rw [sha256Hex, String.toList_ofList, List.mem_flatMap] at hc
  obtain ⟨b, -, hc⟩ := hc
  rw [List.mem_cons, List.mem_singleton] at hc
  rcases hc with rfl | rfl
  · exact hexChar_isNameChar _
  · exact hexChar_isNameChar _

lemma toList_storeFname : (storeFname digest bytes).toList =
      (sha256Hex digest bytes).toList.take 2 ++ '/' :: (sha256Hex digest bytes).toList := by
  unfold storeFname
  rw [String.toList_append, String.toList_append, String.toList_ofList]
  simp

lemma storeFname_chars : ∀ c ∈ (storeFname digest bytes).toList, isNameChar c = true := by
  rw [toList_storeFname]
  intro c hc
  rw [List.mem_append, List.mem_cons] at hc
  rcases hc with hc | rfl | hc
  · exact sha256Hex_chars digest bytes c (List.mem_of_mem_take hc)
  · rfl
  · exact sha256Hex_chars digest bytes c hc

/-- A path belongs to one name. -/
lemma pathFor_injective {a b : String} (h : pathFor a = pathFor b) (ha : pathFor a ≠ "") :
    a = b := by
  have hpath : ∀ {s : String}, pathFor s ≠ "" → pathFor s = root ++ "/" ++ s := by
    intro s hs
    unfold pathFor at hs ⊢
    split at hs
    · exact absurd rfl hs
    next hempty =>
    split at hs
    · exact absurd rfl hs
    next hchars =>
    split at hs
    · exact absurd rfl hs
    next hdots =>
    rw [if_neg hempty, if_neg hchars, if_neg hdots]
  have hb : pathFor b ≠ "" := h ▸ ha
  rw [hpath ha, hpath hb] at h
  have hlist := congrArg String.toList h
  simp only [String.toList_append] at hlist
  exact String.toList_inj.mp (List.append_cancel_left hlist)

/-- The name of a content is a name. -/
lemma pathFor_storeFname :
    pathFor (storeFname digest bytes) = root ++ "/" ++ storeFname digest bytes := by
  have hchars := storeFname_chars digest bytes
  unfold pathFor
  rw [if_neg, if_neg, if_neg]
  · intro hdots
    have hdot := hchars '.' (hdots.subset List.mem_cons_self)
    revert hdot
    decide
  · rw [Bool.not_eq_true', Bool.not_eq_false, List.all_eq_true]
    exact hchars
  · intro hempty
    have hnil : (storeFname digest bytes).toList = [] := by
      rw [String.isEmpty_iff] at hempty
      rw [hempty]
      rfl
    rw [toList_storeFname] at hnil
    exact absurd hnil (by simp)

lemma pathFor_storeFname_ne : pathFor (storeFname digest bytes) ≠ "" := by
  rw [pathFor_storeFname]
  intro h
  have hlist := congrArg String.toList h
  rw [String.toList_append, String.toList_append] at hlist
  exact absurd hlist (by simp)

/-- What `put` does, in terms of the path a reader asks for. -/
lemma put_eq (disk : Disk) (bytes : List UInt8) : put digest disk bytes =
      (if (disk.files (pathFor (storeFname digest bytes))).isSome then disk
        else ⟨Function.update disk.files (pathFor (storeFname digest bytes))
          (some ⟨bytes, disk.nextInode⟩), disk.nextInode + 1⟩,
        ⟨sha256Hex digest bytes, storeFname digest bytes, bytes.length⟩) := by
  have habs : root ++ "/" ++ String.ofList ((sha256Hex digest bytes).toList.take 2) ++ "/" ++
      sha256Hex digest bytes = pathFor (storeFname digest bytes) := by
    rw [pathFor_storeFname]
    unfold storeFname
    simp only [String.append_assoc]
  unfold put
  dsimp only
  rw [habs]
  split
  · rfl
  · rfl

end Filestore

end CErp

namespace CErp

namespace AttachmentRuns

open Filestore

/-! ### States -/

/-- A row of `ir_attachment`, with the content `storeAttachment` was given. -/
structure Attachment where
  storeFname : String
  checksum : String
  fileSize : ℕ
  content : List UInt8
deriving DecidableEq

/-- An upload after `put`; its row is not visible to others until it commits. -/
structure Upload (δ : Type*) where
  db : δ
  content : List UInt8
  stored : StoredFile
  inserted : Bool

/-- A deletion after its names are read. -/
structure Deletion (δ : Type*) where
  db : δ
  ids : List ℤ
  /-- The names that are left to count. -/
  blobs : List String
  deleted : Bool
  /-- The count of the first name. -/
  refs : Option ℕ
  /-- The names whose last row this deletion took, with the files they had. -/
  taken : Set (String × ℕ)

structure State (δ : Type*) where
  disk : Disk
  rows : δ → Table Attachment
  uploads : ℕ → Option (Upload δ)
  deletions : ℕ → Option (Deletion δ)

variable {δ : Type*}

def State.setUpload (s : State δ) (k : ℕ) (u : Option (Upload δ)) : State δ :=
  { s with uploads := Function.update s.uploads k u }

def State.setDeletion (s : State δ) (k : ℕ) (D : Option (Deletion δ)) : State δ :=
  { s with deletions := Function.update s.deletions k D }

/-- `kMaxUploadBytes`. -/
def kMaxUploadBytes : ℕ := 25 * 1024 * 1024

/-- Some committed row of some tenant names the file. -/
def Named (rows : δ → Table Attachment) (n : String) : Prop :=
  ∃ d id a, (rows d).get? id = some a ∧ a.storeFname = n

/-- The names of a deletion's rows, in order and each once. -/
def blobsOf (rows : Table Attachment) (ids : List ℤ) : List String :=
  let names := (rows.rows.filter fun r => ids.contains r.1).map fun r => r.2.storeFname
  ((names.filter fun n => !n.isEmpty).insertionSort (· ≤ ·)).dedup

/-- `SELECT count(*) FROM ir_attachment WHERE store_fname = $1`. -/
def countOf (rows : Table Attachment) (n : String) : ℕ :=
  (rows.rows.filter fun r => r.2.storeFname == n).length

/-! ### Steps -/

inductive Event (δ : Type*) where
  /-- The upload `k` of a content, whose file type is allowed or not. -/
  | put (k : ℕ) (d : δ) (content : List UInt8) (typeAllowed : Bool)
  | insert (k : ℕ)
  | commit (k : ℕ)
  | rollback (k : ℕ)
  | read (k : ℕ) (d : δ) (ids : List ℤ)
  /-- `DELETE`, of the rows the rules let the user delete. -/
  | delete (k : ℕ) (permits : ℤ → Attachment → Bool)
  | count (k : ℕ)
  | gc (k : ℕ)
  /-- The deletion answers, or fails on the way. -/
  | leave (k : ℕ)

/-- The rows a deletion leaves of its database. -/
def Deletion.spares (D : Deletion δ) (rows : Table Attachment) (permits : ℤ → Attachment → Bool) :
    Table Attachment :=
  rows.delete fun id a => D.ids.contains id && permits id a

/-- The names whose last row goes, with the files they have. -/
def takenBy (disk : Disk) (rows rows' : δ → Table Attachment) : Set (String × ℕ) :=
  fun p => Named rows p.1 ∧ ¬ Named rows' p.1 ∧
    ∃ f, disk.files (pathFor p.1) = some f ∧ f.inode = p.2

/-- A row names the file again. -/
def Deletion.renamed (n : String) (D : Deletion δ) : Deletion δ :=
  { D with taken := fun p => p ∈ D.taken ∧ p.1 ≠ n }

def step [DecidableEq δ] (digest : Digest) (s : State δ) : Event δ → Option (State δ)
  | .put k d content typeAllowed =>
      if (s.uploads k).isSome then none
      else if content.length > kMaxUploadBytes ∨ content = [] ∨ typeAllowed = false then some s
      else
        let (disk, stored) := Filestore.put digest s.disk content
        some (State.setUpload { s with disk := disk } k (some ⟨d, content, stored, false⟩))
  | .insert k =>
      match s.uploads k with
      | some u => if u.inserted then none else some (s.setUpload k (some { u with inserted := true }))
      | none => none
  | .commit k =>
      match s.uploads k with
      | some u =>
          if u.inserted then
            let row : Attachment :=
              ⟨u.stored.storeFname, u.stored.checksum, u.stored.size, u.content⟩
            some (State.setUpload
              { s with
                rows := Function.update s.rows u.db ((s.rows u.db).insert row)
                deletions := fun j => (s.deletions j).map (Deletion.renamed row.storeFname) }
              k none)
          else none
      | none => none
  | .rollback k => (s.uploads k).map fun _ => s.setUpload k none
  | .read k d ids =>
      if (s.deletions k).isSome then none
      else if ids = [] then some s
      else some (s.setDeletion k (some ⟨d, ids, blobsOf (s.rows d) ids, false, none, ∅⟩))
  | .delete k permits =>
      match s.deletions k with
      | some D =>
          if D.deleted then none
          else
            let rows := Function.update s.rows D.db (D.spares (s.rows D.db) permits)
            some (State.setDeletion { s with rows := rows } k
              (some { D with deleted := true, taken := takenBy s.disk s.rows rows }))
      | none => none
  | .count k =>
      match s.deletions k with
      | some D =>
          match D.deleted, D.blobs, D.refs with
          | true, n :: _, none =>
              some (s.setDeletion k (some { D with refs := some (countOf (s.rows D.db) n) }))
          | _, _, _ => none
      | none => none
  | .gc k =>
      match s.deletions k with
      | some D =>
          match D.blobs, D.refs with
          | n :: ns, some refs =>
              some (State.setDeletion { s with disk := Filestore.gc s.disk n refs } k
                (some { D with blobs := ns, refs := none }))
          | _, _ => none
      | none => none
  | .leave k => (s.deletions k).map fun _ => s.setDeletion k none

/-! ### The law -/

/-- Every committed row has its file, with the content that was uploaded. -/
def Kept (s : State δ) : Prop :=
  ∀ d id a, (s.rows d).get? id = some a →
    (s.disk.files (pathFor a.storeFname)).map File.content = some a.content

/-- A deletion has done all its steps. -/
def Deletion.Completed (D : Deletion δ) : Prop := D.deleted = true ∧ D.blobs = []

/-- No file remains whose last row a completed deletion took. -/
def Released (s : State δ) : Prop :=
  ∀ k D, s.deletions k = some D → D.Completed → ∀ p ∈ D.taken, ∀ f,
    s.disk.files (pathFor p.1) = some f → f.inode ≠ p.2

/-- What a step has to find: no other content under the name that is put; a name
read for every file whose last row is deleted; and, where a file is collected, no
row of any tenant and no upload that names it. -/
def Careful [DecidableEq δ] (digest : Digest) (s : State δ) : Event δ → Prop
  | .put _ _ content typeAllowed =>
      content.length ≤ kMaxUploadBytes → content ≠ [] → typeAllowed = true →
        ∀ f, s.disk.files (pathFor (storeFname digest content)) = some f → f.content = content
  | .delete k permits => ∀ D, s.deletions k = some D → ∀ p ∈ takenBy s.disk s.rows
      (Function.update s.rows D.db (D.spares (s.rows D.db) permits)), p.1 ∈ D.blobs
  | .gc k => ∀ D n ns, s.deletions k = some D → D.blobs = n :: ns → D.refs = some 0 →
      ¬ Named s.rows n ∧ ∀ j u, s.uploads j = some u → u.stored.storeFname ≠ n
  | _ => True

/-- The file of a name has this content. -/
def Holds (disk : Disk) (n : String) (content : List UInt8) : Prop :=
  ∃ f, disk.files (pathFor n) = some f ∧ f.content = content

/-- What every careful step keeps. -/
structure Sound (digest : Digest) (s : State δ) : Prop where
  rowName : ∀ d id a, (s.rows d).get? id = some a → a.storeFname = storeFname digest a.content
  rowFile : ∀ d id a, (s.rows d).get? id = some a → Holds s.disk a.storeFname a.content
  uploadName : ∀ k u, s.uploads k = some u → u.stored.storeFname = storeFname digest u.content
  uploadFile : ∀ k u, s.uploads k = some u → Holds s.disk u.stored.storeFname u.content
  inodes : ∀ path f, s.disk.files path = some f → f.inode < s.disk.nextInode
  takenOld : ∀ k D, s.deletions k = some D → ∀ p ∈ D.taken, p.2 < s.disk.nextInode
  takenName : ∀ k D, s.deletions k = some D → ∀ p ∈ D.taken, ¬ Named s.rows p.1 ∧ pathFor p.1 ≠ ""
  pending : ∀ k D, s.deletions k = some D → ∀ p ∈ D.taken,
    (∃ f, s.disk.files (pathFor p.1) = some f ∧ f.inode = p.2) → p.1 ∈ D.blobs
  counted : ∀ k D, s.deletions k = some D → ∀ n ns refs, D.blobs = n :: ns → D.refs = some refs →
    ∀ i, (n, i) ∈ D.taken → refs = 0
  undeleted : ∀ k D, s.deletions k = some D → D.deleted = false → D.refs = none

section Steps

variable {digest : Digest} {s s' : State δ}

variable {n : String}

lemma Sound.named_path (h : Sound digest s) (hn : Named s.rows n) : pathFor n ≠ "" := by
  obtain ⟨d, id, a, ha, rfl⟩ := hn
  rw [h.rowName d id a ha]
  exact pathFor_storeFname_ne digest a.content

/-- Every row has its file, and no completed deletion left one. -/
lemma Sound.law (h : Sound digest s) : Kept s ∧ Released s := by
  constructor
  · intro d id a ha
    obtain ⟨f, hf, hc⟩ := h.rowFile d id a ha
    rw [hf, Option.map_some, hc]
  · intro k D hD hdone p hp f hf hinode
    have hmem := h.pending k D hD p hp ⟨f, hf, hinode⟩
    rw [hdone.2] at hmem
    cases hmem

/-! ### What a step changes -/

variable {k : ℕ}

lemma setUpload_cases {j : ℕ} {u : Option (Upload δ)} {v : Upload δ}
    (h : (s.setUpload k u).uploads j = some v) :
    (j = k ∧ u = some v) ∨ (j ≠ k ∧ s.uploads j = some v) := by
  unfold State.setUpload at h
  dsimp only at h
  rw [Function.update_apply] at h
  split at h
  · next hj => exact .inl ⟨hj, h⟩
  · next hj => exact .inr ⟨hj, h⟩

lemma setDeletion_cases {j : ℕ} {D : Option (Deletion δ)} {E : Deletion δ}
    (h : (s.setDeletion k D).deletions j = some E) :
    (j = k ∧ D = some E) ∨ (j ≠ k ∧ s.deletions j = some E) := by
  unfold State.setDeletion at h
  dsimp only at h
  rw [Function.update_apply] at h
  split at h
  · next hj => exact .inl ⟨hj, h⟩
  · next hj => exact .inr ⟨hj, h⟩

/-- An upload is put in or changed. -/
lemma Sound.setUpload (h : Sound digest s) (k : ℕ) {u : Option (Upload δ)}
    (hu : ∀ v, u = some v → v.stored.storeFname = storeFname digest v.content ∧
      Holds s.disk v.stored.storeFname v.content) : Sound digest (s.setUpload k u) := by
  refine ⟨h.rowName, h.rowFile, ?_, ?_, h.inodes, h.takenOld, h.takenName, h.pending, h.counted,
    h.undeleted⟩
  · intro j v hv
    rcases setUpload_cases hv with ⟨-, hv⟩ | ⟨-, hv⟩
    · exact (hu v hv).1
    · exact h.uploadName j v hv
  · intro j v hv
    rcases setUpload_cases hv with ⟨-, hv⟩ | ⟨-, hv⟩
    · exact (hu v hv).2
    · exact h.uploadFile j v hv

/-- What is to hold of a deletion. -/
structure DeletionSound (s : State δ) (D : Deletion δ) : Prop where
  old : ∀ p ∈ D.taken, p.2 < s.disk.nextInode
  name : ∀ p ∈ D.taken, ¬ Named s.rows p.1 ∧ pathFor p.1 ≠ ""
  pending : ∀ p ∈ D.taken,
    (∃ f, s.disk.files (pathFor p.1) = some f ∧ f.inode = p.2) → p.1 ∈ D.blobs
  counted : ∀ n ns refs, D.blobs = n :: ns → D.refs = some refs → ∀ i, (n, i) ∈ D.taken → refs = 0
  undeleted : D.deleted = false → D.refs = none

variable {D : Deletion δ}

lemma Sound.deletion (h : Sound digest s) (hD : s.deletions k = some D) : DeletionSound s D :=
  ⟨h.takenOld k D hD, h.takenName k D hD, h.pending k D hD, h.counted k D hD, h.undeleted k D hD⟩

/-- A deletion is put in or changed. -/
lemma Sound.setDeletion (h : Sound digest s) (k : ℕ) {D : Option (Deletion δ)}
    (hD : ∀ E, D = some E → DeletionSound s E) : Sound digest (s.setDeletion k D) := by
  have hall : ∀ j E, (s.setDeletion k D).deletions j = some E → DeletionSound s E := by
    intro j E hE
    rcases setDeletion_cases hE with ⟨-, hE⟩ | ⟨-, hE⟩
    · exact hD E hE
    · exact h.deletion hE
  exact ⟨h.rowName, h.rowFile, h.uploadName, h.uploadFile, h.inodes,
    fun j E hE => (hall j E hE).old, fun j E hE => (hall j E hE).name,
    fun j E hE => (hall j E hE).pending, fun j E hE => (hall j E hE).counted,
    fun j E hE => (hall j E hE).undeleted⟩

/-- Files are added to the disk. -/
lemma Sound.grow (h : Sound digest s) {disk : Disk}
    (hkeep : ∀ path f, s.disk.files path = some f → disk.files path = some f)
    (hback : ∀ path f, disk.files path = some f →
      s.disk.files path = some f ∨ f.inode = s.disk.nextInode)
    (hnext : disk.nextInode = s.disk.nextInode + 1) : Sound digest { s with disk := disk } := by
  have hholds : ∀ {n c}, Holds s.disk n c → Holds disk n c := by
    rintro n c ⟨f, hf, hfc⟩
    exact ⟨f, hkeep _ f hf, hfc⟩
  have hlater : ∀ {i}, i < s.disk.nextInode → i < disk.nextInode := by
    intro i hi
    rw [hnext]
    exact Nat.lt_succ_of_lt hi
  refine ⟨h.rowName, fun d id a ha => hholds (h.rowFile d id a ha), h.uploadName,
    fun k u hu => hholds (h.uploadFile k u hu), ?_,
    fun k D hD p hp => hlater (h.takenOld k D hD p hp), h.takenName, ?_, h.counted, h.undeleted⟩
  · intro path f hf
    rcases hback path f hf with hold | hnew
    · exact hlater (h.inodes path f hold)
    · show f.inode < disk.nextInode
      omega
  · rintro k D hD p hp ⟨f, hf, hinode⟩
    rcases hback _ f hf with hold | hnew
    · exact h.pending k D hD p hp ⟨f, hold, hinode⟩
    · have hlt := h.takenOld k D hD p hp
      omega

/-- A content is put under a name that no other content has. -/
lemma Sound.put (h : Sound digest s) {content : List UInt8}
    (hc : ∀ f, s.disk.files (pathFor (storeFname digest content)) = some f → f.content = content) :
    Sound digest { s with disk := (Filestore.put digest s.disk content).1 } ∧
      Holds (Filestore.put digest s.disk content).1 (storeFname digest content) content := by
  rw [put_eq]
  cases hfile : s.disk.files (pathFor (storeFname digest content)) with
  | some f =>
      rw [Option.isSome_some, if_pos rfl]
      exact ⟨h, f, hfile, hc f hfile⟩
  | none =>
      rw [Option.isSome_none, if_neg Bool.false_ne_true]
      constructor
      · apply h.grow
        · -- nothing that has a file is touched
          intro path f hf
          dsimp only
          rw [Function.update_of_ne]
          · exact hf
          · rintro rfl
            rw [hfile] at hf
            cases hf
        · intro path f hf
          dsimp only at hf
          rw [Function.update_apply] at hf
          split at hf
          · obtain rfl := Option.some.inj hf
            exact .inr rfl
          · exact .inl hf
        · rfl
      · refine ⟨⟨content, s.disk.nextInode⟩, ?_, rfl⟩
        dsimp only
        rw [Function.update_self]

/-- Rows go. -/
lemma Sound.lessRows (h : Sound digest s) {rows : δ → Table Attachment}
    (hrows : ∀ d id a, (rows d).get? id = some a → (s.rows d).get? id = some a) :
    Sound digest { s with rows := rows } := by
  refine ⟨fun d id a ha => h.rowName d id a (hrows d id a ha),
    fun d id a ha => h.rowFile d id a (hrows d id a ha), h.uploadName, h.uploadFile, h.inodes,
    h.takenOld, ?_, h.pending, h.counted, h.undeleted⟩
  intro k D hD p hp
  obtain ⟨hnot, hpath⟩ := h.takenName k D hD p hp
  refine ⟨?_, hpath⟩
  rintro ⟨d, id, a, ha, hn⟩
  exact hnot ⟨d, id, a, hrows d id a ha, hn⟩

lemma get?_spares [DecidableEq δ] {rows : δ → Table Attachment}
    {permits : ℤ → Attachment → Bool} {d : δ} {id : ℤ} {a : Attachment}
    (h : (Function.update rows D.db (D.spares (rows D.db) permits) d).get? id = some a) :
    (rows d).get? id = some a := by
  rw [Function.update_apply] at h
  split at h
  · next hd =>
      subst hd
      rw [Deletion.spares, Table.get?_delete] at h
      exact (Option.filter_eq_some_iff.mp h).1
  · exact h

lemma Sound.delete [DecidableEq δ] (h : Sound digest s) {permits : ℤ → Attachment → Bool}
    (hD : s.deletions k = some D) (hdel : D.deleted = false) (hseen : ∀ p ∈ takenBy s.disk s.rows
      (Function.update s.rows D.db (D.spares (s.rows D.db) permits)), p.1 ∈ D.blobs) :
    Sound digest (State.setDeletion
      { s with rows := Function.update s.rows D.db (D.spares (s.rows D.db) permits) } k
      (some { D with
        deleted := true
        taken := takenBy s.disk s.rows
          (Function.update s.rows D.db (D.spares (s.rows D.db) permits)) })) := by
  have hless : Sound digest
      { s with rows := Function.update s.rows D.db (D.spares (s.rows D.db) permits) } :=
    h.lessRows fun d id a ha => get?_spares ha
  apply hless.setDeletion
  intro E hE
  obtain rfl := Option.some.inj hE
  have hrefs := h.undeleted k D hD hdel
  refine ⟨?_, ?_, ?_, ?_, ?_⟩
  · rintro p ⟨-, -, f, hf, hinode⟩
    rw [← hinode]
    exact h.inodes _ f hf
  · rintro p ⟨hn, hnot, -⟩
    exact ⟨hnot, h.named_path hn⟩
  · intro p hp _
    exact hseen p hp
  · intro n ns refs _ hr
    rw [hrefs] at hr
    cases hr
  · intro hfalse
    cases hfalse

lemma Sound.commit [DecidableEq δ] (h : Sound digest s) {u : Upload δ}
    (hu : s.uploads k = some u) :
    Sound digest (State.setUpload
      { s with
        rows := Function.update s.rows u.db ((s.rows u.db).insert
          ⟨u.stored.storeFname, u.stored.checksum, u.stored.size, u.content⟩)
        deletions := fun j => (s.deletions j).map (Deletion.renamed u.stored.storeFname) }
      k none) := by
  have hrow : ∀ d id a, (Function.update s.rows u.db ((s.rows u.db).insert
      ⟨u.stored.storeFname, u.stored.checksum, u.stored.size, u.content⟩) d).get? id = some a →
      (s.rows d).get? id = some a ∨
        (a.storeFname = u.stored.storeFname ∧ a.content = u.content) := by
    intro d id a ha
    rw [Function.update_apply] at ha
    split at ha
    · next hd =>
        subst hd
        rw [Table.get?_insert] at ha
        split at ha
        · obtain rfl := Option.some.inj ha
          exact .inr ⟨rfl, rfl⟩
        · exact .inl ha
    · exact .inl ha
  have hdeletion : ∀ j E, (s.deletions j).map (Deletion.renamed u.stored.storeFname) = some E →
      ∃ D, s.deletions j = some D ∧ E = D.renamed u.stored.storeFname := by
    intro j E hE
    obtain ⟨D, hD, rfl⟩ := Option.map_eq_some_iff.mp hE
    exact ⟨D, hD, rfl⟩
  have hcommitted : Sound digest
      { s with
        rows := Function.update s.rows u.db ((s.rows u.db).insert
          ⟨u.stored.storeFname, u.stored.checksum, u.stored.size, u.content⟩)
        deletions := fun j => (s.deletions j).map (Deletion.renamed u.stored.storeFname) } := by
    refine ⟨?_, ?_, h.uploadName, h.uploadFile, h.inodes, ?_, ?_, ?_, ?_, ?_⟩
    · intro d id a ha
      rcases hrow d id a ha with hold | ⟨hn, hc⟩
      · exact h.rowName d id a hold
      · rw [hn, hc]
        exact h.uploadName k u hu
    · intro d id a ha
      rcases hrow d id a ha with hold | ⟨hn, hc⟩
      · exact h.rowFile d id a hold
      · rw [hn, hc]
        exact h.uploadFile k u hu
    · intro j E hE p hp
      obtain ⟨D, hD, rfl⟩ := hdeletion j E hE
      exact h.takenOld j D hD p hp.1
    · intro j E hE p hp
      obtain ⟨D, hD, rfl⟩ := hdeletion j E hE
      obtain ⟨hnot, hpath⟩ := h.takenName j D hD p hp.1
      refine ⟨?_, hpath⟩
      rintro ⟨d, id, a, ha, hn⟩
      rcases hrow d id a ha with hold | ⟨hname, -⟩
      · exact hnot ⟨d, id, a, hold, hn⟩
      · exact hp.2 (hn.symm.trans hname)
    · intro j E hE p hp hf
      obtain ⟨D, hD, rfl⟩ := hdeletion j E hE
      exact h.pending j D hD p hp.1 hf
    · intro j E hE n ns refs hb hr i hi
      obtain ⟨D, hD, rfl⟩ := hdeletion j E hE
      exact h.counted j D hD n ns refs hb hr i hi.1
    · intro j E hE hdel
      obtain ⟨D, hD, rfl⟩ := hdeletion j E hE
      exact h.undeleted j D hD hdel
  apply hcommitted.setUpload
  intro v hv
  cases hv

lemma countOf_eq_zero {d : δ} (h : ¬ Named s.rows n) : countOf (s.rows d) n = 0 := by
  unfold countOf
  rw [List.length_eq_zero_iff, List.filter_eq_nil_iff]
  intro r hr heq
  exact h ⟨d, r.1, r.2, Table.get?_eq_some_iff.mpr hr, beq_iff_eq.mp heq⟩

lemma Sound.count (h : Sound digest s) {ns : List String} (hD : s.deletions k = some D)
    (hdel : D.deleted = true) (hblobs : D.blobs = n :: ns) :
    Sound digest (s.setDeletion k (some { D with refs := some (countOf (s.rows D.db) n) })) := by
  apply h.setDeletion
  intro E hE
  obtain rfl := Option.some.inj hE
  have hsound := h.deletion hD
  refine ⟨hsound.old, hsound.name, hsound.pending, ?_, ?_⟩
  · intro m ms refs hb hr i hi
    rw [hblobs, List.cons.injEq] at hb
    obtain ⟨rfl, -⟩ := hb
    rw [← Option.some.inj hr]
    exact countOf_eq_zero (hsound.name _ hi).1
  · intro hfalse
    rw [hdel] at hfalse
    cases hfalse

/-! ### Collecting -/

lemma files_gc (disk : Disk) (n : String) (refs : ℕ) (path : String) :
    (Filestore.gc disk n refs).files path =
      if refs = 0 ∧ path = pathFor n ∧ path ≠ "" then none else disk.files path := by
  unfold Filestore.gc
  split
  · next hrefs => rw [if_neg fun h => absurd h.1 (by omega)]
  next hrefs =>
  split
  · next hempty =>
      rw [if_neg]
      rintro ⟨-, rfl, hne⟩
      exact hne (String.isEmpty_iff.mp hempty)
  · next hempty =>
      dsimp only
      rw [Function.update_apply]
      by_cases hpath : path = pathFor n
      · rw [if_pos hpath, if_pos]
        refine ⟨by omega, hpath, ?_⟩
        rintro rfl
        exact hempty (String.isEmpty_iff.mpr hpath.symm)
      · rw [if_neg hpath, if_neg fun h => hpath h.2.1]

lemma files_gc_some {disk : Disk} {refs : ℕ} {path : String} {f : File}
    (h : (Filestore.gc disk n refs).files path = some f) : disk.files path = some f := by
  rw [files_gc] at h
  split at h
  · cases h
  · exact h

lemma nextInode_gc (disk : Disk) (n : String) (refs : ℕ) :
    (Filestore.gc disk n refs).nextInode = disk.nextInode := by
  unfold Filestore.gc
  split
  · rfl
  · split
    · rfl
    · rfl

lemma Sound.gc (h : Sound digest s) {ns : List String} {refs : ℕ} (hD : s.deletions k = some D)
    (hblobs : D.blobs = n :: ns) (hrefs : D.refs = some refs)
    (hfree : refs = 0 → ¬ Named s.rows n ∧ ∀ j u, s.uploads j = some u → u.stored.storeFname ≠ n) :
    Sound digest (State.setDeletion { s with disk := Filestore.gc s.disk n refs } k
      (some { D with blobs := ns, refs := none })) := by
  -- what is still needed is not the file collected
  have hholds : ∀ {m c}, pathFor m ≠ "" → (refs = 0 → m ≠ n) → Holds s.disk m c →
      Holds (Filestore.gc s.disk n refs) m c := by
    rintro m c hm hne ⟨f, hf, hc⟩
    refine ⟨f, ?_, hc⟩
    rw [files_gc, if_neg]
    · exact hf
    · rintro ⟨hzero, hpath, -⟩
      exact hne hzero (pathFor_injective hpath hm)
  have hcollected : Sound digest { s with disk := Filestore.gc s.disk n refs } := by
    refine ⟨h.rowName, ?_, h.uploadName, ?_, ?_, ?_, h.takenName, ?_, h.counted, h.undeleted⟩
    · intro d id a ha
      apply hholds (h.named_path ⟨d, id, a, ha, rfl⟩) ?_ (h.rowFile d id a ha)
      intro hzero hn
      exact (hfree hzero).1 ⟨d, id, a, ha, hn⟩
    · intro j u hu
      apply hholds ?_ (fun hzero => (hfree hzero).2 j u hu) (h.uploadFile j u hu)
      rw [h.uploadName j u hu]
      exact pathFor_storeFname_ne digest u.content
    · intro path f hf
      rw [nextInode_gc]
      exact h.inodes path f (files_gc_some hf)
    · intro j E hE p hp
      rw [nextInode_gc]
      exact h.takenOld j E hE p hp
    · rintro j E hE p hp ⟨f, hf, hinode⟩
      exact h.pending j E hE p hp ⟨f, files_gc_some hf, hinode⟩
  apply hcollected.setDeletion
  intro E hE
  obtain rfl := Option.some.inj hE
  have hsound := hcollected.deletion hD
  refine ⟨hsound.old, hsound.name, ?_, ?_, ?_⟩
  · rintro p hp ⟨f, hf, hinode⟩
    have hmem := hsound.pending p hp ⟨f, hf, hinode⟩
    rw [hblobs, List.mem_cons] at hmem
    rcases hmem with rfl | hmem
    · have hzero := hsound.counted _ ns refs hblobs hrefs p.2 hp
      rw [files_gc, if_pos ⟨hzero, rfl, (hsound.name p hp).2⟩] at hf
      cases hf
    · exact hmem
  · intro m ms r _ hr
    cases hr
  · intro _
    rfl

/-! ### Any step -/

lemma step_sound [DecidableEq δ] {e : Event δ} (h : Sound digest s) (hok : Careful digest s e)
    (hs : step digest s e = some s') : Sound digest s' := by
  cases e with
  | put k d content typeAllowed =>
      simp only [step] at hs
      split at hs
      · cases hs
      split at hs
      · obtain rfl := Option.some.inj hs
        exact h
      next hvalid =>
        rw [not_or, not_or, not_lt, Bool.not_eq_false] at hvalid
        obtain ⟨hput, hholds⟩ := h.put (hok hvalid.1 hvalid.2.1 hvalid.2.2)
        have hname : (Filestore.put digest s.disk content).2.storeFname =
            storeFname digest content := by
          rw [put_eq]
        obtain rfl := Option.some.inj hs
        apply hput.setUpload
        intro v hv
        obtain rfl := Option.some.inj hv
        refine ⟨hname, ?_⟩
        rw [hname]
        exact hholds
  | insert k =>
      simp only [step] at hs
      split at hs
      · next u hu =>
          split at hs
          · cases hs
          · obtain rfl := Option.some.inj hs
            apply h.setUpload
            intro v hv
            obtain rfl := Option.some.inj hv
            exact ⟨h.uploadName k u hu, h.uploadFile k u hu⟩
      · cases hs
  | commit k =>
      simp only [step] at hs
      split at hs
      · next u hu =>
          split at hs
          · obtain rfl := Option.some.inj hs
            exact h.commit hu
          · cases hs
      · cases hs
  | rollback k =>
      obtain ⟨u, -, rfl⟩ := Option.map_eq_some_iff.mp hs
      apply h.setUpload
      intro v hv
      cases hv
  | read k d ids =>
      simp only [step] at hs
      split at hs
      · cases hs
      split at hs
      · obtain rfl := Option.some.inj hs
        exact h
      · obtain rfl := Option.some.inj hs
        apply h.setDeletion
        intro E hE
        obtain rfl := Option.some.inj hE
        -- nothing is taken and nothing is counted yet
        refine ⟨?_, ?_, ?_, ?_, fun _ => rfl⟩
        · intro p hp
          cases hp
        · intro p hp
          cases hp
        · intro p hp
          cases hp
        · intro n ns refs _ hr
          cases hr
  | delete k permits =>
      simp only [step] at hs
      split at hs
      · next D hD =>
          split at hs
          · cases hs
          · next hdel =>
              obtain rfl := Option.some.inj hs
              exact h.delete hD (Bool.not_eq_true _ ▸ hdel) (hok D hD)
      · cases hs
  | count k =>
      simp only [step] at hs
      split at hs
      · next D hD =>
          split at hs
          · next n ns hdel hblobs _ =>
              obtain rfl := Option.some.inj hs
              exact h.count hD hdel hblobs
          · cases hs
      · cases hs
  | gc k =>
      simp only [step] at hs
      split at hs
      · next D hD =>
          split at hs
          · next n ns refs hblobs hrefs =>
              obtain rfl := Option.some.inj hs
              apply h.gc hD hblobs hrefs
              intro hzero
              subst hzero
              exact hok D n ns hD hblobs hrefs
          · cases hs
      · cases hs
  | leave k =>
      obtain ⟨D, -, rfl⟩ := Option.map_eq_some_iff.mp hs
      apply h.setDeletion
      intro E hE
      cases hE

end Steps

/-! ### Runs -/

/-- Databases and a filestore with nothing in flight, where every row has its file. -/
structure Start (digest : Digest) (δ : Type*) where
  rows : δ → Table Attachment
  disk : Disk
  named : ∀ d id a, (rows d).get? id = some a → a.storeFname = storeFname digest a.content
  filed : ∀ d id a, (rows d).get? id = some a → Holds disk a.storeFname a.content
  inodes : ∀ path f, disk.files path = some f → f.inode < disk.nextInode

def Start.state {digest : Digest} (s : Start digest δ) : State δ :=
  ⟨s.disk, s.rows, fun _ => none, fun _ => none⟩

lemma Start.sound {digest : Digest} (s : Start digest δ) : Sound digest s.state := by
  refine ⟨s.named, s.filed, ?_, ?_, s.inodes, ?_, ?_, ?_, ?_, ?_⟩ <;> · intro _ _ h; cases h

/-- **A file outlives every attachment that needs it, and no longer, as long as
every step is careful**: no other content has the name that is put, every file
whose last row is deleted was among the names read, and a file is collected when
no row of any tenant and no upload in flight names it. -/
theorem files_outlive [DecidableEq δ] (digest : Digest) (s : Start digest δ) :
    (∀ s', Runs.Reaches (step digest) (Careful digest) s.state s' → Kept s') ∧
      ∀ s', Runs.Reaches (step digest) (Careful digest) s.state s' → Released s' := by
  have hlaw : ∀ s', Runs.Reaches (step digest) (Careful digest) s.state s' →
      Kept s' ∧ Released s' := by
    intro s' hrun
    exact (hrun.invariant (fun _ _ _ hs hok hstep => step_sound hs hok hstep) s.sound).law
  exact ⟨fun s' hrun => (hlaw s' hrun).1, fun s' hrun => (hlaw s' hrun).2⟩

/-- SHA-256 as it is of `"a"`. -/
def sha256OfA : Digest := fun _ =>
  [0xca, 0x97, 0x81, 0x12, 0xca, 0x1b, 0xbd, 0xca, 0xfa, 0xc2, 0x31, 0xb3, 0x9a, 0x23, 0xdc, 0x4d,
    0xa7, 0x86, 0xef, 0xf8, 0x14, 0x7c, 0x4e, 0x72, 0xb9, 0x80, 0x77, 0x85, 0xaf, 0xee, 0x48, 0xbb]

/-- Two tenants without attachments. -/
def noAttachments : Start sha256OfA Bool where
  rows := fun _ => Table.empty
  disk := ⟨fun _ => none, 0⟩
  named := by
    intro d id a h
    cases h
  filed := by
    intro d id a h
    cases h
  inodes := by
    intro path f h
    cases h

/-- Both tenants store `"a"`, and one deletes its attachment. -/
def sharedFile : List (Event Bool) :=
  [.put 0 false [0x61] true, .insert 0, .commit 0, .put 1 true [0x61] true, .insert 1, .commit 1,
    .read 0 false [1], .delete 0 fun _ _ => true, .count 0, .gc 0]

/-- The row either of them stored. -/
def aRow : Attachment :=
  ⟨storeFname sha256OfA [0x61], sha256Hex sha256OfA [0x61], 1, [0x61]⟩

/-- The count of one tenant's rows does not see the other's. -/
theorem other_tenant_loses_file : ¬ ∀ (digest : Digest) (s : Start digest Bool) (s' : State Bool),
    Runs.Reaches (step digest) (fun _ _ => True) s.state s' → Kept s' ∧ Released s' := by
  intro h
  obtain ⟨s', hexecute, hrow, hgone⟩ : ∃ s',
      Runs.execute (step sha256OfA) (fun _ _ => True) sharedFile noAttachments.state = some s' ∧
        (s'.rows true).get? 1 = some aRow ∧
        (s'.disk.files (pathFor aRow.storeFname)).map File.content ≠ some aRow.content :=
    ⟨_, rfl, rfl, by decide +kernel⟩
  exact hgone ((h sha256OfA noAttachments s' (Runs.reaches_of_execute hexecute)).1 true 1 aRow hrow)

end AttachmentRuns

end CErp
