import Cartridge.Proofs.Image.ByteOrder
import Cartridge.Proofs.Result
import Mathlib.Data.List.Forall2

/-!
# Names of files

A configuration names the files of an image and does nothing else. The names are given while
the file table is read, but where the table ends does not depend on them. So the images that
one dump gives with two configurations differ at most in the names of their files.
-/
namespace Cartridge.Image

namespace FileRecord

/-- Records of one file that differ at most in its name. -/
structure SameRanges (r r' : FileRecord) : Prop where
  vstart : r.vstart = r'.vstart
  vend : r.vend = r'.vend
  pstart : r.pstart = r'.pstart
  pend : r.pend = r'.pend

variable {r r' : FileRecord}

lemma SameRanges.exists_name (h : r.SameRanges r') : ∃ name, r' = { r with name } := by
  obtain ⟨vstart, vend, pstart, pend, name⟩ := r
  obtain ⟨vstart', vend', pstart', pend', name'⟩ := r'
  obtain ⟨rfl, rfl, rfl, rfl⟩ := h
  exact ⟨name', rfl⟩

/-- The record with the name that belongs to its virtual start. -/
def named (name : ℕ → String) (r : FileRecord) : FileRecord := { r with name := name r.vstart }

lemma sameRanges_named (name name' : ℕ → String) (r : FileRecord) :
    (r.named name).SameRanges (r.named name') := ⟨rfl, rfl, rfl, rfl⟩

lemma named_eq_self {name : ℕ → String} (h : r.name = name r.vstart) : r.named name = r := by
  rw [named, ← h]

lemma name_of_read? {bytes : Bytes} {offset : ℕ} (h : read? bytes offset = some r) :
    r.name = "" := by
  simp only [read?, bind, Option.bind_eq_some_iff, Option.some.injEq] at h
  obtain ⟨_, _, _, _, _, _, _, _, rfl⟩ := h
  rfl

end FileRecord

open FileRecord (SameRanges)

/-- The name that a file has in an image with a configuration or none. -/
def fileName (config : Option Config.Tree) (vstart : ℕ) : String :=
  (config.bind (nameOf? · vstart)).getD ""

/-- Up to `count` records and before a blank one behind another, each named as it is read. -/
def namedRecords (name : ℕ → String) : (behind : Bool) → (count : ℕ) → Bytes → List FileRecord
  | _, 0, _ => []
  | behind, count + 1, bytes =>
    match FileRecord.read? bytes 0 with
    | none => []
    | some record =>
      if record.isBlank && behind then []
      else record.named name :: namedRecords name true count (bytes.drop FileRecord.size)

lemma namedRecords_behind (name : ℕ → String) (count : ℕ) (bytes : Bytes) :
    namedRecords name true count bytes =
      ((records count bytes).takeWhile fun r => !r.isBlank).map (FileRecord.named name) := by
  induction count generalizing bytes with
  | zero => rfl
  | succ count ih =>
    rw [namedRecords, records]
    cases FileRecord.read? bytes 0 with
    | none => rfl
    | some record =>
      simp only [Bool.and_true, ih, List.takeWhile_cons]
      cases record.isBlank <;> rfl

/-- The records may as well be named after they were read. -/
lemma namedRecords_eq (name : ℕ → String) (count : ℕ) (bytes : Bytes) :
    namedRecords name false count bytes =
      (beforeBlank (records count bytes)).map (FileRecord.named name) := by
  cases count with
  | zero => rfl
  | succ count =>
    rw [namedRecords, records]
    cases FileRecord.read? bytes 0 with
    | none => rfl
    | some record => simp [namedRecords_behind, beforeBlank]

/-- How many records are read, and where the table stops, is the same for all names. -/
lemma forall₂_namedRecords (name name' : ℕ → String) (behind : Bool) (count : ℕ)
    (bytes : Bytes) :
    List.Forall₂ SameRanges (namedRecords name behind count bytes)
      (namedRecords name' behind count bytes) := by
  induction count generalizing behind bytes with
  | zero => exact .nil
  | succ count ih =>
    rw [namedRecords, namedRecords]
    cases FileRecord.read? bytes 0 with
    | none => exact .nil
    | some record =>
      dsimp only
      split
      · exact .nil
      · exact .cons (FileRecord.sameRanges_named name name' record) (ih true _)

lemma name_of_mem_records {r : FileRecord} {count : ℕ} {bytes : Bytes}
    (h : r ∈ records count bytes) : r.name = "" := by
  induction count generalizing bytes with
  | zero => cases h
  | succ count ih =>
    rw [records] at h
    split at h
    · cases h
    · next record hread =>
      rcases List.mem_cons.mp h with rfl | hmem
      · exact FileRecord.name_of_read? hread
      · exact ih hmem

lemma mem_of_mem_beforeBlank {r : FileRecord} {files : List FileRecord}
    (h : r ∈ beforeBlank files) : r ∈ files := by
  cases files with
  | nil => exact h
  | cons first rest =>
    rcases List.mem_cons.mp h with rfl | hmem
    · exact List.mem_cons_self
    · exact List.mem_cons_of_mem _ ((List.takeWhile_sublist _).mem hmem)

variable {dump : Bytes} {image image' : Image}

/-- The image with the names of a configuration or with none. -/
def withConfig (image : Image) (config : Option Config.Tree) : Image :=
  match config with
  | some config => image.configure config
  | none => image

lemma load_eq_withConfig (configOf : Release → Option Config.Tree) :
    load dump configOf = (ofBytes dump).map fun image =>
      image.withConfig (configOf image.release) :=
  load_eq configOf

lemma exists_records_of_readTable {bytes : Bytes} {start : ℕ} {files : List FileRecord}
    (h : readTable bytes start = .ok files) :
    ∃ count, files = beforeBlank (records count (bytes.drop start)) := by
  unfold readTable at h
  dsimp only at h
  split at h
  · cases h
  · next position record htable =>
    split_ifs at h
    cases h
    exact ⟨_, rfl⟩

/-- The files of an image are those that are named while the table is read, of which so many
records are read whatever the names. -/
theorem exists_files_withConfig (h : ofBytes dump = .ok image) :
    ∃ count, ∀ config, (image.withConfig config).files =
      namedRecords (fileName config) false count
        (image.bytes.drop (image.magicOffset + Release.blockSize)) := by
  obtain ⟨count, hfiles⟩ := exists_records_of_readTable (readFrom_of_ofBytes h).readTable_eq
  refine ⟨count, fun config => ?_⟩
  rw [namedRecords_eq, ← hfiles]
  cases config with
  | some config => rfl
  | none =>
    have hnamed : ∀ r ∈ image.files, r.named (fileName none) = r := by
      intro r hr
      rw [hfiles] at hr
      exact FileRecord.named_eq_self (name_of_mem_records (mem_of_mem_beforeBlank hr))
    change image.files = image.files.map (FileRecord.named (fileName none))
    rw [List.map_congr_left hnamed, List.map_id']

/-- Images of one dump that differ at most in the names of their files and in their
configurations. -/
structure SameButNames (image image' : Image) : Prop where
  bytes : image.bytes = image'.bytes
  swapped : image.swapped = image'.swapped
  magicOffset : image.magicOffset = image'.magicOffset
  release : image.release = image'.release
  header : image.header = image'.header
  files : List.Forall₂ SameRanges image.files image'.files

lemma sameButNames_withConfig (h : ofBytes dump = .ok image) (config config' : Option Config.Tree) :
    (image.withConfig config).SameButNames (image.withConfig config') := by
  obtain ⟨count, hfiles⟩ := exists_files_withConfig h
  have hforall : List.Forall₂ SameRanges (image.withConfig config).files
      (image.withConfig config').files := by
    rw [hfiles, hfiles]
    exact forall₂_namedRecords _ _ false count _
  cases config <;> cases config' <;> exact ⟨rfl, rfl, rfl, rfl, rfl, hforall⟩

end Cartridge.Image
