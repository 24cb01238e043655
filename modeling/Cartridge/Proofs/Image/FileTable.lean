import Cartridge.Proofs.Image.Records
import Mathlib.Data.List.TakeWhile

/-!
# File tables

The file table of an image is found by the record that it has for itself, and this record tells
how far the table goes. The files are then the records from the start of the table on, one after
another, up to the first that begins behind this extent, does not lie in the image or is blank
behind another one.
-/
namespace Cartridge.Image

open Bytes (FirstAt)
open FileRecord (size SameRanges)

/-- The record of the file table itself: the first record of the table whose physical range
begins where the table starts. -/
abbrev SelfAt (bytes : Bytes) (start : ℕ) : ℕ → FileRecord → Prop := PointsAt bytes start start

/-- The files are the records that stand one behind the other from `start` on, as far as they
begin before `stop` and lie in the bytes, up to a blank one behind another. -/
structure Listing (bytes : Bytes) (start stop : ℕ) (files : List FileRecord) : Prop where
  stands : ∀ (i : ℕ) (record : FileRecord), files[i]? = some record →
    record.StandsAt bytes (start + i * size)
  begins : ∀ i < files.length, start + i * size < stop
  blank : ∀ (i : ℕ) (record : FileRecord), files[i]? = some record → record.isBlank → i = 0
  ends : stop ≤ start + files.length * size ∨
    bytes.length < start + (files.length + 1) * size ∨
      0 < files.length ∧ ∃ record : FileRecord,
        record.isBlank ∧ record.StandsAt bytes (start + files.length * size)

variable {bytes dump : Bytes} {start stop extent index : ℕ} {record self : FileRecord}
  {files : List FileRecord}

lemma isPrefix_beforeBlank (files : List FileRecord) : beforeBlank files <+: files := by
  cases files with
  | nil => exact List.prefix_rfl
  | cons first rest => exact List.prefix_cons_inj first |>.mpr (List.takeWhile_prefix _)

lemma getElem?_of_beforeBlank {i : ℕ} (h : (beforeBlank files)[i]? = some record) :
    files[i]? = some record := by
  obtain ⟨hlt, rfl⟩ := List.getElem?_eq_some_iff.mp h
  exact List.prefix_iff_getElem?.mp (isPrefix_beforeBlank files) i hlt

lemma eq_zero_of_isBlank {i : ℕ} (h : (beforeBlank files)[i]? = some record)
    (hblank : record.isBlank) : i = 0 := by
  cases files with
  | nil => simp [beforeBlank] at h
  | cons first rest =>
    cases i with
    | zero => rfl
    | succ i =>
      rw [beforeBlank, List.getElem?_cons_succ] at h
      have hnot := List.mem_takeWhile_imp (List.mem_of_getElem? h)
      simp [hblank] at hnot

lemma not_of_getElem?_takeWhile {p : FileRecord → Bool}
    (h : files[(files.takeWhile p).length]? = some record) : ¬ p record := by
  induction files with
  | nil => simp at h
  | cons first rest ih =>
    by_cases hfirst : p first
    · simp only [List.takeWhile_cons, hfirst, if_true, List.length_cons,
        List.getElem?_cons_succ] at h
      exact ih h
    · simp [hfirst] at h
      rwa [← h]

lemma isBlank_of_getElem? (h : files[(beforeBlank files).length]? = some record) :
    0 < (beforeBlank files).length ∧ record.isBlank := by
  cases files with
  | nil => simp at h
  | cons first rest =>
    rw [beforeBlank, List.length_cons, List.getElem?_cons_succ] at h
    exact ⟨Nat.succ_pos _, by simpa using not_of_getElem?_takeWhile h⟩

lemma lt_recordCount_iff {i : ℕ} : i < recordCount extent ↔ i * size < extent := by
  rw [recordCount, size]
  omega

lemma getElem?_tableRecords (i : ℕ) :
    (records (recordCount extent) (bytes.drop start))[i]? =
      if i * size < extent then FileRecord.read? bytes (start + i * size) else none := by
  rw [getElem?_records, FileRecord.read?_drop]
  simp only [lt_recordCount_iff]

lemma standsAt_of_getElem? {i : ℕ}
    (h : (records (recordCount extent) (bytes.drop start))[i]? = some record) :
    i * size < extent ∧ record.StandsAt bytes (start + i * size) := by
  rw [getElem?_tableRecords] at h
  split at h
  · next hlt => exact ⟨hlt, (FileRecord.read?_eq_some_iff.mp h).1⟩
  · cases h

/-- What is read of a table with this extent is listed. -/
theorem listing_beforeBlank (bytes : Bytes) (start extent : ℕ) :
    Listing bytes start (start + extent)
      (beforeBlank (records (recordCount extent) (bytes.drop start))) where
  stands i record h := (standsAt_of_getElem? (getElem?_of_beforeBlank h)).2
  begins i hi := by
    have hget := getElem?_of_beforeBlank (List.getElem?_eq_getElem hi)
    exact Nat.add_lt_add_left (standsAt_of_getElem? hget).1 start
  blank i record := eq_zero_of_isBlank
  ends := by
    generalize hlength : (beforeBlank (records (recordCount extent) (bytes.drop start))).length = n
    cases hget : (records (recordCount extent) (bytes.drop start))[n]? with
    | none =>
      rw [getElem?_tableRecords] at hget
      split at hget
      · rw [FileRecord.read?_eq_none_iff] at hget
        rw [Nat.add_mul]
        omega
      · omega
    | some record =>
      obtain ⟨hpos, hblank⟩ := isBlank_of_getElem? (by rw [hlength]; exact hget)
      exact .inr (.inr ⟨by omega, record, hblank, (standsAt_of_getElem? hget).2⟩)

lemma isBlank_of_sameRanges {r r' : FileRecord} (h : r.SameRanges r') : r'.isBlank = r.isBlank := by
  obtain ⟨name, rfl⟩ := h.exists_name
  rfl

/-- The names of the files do not matter. -/
theorem Listing.map (h : Listing bytes start stop files) {f : FileRecord → FileRecord}
    (hf : ∀ r : FileRecord, r.SameRanges (f r)) : Listing bytes start stop (files.map f) := by
  have hget : ∀ {i : ℕ} {record : FileRecord}, (files.map f)[i]? = some record →
      ∃ r : FileRecord, files[i]? = some r ∧ r.SameRanges record := by
    intro i record hi
    rw [List.getElem?_map, Option.map_eq_some_iff] at hi
    obtain ⟨r, hr, rfl⟩ := hi
    exact ⟨r, hr, hf r⟩
  refine ⟨?_, by simpa using h.begins, ?_, by simpa using h.ends⟩
  · intro i record hi
    obtain ⟨r, hr, hsame⟩ := hget hi
    exact (h.stands i r hr).of_sameRanges hsame
  · intro i record hi hblank
    obtain ⟨r, hr, hsame⟩ := hget hi
    exact h.blank i r hr (by rw [← isBlank_of_sameRanges hsame, hblank])

lemma Listing.withConfig {image : Image} (h : Listing bytes start stop image.files)
    (config : Option Config.Tree) : Listing bytes start stop (image.withConfig config).files := by
  cases config with
  | none => exact h
  | some config => exact h.map fun r => ⟨rfl, rfl, rfl, rfl⟩

/-- A file is plain where its physical range has no end. -/
lemma isCompressed_or_isMissing (r : FileRecord) :
    (r.isCompressed || r.isMissing) = (r.pend != 0) := by
  by_cases hzero : r.pend = 0
  · simp [FileRecord.isCompressed, FileRecord.isMissing, FileRecord.absent, hzero]
  · cases hmissing : r.isMissing <;> simp [FileRecord.isCompressed, hmissing, hzero]

/-- How the table is read once its own record is found. -/
theorem readTable_of_selfAt (h : SelfAt bytes start index self) :
    readTable bytes start =
      if self.pend ≠ 0 then .error (.image (.bad (.fileTableNotPlain (start + index * size))))
      else if bytes.length < start + self.virtualSize then
        .error (.image (.bad (.fileTableTooLong start (start + self.virtualSize))))
      else .ok (beforeBlank (records (recordCount self.virtualSize) (bytes.drop start))) := by
  simp only [readTable, h.tableRecord?, isCompressed_or_isMissing, bne_iff_ne]
  rfl

theorem readTable_of_not_selfAt (h : ∀ index self, ¬ SelfAt bytes start index self) :
    readTable bytes start = .error (.image (.bad (.noFileTable start))) := by
  simp only [readTable, tableRecord?_eq_none h]

/-- The image that is read from bytes in order, with a file table. -/
def withFiles (bytes : Bytes) (swapped : Bool) (magicOffset : ℕ) (files : List FileRecord) :
    Image where
  bytes := bytes
  swapped := swapped
  magicOffset := magicOffset
  release := .ofBlock (bytes.drop magicOffset)
  header := Header.ofBytes? bytes
  files := files
  config := none

/-- Once the bytes are in order, an image is loaded exactly as its file table is read. -/
lemma load_eq_readTable {swapped : Bool} {offset : ℕ} (h : normalize dump = .ok (bytes, swapped))
    (hmagic : bytes.FirstAt magic offset) (configOf : Release → Option Config.Tree) :
    load dump configOf = (readTable bytes (offset + Release.blockSize)).map fun files =>
      (withFiles bytes swapped offset files).withConfig
        (configOf (.ofBlock (bytes.drop offset))) := by
  rw [load_eq_withConfig, ofBytes_eq h hmagic]
  cases readTable bytes (offset + Release.blockSize) <;> rfl

/-- An image is loaded where its table has a record of its own without a physical end, whose
extent lies in the image. -/
lemma load_of_selfAt {swapped : Bool} {offset : ℕ} (h : normalize dump = .ok (bytes, swapped))
    (hmagic : bytes.FirstAt magic offset) (hstart : offset + Release.blockSize = start)
    (hself : SelfAt bytes start index self) (hpend : self.pend = 0)
    (hle : start + self.virtualSize ≤ bytes.length) (configOf : Release → Option Config.Tree) :
    load dump configOf = .ok ((withFiles bytes swapped offset
      (beforeBlank (records (recordCount self.virtualSize) (bytes.drop start)))).withConfig
        (configOf (.ofBlock (bytes.drop offset)))) := by
  rw [load_eq_readTable h hmagic, hstart, readTable_of_selfAt hself, if_neg (not_not.mpr hpend),
    if_neg (Nat.not_lt.mpr hle)]
  rfl

def tableStart (image : Image) : ℕ := image.magicOffset + Release.blockSize

/-- How the file table at `start` decides over an image in order: it is refused where the table
has no record of its own, or this record has a physical end or goes past the image, and else it
is loaded with the files that the extent of this record lists. -/
structure TableDecides (bytes : Bytes) (start : ℕ) (result : Except Cartridge.Error Image) :
    Prop where
  /-- The search for the record of the table ends after no more records than the bytes hold. -/
  search_ends : tableRecordWithin? bytes start (bytes.length / size + 1) start =
    some (tableRecord? start start (bytes.drop start))
  notFound : (∀ index self, ¬ SelfAt bytes start index self) →
    result = .error (.image (.bad (.noFileTable start)))
  notPlain : ∀ index self, SelfAt bytes start index self → self.pend ≠ 0 →
    result = .error (.image (.bad (.fileTableNotPlain (start + index * size))))
  tooLong : ∀ index self, SelfAt bytes start index self → self.pend = 0 →
    bytes.length < start + self.virtualSize →
      result = .error (.image (.bad (.fileTableTooLong start (start + self.virtualSize))))
  ok : ∀ index self, SelfAt bytes start index self → self.pend = 0 →
    start + self.virtualSize ≤ bytes.length →
      ∃ image, result = .ok image ∧ image.bytes = bytes ∧ image.tableStart = start ∧
        Listing bytes start (start + self.virtualSize) image.files

/-- Once the bytes are in order, the file table decides. -/
theorem tableDecides_load {swapped : Bool} {offset : ℕ}
    (h : normalize dump = .ok (bytes, swapped)) (hmagic : bytes.FirstAt magic offset)
    (configOf : Release → Option Config.Tree) :
    TableDecides bytes (offset + Release.blockSize) (load dump configOf) where
  search_ends := by
    apply tableRecordWithin?_eq_some (Nat.succ_pos _)
    rw [size]
    omega
  notFound hnone := by
    rw [load_eq_readTable h hmagic, readTable_of_not_selfAt hnone]
    rfl
  notPlain index self hself hpend := by
    rw [load_eq_readTable h hmagic, readTable_of_selfAt hself, if_pos hpend]
    rfl
  tooLong index self hself hpend hlong := by
    rw [load_eq_readTable h hmagic, readTable_of_selfAt hself, if_neg (not_not.mpr hpend),
      if_pos hlong]
    rfl
  ok index self hself hpend hle := by
    refine ⟨_, load_of_selfAt h hmagic rfl hself hpend hle configOf, ?_, ?_, ?_⟩
    · cases configOf (.ofBlock (bytes.drop offset)) <;> rfl
    · cases configOf (.ofBlock (bytes.drop offset)) <;> rfl
    · exact Listing.withConfig (listing_beforeBlank bytes _ self.virtualSize) _

/-- A cartridge that holds a build block without a date, and these records behind it. -/
def dumpOf (table : List FileRecord) : Bytes :=
  magic ++ List.replicate 42 0 ++ table.flatMap FileRecord.toBytes

lemma firstAt_dumpOf (table : List FileRecord) : (dumpOf table).FirstAt magic 0 := by
  rw [Bytes.firstAt_zero_iff, dumpOf, List.append_assoc]
  exact List.prefix_append _ _

lemma normalize_dumpOf (table : List FileRecord) :
    normalize (dumpOf table) = .ok (dumpOf table, false) :=
  normalize_of_occursAt (firstAt_dumpOf table).occurs

/-- A table behind a blank record that declares an extent of three records and a half. -/
def halvedTable : List FileRecord := [
  { vstart := 0x00, vend := 0x00, pstart := 0x00, pend := 0 },
  { vstart := 0x30, vend := 0x68, pstart := 0x30, pend := 0 },
  { vstart := 0x68, vend := 0x70, pstart := 0x00, pend := 0 },
  { vstart := 0x70, vend := 0x78, pstart := 0x08, pend := 0 },
  { vstart := 0x78, vend := 0x80, pstart := 0x10, pend := 0 }]

lemma selfAt_halvedTable : SelfAt (dumpOf halvedTable) 0x30 1
    { vstart := 0x30, vend := 0x68, pstart := 0x30, pend := 0 } :=
  pointsAt_of_read? (by decide +kernel) rfl (by decide +kernel)

/-- The blank record in front is listed with what follows it. -/
theorem tableDecides_load_halved :
    normalize (dumpOf halvedTable) = .ok (dumpOf halvedTable, false) ∧
      (dumpOf halvedTable).FirstAt magic 0 ∧
      ∃ image, load (dumpOf halvedTable) (fun _ => none) = .ok image ∧
        image.bytes = dumpOf halvedTable ∧ Listing (dumpOf halvedTable) 0x30 0x68 image.files := by
  have hnormalize := normalize_dumpOf halvedTable
  have hmagic := firstAt_dumpOf halvedTable
  refine ⟨hnormalize, hmagic, ?_⟩
  obtain ⟨image, hload, hbytes, -, hlisting⟩ :=
    (tableDecides_load hnormalize hmagic fun _ => none).ok 1 _ selfAt_halvedTable rfl
      (by decide +kernel)
  exact ⟨image, hload, hbytes, hlisting⟩

lemma exists_selfAt_of_readTable (h : readTable bytes start = .ok files) :
    ∃ index self, SelfAt bytes start index self ∧
      Listing bytes start (start + self.virtualSize) files := by
  by_cases hself : ∃ index self, SelfAt bytes start index self
  · obtain ⟨index, self, hself⟩ := hself
    rw [readTable_of_selfAt hself] at h
    split_ifs at h
    cases h
    exact ⟨index, self, hself, listing_beforeBlank bytes start self.virtualSize⟩
  · push Not at hself
    rw [readTable_of_not_selfAt hself] at h
    cases h

theorem exists_listing_of_load {image : Image} {configOf : Release → Option Config.Tree}
    (h : load dump configOf = .ok image) :
    ∃ index self, SelfAt image.bytes image.tableStart index self ∧
      Listing image.bytes image.tableStart (image.tableStart + self.virtualSize) image.files := by
  rw [load_eq_withConfig, map_eq_ok] at h
  obtain ⟨plain, hplain, rfl⟩ := h
  obtain ⟨index, self, hself, hlisting⟩ :=
    exists_selfAt_of_readTable (readFrom_of_ofBytes hplain).readTable_eq
  have hconfig := hlisting.withConfig (configOf plain.release)
  generalize configOf plain.release = config at hconfig ⊢
  cases config <;> exact ⟨index, self, hself, hconfig⟩

lemma Listing.exists_of_lt (h : Listing bytes start stop files)
    (hself : self.StandsAt bytes (start + index * size)) (hlt : index < files.length) :
    ∃ record ∈ files, record.SameRanges self :=
  ⟨files[index], List.getElem_mem hlt,
    (h.stands index _ (List.getElem?_eq_getElem hlt)).sameRanges hself⟩

/-- No record behind the first file is blank up to the last one. -/
lemma Listing.not_isBlank (h : Listing bytes start stop files) {i : ℕ} (hpos : 0 < i)
    (hlt : i < files.length) (hstands : record.StandsAt bytes (start + i * size)) :
    ¬ record.isBlank := by
  intro hblank
  have hfile := List.getElem?_eq_getElem hlt
  have hlisted := (h.stands i _ hfile).sameRanges hstands
  rw [isBlank_of_sameRanges hlisted] at hblank
  exact absurd (h.blank i _ hfile hblank) (by omega)

/-- The files go as far as the record of the table, where no blank record stops them: a blank record
points at the start of the image, which is not the start of the table. -/
lemma Listing.lt_length (h : Listing bytes start stop files) (hstart : start ≠ 0)
    (hself : SelfAt bytes start index self) (hstop : start + index * size < stop)
    (hnot : ∀ i, 0 < i → i < index → ∀ record : FileRecord,
      record.StandsAt bytes (start + i * size) → ¬ record.isBlank) : index < files.length := by
  by_contra hle
  have hmul : files.length * size ≤ index * size := Nat.mul_le_mul_right _ (by omega)
  have hlength := hself.stands.le_length
  rcases h.ends with hend | hend | ⟨hpos, record, hblank, hstands⟩
  · omega
  · rw [Nat.add_mul] at hend
    omega
  · rcases Nat.lt_or_eq_of_le (Nat.le_of_not_lt hle) with hlt | heq
    · exact hnot _ hpos hlt record hstands hblank
    · rw [heq] at hstands
      have hpoints : record.pstart = start :=
        (hstands.sameRanges hself.stands).pstart.trans hself.points
      simp only [FileRecord.isBlank, Bool.and_eq_true, beq_iff_eq] at hblank
      omega

/-- The record of the table is listed where the table goes so far, and no blank record is
between it and the first one. -/
theorem Listing.exists_sameRanges_iff (h : Listing bytes start stop files) (hstart : start ≠ 0)
    (hself : SelfAt bytes start index self) :
    (∃ record ∈ files, record.SameRanges self) ↔
      start + index * size < stop ∧ ∀ i, 0 < i → i < index → ∀ record : FileRecord,
        record.StandsAt bytes (start + i * size) → ¬ record.isBlank := by
  constructor
  · rintro ⟨record, hmem, hsame⟩
    obtain ⟨i, hi⟩ := List.mem_iff_getElem?.mp hmem
    have hle : index ≤ i := by
      by_contra hlt
      have hpoints : record.pstart = start := hsame.pstart.trans hself.points
      exact hself.first i (Nat.lt_of_not_le hlt) record (h.stands i record hi) hpoints
    obtain ⟨hlt, -⟩ := List.getElem?_eq_some_iff.mp hi
    exact ⟨h.begins index (by omega), fun j hpos hj _ => h.not_isBlank hpos (by omega)⟩
  · rintro ⟨hstop, hnot⟩
    exact h.exists_of_lt hself.stands (h.lt_length hstart hself hstop hnot)

/-- What the record of the table tells of the files of an image. -/
structure SelfDescribed (image : Image) (index : ℕ) (self : FileRecord) : Prop where
  selfAt : SelfAt image.bytes image.tableStart index self
  listing : Listing image.bytes image.tableStart (image.tableStart + self.virtualSize) image.files
  /-- It is one of the files exactly where it begins in the extent that it declares and no record
  between the first one and it is blank. -/
  listed_iff : (∃ record ∈ image.files, record.SameRanges self) ↔
    index * size < self.virtualSize ∧ ∀ i, 0 < i → i < index → ∀ record : FileRecord,
      record.StandsAt image.bytes (image.tableStart + i * size) → ¬ record.isBlank
  /-- Every file but the last has its record in this extent, and the last has it where the
  extent is one of whole records. -/
  within : ∀ i < image.files.length, i + 1 < image.files.length ∨ size ∣ self.virtualSize →
    (i + 1) * size ≤ self.virtualSize

/-- The files of every image that is loaded are described by the record of the table. -/
theorem exists_selfDescribed_of_load {image : Image} {configOf : Release → Option Config.Tree}
    (h : load dump configOf = .ok image) : ∃ index self, image.SelfDescribed index self := by
  obtain ⟨index, self, hself, hlisting⟩ := exists_listing_of_load h
  refine ⟨index, self, hself, hlisting, ?_, ?_⟩
  · have hstart : image.tableStart ≠ 0 := by
      rw [tableStart, Release.blockSize]
      omega
    rw [hlisting.exists_sameRanges_iff hstart hself, Nat.add_lt_add_iff_left]
  · rintro i hi (hnext | ⟨count, hcount⟩)
    · have := hlisting.begins _ hnext
      omega
    · have hbegins := hlisting.begins i hi
      rw [hcount] at hbegins ⊢
      simp only [size] at hbegins ⊢
      omega

lemma load_dumpOf {table : List FileRecord} (hself : SelfAt (dumpOf table) 0x30 index self)
    (hpend : self.pend = 0) (hle : 0x30 + self.virtualSize ≤ (dumpOf table).length)
    (hfiles : beforeBlank (records (recordCount self.virtualSize) ((dumpOf table).drop 0x30)) =
      files) :
    load (dumpOf table) (fun _ => none) = .ok (withFiles (dumpOf table) false 0 files) := by
  have hstart : 0 + Release.blockSize = 0x30 := rfl
  rw [load_of_selfAt (normalize_dumpOf table) (firstAt_dumpOf table) hstart hself hpend hle, hfiles]
  rfl

lemma load_halvedTable : load (dumpOf halvedTable) (fun _ => none) =
    .ok (withFiles (dumpOf halvedTable) false 0 (halvedTable.take 4)) :=
  load_dumpOf selfAt_halvedTable rfl (by decide +kernel) (by decide +kernel)

/-- The table whose extent is no multiple of the size of a record. -/
theorem exists_selfDescribed_of_load_halved :
    let image := withFiles (dumpOf halvedTable) false 0 (halvedTable.take 4)
    load (dumpOf halvedTable) (fun _ => none) = .ok image ∧
      ∃ index self, image.SelfDescribed index self :=
  ⟨load_halvedTable, exists_selfDescribed_of_load load_halvedTable⟩

/-- A table that has its own record behind a blank one. -/
def blankedTable : List FileRecord := [
  { vstart := 0x60, vend := 0x66, pstart := 0x00, pend := 0 },
  { vstart := 0x00, vend := 0x00, pstart := 0x00, pend := 0 },
  { vstart := 0x30, vend := 0x60, pstart := 0x30, pend := 0 }]

lemma selfAt_blankedTable : SelfAt (dumpOf blankedTable) 0x30 2
    { vstart := 0x30, vend := 0x60, pstart := 0x30, pend := 0 } :=
  pointsAt_of_read? (by decide +kernel) rfl (by decide +kernel)

lemma load_blankedTable : load (dumpOf blankedTable) (fun _ => none) =
    .ok (withFiles (dumpOf blankedTable) false 0 (blankedTable.take 1)) :=
  load_dumpOf selfAt_blankedTable rfl (by decide +kernel) (by decide +kernel)

/-- The record of a table need not be one of the files, nor need all files have their records in
the extent that it declares. -/
theorem not_listed_and_not_within :
    (∃ image self, load (dumpOf blankedTable) (fun _ => none) = .ok image ∧
      SelfAt image.bytes image.tableStart 2 self ∧
        ¬ ∃ record ∈ image.files, record.SameRanges self) ∧
    ∃ image self, load (dumpOf halvedTable) (fun _ => none) = .ok image ∧
      SelfAt image.bytes image.tableStart 1 self ∧
        ¬ ∀ i < image.files.length, (i + 1) * size ≤ self.virtualSize := by
  constructor
  · refine ⟨_, _, load_blankedTable, selfAt_blankedTable, ?_⟩
    rintro ⟨record, hmem, hsame⟩
    have hfirst : record = { vstart := 0x60, vend := 0x66, pstart := 0x00, pend := 0 } := by
      simpa [withFiles, blankedTable] using hmem
    subst hfirst
    exact absurd hsame.pstart (by decide)
  · refine ⟨_, _, load_halvedTable, selfAt_halvedTable, fun hwithin => ?_⟩
    exact absurd (hwithin 3 (by decide)) (by decide)

end Cartridge.Image
