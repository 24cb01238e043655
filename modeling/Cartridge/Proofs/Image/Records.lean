import Cartridge.Proofs.Bytes.Numbers
import Cartridge.Proofs.Image.Naming

/-!
# Records in the bytes

A record stands at an offset where its sixteen bytes do. Records that follow one another from
an offset on are read as long as they lie in the bytes. The first of them that points back at a
place is found by going on record by record, which ends with the bytes.
-/
namespace Cartridge

namespace Bytes

variable {bytes : Bytes}

lemma occursAt_append {first second : Bytes} {offset : ℕ} :
    bytes.OccursAt (first ++ second) offset ↔
      bytes.OccursAt first offset ∧ bytes.OccursAt second (offset + first.length) := by
  simp only [OccursAt, ← List.drop_drop]
  generalize bytes.drop offset = rest
  constructor
  · rintro ⟨tail, rfl⟩
    simp
  · rintro ⟨⟨tail, rfl⟩, hsecond⟩
    simpa using hsecond

lemma OccursAt.le_length {pattern : Bytes} {offset : ℕ} (h : bytes.OccursAt pattern offset)
    (hne : pattern ≠ []) : offset + pattern.length ≤ bytes.length := by
  have hlength := List.IsPrefix.length_le h
  have hpos := List.length_pos_of_ne_nil hne
  rw [List.length_drop] at hlength
  omega

theorem u32?_eq_some_iff {offset n : ℕ} :
    bytes.u32? offset = some n ↔ bytes.OccursAt (ofNat 4 n) offset ∧ n < 2 ^ 32 := by
  simp only [u32?, Option.map_eq_some_iff, slice?_eq_some, OccursAt]
  constructor
  · rintro ⟨part, ⟨hpart, hlength⟩, rfl⟩
    have hbytes : ofNat 4 (toNat part) = part := by rw [← hlength, ofNat_toNat]
    have hlt : toNat part < 256 ^ 4 := by rw [← hlength]; exact toNat_lt part
    refine ⟨?_, hlt⟩
    rw [hbytes, ← hpart]
    exact List.take_prefix _ _
  · rintro ⟨hoccurs, hlt⟩
    have htake := List.prefix_iff_eq_take.mp hoccurs
    rw [length_ofNat] at htake
    exact ⟨ofNat 4 n, ⟨htake.symm, length_ofNat 4 n⟩, toNat_ofNat hlt⟩

end Bytes

namespace Image

namespace FileRecord

/-- The bytes of the record stand at an offset, each bound in four of them. -/
structure StandsAt (r : FileRecord) (bytes : Bytes) (offset : ℕ) : Prop where
  occurs : bytes.OccursAt r.toBytes offset
  fits : ∀ bound ∈ [r.vstart, r.vend, r.pstart, r.pend], bound < 2 ^ 32

variable {r r' : FileRecord} {bytes : Bytes} {offset : ℕ}

@[simp] lemma length_toBytes (r : FileRecord) : r.toBytes.length = size := by simp [toBytes, size]

lemma occursAt_toBytes_iff : bytes.OccursAt r.toBytes offset ↔
    bytes.OccursAt (Bytes.ofNat 4 r.vstart) offset ∧
      bytes.OccursAt (Bytes.ofNat 4 r.vend) (offset + 4) ∧
        bytes.OccursAt (Bytes.ofNat 4 r.pstart) (offset + 8) ∧
          bytes.OccursAt (Bytes.ofNat 4 r.pend) (offset + 12) := by
  simp [toBytes, Bytes.occursAt_append, Nat.add_assoc]

/-- A record is read where it stands. Its name is not in the bytes. -/
theorem read?_eq_some_iff :
    read? bytes offset = some r ↔ r.StandsAt bytes offset ∧ r.name = "" := by
  obtain ⟨vstart, vend, pstart, pend, name⟩ := r
  simp only [read?, bind, Option.bind_eq_some_iff, Option.some.injEq, mk.injEq,
    Bytes.u32?_eq_some_iff]
  constructor
  · rintro ⟨vstart, ⟨h0, hlt0⟩, vend, ⟨h4, hlt4⟩, pstart, ⟨h8, hlt8⟩, pend, ⟨h12, hlt12⟩,
      rfl, rfl, rfl, rfl, rfl⟩
    exact ⟨⟨occursAt_toBytes_iff.mpr ⟨h0, h4, h8, h12⟩, by simp [hlt0, hlt4, hlt8, hlt12]⟩, rfl⟩
  · rintro ⟨⟨hoccurs, hfits⟩, rfl⟩
    obtain ⟨h0, h4, h8, h12⟩ := occursAt_toBytes_iff.mp hoccurs
    simp only [List.forall_mem_cons] at hfits
    obtain ⟨hlt0, hlt4, hlt8, hlt12, -⟩ := hfits
    exact ⟨vstart, ⟨h0, hlt0⟩, vend, ⟨h4, hlt4⟩, pstart, ⟨h8, hlt8⟩, pend, ⟨h12, hlt12⟩,
      rfl, rfl, rfl, rfl, rfl⟩

lemma StandsAt.le_length (h : r.StandsAt bytes offset) : offset + size ≤ bytes.length := by
  have hne : r.toBytes ≠ [] := by
    apply List.ne_nil_of_length_pos
    simp [size]
  simpa using h.occurs.le_length hne

lemma StandsAt.of_sameRanges (h : r.StandsAt bytes offset) (hsame : r.SameRanges r') :
    r'.StandsAt bytes offset := by
  obtain ⟨name, rfl⟩ := hsame.exists_name
  exact ⟨h.occurs, h.fits⟩

lemma sameRanges_unnamed (r : FileRecord) : r.SameRanges { r with name := "" } :=
  ⟨rfl, rfl, rfl, rfl⟩

lemma StandsAt.read? (h : r.StandsAt bytes offset) :
    read? bytes offset = some { r with name := "" } :=
  read?_eq_some_iff.mpr ⟨h.of_sameRanges r.sameRanges_unnamed, rfl⟩

lemma StandsAt.sameRanges (h : r.StandsAt bytes offset) (h' : r'.StandsAt bytes offset) :
    r.SameRanges r' := by
  have heq := h.read?.symm.trans h'.read?
  simp only [Option.some.injEq, mk.injEq, and_true] at heq
  exact ⟨heq.1, heq.2.1, heq.2.2.1, heq.2.2.2⟩

theorem read?_eq_none_iff : read? bytes offset = none ↔ bytes.length < offset + size := by
  constructor
  · intro hnone
    by_contra hle
    have hbound : ∀ k, k + 4 ≤ size → ∃ n, bytes.u32? (offset + k) = some n := by
      intro k hk
      rw [← Option.isSome_iff_exists, Bytes.isSome_u32?_iff]
      omega
    obtain ⟨vstart, h0⟩ := hbound 0 (by decide)
    obtain ⟨vend, h4⟩ := hbound 4 (by decide)
    obtain ⟨pstart, h8⟩ := hbound 8 (by decide)
    obtain ⟨pend, h12⟩ := hbound 12 (by decide)
    rw [Nat.add_zero] at h0
    simp [FileRecord.read?, h0, h4, h8, h12] at hnone
  · intro hlt
    cases hread : FileRecord.read? bytes offset with
    | none => rfl
    | some r =>
      have := length_of_read? hread
      omega

lemma read?_drop (bytes : Bytes) (n offset : ℕ) :
    read? (bytes.drop n) offset = read? bytes (n + offset) := by
  simp only [read?, Bytes.u32?, Bytes.slice?_drop, Nat.add_assoc]

end FileRecord

open Bytes (add_one_mul_add)
open FileRecord (size)

variable {bytes : Bytes}

/-- The records are read one by one until enough of them are there or the bytes end. -/
theorem getElem?_records (count i : ℕ) (bytes : Bytes) :
    (records count bytes)[i]? = if i < count then FileRecord.read? bytes (i * size) else none := by
  induction count generalizing i bytes with
  | zero => simp [records]
  | succ count ih =>
    rw [records]
    cases hread : FileRecord.read? bytes 0 with
    | none =>
      have hlater : FileRecord.read? bytes (i * size) = none := by
        rw [FileRecord.read?_eq_none_iff] at hread ⊢
        omega
      simp [hlater]
    | some record =>
      cases i with
      | zero => simp [hread]
      | succ i =>
        rw [List.getElem?_cons_succ, ih, FileRecord.read?_drop]
        simp [Nat.add_mul, Nat.add_comm]

/-- The search for the first record from `offset` on that points back at `start`, cut off after
so many records: what the search ends with, or nothing when it has not ended yet. -/
def tableRecordWithin? (bytes : Bytes) (start : ℕ) :
    (steps offset : ℕ) → Option (Option (ℕ × FileRecord))
  | 0, _ => none
  | steps + 1, offset =>
    match FileRecord.read? bytes offset with
    | none => some none
    | some record =>
      if record.pstart = start then some (some (offset, record))
      else tableRecordWithin? bytes start steps (offset + size)

lemma tableRecord?_drop (bytes : Bytes) (start offset : ℕ) :
    tableRecord? start offset (bytes.drop offset) =
      match FileRecord.read? bytes offset with
      | none => none
      | some record =>
        if record.pstart = start then some (offset, record)
        else tableRecord? start (offset + size) (bytes.drop (offset + size)) := by
  have hread : FileRecord.read? (bytes.drop offset) 0 = FileRecord.read? bytes offset := by
    rw [FileRecord.read?_drop, Nat.add_zero]
  rw [tableRecord?, List.drop_drop]
  split
  · next h => rw [← hread, h]
  · next record h => rw [← hread, h]

/-- The search ends: every record that it goes past lies in the bytes. -/
theorem tableRecordWithin?_eq_some {steps offset : ℕ} (hpos : 0 < steps) (start : ℕ)
    (h : bytes.length < offset + steps * size) :
    tableRecordWithin? bytes start steps offset =
      some (tableRecord? start offset (bytes.drop offset)) := by
  induction steps generalizing offset with
  | zero => exact absurd hpos (Nat.lt_irrefl 0)
  | succ steps ih =>
    rw [tableRecordWithin?, tableRecord?_drop]
    cases hread : FileRecord.read? bytes offset with
    | none => rfl
    | some record =>
      have hlength := FileRecord.length_of_read? hread
      rw [Nat.add_mul] at h
      have hsteps : 0 < steps := by
        by_contra hzero
        obtain rfl : steps = 0 := by omega
        omega
      simp only
      rw [ih hsteps (by omega)]
      split <;> rfl

/-- The record with an index among those from `offset` on is the first that points back at
`start`. -/
structure PointsAt (bytes : Bytes) (start offset index : ℕ) (record : FileRecord) : Prop where
  stands : record.StandsAt bytes (offset + index * size)
  points : record.pstart = start
  first : ∀ i < index, ∀ other : FileRecord,
    other.StandsAt bytes (offset + i * size) → other.pstart ≠ start

variable {start offset index : ℕ} {record : FileRecord}

lemma pointsAt_zero_iff :
    PointsAt bytes start offset 0 record ↔
      record.StandsAt bytes offset ∧ record.pstart = start := by
  constructor
  · intro h
    exact ⟨by simpa using h.stands, h.points⟩
  · rintro ⟨hstands, hpoints⟩
    exact ⟨by simpa using hstands, hpoints, fun i hi => absurd hi (Nat.not_lt_zero i)⟩

lemma pointsAt_succ_iff :
    PointsAt bytes start offset (index + 1) record ↔
      (∀ other : FileRecord, other.StandsAt bytes offset → other.pstart ≠ start) ∧
        PointsAt bytes start (offset + size) index record := by
  constructor
  · intro h
    refine ⟨?_, ?_, h.points, ?_⟩
    · simpa using h.first 0 index.succ_pos
    · rw [← add_one_mul_add]
      exact h.stands
    · intro i hi
      rw [← add_one_mul_add]
      exact h.first (i + 1) (Nat.succ_lt_succ hi)
  · rintro ⟨hhead, htail⟩
    refine ⟨?_, htail.points, ?_⟩
    · rw [add_one_mul_add]
      exact htail.stands
    · intro i hi
      cases i with
      | zero => simpa using hhead
      | succ i =>
        rw [add_one_mul_add]
        exact htail.first i (Nat.lt_of_succ_lt_succ hi)

lemma tableRecordWithin?_eq_found_iff {steps place : ℕ} :
    tableRecordWithin? bytes start steps offset = some (some (place, record)) ↔
      ∃ index < steps, place = offset + index * size ∧ record.name = "" ∧
        PointsAt bytes start offset index record := by
  induction steps generalizing offset with
  | zero => simp [tableRecordWithin?]
  | succ steps ih =>
    rw [tableRecordWithin?]
    cases hread : FileRecord.read? bytes offset with
    | none =>
      rw [FileRecord.read?_eq_none_iff] at hread
      constructor
      · intro h
        cases h
      · rintro ⟨index, -, -, -, hpoints⟩
        have := hpoints.stands.le_length
        omega
    | some head =>
      have hhead := (FileRecord.read?_eq_some_iff.mp hread).1
      have hzero : record.name = "" ∧ record.StandsAt bytes offset ∧ record.pstart = start ↔
          head = record ∧ head.pstart = start := by
        rw [← and_assoc, and_comm (a := record.name = ""), ← FileRecord.read?_eq_some_iff, hread,
          Option.some.injEq]
        exact and_congr_right fun heq => by rw [heq]
      have hlater : (∀ other : FileRecord, other.StandsAt bytes offset → other.pstart ≠ start) ↔
          head.pstart ≠ start := by
        refine ⟨fun h => h head hhead, fun h other hstands => ?_⟩
        rwa [← (hhead.sameRanges hstands).pstart]
      simp only [Nat.exists_lt_succ_left, pointsAt_zero_iff, pointsAt_succ_iff, hzero, hlater,
        add_one_mul_add, Nat.zero_mul, Nat.add_zero]
      by_cases hstart : head.pstart = start
      · simp [hstart, eq_comm (a := place)]
      · simp [hstart, ih]

/-- The search finds the first record that points back, wherever it is. -/
theorem tableRecord?_eq_some_iff {place : ℕ} :
    tableRecord? start offset (bytes.drop offset) = some (place, record) ↔
      ∃ index, place = offset + index * size ∧ record.name = "" ∧
        PointsAt bytes start offset index record := by
  have hsteps : bytes.length < offset + (bytes.length / size + 1) * size := by
    rw [size]
    omega
  rw [← Option.some_inj, ← tableRecordWithin?_eq_some (Nat.succ_pos _) start hsteps,
    tableRecordWithin?_eq_found_iff]
  constructor
  · rintro ⟨index, -, h⟩
    exact ⟨index, h⟩
  · rintro ⟨index, hplace, hname, hpoints⟩
    have hlength := hpoints.stands.le_length
    refine ⟨index, ?_, hplace, hname, hpoints⟩
    simp only [size] at hlength ⊢
    omega

lemma pointsAt_of_read? (hread : FileRecord.read? bytes (offset + index * size) = some record)
    (hpoints : record.pstart = start)
    (hfirst : ∀ i < index,
      (FileRecord.read? bytes (offset + i * size)).map FileRecord.pstart ≠ some start) :
    PointsAt bytes start offset index record where
  stands := (FileRecord.read?_eq_some_iff.mp hread).1
  points := hpoints
  first i hi other hother hstart := by
    apply hfirst i hi
    rw [hother.read?, Option.map_some, hstart]

lemma PointsAt.tableRecord? (h : PointsAt bytes start offset index record) :
    tableRecord? start offset (bytes.drop offset) =
      some (offset + index * size, { record with name := "" }) := by
  have hunnamed : PointsAt bytes start offset index { record with name := "" } :=
    ⟨h.stands.of_sameRanges record.sameRanges_unnamed, h.points, h.first⟩
  exact tableRecord?_eq_some_iff.mpr ⟨index, rfl, rfl, hunnamed⟩

lemma tableRecord?_eq_none (h : ∀ index record, ¬ PointsAt bytes start offset index record) :
    tableRecord? start offset (bytes.drop offset) = none := by
  rw [Option.eq_none_iff_forall_ne_some]
  rintro ⟨place, record⟩ hfound
  obtain ⟨index, -, -, hpoints⟩ := tableRecord?_eq_some_iff.mp hfound
  exact h index record hpoints

end Image

end Cartridge
