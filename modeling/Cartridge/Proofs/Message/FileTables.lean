import Cartridge.Proofs.Message.TableLayout

/-!
# Tables in files of their own

A table that is a file has no last entry: it goes on to the end of the file, entries with the last
id are passed over, and bytes that are less than an entry do not count. Cut into parts of the size
of an entry, the file shows the same table as a closed one that consists of its other parts and of
any last entry behind them.
-/
namespace Cartridge.Message.Table

/-- The parts of the size of an entry that bytes are made of, from the front on. -/
def parts (bytes : Bytes) : List Bytes :=
  (List.range (bytes.length / entrySize)).map fun k => (bytes.drop (k * entrySize)).take entrySize

/-- The id that a part begins with. -/
def idOf (part : Bytes) : ℕ := Bytes.toNat (part.take 2)

/-- The parts with an id of their own. -/
def innerParts (bytes : Bytes) : List Bytes := (parts bytes).filter fun part => idOf part ≠ lastId

/-- The bytes of an entry with an id of its own. -/
structure IsInner (part : Bytes) : Prop where
  length_eq : part.length = entrySize
  id_ne : idOf part ≠ lastId

/-- The bytes of an entry that closes a table. -/
structure IsLast (part : Bytes) : Prop where
  length_eq : part.length = entrySize
  id_eq : idOf part = lastId

/-- The entry that a part holds. -/
def entryOf (part : Bytes) : ℕ × TableEntry :=
  (idOf part, .ofFields (part.getD 2 0) (Bytes.toNat (part.drop 4)))

/-- What a file tells by one of its parts, if the part begins with an id of its own. An address
that were not there would be zero. -/
def told? (part : Bytes) : Option (ℕ × TableEntry) := do
  let id ← part.u16? 0
  if id = lastId then none else some (id, .ofFields (part.getD 2 0) ((part.u32? 4).getD 0))

lemma flatten_parts (bytes : Bytes) :
    (parts bytes).flatten = bytes.take (bytes.length / entrySize * entrySize) := by
  unfold parts
  generalize bytes.length / entrySize = count
  induction count with
  | zero => simp
  | succ count ih => simp [List.range_succ, ih, Nat.succ_mul, List.take_add]

/-- Bytes are made of their parts and of less than a part behind them. -/
lemma exists_flatten_parts (bytes : Bytes) :
    ∃ tail, bytes = (parts bytes).flatten ++ tail ∧ tail.length < entrySize := by
  refine ⟨bytes.drop (bytes.length / entrySize * entrySize), ?_, ?_⟩
  · rw [flatten_parts, List.take_append_drop]
  · have hmod := Nat.div_add_mod' bytes.length entrySize
    have hlt : bytes.length % entrySize < entrySize := Nat.mod_lt _ (by decide)
    rw [List.length_drop]
    omega

lemma length_of_mem_parts (bytes : Bytes) : ∀ part ∈ parts bytes, part.length = entrySize := by
  intro part hpart
  obtain ⟨k, hk, rfl⟩ := List.mem_map.mp hpart
  have hmul : (k + 1) * entrySize ≤ bytes.length / entrySize * entrySize :=
    Nat.mul_le_mul_right _ (List.mem_range.mp hk)
  have hle := Nat.div_mul_le_self bytes.length entrySize
  rw [List.length_take, List.length_drop]
  rw [Nat.add_one_mul] at hmul
  omega

lemma isInner_of_mem_innerParts (bytes : Bytes) : ∀ part ∈ innerParts bytes, IsInner part := by
  intro part hpart
  obtain ⟨hmem, hid⟩ := List.mem_filter.mp hpart
  exact ⟨length_of_mem_parts bytes part hmem, by simpa using hid⟩

lemma exists_eq_of_length {part : Bytes} (h : part.length = entrySize) :
    ∃ i0 i1 info pad a0 a1 a2 a3, part = [i0, i1, info, pad, a0, a1, a2, a3] := by
  match part, h with
  | [i0, i1, info, pad, a0, a1, a2, a3], _ => exact ⟨i0, i1, info, pad, a0, a1, a2, a3, rfl⟩

section Readers

variable {part last : Bytes} {entries : List Bytes}

lemma entriesOf_append (h : part.length = entrySize) (rest : Bytes) :
    entriesOf (part ++ rest) = entryOf part :: entriesOf rest := by
  obtain ⟨i0, i1, info, pad, a0, a1, a2, a3, rfl⟩ := exists_eq_of_length h
  rfl

lemma closedEntries?_append (h : part.length = entrySize) (rest : Bytes) :
    closedEntries? (part ++ rest) =
      if idOf part = lastId then some [] else (closedEntries? rest).map (entryOf part :: ·) := by
  obtain ⟨i0, i1, info, pad, a0, a1, a2, a3, rfl⟩ := exists_eq_of_length h
  rfl

/-- Nothing is missing in a part of the size of an entry. -/
lemma told?_eq (h : part.length = entrySize) :
    told? part = if idOf part = lastId then none else some (entryOf part) := by
  obtain ⟨i0, i1, info, pad, a0, a1, a2, a3, rfl⟩ := exists_eq_of_length h
  simp [told?, entryOf, idOf, Bytes.u16?, Bytes.u32?, Bytes.slice?]

lemma entriesOf_of_length_lt {tail : Bytes} (h : tail.length < entrySize) :
    entriesOf tail = [] := by
  unfold entriesOf
  split
  · simp only [List.length_cons, entrySize] at h
    omega
  · rfl

/-- A reader of whole entries takes one part after the other. -/
lemma entriesOf_flatten_append (h : ∀ part ∈ entries, part.length = entrySize) (tail : Bytes)
    (htail : tail.length < entrySize) :
    entriesOf (entries.flatten ++ tail) = entries.map entryOf := by
  induction entries with
  | nil => simpa using entriesOf_of_length_lt htail
  | cons part entries ih =>
    have hrest := ih fun other hother => h other (List.mem_cons_of_mem _ hother)
    rw [List.flatten_cons, List.append_assoc, entriesOf_append (h part List.mem_cons_self), hrest,
      List.map_cons]

/-- A reader of a closed table takes one part after the other up to the last entry. -/
lemma closedEntries?_flatten_append (h : ∀ part ∈ entries, IsInner part) (hlast : IsLast last)
    (behind : Bytes) :
    closedEntries? (entries.flatten ++ (last ++ behind)) = some (entries.map entryOf) := by
  induction entries with
  | nil => simpa [hlast.id_eq] using closedEntries?_append hlast.length_eq behind
  | cons part entries ih =>
    have hpart := h part List.mem_cons_self
    have hrest := ih fun other hother => h other (List.mem_cons_of_mem _ hother)
    rw [List.flatten_cons, List.append_assoc, closedEntries?_append hpart.length_eq,
      if_neg hpart.id_ne, hrest, Option.map_some, List.map_cons]

lemma filterMap_told? (h : ∀ part ∈ entries, part.length = entrySize) :
    entries.filterMap told? = (entries.filter fun part => idOf part ≠ lastId).map entryOf := by
  induction entries with
  | nil => rfl
  | cons part entries ih =>
    have hrest := ih fun other hother => h other (List.mem_cons_of_mem _ hother)
    have hpart := told?_eq (h part List.mem_cons_self)
    by_cases hlast : idOf part = lastId <;> simp [hpart, hlast, hrest]

theorem ofFile_eq (bytes : Bytes) : ofFile bytes = .ofList ((innerParts bytes).map entryOf) := by
  obtain ⟨tail, hbytes, htail⟩ := exists_flatten_parts bytes
  have hentries := entriesOf_flatten_append (length_of_mem_parts bytes) tail htail
  rw [← hbytes] at hentries
  rw [ofFile, hentries, List.filter_map]
  rfl

/-- A table in a file is that of the parts that tell something. -/
theorem ofFile_eq_told (bytes : Bytes) :
    ofFile bytes = .ofList ((parts bytes).filterMap told?) := by
  rw [ofFile_eq, filterMap_told? (length_of_mem_parts bytes), innerParts]

/-- A last entry at the end of a file adds nothing to its table. -/
theorem ofFile_flatten_append (h : ∀ part ∈ entries, IsInner part) (hlast : IsLast last) :
    ofFile (entries.flatten ++ last) = .ofList (entries.map entryOf) := by
  have hsize : ∀ part ∈ entries ++ [last], part.length = entrySize := by
    intro part hpart
    rcases List.mem_append.mp hpart with hinner | hend
    · exact (h part hinner).length_eq
    · rw [List.mem_singleton.mp hend]
      exact hlast.length_eq
  have hinner : ∀ e ∈ entries.map entryOf, e.1 ≠ lastId := by
    intro e he
    obtain ⟨part, hpart, rfl⟩ := List.mem_map.mp he
    exact (h part hpart).id_ne
  have hentries : entriesOf (entries.flatten ++ last) = entries.map entryOf ++ [entryOf last] := by
    have hflatten := entriesOf_flatten_append hsize [] (by decide)
    simpa using hflatten
  rw [ofFile, hentries, List.filter_append, List.filter_eq_self.mpr (by simpa using hinner)]
  simp [entryOf, hlast.id_eq]

/-- A closed table between any bytes. -/
theorem read_flatten_append (h : ∀ part ∈ entries, IsInner part) (hlast : IsLast last)
    (front behind : Bytes) :
    read (front ++ (entries.flatten ++ last) ++ behind) front.length =
      .ok (.ofList (entries.map entryOf), front.length + (entries.length + 1) * entrySize) := by
  have hdrop : (front ++ (entries.flatten ++ last) ++ behind).drop front.length =
      entries.flatten ++ (last ++ behind) := by
    simp
  rw [read, orOpen_eq_ok_iff, read?, hdrop, closedEntries?_flatten_append h hlast,
    Option.map_some, List.length_map]

end Readers

/-- A closed table reads the same as the file that has its bytes, wherever it stands. A file reads
the same as the closed table of its parts with an id of their own and of any last entry, and so as
these parts one by one, none of which lacks anything. -/
theorem ofFile_agrees_read :
    (∀ (entries : List Bytes) (last : Bytes), (∀ part ∈ entries, IsInner part) → IsLast last →
      ∀ front behind : Bytes,
        read (front ++ (entries.flatten ++ last) ++ behind) front.length =
          .ok (ofFile (entries.flatten ++ last),
            front.length + (entries.length + 1) * entrySize)) ∧
    ∀ bytes : Bytes,
      (∀ last, IsLast last →
        read ((innerParts bytes).flatten ++ last) 0 =
          .ok (ofFile bytes, ((innerParts bytes).length + 1) * entrySize)) ∧
      ofFile bytes = .ofList ((parts bytes).filterMap told?) := by
  constructor
  · intro entries last h hlast front behind
    rw [read_flatten_append h hlast, ofFile_flatten_append h hlast]
  · intro bytes
    refine ⟨fun last hlast => ?_, ofFile_eq_told bytes⟩
    have hread := read_flatten_append (isInner_of_mem_innerParts bytes) hlast [] []
    rw [ofFile_eq]
    simpa using hread

/-- Two entries of one id, a last one and a part of an entry: the file shows what the closed table
shows. -/
theorem ofFile_agrees_read_repeated :
    let first : Bytes := [0, 1, 0x10, 0, 8, 0, 0, 0]
    let again : Bytes := [0, 1, 0x23, 0xFF, 8, 0, 0, 0x20]
    let last : Bytes := [0xFF, 0xFF, 0, 0, 0, 0, 0, 0]
    let table : Table := ⟨[(1, ⟨.blue, .bottom, 0x20⟩)], by decide⟩
    read ([9] ++ ([first, again].flatten ++ last) ++ []) 1 = .ok (table, 25) ∧
      ofFile ([first, again].flatten ++ last) = table ∧
      innerParts (first ++ last ++ again ++ [0, 2]) = [first, again] ∧
      read ([first, again].flatten ++ last) 0 = .ok (table, 24) ∧
      ofFile (first ++ last ++ again ++ [0, 2]) = table := by
  intro first again last table
  have hinner : ∀ part ∈ [first, again], IsInner part := by
    simp only [List.mem_cons, List.not_mem_nil, or_false]
    rintro part (rfl | rfl) <;> exact ⟨by decide, by decide⟩
  have hlast : IsLast last := ⟨by decide, by decide⟩
  obtain ⟨hclosed, hfile⟩ := ofFile_agrees_read
  obtain ⟨hparts, -⟩ := hfile (first ++ last ++ again ++ [0, 2])
  have hinnerParts : innerParts (first ++ last ++ again ++ [0, 2]) = [first, again] := by decide
  have hentries : Catalog.ofList ([first, again].map entryOf) = table :=
    Catalog.ext (by decide)
  have htable : ofFile ([first, again].flatten ++ last) = table := by
    rw [ofFile_flatten_append hinner hlast, hentries]
  have htable' : ofFile (first ++ last ++ again ++ [0, 2]) = table := by
    rw [ofFile_eq, hinnerParts, hentries]
  have hread := hclosed [first, again] last hinner hlast [9] []
  have hread' := hparts last hlast
  rw [htable] at hread
  rw [htable', hinnerParts] at hread'
  exact ⟨hread, htable, hinnerParts, hread', htable'⟩

end Cartridge.Message.Table
