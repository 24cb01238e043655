import Cartridge.Message.Table
import Cartridge.Proofs.Bytes.Numbers
import Cartridge.Proofs.Catalog

/-!
# Message tables in the bytes

A closed table is what stands before the first entry with the last id, and a list of
addresses what stands before the first zero. Both are read by one rule: item after item
up to the first last one. The catalog of the entries is the table, and only the bytes of
the entries and of the last one matter.
-/
namespace Cartridge.Message

section Terminated

variable {α : Type}

/-- Items of one size stand one behind the other from an offset on, none of them a last
one, and behind them stands a last one. -/
structure Terminated (item? : ℕ → Option α) (isLast : α → Prop) (size offset : ℕ)
    (items : List α) : Prop where
  item_at : ∀ k < items.length, item? (offset + k * size) = items[k]?
  not_last : ∀ a ∈ items, ¬ isLast a
  ends : ∃ a, item? (offset + items.length * size) = some a ∧ isLast a

open Bytes (add_one_mul_add)

variable {item? : ℕ → Option α} {isLast : α → Prop} {size offset : ℕ}

lemma terminated_nil_iff :
    Terminated item? isLast size offset [] ↔ ∃ a, item? offset = some a ∧ isLast a := by
  constructor
  · intro h
    simpa using h.ends
  · intro h
    exact ⟨fun k hk => absurd hk (Nat.not_lt_zero k), fun a ha => absurd ha List.not_mem_nil,
      by simpa using h⟩

lemma terminated_cons_iff {a : α} {items : List α} :
    Terminated item? isLast size offset (a :: items) ↔
      item? offset = some a ∧ ¬ isLast a ∧
        Terminated item? isLast size (offset + size) items := by
  constructor
  · intro h
    have hfirst : item? offset = some a := by simpa using h.item_at 0 (Nat.succ_pos _)
    refine ⟨hfirst, h.not_last a List.mem_cons_self, ?_, ?_, ?_⟩
    · intro k hk
      rw [← add_one_mul_add, h.item_at (k + 1) (Nat.succ_lt_succ hk), List.getElem?_cons_succ]
    · exact fun b hb => h.not_last b (List.mem_cons_of_mem a hb)
    · rw [← add_one_mul_add]
      exact h.ends
  · rintro ⟨hfirst, hnot, hrest⟩
    refine ⟨?_, ?_, ?_⟩
    · intro k hk
      cases k with
      | zero => simpa using hfirst
      | succ k =>
        rw [add_one_mul_add, hrest.item_at k (Nat.lt_of_succ_lt_succ hk), List.getElem?_cons_succ]
    · intro b hb
      rcases List.mem_cons.mp hb with rfl | hb
      · exact hnot
      · exact hrest.not_last b hb
    · rw [List.length_cons, add_one_mul_add]
      exact hrest.ends

/-- Items that are there in one place are there in another with the same items. -/
theorem Terminated.congr {items : List α} (h : Terminated item? isLast size offset items)
    {item?' : ℕ → Option α}
    (heq : ∀ k ≤ items.length, item?' (offset + k * size) = item? (offset + k * size)) :
    Terminated item?' isLast size offset items where
  item_at k hk := (heq k (Nat.le_of_lt hk)).trans (h.item_at k hk)
  not_last := h.not_last
  ends := by
    rw [heq _ (Nat.le_refl _)]
    exact h.ends

/-- A reader that takes one item after the other up to the first last one. An item is
there when all its bytes are. -/
structure Walks (read : ℕ → Option (List α)) (item? : ℕ → Option α) (isLast : α → Prop)
    [DecidablePred isLast] (size length : ℕ) : Prop where
  isSome_iff : ∀ position, (item? position).isSome ↔ position + size ≤ length
  step : ∀ offset, read offset = (item? offset).bind fun a =>
    if isLast a then some [] else (read (offset + size)).map (a :: ·)

variable {read : ℕ → Option (List α)} [DecidablePred isLast] {length : ℕ}

/-- The reader gives the items that stand before the first last one. -/
theorem Walks.eq_some_iff (h : Walks read item? isLast size length) {items : List α} :
    read offset = some items ↔ Terminated item? isLast size offset items := by
  induction items generalizing offset with
  | nil =>
    rw [terminated_nil_iff, h.step offset, Option.bind_eq_some_iff]
    apply exists_congr
    intro a
    by_cases hlast : isLast a <;> simp [hlast]
  | cons b items ih =>
    rw [terminated_cons_iff, ← ih, h.step offset, Option.bind_eq_some_iff]
    constructor
    · rintro ⟨a, hitem, hread⟩
      split at hread
      · cases hread
      · next hlast =>
        obtain ⟨rest, hrest, hitems⟩ := Option.map_eq_some_iff.mp hread
        obtain ⟨rfl, rfl⟩ := List.cons.inj hitems
        exact ⟨hitem, hlast, hrest⟩
    · rintro ⟨hitem, hlast, hrest⟩
      exact ⟨b, hitem, by rw [if_neg hlast, hrest, Option.map_some]⟩

/-- The reader gives something once there is a last item, however far behind. -/
theorem Walks.isSome_read (h : Walks read item? isLast size length) {k : ℕ} {a : α}
    (hitem : item? (offset + k * size) = some a) (hlast : isLast a) :
    (read offset).isSome := by
  induction k generalizing offset with
  | zero =>
    rw [Nat.zero_mul, Nat.add_zero] at hitem
    rw [h.step offset, hitem, Option.bind_some, if_pos hlast]
    rfl
  | succ k ih =>
    rw [add_one_mul_add] at hitem
    have hinside := (h.isSome_iff _).mp (Option.isSome_of_eq_some hitem)
    have hfirst : (item? offset).isSome := (h.isSome_iff offset).mpr (by omega)
    obtain ⟨b, hb⟩ := Option.isSome_iff_exists.mp hfirst
    rw [h.step offset, hb, Option.bind_some]
    split
    · rfl
    · rw [Option.isSome_map]
      exact ih hitem

theorem Walks.eq_none_iff (h : Walks read item? isLast size length) :
    read offset = none ↔ ∀ k a, item? (offset + k * size) = some a → ¬ isLast a := by
  constructor
  · intro hnone k a hitem hlast
    have hsome := h.isSome_read hitem hlast
    rw [hnone] at hsome
    cases hsome
  · intro hnot
    cases hread : read offset with
    | none => rfl
    | some items =>
      obtain ⟨a, hitem, hlast⟩ := (h.eq_some_iff.mp hread).ends
      exact absurd hlast (hnot _ a hitem)

end Terminated

namespace Table

variable {bytes other : Bytes} {offset : ℕ}

/-- The entry at a position: id, kind and place of the box from the high and the low half
of a byte, a byte that does not count, and the low 24 bits of the address. -/
def entryAt? (bytes : Bytes) (position : ℕ) : Option (ℕ × TableEntry) := do
  let id ← bytes.u16? position
  let info ← bytes[position + 2]?
  let address ← bytes.u32? (position + 4)
  some (id, {
    kind := .ofCode (info.toNat / 16)
    position := .ofCode (info.toNat % 16)
    address := address % 2 ^ 24 })

lemma entryAt?_drop (position : ℕ) :
    entryAt? (bytes.drop offset) position = entryAt? bytes (offset + position) := by
  simp only [entryAt?, Bytes.u16?, Bytes.u32?, Bytes.slice?_drop, List.getElem?_drop,
    Nat.add_assoc]

/-- The first entry is made of the first eight bytes. -/
lemma entryAt?_zero (bytes : Bytes) :
    entryAt? bytes 0 =
      match bytes with
      | i0 :: i1 :: info :: _ :: a0 :: a1 :: a2 :: a3 :: _ =>
        some (Bytes.toNat [i0, i1], .ofFields info (Bytes.toNat [a0, a1, a2, a3]))
      | _ => none := by
  iterate 8
    rcases bytes with _ | ⟨_, bytes⟩
    · simp [entryAt?, Bytes.u16?, Bytes.u32?, Bytes.slice?]
  simp [entryAt?, Bytes.u16?, Bytes.u32?, Bytes.slice?, TableEntry.ofFields, addressOf]

lemma entryAt?_eq (bytes : Bytes) (position : ℕ) :
    entryAt? bytes position = entryAt? (bytes.drop position) 0 := by
  rw [entryAt?_drop, Nat.add_zero]

lemma isSome_entryAt?_iff {position : ℕ} :
    (entryAt? bytes position).isSome ↔ position + entrySize ≤ bytes.length := by
  have hlength : (bytes.drop position).length = bytes.length - position := List.length_drop
  rw [entryAt?_eq]
  generalize bytes.drop position = rest at hlength
  have hrest : (entryAt? rest 0).isSome ↔ entrySize ≤ rest.length := by
    rw [entryAt?_zero]
    iterate 8
      rcases rest with _ | ⟨_, rest⟩
      · simp [entrySize]
    simp [entrySize]
  rw [hrest]
  simp only [entrySize]
  omega

lemma u16?_of_entryAt? {position : ℕ} {e : ℕ × TableEntry}
    (h : entryAt? bytes position = some e) : bytes.u16? position = some e.1 := by
  simp only [entryAt?, bind, Option.bind_eq_some_iff] at h
  obtain ⟨id, hid, _, _, _, _, he⟩ := h
  cases he
  exact hid

/-- An entry does not depend on the bytes around it. -/
lemma entryAt?_of_agreeOn {position : ℕ}
    (h : bytes.AgreeOn other position (position + entrySize)) :
    entryAt? other position = entryAt? bytes position := by
  have hid : other.slice? position 2 = bytes.slice? position 2 := by
    refine Bytes.slice?_of_agreeOn (h.mono (Nat.le_refl _) ?_)
    exact Nat.add_le_add_left (by decide) _
  have hinfo : other[position + 2]? = bytes[position + 2]? := by
    exact h _ (Nat.le_add_right _ _) (Nat.add_lt_add_left (by decide) _)
  have haddress : other.slice? (position + 4) 4 = bytes.slice? (position + 4) 4 := by
    exact Bytes.slice?_of_agreeOn (h.mono (Nat.le_add_right _ _) (Nat.le_refl _))
  simp only [entryAt?, Bytes.u16?, Bytes.u32?, hid, haddress, hinfo]

lemma closedEntries?_eq (bytes : Bytes) :
    closedEntries? bytes = (entryAt? bytes 0).bind fun e =>
      if e.1 = lastId then some []
      else (closedEntries? (bytes.drop entrySize)).map (e :: ·) := by
  rw [entryAt?_zero]
  iterate 8
    rcases bytes with _ | ⟨_, bytes⟩
    · rfl
  rfl

lemma wordsToZero?_eq (bytes : Bytes) :
    wordsToZero? bytes = (bytes.u32? 0).bind fun word =>
      if word = 0 then some [] else (wordsToZero? (bytes.drop 4)).map (word :: ·) := by
  iterate 4
    rcases bytes with _ | ⟨_, bytes⟩
    · rfl
  rfl

theorem walks_closedEntries? (bytes : Bytes) :
    Walks (fun offset => closedEntries? (bytes.drop offset)) (entryAt? bytes)
      (fun e => e.1 = lastId) entrySize bytes.length where
  isSome_iff _ := isSome_entryAt?_iff
  step offset := by
    rw [closedEntries?_eq, List.drop_drop, ← entryAt?_eq]

theorem walks_wordsToZero? (bytes : Bytes) :
    Walks (fun offset => wordsToZero? (bytes.drop offset)) bytes.u32?
      (fun word => word = 0) 4 bytes.length where
  isSome_iff _ := Bytes.isSome_u32?_iff
  step offset := by
    have hword : Bytes.u32? (bytes.drop offset) 0 = bytes.u32? offset := by
      rw [Bytes.u32?, Bytes.slice?_drop, Nat.add_zero, Bytes.u32?]
    rw [wordsToZero?_eq, List.drop_drop, hword]

/-- The entries stand one behind the other from an offset on, and behind them the first
one with the last id. -/
abbrev ClosedAt (bytes : Bytes) (offset : ℕ) (entries : List (ℕ × TableEntry)) : Prop :=
  Terminated (entryAt? bytes) (fun e => e.1 = lastId) entrySize offset entries

/-- The words stand one behind the other from an offset on, and behind them the first
zero. -/
abbrev ListedAt (bytes : Bytes) (offset : ℕ) (words : List ℕ) : Prop :=
  Terminated bytes.u32? (fun word => word = 0) 4 offset words

/-- The entry with a number, counted from an offset on, lies in the bytes and has the last
id. -/
def LastAt (bytes : Bytes) (offset k : ℕ) : Prop :=
  offset + (k + 1) * entrySize ≤ bytes.length ∧
    bytes.u16? (offset + k * entrySize) = some lastId

lemma lastAt_iff {k : ℕ} :
    LastAt bytes offset k ↔ ∃ e, entryAt? bytes (offset + k * entrySize) = some e ∧
      e.1 = lastId := by
  have hplace : offset + (k + 1) * entrySize = offset + k * entrySize + entrySize := by
    rw [Nat.add_one_mul, Nat.add_assoc]
  rw [LastAt, hplace, ← isSome_entryAt?_iff, Option.isSome_iff_exists]
  constructor
  · rintro ⟨⟨e, he⟩, hid⟩
    rw [u16?_of_entryAt? he] at hid
    exact ⟨e, he, Option.some.inj hid⟩
  · rintro ⟨e, he, hlast⟩
    exact ⟨⟨e, he⟩, by rw [u16?_of_entryAt? he, hlast]⟩

lemma orOpen_eq_ok_iff {α : Type} {result : Option α} {a : α} :
    orOpen offset result = .ok a ↔ result = some a := by
  cases result <;> simp [orOpen]

lemma orOpen_eq_error_iff {α : Type} {result : Option α} {e : Cartridge.Error} :
    orOpen offset result = .error e ↔
      result = none ∧ e = .image (.bad (.openMessageTable offset)) := by
  cases result <;> simp [orOpen, eq_comm]

/-- A closed table is the catalog of the entries before the first with the last id. -/
theorem read_eq_ok_iff {table : Table} {stop : ℕ} :
    read bytes offset = .ok (table, stop) ↔
      ∃ entries, ClosedAt bytes offset entries ∧ table.Collects entries ∧
        stop = offset + (entries.length + 1) * entrySize := by
  rw [read, orOpen_eq_ok_iff, read?, Option.map_eq_some_iff]
  apply exists_congr
  intro entries
  rw [(walks_closedEntries? bytes).eq_some_iff, Catalog.collects_iff, Prod.mk.injEq,
    eq_comm, eq_comm (a := stop)]

/-- An id that comes again keeps its place and takes what is told of it last. -/
example :
    (read [
      0, 2, 0, 0, 7, 0, 0, 4, 0, 1, 0x10, 0, 7, 0, 0, 8, 0, 2, 0x23, 0, 7, 0, 0, 12,
      0xFF, 0xFF, 0, 0, 0, 0, 0, 0] 0).map (fun (table, stop) => (table.entries, stop)) =
      .ok ([(2, ⟨.blue, .bottom, 12⟩), (1, ⟨.wooden, .varying, 8⟩)], 32) := by cbv

theorem read_eq_error_iff {e : Cartridge.Error} :
    read bytes offset = .error e ↔
      (∀ k, ¬ LastAt bytes offset k) ∧ e = .image (.bad (.openMessageTable offset)) := by
  rw [read, orOpen_eq_error_iff, read?, Option.map_eq_none_iff,
    (walks_closedEntries? bytes).eq_none_iff]
  simp only [lastAt_iff, not_exists, not_and]

theorem exists_read_eq_ok_iff :
    (∃ result, read bytes offset = .ok result) ↔ ∃ k, LastAt bytes offset k := by
  cases hread : read bytes offset with
  | error e =>
    have hnot := (read_eq_error_iff.mp hread).1
    simp [hnot]
  | ok result =>
    obtain ⟨entries, hclosed, -⟩ := read_eq_ok_iff.mp hread
    have hlast : ∃ k, LastAt bytes offset k := ⟨entries.length, lastAt_iff.mpr hclosed.ends⟩
    simp [hlast]

/-- A table that is addressed by a list is that of the ids with the words before the first
zero. -/
theorem readAddresses_eq_ok_iff {ids table : Table} {stop : ℕ} :
    readAddresses bytes offset ids = .ok (table, stop) ↔
      ∃ words, ListedAt bytes offset words ∧ table = withAddresses ids words ∧
        stop = offset + (words.length + 1) * 4 := by
  rw [readAddresses, orOpen_eq_ok_iff, readAddresses?, Option.map_eq_some_iff]
  apply exists_congr
  intro words
  rw [(walks_wordsToZero? bytes).eq_some_iff, Prod.mk.injEq, eq_comm, eq_comm (a := stop)]

/-- The bytes around a closed table do not matter. -/
theorem read_of_agreeOn {table : Table} {stop : ℕ} (h : read bytes offset = .ok (table, stop))
    (hagree : bytes.AgreeOn other offset stop) : read other offset = .ok (table, stop) := by
  obtain ⟨entries, hclosed, hcollects, rfl⟩ := read_eq_ok_iff.mp h
  refine read_eq_ok_iff.mpr ⟨entries, hclosed.congr fun k hk => ?_, hcollects, rfl⟩
  have hle : (k + 1) * entrySize ≤ (entries.length + 1) * entrySize :=
    Nat.mul_le_mul_right _ (Nat.succ_le_succ hk)
  apply entryAt?_of_agreeOn
  apply hagree.mono
  · exact Nat.le_add_right _ _
  · rw [Nat.add_assoc, ← Nat.add_one_mul]
    exact Nat.add_le_add_left hle _

/-- A table that is read ends behind its beginning. -/
lemma le_of_read {table : Table} {stop : ℕ} (h : read bytes offset = .ok (table, stop)) :
    offset ≤ stop := by
  obtain ⟨entries, -, -, rfl⟩ := read_eq_ok_iff.mp h
  exact Nat.le_add_right _ _

lemma le_of_readAddresses {ids table : Table} {stop : ℕ}
    (h : readAddresses bytes offset ids = .ok (table, stop)) : offset ≤ stop := by
  obtain ⟨words, -, -, rfl⟩ := readAddresses_eq_ok_iff.mp h
  exact Nat.le_add_right _ _

lemma read_of_drop_eq (h : other.drop offset = bytes.drop offset) :
    read other offset = read bytes offset := by
  rw [read, read, read?, read?, h]

lemma readAddresses_of_drop_eq (h : other.drop offset = bytes.drop offset) (ids : Table) :
    readAddresses other offset ids = readAddresses bytes offset ids := by
  rw [readAddresses, readAddresses, readAddresses?, readAddresses?, h]

end Table

end Cartridge.Message
