import Cartridge.Proofs.Message.AddressLists
import Cartridge.Proofs.Result

/-!
# Tables that inherit from another one

A table whose addresses are listed has its ids and boxes from another table, place for place. The
list alone says where it ends: where it is shorter than the other table, the ids behind are left
out, and where it is longer, the words behind are.
-/
namespace Cartridge.Message

namespace Table

variable {ids table : Table} {words : List ℕ}

/-- The table has the first ids of another one in their order, as many as there are words, each
with its box and the low 24 bits of the word at its place. -/
structure Inherits (table ids : Table) (words : List ℕ) : Prop where
  keys_eq : table.keys = ids.keys.take (min words.length ids.keys.length)
  entry_at : ∀ (k id : ℕ) (entry : TableEntry), table.entries[k]? = some (id, entry) →
    ∃ (source : TableEntry) (word : ℕ), ids.entries[k]? = some (id, source) ∧
      words[k]? = some word ∧ entry.kind = source.kind ∧ entry.position = source.position ∧
      entry.address = word % 2 ^ 24

/-- The ids of a table are a first part of those of another one, with the same boxes. -/
structure BeginsAs (table ids : Table) : Prop where
  keys_front : table.keys <+: ids.keys
  box_at : ∀ (k id : ℕ) (entry : TableEntry), table.entries[k]? = some (id, entry) →
    ∃ source : TableEntry, ids.entries[k]? = some (id, source) ∧ entry.kind = source.kind ∧
      entry.position = source.position

lemma Inherits.beginsAs (h : table.Inherits ids words) : table.BeginsAs ids where
  keys_front := by
    rw [h.keys_eq]
    exact List.take_prefix _ _
  box_at k id entry hentry := by
    obtain ⟨source, word, hsource, -, hkind, hposition, -⟩ := h.entry_at k id entry hentry
    exact ⟨source, hsource, hkind, hposition⟩

lemma getElem?_withAddresses (k : ℕ) :
    (withAddresses ids words).entries[k]? =
      ids.entries[k]?.bind fun e =>
        words[k]?.map fun word => (e.1, { e.2 with address := addressOf word }) := by
  change (readdress ids.entries words)[k]? = _
  rw [readdress, List.getElem?_zipWith]
  cases ids.entries[k]? <;> cases words[k]? <;> rfl

lemma Inherits.length_entries (h : table.Inherits ids words) :
    table.entries.length = min words.length ids.entries.length := by
  have hkeys := congrArg List.length h.keys_eq
  simpa [Catalog.keys, List.length_take] using hkeys

/-- There is one table that inherits from another one with these words. -/
lemma inherits_iff : table.Inherits ids words ↔ table = withAddresses ids words := by
  constructor
  · intro h
    ext1
    apply List.ext_getElem?
    intro k
    rw [getElem?_withAddresses]
    cases hentry : table.entries[k]? with
    | some e =>
      obtain ⟨id, ⟨kind, position, address⟩⟩ := e
      obtain ⟨source, word, hsource, hword, rfl, rfl, rfl⟩ := h.entry_at k id _ hentry
      rw [hsource, hword]
      rfl
    | none =>
      have hle := List.getElem?_eq_none_iff.mp hentry
      rw [h.length_entries] at hle
      have hended : words.length ≤ k ∨ ids.entries.length ≤ k := by omega
      rcases hended with hwords | hids
      · rw [List.getElem?_eq_none_iff.mpr hwords]
        cases ids.entries[k]? <;> rfl
      · rw [List.getElem?_eq_none_iff.mpr hids]
        rfl
  · rintro rfl
    refine ⟨?_, fun k id entry hentry => ?_⟩
    · rw [keys_withAddresses, ← List.take_eq_take_min]
    · rw [getElem?_withAddresses, Option.bind_eq_some_iff] at hentry
      obtain ⟨⟨id, source⟩, hsource, hentry⟩ := hentry
      obtain ⟨word, hword, hentry⟩ := Option.map_eq_some_iff.mp hentry
      cases hentry
      exact ⟨source, word, hsource, hword, rfl, rfl, rfl⟩

/-- A list of addresses without an end is an error, and there is no other one. -/
lemma readAddresses_eq_error_iff {bytes : Bytes} {offset : ℕ} {e : Cartridge.Error} :
    readAddresses bytes offset ids = .error e ↔
      (∀ k, bytes.u32? (offset + k * 4) ≠ some 0) ∧
        e = .image (.bad (.openMessageTable offset)) := by
  rw [readAddresses, orOpen_eq_error_iff, readAddresses?, Option.map_eq_none_iff,
    (walks_wordsToZero? bytes).eq_none_iff]
  apply and_congr_left'
  constructor
  · intro h k hzero
    exact h k 0 hzero rfl
  · rintro h k _ hword rfl
    exact h k hword

end Table

open Table (ListedAt)

/-- An index of Ocarina of Time for PAL has the tables of three languages, of which the last two
inherit from the first. -/
lemma exists_inherits_of_ofSource {source : TableSource} {index : Index}
    (h : Index.ofSource (some .oot) (some .pal) source = .ok index) :
    ∃ english inGerman inFrench german french,
      index.entries = [(.english, english), (.german, inGerman), (.french, inFrench)] ∧
        inGerman.Inherits english german ∧ inFrench.Inherits english french := by
  cases source with
  | files files => cases h
  | code bytes offset =>
    change Index.ofPal bytes offset = .ok index at h
    obtain ⟨⟨english, next⟩, -, h⟩ := bind_eq_ok.mp h
    obtain ⟨⟨inGerman, next'⟩, hgerman, h⟩ := bind_eq_ok.mp h
    obtain ⟨⟨inFrench, stop⟩, hfrench, h⟩ := bind_eq_ok.mp h
    cases h
    obtain ⟨german, -, hgerman, -⟩ := Table.readAddresses_eq_ok_iff.mp hgerman
    obtain ⟨french, -, hfrench, -⟩ := Table.readAddresses_eq_ok_iff.mp hfrench
    exact ⟨english, inGerman, inFrench, german, french, rfl, Table.inherits_iff.mpr hgerman,
      Table.inherits_iff.mpr hfrench⟩

/-- A list of addresses gives the table that inherits from the ids with the words before the first
zero, and ends behind this zero; it is an error exactly where there is none. So in every index of
Ocarina of Time for PAL the German and the French ids are first parts of the English ones, with
the same boxes. -/
theorem readAddresses_inherits (bytes : Bytes) (offset : ℕ) (ids : Table) :
    (∀ table stop, Table.readAddresses bytes offset ids = .ok (table, stop) ↔
      ∃ words, ListedAt bytes offset words ∧ table.Inherits ids words ∧
        stop = offset + 4 * (words.length + 1)) ∧
    (∀ e, Table.readAddresses bytes offset ids = .error e ↔
      (∀ k, bytes.u32? (offset + k * 4) ≠ some 0) ∧
        e = .image (.bad (.openMessageTable offset))) ∧
    ∀ source index, Index.ofSource (some .oot) (some .pal) source = .ok index →
      ∃ english german french,
        index.entries = [(.english, english), (.german, german), (.french, french)] ∧
          german.BeginsAs english ∧ french.BeginsAs english := by
  refine ⟨fun table stop => ?_, fun e => Table.readAddresses_eq_error_iff, ?_⟩
  · simp only [Table.readAddresses_eq_ok_iff, Table.inherits_iff, Nat.mul_comm 4]
  · intro source index h
    obtain ⟨english, german, french, _, _, hentries, hgerman, hfrench⟩ :=
      exists_inherits_of_ofSource h
    exact ⟨english, german, french, hentries, hgerman.beginsAs, hfrench.beginsAs⟩

/-- A word behind those of the ids is passed over. -/
theorem readAddresses_inherits_surplus :
    let bytes : Bytes := [7, 0, 0, 0x10, 7, 0, 0, 0x20, 0, 0, 0, 0]
    let ids : Table := ⟨[(1, ⟨.wooden, .top, 0⟩)], by decide⟩
    let words := [0x07000010, 0x07000020]
    ListedAt bytes 0 words ∧ ∃ table, Table.readAddresses bytes 0 ids = .ok (table, 12) ∧
      table.Inherits ids words := by
  intro bytes ids words
  have hlisted : ListedAt bytes 0 words :=
    (Table.walks_wordsToZero? bytes).eq_some_iff.mp (by decide +kernel)
  have hinherits : (Table.withAddresses ids words).Inherits ids words :=
    Table.inherits_iff.mpr rfl
  obtain ⟨hok, -⟩ := readAddresses_inherits bytes 0 ids
  exact ⟨hlisted, _, (hok _ 12).mpr ⟨words, hlisted, hinherits, rfl⟩, hinherits⟩

end Cartridge.Message
