import Cartridge.Proofs.Lists
import Cartridge.Proofs.Message.TableLayout
import Mathlib.Data.List.Basic

/-!
# Lists of addresses

The German and the French table of Ocarina of Time for PAL are lists of addresses, and the
English table has the ids. A word of a list goes with the id that has its place among the
ids without repetitions. This is the id of the English entry with its place as long as no
id came twice before, and another one where some did.
-/
namespace Cartridge.Message

namespace Table

variable {ids : Table} {list words : List ℕ}

lemma keys_withAddresses : (withAddresses ids words).keys = ids.keys.take words.length :=
  ids_readdress ids.entries words

/-- An address goes with the id at its place in the table of ids. -/
theorem address_withAddresses {id : ℕ} (h : id ∈ ids.keys) :
    ((withAddresses ids words).get? id).map TableEntry.address =
      words[ids.keys.idxOf id]?.map addressOf := by
  have hplace : ids.keys[ids.keys.idxOf id]? = some id := List.getElem?_idxOf h
  rw [Catalog.keys, List.getElem?_map] at hplace
  obtain ⟨e, he, rfl⟩ := Option.map_eq_some_iff.mp hplace
  rw [← Catalog.keys] at he
  cases hword : words[ids.keys.idxOf e.1]? with
  | none =>
    have hnot : e.1 ∉ (withAddresses ids words).keys := by
      rw [keys_withAddresses]
      intro hmem
      have hlt := (List.mem_take_iff_idxOf_lt h).mp hmem
      have hle := List.getElem?_eq_none_iff.mp hword
      omega
    rw [Catalog.get?_eq_none_iff.mpr hnot]
    rfl
  | some word =>
    have hentry : (withAddresses ids words).entries[ids.keys.idxOf e.1]? =
        some (e.1, { e.2 with address := addressOf word }) := by
      change (readdress ids.entries words)[ids.keys.idxOf e.1]? = _
      rw [readdress, List.getElem?_zipWith, he, hword]
    rw [Catalog.get?_of_getElem? hentry]
    rfl

/-- An id stands at a position of a list, and at no later one before `count`. -/
structure LastPosition (list : List ℕ) (count id k : ℕ) : Prop where
  lt : k < count
  stands : list[k]? = some id
  last : ∀ j, k < j → j < count → list[j]? ≠ some id

/-- The table gives each id the word at the position of the id, the last one that has a
word where the id stands at several. -/
def Follows (table : Table) (list words : List ℕ) : Prop :=
  ∀ id k, LastPosition list words.length id k →
    (table.get? id).map TableEntry.address = words[k]?.map addressOf

/-- The word at the position of each id is, but for the segment, the one at its place among
the ids without repetitions. -/
def InStep (list words : List ℕ) : Prop :=
  ∀ id k, LastPosition list words.length id k →
    words[list.eraseDups.idxOf id]?.map addressOf = words[k]?.map addressOf

lemma LastPosition.mem {list : List ℕ} {count id k : ℕ} (h : LastPosition list count id k) :
    id ∈ list :=
  List.mem_of_getElem? h.stands

lemma address_withAddresses_of_mem (h : ids.keys = list.eraseDups) {id : ℕ} (hid : id ∈ list) :
    ((withAddresses ids words).get? id).map TableEntry.address =
      words[list.eraseDups.idxOf id]?.map addressOf := by
  rw [← h]
  apply address_withAddresses
  rw [h]
  exact List.mem_eraseDups.mpr hid

/-- A table with the words as addresses follows them where ids and words are in step. -/
theorem follows_withAddresses_iff (h : ids.keys = list.eraseDups) :
    (withAddresses ids words).Follows list words ↔ InStep list words := by
  constructor
  · intro hfollows id k hlast
    rw [← address_withAddresses_of_mem h hlast.mem]
    exact hfollows id k hlast
  · intro hstep id k hlast
    rw [address_withAddresses_of_mem h hlast.mem]
    exact hstep id k hlast

/-- Ids and words are in step as long as no id comes twice. -/
theorem inStep_of_nodup (h : (list.take words.length).Nodup) : InStep list words := by
  intro id k hlast
  have hstands : (list.take words.length)[k]? = some id := by
    rw [List.getElem?_take, if_pos hlast.lt, hlast.stands]
  obtain ⟨hlt, hget⟩ := List.getElem?_eq_some_iff.mp hstands
  have hmem : id ∈ list.take words.length := List.mem_of_getElem? hstands
  have hplace : list.eraseDups.idxOf id = k := by
    rw [← List.take_append_drop words.length list, List.eraseDups_append,
      eraseDups_of_nodup h, List.idxOf_append_of_mem hmem, ← hget, h.idxOf_getElem]
  rw [hplace]

end Table

open Table (ClosedAt ListedAt LastPosition InStep)

/-- The bytes hold a closed table for English and behind it the addresses for German and
for French. -/
structure PalAt (bytes : Bytes) (offset : ℕ) (entries : List (ℕ × TableEntry))
    (german french : List ℕ) : Prop where
  closed : ClosedAt bytes offset entries
  german_listed : ListedAt bytes (offset + (entries.length + 1) * Table.entrySize) german
  french_listed : ListedAt bytes
    (offset + (entries.length + 1) * Table.entrySize + (german.length + 1) * 4) french

variable {bytes : Bytes} {offset : ℕ} {entries : List (ℕ × TableEntry)} {german french : List ℕ}

/-- The index has a table for each of the three languages, of which the last two have the ids
of the first. -/
theorem ofSource_of_palAt (h : PalAt bytes offset entries german french) :
    ∃ index english, Index.ofSource (some .oot) (some .pal) (.code bytes offset) = .ok index ∧
      english.Collects entries ∧ index.entries = [(.english, english),
        (.german, english.withAddresses german), (.french, english.withAddresses french)] := by
  have henglish := Table.read_eq_ok_iff.mpr
    ⟨entries, h.closed, Catalog.collects_ofList entries, rfl⟩
  have hgerman := Table.readAddresses_eq_ok_iff.mpr
    ⟨german, h.german_listed, Eq.refl (Table.withAddresses (.ofList entries) german), rfl⟩
  have hfrench := Table.readAddresses_eq_ok_iff.mpr
    ⟨french, h.french_listed, Eq.refl (Table.withAddresses (.ofList entries) french), rfl⟩
  refine ⟨.ofList [(.english, .ofList entries),
    (.german, Table.withAddresses (.ofList entries) german),
    (.french, Table.withAddresses (.ofList entries) french)], .ofList entries, ?_,
    Catalog.collects_ofList entries, rfl⟩
  change Index.ofPal bytes offset = _
  simp only [Index.ofPal, bind, Except.bind, henglish, hgerman, hfrench]

/-- The table has the words as the addresses of the ids without repetitions, place for place.
So it follows the words exactly where ids and words are in step, and wherever no id comes
twice. -/
structure Positional (table : Table) (ids words : List ℕ) : Prop where
  address_eq : ∀ id ∈ ids, (table.get? id).map TableEntry.address =
    words[ids.eraseDups.idxOf id]?.map addressOf
  follows_iff : table.Follows ids words ↔ InStep ids words
  follows_of_nodup : (ids.take words.length).Nodup → table.Follows ids words

lemma positional_withAddresses {english : Table} (h : english.Collects entries)
    (words : List ℕ) :
    Positional (english.withAddresses words) (entries.map Prod.fst) words where
  address_eq _ := Table.address_withAddresses_of_mem h.keys_eq
  follows_iff := Table.follows_withAddresses_iff h.keys_eq
  follows_of_nodup hnodup :=
    (Table.follows_withAddresses_iff h.keys_eq).mpr (Table.inStep_of_nodup hnodup)

/-- The index has tables for English, German and French, the last two with the addresses
place for place. -/
theorem ofSource_positional (h : PalAt bytes offset entries german french) :
    ∃ index english inGerman inFrench,
      Index.ofSource (some .oot) (some .pal) (.code bytes offset) = .ok index ∧
      index.entries = [(.english, english), (.german, inGerman), (.french, inFrench)] ∧
      english.Collects entries ∧ Positional inGerman (entries.map Prod.fst) german ∧
      Positional inFrench (entries.map Prod.fst) french := by
  obtain ⟨index, english, hindex, hcollects, hentries⟩ := ofSource_of_palAt h
  exact ⟨index, english, _, _, hindex, hentries, hcollects,
    positional_withAddresses hcollects german, positional_withAddresses hcollects french⟩

lemma palAt_of_read (hentries : Table.closedEntries? (bytes.drop offset) = some entries)
    (hgerman : Table.wordsToZero?
      (bytes.drop (offset + (entries.length + 1) * Table.entrySize)) = some german)
    (hfrench : Table.wordsToZero? (bytes.drop
      (offset + (entries.length + 1) * Table.entrySize + (german.length + 1) * 4)) =
        some french) :
    PalAt bytes offset entries german french where
  closed := (Table.walks_closedEntries? bytes).eq_some_iff.mp hentries
  german_listed := (Table.walks_wordsToZero? bytes).eq_some_iff.mp hgerman
  french_listed := (Table.walks_wordsToZero? bytes).eq_some_iff.mp hfrench

/-- An id that comes again where the words have ended does no harm. -/
theorem ofSource_positional_sample :
    let bytes : Bytes := [
      0, 1, 0x10, 0, 7, 0, 0, 0, 0, 2, 0, 0, 7, 0, 0, 4, 0, 1, 0x23, 0, 7, 0, 0, 8,
      0xFF, 0xFF, 0, 0, 0, 0, 0, 0, 7, 0, 0, 0x10, 7, 0, 0, 0x20, 0, 0, 0, 0, 0, 0, 0, 0]
    let entries :=
      [(1, ⟨.wooden, .varying, 0⟩), (2, ⟨.black, .varying, 4⟩), (1, ⟨.blue, .bottom, 8⟩)]
    PalAt bytes 0 entries [0x07000010, 0x07000020] [] ∧
      ∃ index english inGerman inFrench,
        Index.ofSource (some .oot) (some .pal) (.code bytes 0) = .ok index ∧
        index.entries = [(.english, english), (.german, inGerman), (.french, inFrench)] ∧
        inGerman.Follows [1, 2, 1] [0x07000010, 0x07000020] := by
  intro bytes entries
  have hpal : PalAt bytes 0 entries [0x07000010, 0x07000020] [] :=
    palAt_of_read (by decide +kernel) (by decide +kernel) (by decide +kernel)
  obtain ⟨index, english, inGerman, inFrench, hindex, hentries, -, hgerman, -⟩ :=
    ofSource_positional hpal
  exact ⟨hpal, index, english, inGerman, inFrench, hindex, hentries,
    hgerman.follows_of_nodup (by decide)⟩

/-- Behind an id that comes twice the words go with other ids than those at their places. -/
theorem not_follows_repeated :
    let bytes : Bytes := [
      0, 1, 0, 0, 7, 0, 0, 0, 0, 1, 0, 0, 7, 0, 0, 4, 0, 2, 0, 0, 7, 0, 0, 8,
      0xFF, 0xFF, 0, 0, 0, 0, 0, 0,
      7, 0, 0, 0x10, 7, 0, 0, 0x20, 7, 0, 0, 0x30, 0, 0, 0, 0,
      7, 0, 0, 0x40, 7, 0, 0, 0x50, 7, 0, 0, 0x60, 0, 0, 0, 0]
    let entries :=
      [(1, ⟨.black, .varying, 0⟩), (1, ⟨.black, .varying, 4⟩), (2, ⟨.black, .varying, 8⟩)]
    let german := [0x07000010, 0x07000020, 0x07000030]
    let french := [0x07000040, 0x07000050, 0x07000060]
    PalAt bytes 0 entries german french ∧ german.length ≤ entries.length ∧
      french.length ≤ entries.length ∧
      ¬ ∃ index english inGerman inFrench,
        Index.ofSource (some .oot) (some .pal) (.code bytes 0) = .ok index ∧
        index.entries = [(.english, english), (.german, inGerman), (.french, inFrench)] ∧
        inGerman.Follows (entries.map Prod.fst) german ∧
        inFrench.Follows (entries.map Prod.fst) french := by
  intro bytes entries german french
  have hpal : PalAt bytes 0 entries german french :=
    palAt_of_read (by decide +kernel) (by decide +kernel) (by decide +kernel)
  refine ⟨hpal, by decide, by decide, ?_⟩
  rintro ⟨index, english, inGerman, inFrench, hindex, hentries, hfollows, -⟩
  obtain ⟨index', english', hindex', hcollects, hentries'⟩ := ofSource_of_palAt hpal
  obtain rfl : index = index' := Except.ok.inj (hindex.symm.trans hindex')
  have hparts := hentries.symm.trans hentries'
  simp only [List.cons.injEq, Prod.mk.injEq, true_and, and_true] at hparts
  obtain ⟨rfl, rfl, rfl⟩ := hparts
  have hstep := (Table.follows_withAddresses_iff hcollects.keys_eq).mp hfollows
  have hlast : LastPosition (entries.map Prod.fst) german.length 2 2 :=
    ⟨by decide, rfl, fun j hj hlt => absurd hlt (Nat.not_lt.mpr hj)⟩
  exact absurd (hstep 2 2 hlast) (by decide)

end Cartridge.Message
