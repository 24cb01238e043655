import Cartridge.Proofs.Message.TableLayout
import Cartridge.Proofs.Result

/-!
# Message tables of a release

The game and the region of a release decide which languages it has and whether their tables
come from the code file or from files of their own. Where the source is the one that goes
with the release, all that can go wrong is a table without an end. However a table is read,
it has no entry with the last id, and its addresses are without a segment.
-/
namespace Cartridge.Message

namespace Table

variable {bytes : Bytes} {offset : ℕ} {ids table : Table}

/-- An entry that a table may have. -/
structure Recorded (e : ℕ × TableEntry) : Prop where
  id_ne : e.1 ≠ lastId
  address_lt : e.2.address < 2 ^ 24

lemma addressOf_lt (word : ℕ) : addressOf word < 2 ^ 24 := Nat.mod_lt word (by decide)

lemma recorded_of_entryAt? {position : ℕ} {e : ℕ × TableEntry}
    (h : entryAt? bytes position = some e) (hid : e.1 ≠ lastId) : Recorded e := by
  refine ⟨hid, ?_⟩
  simp only [entryAt?, bind, Option.bind_eq_some_iff] at h
  obtain ⟨id, -, info, -, address, -, he⟩ := h
  cases he
  exact addressOf_lt address

lemma recorded_of_closedAt {entries : List (ℕ × TableEntry)} (h : ClosedAt bytes offset entries) :
    ∀ e ∈ entries, Recorded e := by
  intro e he
  obtain ⟨k, hk⟩ := List.mem_iff_getElem?.mp he
  obtain ⟨hlt, -⟩ := List.getElem?_eq_some_iff.mp hk
  exact recorded_of_entryAt? ((h.item_at k hlt).trans hk) (h.not_last e he)

lemma recorded_ofList {entries : List (ℕ × TableEntry)} (h : ∀ e ∈ entries, Recorded e) :
    ∀ e ∈ (Catalog.ofList entries).entries, Recorded e :=
  fun e he => h e (Catalog.mem_of_mem_ofList he)

lemma recorded_withAddresses (h : ∀ e ∈ ids.entries, Recorded e) (words : List ℕ) :
    ∀ e ∈ (withAddresses ids words).entries, Recorded e := by
  intro e he
  obtain ⟨k, hk⟩ := List.mem_iff_getElem?.mp he
  change (readdress ids.entries words)[k]? = some e at hk
  rw [readdress, List.getElem?_zipWith_eq_some] at hk
  obtain ⟨e', word, he', -, rfl⟩ := hk
  exact ⟨(h e' (List.mem_of_getElem? he')).id_ne, addressOf_lt word⟩

lemma address_lt_of_mem_entriesOf {e : ℕ × TableEntry} (h : e ∈ entriesOf bytes) :
    e.2.address < 2 ^ 24 := by
  induction bytes using entriesOf.induct with
  | case1 i0 i1 info pad a0 a1 a2 a3 rest ih =>
    rw [entriesOf] at h
    rcases List.mem_cons.mp h with rfl | h
    · exact addressOf_lt _
    · exact ih h
  | case2 bytes hshort =>
    rw [entriesOf] at h
    · cases h
    · exact hshort

lemma recorded_ofFile (bytes : Bytes) : ∀ e ∈ (ofFile bytes).entries, Recorded e := by
  apply recorded_ofList
  intro e he
  obtain ⟨hmem, hid⟩ := List.mem_filter.mp he
  exact ⟨by simpa using hid, address_lt_of_mem_entriesOf hmem⟩

def IsOpen (e : Cartridge.Error) : Prop :=
  ∃ offset, e = .image (.bad (.openMessageTable offset))

lemma settles_read (bytes : Bytes) (offset : ℕ) :
    Settles (fun part => ∀ e ∈ part.1.entries, Recorded e) IsOpen (read bytes offset) := by
  cases hread : read bytes offset with
  | error e => exact .error ⟨offset, (read_eq_error_iff.mp hread).2⟩
  | ok part =>
    obtain ⟨entries, hclosed, hcollects, -⟩ := read_eq_ok_iff.mp hread
    apply Settles.ok
    rw [Catalog.collects_iff.mp hcollects]
    exact recorded_ofList (recorded_of_closedAt hclosed)

lemma settles_readAddresses (offset : ℕ) (h : ∀ e ∈ ids.entries, Recorded e) :
    Settles (fun part => ∀ e ∈ part.1.entries, Recorded e) IsOpen
      (readAddresses bytes offset ids) := by
  cases hread : readAddresses bytes offset ids with
  | error e => exact .error ⟨offset, (orOpen_eq_error_iff.mp hread).2⟩
  | ok part =>
    obtain ⟨words, -, htable, -⟩ := readAddresses_eq_ok_iff.mp hread
    apply Settles.ok
    rw [htable]
    exact recorded_withAddresses h words

end Table

open Table (Recorded settles_read settles_readAddresses)

/-- The languages of a game for a region, in the order of their tables. -/
def tableLanguages? : Game → Region → Option (List Language)
  | .oot, .ntsc => some [.japanese, .english]
  | .oot, .pal => some [.english, .german, .french]
  | .mm, .jp => some [.japanese]
  | .mm, .us => some [.english]
  | .mm, .eu => some [.english, .german, .french, .spanish]
  | _, _ => none

/-- A source that goes with a game for a region: a file for each language in the European
Majora's Mask, and the code file in all others. -/
def TableSource.Fits (game : Game) (region : Region) : TableSource → Prop
  | code _ _ => ¬ (game = .mm ∧ region = .eu)
  | files parts => game = .mm ∧ region = .eu ∧
    parts.map Prod.fst = [.english, .german, .french, .spanish]

namespace Index

/-- An index of tables for these languages, with entries that a table may have. -/
structure Lists (index : Index) (languages : List Language) : Prop where
  keys_eq : index.keys = languages
  recorded : ∀ part ∈ index.entries, ∀ e ∈ part.2.entries, Recorded e

variable {code : Bytes} {offset : ℕ} {index : Index}

lemma settles_ofNtsc (code : Bytes) (offset : ℕ) :
    Settles (Lists · [.japanese, .english]) Table.IsOpen (ofNtsc code offset) := by
  refine (settles_read code offset).bind ?_
  rintro ⟨japanese, next⟩ hjapanese
  refine (settles_read code next).bind ?_
  rintro ⟨english, stop⟩ henglish
  exact .ok ⟨rfl, List.forall_mem_cons.mpr ⟨hjapanese, List.forall_mem_singleton.mpr henglish⟩⟩

lemma settles_ofPal (code : Bytes) (offset : ℕ) :
    Settles (Lists · [.english, .german, .french]) Table.IsOpen (ofPal code offset) := by
  refine (settles_read code offset).bind ?_
  rintro ⟨english, next⟩ henglish
  refine (settles_readAddresses next henglish).bind ?_
  rintro ⟨german, next⟩ hgerman
  refine (settles_readAddresses next henglish).bind ?_
  rintro ⟨french, stop⟩ hfrench
  exact .ok ⟨rfl, List.forall_mem_cons.mpr ⟨henglish,
    List.forall_mem_cons.mpr ⟨hgerman, List.forall_mem_singleton.mpr hfrench⟩⟩⟩

lemma settles_ofSingle (language : Language) (code : Bytes) (offset : ℕ) :
    Settles (Lists · [language]) Table.IsOpen (ofSingle language code offset) := by
  refine (settles_read code offset).bind ?_
  rintro ⟨table, stop⟩ htable
  exact .ok ⟨rfl, List.forall_mem_singleton.mpr htable⟩

/-- Files of different languages give a table for each of them. -/
lemma lists_ofFiles {files : List (Language × Bytes)} {languages : List Language}
    (h : files.map Prod.fst = languages) (hdistinct : languages.eraseDups = languages) :
    (ofFiles files).Lists languages where
  keys_eq := by
    have hkeys : (files.map fun file => (file.1, Table.ofFile file.2)).map Prod.fst =
        languages := by
      rw [← h, List.map_map]
      rfl
    rw [ofFiles, (Catalog.collects_ofList _).keys_eq, hkeys, hdistinct]
  recorded := by
    intro part hpart
    obtain ⟨file, -, rfl⟩ := List.mem_map.mp (Catalog.mem_of_mem_ofList hpart)
    exact Table.recorded_ofFile file.2

/-- The source that goes with a release has the tables of its languages, or one of them does
not end. -/
theorem settles_ofSource {game : Game} {region : Region} {languages : List Language}
    {source : TableSource} (hlanguages : tableLanguages? game region = some languages)
    (hfits : source.Fits game region) :
    Settles (Lists · languages) Table.IsOpen (ofSource (some game) (some region) source) := by
  cases source with
  | code code offset =>
    cases game <;> cases region <;> cases hlanguages
    · exact settles_ofNtsc code offset
    · exact settles_ofPal code offset
    · exact settles_ofSingle .japanese code offset
    · exact settles_ofSingle .english code offset
    · exact (hfits ⟨rfl, rfl⟩).elim
  | files files =>
    obtain ⟨rfl, rfl, hfiles⟩ := hfits
    cases hlanguages
    exact .ok (lists_ofFiles hfiles (by decide))

/-- For another source there is no layout. -/
example (files : List (Language × Bytes)) :
    ofSource (some .mm) (some .us) (.files files) = .error (.noLayout (some .mm) (some .us)) :=
  rfl

end Index

end Cartridge.Message
