import Cartridge.Proofs.Message.TableLayout
import Cartridge.Proofs.Result

/-!
# Indexes of closed tables

The index of Ocarina of Time for NTSC is two closed tables, of which the second begins
where the first ends, and that of Majora's Mask for Japan or the United States is one.
What the bytes lay out is what is read, and nothing around it matters.
-/
namespace Cartridge.Message

variable {bytes other : Bytes} {offset : ℕ}

namespace Index

theorem ofNtsc_eq_ok_iff {index : Index} :
    ofNtsc bytes offset = .ok index ↔
      ∃ japanese english next stop, Table.read bytes offset = .ok (japanese, next) ∧
        Table.read bytes next = .ok (english, stop) ∧
        index.entries = [(.japanese, japanese), (.english, english)] := by
  simp only [ofNtsc, bind_eq_ok, Prod.exists]
  constructor
  · rintro ⟨japanese, next, hjapanese, english, stop, henglish, hindex⟩
    cases hindex
    exact ⟨japanese, english, next, stop, hjapanese, henglish, rfl⟩
  · rintro ⟨japanese, english, next, stop, hjapanese, henglish, hindex⟩
    refine ⟨japanese, next, hjapanese, english, stop, henglish, ?_⟩
    exact congrArg Except.ok (Catalog.ext hindex.symm)

theorem ofNtsc_eq_error_iff {e : Cartridge.Error} :
    ofNtsc bytes offset = .error e ↔
      Table.read bytes offset = .error e ∨
        ∃ japanese next, Table.read bytes offset = .ok (japanese, next) ∧
          Table.read bytes next = .error e := by
  simp only [ofNtsc, bind_eq_error, Prod.exists, reduceCtorEq, and_false, exists_false, or_false]

theorem ofSingle_eq_ok_iff {language : Language} {index : Index} :
    ofSingle language bytes offset = .ok index ↔
      ∃ table stop, Table.read bytes offset = .ok (table, stop) ∧
        index.entries = [(language, table)] := by
  simp only [ofSingle, bind_eq_ok, Prod.exists]
  constructor
  · rintro ⟨table, stop, hread, hindex⟩
    cases hindex
    exact ⟨table, stop, hread, rfl⟩
  · rintro ⟨table, stop, hread, hindex⟩
    exact ⟨table, stop, hread, congrArg Except.ok (Catalog.ext hindex.symm)⟩

theorem ofSingle_eq_error_iff {language : Language} {e : Cartridge.Error} :
    ofSingle language bytes offset = .error e ↔ Table.read bytes offset = .error e := by
  simp only [ofSingle, bind_eq_error, reduceCtorEq, and_false, exists_false, or_false]

lemma ofNtsc_of_agreeOn {japanese english : Table} {next stop : ℕ}
    (hjapanese : Table.read bytes offset = .ok (japanese, next))
    (henglish : Table.read bytes next = .ok (english, stop))
    (hagree : bytes.AgreeOn other offset stop) : ofNtsc other offset = ofNtsc bytes offset := by
  have hjapanese' := Table.read_of_agreeOn hjapanese
    (hagree.mono (Nat.le_refl _) (Table.le_of_read henglish))
  have henglish' := Table.read_of_agreeOn henglish
    (hagree.mono (Table.le_of_read hjapanese) (Nat.le_refl _))
  simp only [ofNtsc, bind, Except.bind, hjapanese, henglish, hjapanese', henglish']

lemma ofSingle_of_agreeOn {table : Table} {stop : ℕ}
    (hread : Table.read bytes offset = .ok (table, stop))
    (hagree : bytes.AgreeOn other offset stop) (language : Language) :
    ofSingle language other offset = ofSingle language bytes offset := by
  simp only [ofSingle, hread, Table.read_of_agreeOn hread hagree]

lemma drop_eq_of_le {start : ℕ} (h : other.drop offset = bytes.drop offset)
    (hle : offset ≤ start) : other.drop start = bytes.drop start := by
  obtain ⟨n, rfl⟩ := Nat.exists_eq_add_of_le hle
  rw [← List.drop_drop, ← List.drop_drop, h]

/-- The bytes in front of the tables do not matter. -/
theorem ofSource_of_drop_eq (h : other.drop offset = bytes.drop offset) (game : Option Game)
    (region : Option Region) :
    ofSource game region (.code other offset) = ofSource game region (.code bytes offset) := by
  have hread := Table.read_of_drop_eq h
  have hnext : ∀ {table next}, Table.read bytes offset = .ok (table, next) →
      other.drop next = bytes.drop next := fun hok => drop_eq_of_le h (Table.le_of_read hok)
  have hntsc : ofNtsc other offset = ofNtsc bytes offset := by
    unfold ofNtsc
    rw [hread]
    cases hok : Table.read bytes offset with
    | error e => rfl
    | ok japanese => simp only [bind, Except.bind, Table.read_of_drop_eq (hnext hok)]
  have hpal : ofPal other offset = ofPal bytes offset := by
    unfold ofPal
    rw [hread]
    cases hok : Table.read bytes offset with
    | error e => rfl
    | ok english =>
      simp only [bind, Except.bind, Table.readAddresses_of_drop_eq (hnext hok)]
      cases hgerman : Table.readAddresses bytes english.2 english.1 with
      | error e => rfl
      | ok german =>
        have hlater := drop_eq_of_le (hnext hok) (Table.le_of_readAddresses hgerman)
        simp only [Table.readAddresses_of_drop_eq hlater]
  have hsingle : ∀ language, ofSingle language other offset = ofSingle language bytes offset := by
    intro language
    unfold ofSingle
    rw [hread]
  match game, region with
  | some .oot, some .ntsc => exact hntsc
  | some .oot, some .pal => exact hpal
  | some .mm, some .jp | some .mm, some .us => exact hsingle _
  | none, _ | some .oot, none | some .mm, none => rfl
  | some .oot, some .jp | some .oot, some .us | some .oot, some .eu => rfl
  | some .mm, some .ntsc | some .mm, some .pal | some .mm, some .eu => rfl

end Index

/-- How the closed tables that the bytes hold from an offset on are read. -/
structure ClosedReadings (bytes : Bytes) (offset : ℕ) : Prop where
  /-- A table is read exactly where some entry with the last id lies in the bytes. -/
  read_iff : (∃ result, Table.read bytes offset = .ok result) ↔
    ∃ k, Table.LastAt bytes offset k
  /-- It is the catalog of the entries before the first such entry, and ends behind this. -/
  read_ok_iff : ∀ table stop, Table.read bytes offset = .ok (table, stop) ↔
    ∃ entries, Table.ClosedAt bytes offset entries ∧ table.Collects entries ∧
      stop = offset + (entries.length + 1) * Table.entrySize
  /-- Elsewhere the error tells the offset. -/
  read_error_iff : ∀ e, Table.read bytes offset = .error e ↔
    (∀ k, ¬ Table.LastAt bytes offset k) ∧ e = .image (.bad (.openMessageTable offset))
  ntsc_ok_iff : ∀ index,
    Index.ofSource (some .oot) (some .ntsc) (.code bytes offset) = .ok index ↔
      ∃ japanese english next stop, Table.read bytes offset = .ok (japanese, next) ∧
        Table.read bytes next = .ok (english, stop) ∧
        index.entries = [(.japanese, japanese), (.english, english)]
  ntsc_error_iff : ∀ e,
    Index.ofSource (some .oot) (some .ntsc) (.code bytes offset) = .error e ↔
      Table.read bytes offset = .error e ∨
        ∃ japanese next, Table.read bytes offset = .ok (japanese, next) ∧
          Table.read bytes next = .error e
  single_ok_iff : ∀ part ∈ [(Region.jp, Language.japanese), (Region.us, Language.english)],
    ∀ index, Index.ofSource (some .mm) (some part.1) (.code bytes offset) = .ok index ↔
      ∃ table stop, Table.read bytes offset = .ok (table, stop) ∧
        index.entries = [(part.2, table)]
  single_error_iff : ∀ region ∈ [Region.jp, Region.us], ∀ e,
    Index.ofSource (some .mm) (some region) (.code bytes offset) = .error e ↔
      Table.read bytes offset = .error e
  /-- Where tables are read, the bytes in front of them and behind them do not matter. -/
  read_around : ∀ other table stop, Table.read bytes offset = .ok (table, stop) →
    bytes.AgreeOn other offset stop → Table.read other offset = .ok (table, stop)
  ntsc_around : ∀ other japanese english next stop,
    Table.read bytes offset = .ok (japanese, next) →
    Table.read bytes next = .ok (english, stop) → bytes.AgreeOn other offset stop →
      Index.ofSource (some .oot) (some .ntsc) (.code other offset) =
        Index.ofSource (some .oot) (some .ntsc) (.code bytes offset)
  single_around : ∀ region ∈ [Region.jp, Region.us], ∀ other table stop,
    Table.read bytes offset = .ok (table, stop) → bytes.AgreeOn other offset stop →
      Index.ofSource (some .mm) (some region) (.code other offset) =
        Index.ofSource (some .mm) (some region) (.code bytes offset)
  /-- Where none are, the bytes in front of the offset do not matter. -/
  before : ∀ other, (∀ stop, bytes.AgreeOn other offset stop) →
    Table.read other offset = Table.read bytes offset ∧ ∀ game region,
      Index.ofSource game region (.code other offset) =
        Index.ofSource game region (.code bytes offset)

/-- Closed tables are what the bytes lay out. -/
theorem closedReadings (bytes : Bytes) (offset : ℕ) : ClosedReadings bytes offset where
  read_iff := Table.exists_read_eq_ok_iff
  read_ok_iff _ _ := Table.read_eq_ok_iff
  read_error_iff _ := Table.read_eq_error_iff
  ntsc_ok_iff _ := Index.ofNtsc_eq_ok_iff
  ntsc_error_iff _ := Index.ofNtsc_eq_error_iff
  single_ok_iff := by
    simp only [List.forall_mem_cons, List.not_mem_nil, IsEmpty.forall_iff, implies_true, and_true]
    exact ⟨fun _ => Index.ofSingle_eq_ok_iff, fun _ => Index.ofSingle_eq_ok_iff⟩
  single_error_iff := by
    simp only [List.forall_mem_cons, List.not_mem_nil, IsEmpty.forall_iff, implies_true, and_true]
    exact ⟨fun _ => Index.ofSingle_eq_error_iff, fun _ => Index.ofSingle_eq_error_iff⟩
  read_around _ _ _ := Table.read_of_agreeOn
  ntsc_around _ _ _ _ _ := Index.ofNtsc_of_agreeOn
  single_around := by
    simp only [List.forall_mem_cons, List.not_mem_nil, IsEmpty.forall_iff, implies_true, and_true]
    exact ⟨fun _ _ _ hread hagree => Index.ofSingle_of_agreeOn hread hagree .japanese,
      fun _ _ _ hread hagree => Index.ofSingle_of_agreeOn hread hagree .english⟩
  before other h := by
    have hdrop := Bytes.drop_of_agreeOn h
    exact ⟨Table.read_of_drop_eq hdrop, Index.ofSource_of_drop_eq hdrop⟩

end Cartridge.Message
