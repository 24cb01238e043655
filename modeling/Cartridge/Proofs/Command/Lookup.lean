import Cartridge.Proofs.Command.RoundTrip

/-!
# Looking up the opcode of a word

A word is looked up among the opcodes with its top byte. The byte is part of what an opcode
fixes, so a search through the whole table finds the same opcode, and no other one matches the
word. A command that is read and an error are of this opcode, and a word is read as nothing
where the search finds nothing.
-/
namespace Cartridge

namespace Opcode

variable {op : Opcode} {word : UInt64}

/-- No two places of the table match one word. -/
theorem pairwise_not_matches (word : UInt64) :
    all.Pairwise fun a b => ¬ (a.Matches word ∧ b.Matches word) := by
  have hbytes : all.Pairwise fun a b => a.byte ≠ b.byte := List.pairwise_map.mp nodup_bytes
  refine hbytes.imp ?_
  rintro a b hne ⟨ha, hb⟩
  exact hne (congrArg byte (eq_of_matches ha hb))

/-- The search among the opcodes with the top byte is one through the table. -/
theorem ofWord?_eq_find? (word : UInt64) : ofWord? word = all.find? (·.Matches word) := by
  rw [ofWord?, withByte_eq_filter (Word.field_lt word 56 8), List.find?_filter]
  congr 1
  funext op
  rw [Bool.eq_iff_iff]
  simp only [decide_eq_true_iff]
  exact and_iff_right_of_imp fun h => (field_byte_of_matches h).symm

lemma ofWord?_eq_none_iff : ofWord? word = none ↔ ∀ op ∈ all, ¬ op.Matches word := by
  rw [ofWord?_eq_find?, List.find?_eq_none]
  simp only [decide_eq_true_iff]

/-- The first opcode with the byte of an opcode is that opcode. -/
lemma head?_withByte (op : Opcode) : (withByte op.byte).head? = some op := by
  have hlt : op.byte < 256 := by cases op <;> decide
  rw [withByte_eq_filter hlt, List.head?_filter]
  cases hfind : all.find? (·.byte = op.byte) with
  | none =>
    have hnone := List.find?_eq_none.mp hfind op (mem_all op)
    exact absurd (decide_eq_true rfl) hnone
  | some found =>
    have hbyte := List.find?_some hfind
    rw [byte_injective (of_decide_eq_true hbyte)]

lemma mnemonicOf_byte (op : Opcode) : mnemonicOf op.byte = op.mnemonic := by
  unfold mnemonicOf
  rw [head?_withByte]

/-- The opcode that a word matches is the one found, and the top byte tells its name. -/
lemma find?_of_matches (h : op.Matches word) :
    all.find? (·.Matches word) = some op ∧ op.byte = Word.field word 56 8 ∧
      op.mnemonic = mnemonicOf (Word.field word 56 8) := by
  have hbyte := field_byte_of_matches h
  refine ⟨?_, hbyte.symm, ?_⟩
  · rw [← ofWord?_eq_find?, ofWord?_eq_some_iff.mpr h]
  · rw [hbyte, mnemonicOf_byte]

end Opcode

namespace Command

variable {word : UInt64}

lemma settles_readAs (op : Opcode) :
    Settles (fun c => c.opcode = op) (fun e => e.opcode = op ∧ e.word = word)
      (readAs op word) := by
  unfold readAs
  split
  · next c hread => exact .ok (makes_readFields op c hread)
  · exact .error ⟨rfl, rfl⟩

/-- Reading a word goes by what the lookup finds. -/
lemma read_of_ofWord? {found : Option Opcode} (h : Opcode.ofWord? word = found) :
    read word = found.elim (.ok none) fun op => (readAs op word).map some := by
  unfold read
  rw [h]
  cases found <;> rfl

/-- What a word is read as says which opcode was found for it, and an error shows the word. -/
theorem settles_read (word : UInt64) :
    Settles (fun found => Opcode.ofWord? word = found.map opcode)
      (fun e => Opcode.ofWord? word = some e.opcode ∧ e.word = word) (read word) := by
  cases hop : Opcode.ofWord? word with
  | none =>
    rw [read_of_ofWord? hop]
    exact .ok rfl
  | some op =>
    rw [read_of_ofWord? hop]
    refine ((settles_readAs op).map fun c hc => ?_).mono_error fun e he => ?_
    · rw [Option.map_some, hc]
    · exact ⟨congrArg some he.1.symm, he.2⟩

lemma read_eq_none_iff : read word = .ok none ↔ Opcode.ofWord? word = none := by
  constructor
  · exact (settles_read word).of_eq_ok
  · exact read_of_ofWord?

/-- The opcode of a word is the first one of the table that matches it, and the only one. A word
is read as nothing when there is none. A command that is read is of this opcode, the top byte
says which it is, and so it is with an error, which shows the word as it is. -/
theorem read_agrees_search (word : UInt64) :
    (Opcode.all.Pairwise fun a b => ¬ (a.Matches word ∧ b.Matches word)) ∧
    Opcode.ofWord? word = Opcode.all.find? (·.Matches word) ∧
    (Opcode.ofWord? word = none ↔ ∀ op ∈ Opcode.all, ¬ op.Matches word) ∧
    (read word = .ok none ↔ ∀ op ∈ Opcode.all, ¬ op.Matches word) ∧
    (∀ c, read word = .ok (some c) →
      Opcode.all.find? (·.Matches word) = some c.opcode ∧
        c.opcode.byte = Word.field word 56 8 ∧
        c.opcode.mnemonic = Opcode.mnemonicOf (Word.field word 56 8)) ∧
    ∀ e, read word = .error e →
      Opcode.all.find? (·.Matches word) = some e.opcode ∧ e.word = word ∧
        e.opcode.mnemonic = Opcode.mnemonicOf (Word.field word 56 8) := by
  refine ⟨Opcode.pairwise_not_matches word, Opcode.ofWord?_eq_find? word,
    Opcode.ofWord?_eq_none_iff, read_eq_none_iff.trans Opcode.ofWord?_eq_none_iff, ?_, ?_⟩
  · intro c h
    have hop := (settles_read word).of_eq_ok h
    exact Opcode.find?_of_matches (Opcode.ofWord?_eq_some_iff.mp hop)
  · intro e h
    obtain ⟨hop, hword⟩ := (settles_read word).of_eq_error h
    obtain ⟨hfind, -, hmnemonic⟩ :=
      Opcode.find?_of_matches (Opcode.ofWord?_eq_some_iff.mp hop)
    exact ⟨hfind, hword, hmnemonic⟩

/-- A load of four vertices, and one of none, which is an error. -/
theorem read_agrees_search_vtx :
    let loads : UInt64 := 0x0100400C06001000
    let fails : UInt64 := 0x0100000006001000
    (read loads = .ok (some (vtx 4 2 ⟨0x06001000⟩)) ∧
      Opcode.all.find? (·.Matches loads) = some .vtx) ∧
    read fails = .error ⟨.vtx, fails, .noVertices⟩ ∧
      Opcode.all.find? (·.Matches fails) = some .vtx := by
  intro loads fails
  have hwf : (vtx 4 2 ⟨0x06001000⟩).WellFormed := by
    simp [WellFormed, Address.WellFormed, Address.segment]
  have hloads : read loads = .ok (some (vtx 4 2 ⟨0x06001000⟩)) :=
    read_eq_some_iff.mpr ⟨hwf, by decide⟩
  have hvtx : Opcode.ofWord? fails = some .vtx := Opcode.ofWord?_eq_some_iff.mpr (by decide)
  have hcount : Word.field fails 44 8 = 0 := by decide
  have hfails : read fails = .error ⟨.vtx, fails, .noVertices⟩ := by
    rw [read_of_ofWord? hvtx]
    simp only [Option.elim, readAs, readFields, readVtx, hcount, if_pos, Except.map]
  obtain ⟨-, -, -, -, hcommand, -⟩ := read_agrees_search loads
  obtain ⟨-, -, -, -, -, herror⟩ := read_agrees_search fails
  exact ⟨⟨hloads, (hcommand _ hloads).1⟩, hfails, (herror _ hfails).1⟩

end Command

end Cartridge
