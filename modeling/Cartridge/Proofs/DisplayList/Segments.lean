import Cartridge.Proofs.Bytes.Numbers
import Cartridge.Proofs.DisplayList.Scan
import Mathlib.Data.Nat.Find
import Mathlib.Order.Bounds.Defs

/-!
# The display lists of a file

Each end command of a file ends one display list, which reaches back as far as
words go on with it. There are no other lists, and no two of them overlap.
-/
namespace Cartridge.DisplayList

lemma wordsOnto_eq : ∀ (bytes : Bytes) (done : List UInt64),
    wordsOnto done bytes = done.reverse ++ words bytes
  | a :: b :: c :: d :: e :: f :: g :: h :: rest, done => by
    rw [words, wordsOnto, wordsOnto, wordsOnto_eq rest, wordsOnto_eq rest [_]]
    simp
  | [], done | [_], done | [_, _], done | [_, _, _], done | [_, _, _, _], done
  | [_, _, _, _, _], done | [_, _, _, _, _, _], done | [_, _, _, _, _, _, _], done => by
    simp [words, wordsOnto]

lemma words_of_length_lt {bytes : Bytes} (h : bytes.length < wordSize) : words bytes = [] := by
  rw [words, wordsOnto]
  · rfl
  · rintro a b c d e f g i rest rfl
    simp only [wordSize, List.length_cons] at h
    omega

lemma words_of_le_length {bytes : Bytes} (h : wordSize ≤ bytes.length) :
    ∃ word, bytes.u64? 0 = some word ∧ words bytes = word :: words (bytes.drop wordSize) := by
  match bytes, h with
  | a :: b :: c :: d :: e :: f :: g :: i :: rest, _ =>
    refine ⟨UInt64.ofNat (Bytes.toNat [a, b, c, d, e, f, g, i]), rfl, ?_⟩
    rw [words, wordsOnto, wordsOnto_eq]
    rfl

/-- The words of a file are the numbers that stand at multiples of eight. -/
theorem getElem?_words (bytes : Bytes) (j : ℕ) :
    (words bytes)[j]? = bytes.u64? (j * wordSize) := by
  induction j generalizing bytes with
  | zero =>
    rw [Nat.zero_mul]
    by_cases h : wordSize ≤ bytes.length
    · obtain ⟨word, hword, hwords⟩ := words_of_le_length h
      rw [hword, hwords, List.getElem?_cons_zero]
    · simp only [wordSize] at h
      rw [words_of_length_lt (Nat.lt_of_not_le h), Bytes.u64?_eq_none_iff.mpr (by omega)]
      rfl
  | succ j ih =>
    by_cases h : wordSize ≤ bytes.length
    · obtain ⟨word, -, hwords⟩ := words_of_le_length h
      rw [hwords, List.getElem?_cons_succ, ih, Bytes.u64?_drop, Nat.succ_mul, Nat.add_comm]
    · simp only [wordSize] at h
      have hnone : bytes.length < (j + 1) * wordSize + 8 := by
        simp only [wordSize]
        omega
      rw [words_of_length_lt (Nat.lt_of_not_le h), Bytes.u64?_eq_none_iff.mpr hnone]
      rfl

/-- A run ends with the first end command. -/
theorem Run.getElem {words : List UInt64} {commands : List Command} (h : Run words commands) :
    ∃ e, commands.length = e + 1 ∧ words[e]? = some endWord ∧ commands[e]? = some .endDl ∧
      ∀ j < e, ∃ word command, words[j]? = some word ∧ word ≠ endWord ∧
        Command.read word = .ok (some command) ∧ commands[j]? = some command := by
  induction h with
  | stop rest => exact ⟨0, rfl, rfl, rfl, fun j hj => absurd hj (Nat.not_lt_zero j)⟩
  | @more word command rest commands hne hread run ih =>
    obtain ⟨e, hlength, hend, hlast, hreads⟩ := ih
    refine ⟨e + 1, by rw [List.length_cons, hlength], hend, hlast, ?_⟩
    intro j hj
    cases j with
    | zero => exact ⟨word, command, rfl, hne, hread, rfl⟩
    | succ j => exact hreads j (by omega)

/-- Words that go on with a list up to an end command open with a run. -/
theorem exists_run {words : List UInt64} {e : ℕ} (hend : words[e]? = some endWord)
    (h : ∀ j < e, ∃ word, words[j]? = some word ∧ Continues word) :
    ∃ commands, Run words commands ∧ commands.length = e + 1 := by
  induction e generalizing words with
  | zero =>
    cases words with
    | nil => cases hend
    | cons word rest =>
      cases hend
      exact ⟨_, .stop rest, rfl⟩
  | succ e ih =>
    cases words with
    | nil => cases hend
    | cons word rest =>
      obtain ⟨_, hword, hne, command, hread⟩ := h 0 (Nat.succ_pos e)
      cases hword
      obtain ⟨commands, hrun, hlength⟩ := ih hend fun j hj => h (j + 1) (by omega)
      exact ⟨command :: commands, .more hne hread hrun, by rw [List.length_cons, hlength]⟩

/-- Every word of the file from number `s` up to number `e` goes on with a list. -/
def Reaches (bytes : Bytes) (s e : ℕ) : Prop :=
  ∀ j, s ≤ j → j < e → ∃ word, bytes.u64? (j * wordSize) = some word ∧ Continues word

/-- The list consists of the words from number `s` to number `e`, of which the
last ends it. The others go on with it, and the word in front of them does not. -/
structure Segment (bytes : Bytes) (s e : ℕ) (list : DisplayList) : Prop where
  ends : bytes.u64? (e * wordSize) = some endWord
  least : IsLeast {t | Reaches bytes t e} s
  offset_eq : list.offset = s * wordSize
  stop_eq : list.stop = (e + 1) * wordSize
  reads : ∀ j, s ≤ j → j < e → ∃ word command, bytes.u64? (j * wordSize) = some word ∧
    Command.read word = .ok (some command) ∧ list.commands[j - s]? = some command
  last : list.commands[e - s]? = some .endDl

variable {bytes : Bytes} {s e : ℕ} {list : DisplayList}

lemma Segment.start_le (h : Segment bytes s e list) : s ≤ e := by
  apply h.least.2
  intro j hj hlt
  omega

lemma Segment.length_eq (h : Segment bytes s e list) : list.length = e - s + 1 := by
  have hle := h.start_le
  have hstop := h.stop_eq
  rw [stop, h.offset_eq] at hstop
  simp only [wordSize] at hstop
  omega

/-- A list of the words of a file is one of its segments. -/
theorem Listed.segment (h : Listed 0 (words bytes) s list) : ∃ e, Segment bytes s e list := by
  obtain ⟨hoffset, hrun, hbegins⟩ := h
  obtain ⟨e, hlength, hend, hlast, hreads⟩ := hrun.getElem
  simp only [List.getElem?_drop, getElem?_words] at hend hreads
  rw [Nat.zero_add] at hoffset
  refine ⟨s + e, hend, ⟨?_, ?_⟩, hoffset, ?_, ?_, ?_⟩
  · intro j hj hlt
    obtain ⟨word, command, hword, hne, hread, -⟩ := hreads (j - s) (by omega)
    rw [Nat.add_sub_cancel' hj] at hword
    exact ⟨word, hword, hne, command, hread⟩
  · intro t ht
    by_contra hlt
    obtain ⟨j, rfl⟩ : ∃ j, s = j + 1 := ⟨s - 1, by omega⟩
    obtain ⟨word, hword, hcont⟩ := ht j (by omega) (by omega)
    rw [← getElem?_words] at hword
    exact hbegins j word rfl hword hcont
  · rw [stop, length, hoffset, hlength, ← Nat.add_mul, Nat.add_assoc]
  · intro j hj hlt
    obtain ⟨word, command, hword, -, hread, hcommand⟩ := hreads (j - s) (by omega)
    rw [Nat.add_sub_cancel' hj] at hword
    exact ⟨word, command, hword, hread, hcommand⟩
  · rw [Nat.add_sub_cancel_left]
    exact hlast

/-- Every end command of a file ends a list. -/
theorem exists_listed (h : bytes.u64? (e * wordSize) = some endWord) :
    ∃ s list, Listed 0 (words bytes) s list ∧ list.stop = (e + 1) * wordSize := by
  classical
  have hex : ∃ s, Reaches bytes s e := ⟨e, fun j hj hlt => by omega⟩
  obtain ⟨s, hs, hmin⟩ : ∃ s, Reaches bytes s e ∧ ∀ t < s, ¬ Reaches bytes t e :=
    ⟨Nat.find hex, Nat.find_spec hex, fun t => Nat.find_min hex⟩
  have hle : s ≤ e := by
    by_contra hgt
    exact hmin e (by omega) fun j hj hlt => by omega
  have hend : ((words bytes).drop s)[e - s]? = some endWord := by
    rw [List.getElem?_drop, Nat.add_sub_cancel' hle, getElem?_words, h]
  obtain ⟨commands, hrun, hlength⟩ := exists_run hend fun j hj => by
    rw [List.getElem?_drop, getElem?_words]
    exact hs (s + j) (by omega) (by omega)
  refine ⟨s, ⟨s * wordSize, commands⟩, ⟨by rw [Nat.zero_add], hrun, ?_⟩, ?_⟩
  · rintro j word rfl hword hcont
    rw [getElem?_words] at hword
    apply hmin j (Nat.lt_succ_self j)
    intro i hi hlt
    by_cases hij : i = j
    · exact ⟨word, by rw [hij, hword], hcont⟩
    · exact hs i (by omega) hlt
  · simp only [stop, length, hlength, wordSize]
    omega

/-- No segment goes on behind the end of another that it reaches. -/
lemma Segment.end_le {s' e' : ℕ} {list' : DisplayList} (h : Segment bytes s e list)
    (h' : Segment bytes s' e' list') (hs : s' ≤ e) : e' ≤ e := by
  by_contra hlt
  obtain ⟨word, hword, hne, -⟩ := h'.least.1 e hs (by omega)
  rw [h.ends] at hword
  cases hword
  exact hne rfl

/-- Of two segments the one that starts first ends before the other starts: if both ended in one
word they would start with one. -/
lemma Segment.stop_le {s' e' : ℕ} {list' : DisplayList} (h : Segment bytes s e list)
    (h' : Segment bytes s' e' list') (hlt : list.offset < list'.offset) :
    list.stop ≤ list'.offset := by
  rw [h.offset_eq, h'.offset_eq] at hlt
  rw [h.stop_eq, h'.offset_eq]
  apply Nat.mul_le_mul_right
  have hs := Nat.lt_of_mul_lt_mul_right hlt
  by_contra hge
  have hle := h'.start_le
  have he' : e' ≤ e := h.end_le h' (by omega)
  have he : e ≤ e' := h'.end_le h (by omega)
  obtain rfl := Nat.le_antisymm he he'
  exact absurd (h.least.unique h'.least) (by omega)

/-- The lists are the segments of a file, in order and without overlap. -/
structure Segmented (bytes : Bytes) (lists : List DisplayList) : Prop where
  segment : ∀ list ∈ lists, ∃ s e, Segment bytes s e list
  exists_unique : ∀ e, bytes.u64? (e * wordSize) = some endWord →
    ∃! list, list ∈ lists ∧ list.stop = (e + 1) * wordSize
  increasing : lists.Pairwise (·.offset < ·.offset)
  disjoint : lists.Pairwise (·.stop ≤ ·.offset)
  nonempty : ∀ list ∈ lists, list.commands ≠ []
  ends_last : ∀ list ∈ lists, ∀ i, list.commands[i]? = some .endDl ↔ i + 1 = list.length

/-- Only one word reads as an end command. -/
theorem read_eq_endDl_iff {word : UInt64} :
    Command.read word = .ok (some .endDl) ↔ word = endWord := by
  have hencode : Command.endDl.encode = endWord := by decide
  rw [Command.read_eq_some_iff, hencode]
  exact and_iff_right trivial

/-- The last command of a segment and no other ends a list. -/
lemma Segment.ends_last (h : Segment bytes s e list) (i : ℕ) :
    list.commands[i]? = some .endDl ↔ i + 1 = list.length := by
  have hle := h.start_le
  have hlength := h.length_eq
  constructor
  · intro hi
    have hlt : i < list.length := (List.getElem?_eq_some_iff.mp hi).1
    by_contra hne
    obtain ⟨word, command, hword, hread, hcommand⟩ := h.reads (s + i) (by omega) (by omega)
    rw [Nat.add_sub_cancel_left, hi] at hcommand
    cases hcommand
    obtain ⟨other, hother, hcont, -⟩ := h.least.1 (s + i) (by omega) (by omega)
    rw [hword] at hother
    cases hother
    exact hcont (read_eq_endDl_iff.mp hread)
  · intro hi
    obtain rfl : i = e - s := by omega
    exact h.last

/-- The display lists found in a file are its segments. -/
theorem segmented_ofBytes (bytes : Bytes) : Segmented bytes (ofBytes bytes) := by
  have hcomplete := complete_ofBytes bytes
  have hsegment : ∀ list ∈ ofBytes bytes, ∃ s e, Segment bytes s e list := by
    intro list hlist
    obtain ⟨s, hs⟩ := (hcomplete.mem_iff list).mp hlist
    exact ⟨s, hs.segment⟩
  refine ⟨hsegment, ?_, hcomplete.increasing, ?_, ?_, ?_⟩
  · intro e he
    obtain ⟨s, list, hlisted, hstop⟩ := exists_listed he
    refine ⟨list, ⟨(hcomplete.mem_iff list).mpr ⟨s, hlisted⟩, hstop⟩, ?_⟩
    rintro other ⟨hother, hstop'⟩
    obtain ⟨s', hlisted'⟩ := (hcomplete.mem_iff other).mp hother
    obtain ⟨e₁, h₁⟩ := hlisted.segment
    obtain ⟨e₂, h₂⟩ := hlisted'.segment
    rw [h₁.stop_eq] at hstop
    rw [h₂.stop_eq] at hstop'
    simp only [wordSize] at hstop hstop'
    obtain rfl : e₁ = e₂ := by omega
    obtain rfl := h₁.least.unique h₂.least
    exact hlisted'.unique hlisted
  · refine hcomplete.increasing.imp_of_mem ?_
    intro a b ha hb hlt
    obtain ⟨s, e, h⟩ := hsegment a ha
    obtain ⟨s', e', h'⟩ := hsegment b hb
    exact h.stop_le h' hlt
  · intro list hlist hnil
    obtain ⟨s, e, h⟩ := hsegment list hlist
    have hlast := h.last
    rw [hnil] at hlast
    cases hlast
  · intro list hlist i
    obtain ⟨s, e, h⟩ := hsegment list hlist
    exact h.ends_last i

end Cartridge.DisplayList
