import Cartridge.DisplayList
import Cartridge.Proofs.Command.RoundTrip

/-!
# The scan of a file

A scan goes through the words of a file from the last to the first. What it has
found behind some word depends on the words behind it only: a list is pending
when these words open with a run of commands up to an end command, and the lists
that have a beginning are the runs that nothing goes on with in front.
-/
namespace Cartridge.DisplayList

/-- The word goes on with a list: it reads as a command and does not end the list. -/
def Continues (word : UInt64) : Prop :=
  word ≠ endWord ∧ ∃ command, Command.read word = .ok (some command)

/-- The words open with commands of which the last and no other ends a list. -/
inductive Run : List UInt64 → List Command → Prop
  | stop (rest : List UInt64) : Run (endWord :: rest) [.endDl]
  | more {word : UInt64} {command : Command} {rest : List UInt64} {commands : List Command}
      (hne : word ≠ endWord) (hread : Command.read word = .ok (some command))
      (run : Run rest commands) : Run (word :: rest) (command :: commands)

/-- Nothing goes on with the words from number `k` in front of them. -/
def Begins (words : List UInt64) (k : ℕ) : Prop :=
  ∀ j word, k = j + 1 → words[j]? = some word → ¬ Continues word

/-- The list stands at number `k` of words that are those of a file from number
`index` on. -/
structure Listed (index : ℕ) (words : List UInt64) (k : ℕ) (list : DisplayList) : Prop where
  offset_eq : list.offset = (index + k) * wordSize
  run : Run (words.drop k) list.commands
  begins : Begins words k

lemma begins_zero (words : List UInt64) : Begins words 0 := by
  intro j word h
  omega

lemma begins_one_iff {word : UInt64} {rest : List UInt64} :
    Begins (word :: rest) 1 ↔ ¬ Continues word := by
  constructor
  · intro h
    exact h 0 word rfl rfl
  · intro h j other hj hother
    obtain rfl : j = 0 := by omega
    cases hother
    exact h

lemma begins_succ_iff {word : UInt64} {rest : List UInt64} {k : ℕ} :
    Begins (word :: rest) (k + 2) ↔ Begins rest (k + 1) := by
  constructor
  · intro h j other hj hother
    exact h (j + 1) other (by omega) hother
  · intro h j other hj hother
    obtain rfl : j = k + 1 := by omega
    exact h k other rfl hother

theorem Run.unique {words : List UInt64} {a b : List Command} (ha : Run words a)
    (hb : Run words b) : a = b := by
  induction ha generalizing b with
  | stop rest =>
    cases hb with
    | stop => rfl
    | more hne => exact absurd rfl hne
  | more hne hread run ih =>
    cases hb with
    | stop => exact absurd rfl hne
    | more hne' hread' run' =>
      rw [hread] at hread'
      cases hread'
      rw [ih run']

/-- A word that goes on with a list makes a run of the runs behind it. -/
theorem run_cons_iff {word : UInt64} {command : Command} {rest : List UInt64}
    {commands : List Command} (hne : word ≠ endWord)
    (hread : Command.read word = .ok (some command)) :
    Run (word :: rest) commands ↔ ∃ tail, Run rest tail ∧ commands = command :: tail := by
  constructor
  · intro h
    cases h with
    | stop => exact absurd rfl hne
    | more _ hread' run =>
      rw [hread] at hread'
      cases hread'
      exact ⟨_, run, rfl⟩
  · rintro ⟨tail, run, rfl⟩
    exact .more hne hread run

/-- A word that neither ends a list nor goes on with one opens no run. -/
theorem not_run_cons {word : UInt64} {rest : List UInt64} {commands : List Command}
    (hne : word ≠ endWord) (hcont : ¬ Continues word) : ¬ Run (word :: rest) commands := by
  intro h
  cases h with
  | stop => exact hne rfl
  | more _ hread _ => exact hcont ⟨hne, _, hread⟩

lemma Listed.unique {index : ℕ} {words : List UInt64} {k : ℕ} {a b : DisplayList}
    (ha : Listed index words k a) (hb : Listed index words k b) : a = b := by
  cases a
  cases b
  congr 1
  · exact ha.offset_eq.trans hb.offset_eq.symm
  · exact ha.run.unique hb.run

section Listed

variable {index k : ℕ} {word : UInt64} {rest : List UInt64} {list : DisplayList}

lemma listed_cons_iff : Listed index (word :: rest) (k + 2) list ↔
    Listed (index + 1) rest (k + 1) list := by
  have hindex : index + (k + 2) = index + 1 + (k + 1) := by omega
  constructor
  · rintro ⟨hoffset, hrun, hbegins⟩
    exact ⟨by rw [hoffset, hindex], hrun, begins_succ_iff.mp hbegins⟩
  · rintro ⟨hoffset, hrun, hbegins⟩
    exact ⟨by rw [hoffset, hindex], hrun, begins_succ_iff.mpr hbegins⟩

/-- Behind a word that goes on with lists, no list begins right behind it. -/
lemma listed_cons_of_continues (h : Continues word) :
    (∃ k, Listed index (word :: rest) (k + 1) list) ↔
      ∃ k, Listed (index + 1) rest (k + 1) list := by
  constructor
  · rintro ⟨k, hk⟩
    cases k with
    | zero => exact absurd h (begins_one_iff.mp hk.begins)
    | succ k => exact ⟨k, listed_cons_iff.mp hk⟩
  · rintro ⟨k, hk⟩
    exact ⟨k + 1, listed_cons_iff.mpr hk⟩

/-- Behind a word that does not go on with lists, any list may begin. -/
lemma listed_cons_of_not_continues (h : ¬ Continues word) :
    (∃ k, Listed index (word :: rest) (k + 1) list) ↔
      ∃ k, Listed (index + 1) rest k list := by
  constructor
  · rintro ⟨k, hk⟩
    cases k with
    | zero => exact ⟨0, hk.offset_eq, hk.run, begins_zero rest⟩
    | succ k => exact ⟨k + 1, listed_cons_iff.mp hk⟩
  · rintro ⟨k, hk⟩
    cases k with
    | zero => exact ⟨0, hk.offset_eq, hk.run, begins_one_iff.mpr h⟩
    | succ k => exact ⟨k + 1, listed_cons_iff.mpr hk⟩

end Listed

lemma put_eq_cons {list : DisplayList} {lists : List DisplayList}
    (h : ∀ other ∈ lists, list.offset < other.offset) : put list lists = list :: lists := by
  cases lists with
  | nil => rfl
  | cons first rest => exact if_pos (h first List.mem_cons_self)

/-- The lists are those of the words, in the order of their offsets. -/
structure Complete (index : ℕ) (words : List UInt64) (lists : List DisplayList) : Prop where
  mem_iff : ∀ list, list ∈ lists ↔ ∃ k, Listed index words k list
  increasing : lists.Pairwise (·.offset < ·.offset)

namespace Scan

/-- What a scan of the words has found: the run with which they open is pending,
and every other list has its beginning. -/
structure Sound (index : ℕ) (words : List UInt64) (scan : Scan) : Prop where
  pending_iff : ∀ commands, scan.pending = some commands ↔ Run words commands
  mem_iff : ∀ list, list ∈ scan.lists ↔ ∃ k, Listed index words (k + 1) list
  increasing : scan.lists.Pairwise (·.offset < ·.offset)

variable {index : ℕ} {words : List UInt64} {scan : Scan}

theorem sound_nil (index : ℕ) : Sound index [] {} := by
  refine ⟨?_, ?_, List.Pairwise.nil⟩
  · intro commands
    constructor <;> rintro ⟨⟩
  · intro list
    constructor
    · rintro ⟨⟩
    · rintro ⟨k, hk⟩
      cases hk.run

/-- Once the pending list has begun, no list is missing. -/
theorem Sound.complete (h : Sound index words scan) :
    Complete index words (scan.close (index * wordSize)).lists := by
  cases hpending : scan.pending with
  | none =>
    have hnone : ∀ commands, ¬ Run words commands := by
      intro commands hrun
      rw [(h.pending_iff commands).mpr hrun] at hpending
      cases hpending
    simp only [close, hpending]
    refine ⟨fun list => (h.mem_iff list).trans ?_, h.increasing⟩
    constructor
    · rintro ⟨k, hk⟩
      exact ⟨k + 1, hk⟩
    · rintro ⟨k, hk⟩
      cases k with
      | zero => exact absurd hk.run (hnone list.commands)
      | succ k => exact ⟨k, hk⟩
  | some commands =>
    have hrun := (h.pending_iff commands).mp hpending
    have hfront : ∀ list ∈ scan.lists, index * wordSize < list.offset := by
      intro list hlist
      obtain ⟨k, hk⟩ := (h.mem_iff list).mp hlist
      rw [hk.offset_eq]
      simp only [wordSize]
      omega
    simp only [close, hpending]
    rw [put_eq_cons hfront]
    refine ⟨?_, List.pairwise_cons.mpr ⟨hfront, h.increasing⟩⟩
    intro list
    rw [List.mem_cons, h.mem_iff]
    constructor
    · rintro (rfl | ⟨k, hk⟩)
      · exact ⟨0, rfl, hrun, begins_zero words⟩
      · exact ⟨k + 1, hk⟩
    · rintro ⟨k, hk⟩
      cases k with
      | zero =>
        left
        exact hk.unique ⟨rfl, hrun, begins_zero words⟩
      | succ k => exact .inr ⟨k, hk⟩

theorem pending_close (scan : Scan) (offset : ℕ) : (scan.close offset).pending = none := by
  unfold close
  split
  · rfl
  · assumption

/-- Each word keeps a scan sound. The end command begins the pending list and opens one of its own;
a word that goes on with a list goes to the front of the pending one; any other word begins the
pending one, and none is pending in front of it. -/
theorem Sound.step (h : Sound (index + 1) words scan) (word : UInt64) :
    Sound index (word :: words) (scan.step word index) := by
  have hclosed := h.complete
  by_cases hend : word = endWord
  · subst hend
    have hcont : ¬ Continues endWord := fun hc => hc.1 rfl
    simp only [Scan.step, if_pos]
    refine ⟨?_, ?_, hclosed.increasing⟩
    · intro commands
      constructor
      · rintro ⟨⟩
        exact .stop words
      · intro hrun
        rw [hrun.unique (.stop words)]
    · intro list
      exact (hclosed.mem_iff list).trans (listed_cons_of_not_continues hcont).symm
  · by_cases hcont : Continues word
    · obtain ⟨command, hread⟩ := hcont.2
      have hmem : ∀ list, list ∈ scan.lists ↔ ∃ k, Listed index (word :: words) (k + 1) list :=
        fun list => (h.mem_iff list).trans (listed_cons_of_continues hcont).symm
      simp only [Scan.step, if_neg hend, hread]
      cases hpending : scan.pending with
      | none =>
        refine ⟨?_, hmem, h.increasing⟩
        intro commands
        rw [hpending, run_cons_iff hend hread]
        constructor
        · rintro ⟨⟩
        · rintro ⟨tail, hrun, -⟩
          rw [(h.pending_iff tail).mpr hrun] at hpending
          cases hpending
      | some pending =>
        have hpend := (h.pending_iff pending).mp hpending
        refine ⟨?_, hmem, h.increasing⟩
        intro commands
        rw [run_cons_iff hend hread]
        constructor
        · rintro ⟨⟩
          exact ⟨pending, hpend, rfl⟩
        · rintro ⟨tail, hrun, rfl⟩
          rw [hrun.unique hpend]
    · have hstep : scan.step word index = scan.close ((index + 1) * wordSize) := by
        simp only [Scan.step, if_neg hend]
        split
        · rename_i hpending
          simp only [close, hpending]
        · split
          · rename_i hread
            exact absurd ⟨hend, _, hread⟩ hcont
          · rfl
      rw [hstep]
      refine ⟨?_, ?_, hclosed.increasing⟩
      · intro commands
        rw [pending_close]
        constructor
        · rintro ⟨⟩
        · intro hrun
          exact absurd hrun (not_run_cons hend hcont)
      · intro list
        exact (hclosed.mem_iff list).trans (listed_cons_of_not_continues hcont).symm

end Scan

lemma scanFrom_cons (index : ℕ) (word : UInt64) (words : List UInt64) :
    scanFrom index (word :: words) = (scanFrom (index + 1) words).step word index := by
  simp only [scanFrom, List.zipIdx_cons, List.foldr_cons]

/-- A scan is sound wherever it has come to. -/
theorem sound_scanFrom (index : ℕ) (words : List UInt64) :
    (scanFrom index words).Sound index words := by
  induction words generalizing index with
  | nil => exact Scan.sound_nil index
  | cons word words ih =>
    rw [scanFrom_cons]
    exact (ih (index + 1)).step word

theorem complete_ofBytes (bytes : Bytes) : Complete 0 (words bytes) (ofBytes bytes) := by
  have h := (sound_scanFrom 0 (words bytes)).complete
  rwa [Nat.zero_mul] at h

end Cartridge.DisplayList
