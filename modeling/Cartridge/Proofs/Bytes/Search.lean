import Cartridge.Bytes
import Mathlib.Algebra.Group.Nat.Even
import Mathlib.Data.Nat.Find

/-!
# Searching and exchanging bytes

A search finds the least offset at which its pattern stands. Exchanging the bytes of every
pair is undone by doing it again, and a pattern of whole pairs stands at an even offset
exactly when it stands there with its own pairs and those of the bytes exchanged.
-/
namespace Cartridge.Bytes

/-- The pattern stands at an offset of the bytes. -/
def OccursAt (bytes pattern : Bytes) (offset : ℕ) : Prop := pattern <+: bytes.drop offset

/-- The pattern stands at an offset of the bytes and nowhere before it. -/
structure FirstAt (bytes pattern : Bytes) (offset : ℕ) : Prop where
  occurs : bytes.OccursAt pattern offset
  first : ∀ k < offset, ¬ bytes.OccursAt pattern k

variable {bytes pattern : Bytes}

lemma not_occursAt_nil (h : pattern ≠ []) (k : ℕ) : ¬ OccursAt [] pattern k := by
  intro hoccurs
  rw [OccursAt, List.drop_nil, List.prefix_nil] at hoccurs
  exact h hoccurs

lemma firstAt_zero_iff : bytes.FirstAt pattern 0 ↔ pattern <+: bytes := by
  constructor
  · exact fun h => h.occurs
  · exact fun h => ⟨h, fun k hk => absurd hk (Nat.not_lt_zero k)⟩

lemma firstAt_cons_succ_iff {b : UInt8} {k : ℕ} :
    FirstAt (b :: bytes) pattern (k + 1) ↔
      ¬ pattern <+: b :: bytes ∧ bytes.FirstAt pattern k := by
  constructor
  · intro h
    exact ⟨h.first 0 k.succ_pos, h.occurs, fun j hj => h.first (j + 1) (Nat.succ_lt_succ hj)⟩
  · rintro ⟨hhead, htail⟩
    refine ⟨htail.occurs, fun j hj => ?_⟩
    cases j with
    | zero => exact hhead
    | succ j => exact htail.first j (Nat.lt_of_succ_lt_succ hj)

lemma searchFrom?_eq_some_iff (h : pattern ≠ []) {offset k : ℕ} :
    searchFrom? pattern offset bytes = some k ↔ ∃ j, k = offset + j ∧ bytes.FirstAt pattern j := by
  induction bytes generalizing offset with
  | nil =>
    have hnone : ¬ ∃ j, k = offset + j ∧ FirstAt [] pattern j := by
      rintro ⟨j, -, hfirst⟩
      exact not_occursAt_nil h j hfirst.occurs
    simp [searchFrom?, hnone]
  | cons b bytes ih =>
    rw [searchFrom?]
    split
    · next hhead =>
      rw [List.isPrefixOf_iff_prefix] at hhead
      constructor
      · rintro ⟨⟩
        exact ⟨0, rfl, firstAt_zero_iff.mpr hhead⟩
      · rintro ⟨j, rfl, hfirst⟩
        cases j with
        | zero => rfl
        | succ j => exact absurd hhead (firstAt_cons_succ_iff.mp hfirst).1
    · next hhead =>
      rw [List.isPrefixOf_iff_prefix] at hhead
      rw [ih]
      constructor
      · rintro ⟨j, rfl, hfirst⟩
        exact ⟨j + 1, by omega, firstAt_cons_succ_iff.mpr ⟨hhead, hfirst⟩⟩
      · rintro ⟨j, rfl, hfirst⟩
        cases j with
        | zero => exact absurd (firstAt_zero_iff.mp hfirst) hhead
        | succ j => exact ⟨j, by omega, (firstAt_cons_succ_iff.mp hfirst).2⟩

theorem search?_eq_some_iff (h : pattern ≠ []) {k : ℕ} :
    bytes.search? pattern = some k ↔ bytes.FirstAt pattern k := by
  have hempty : ¬ pattern.isEmpty := by simpa using h
  rw [search?, if_neg hempty, searchFrom?_eq_some_iff h]
  simp

theorem search?_eq_none_iff (h : pattern ≠ []) :
    bytes.search? pattern = none ↔ ∀ k, ¬ bytes.OccursAt pattern k := by
  constructor
  · intro hnone k hoccurs
    classical
    have hexists : ∃ k, bytes.OccursAt pattern k := ⟨k, hoccurs⟩
    have hfirst : bytes.FirstAt pattern (Nat.find hexists) :=
      ⟨Nat.find_spec hexists, fun j hj => Nat.find_min hexists hj⟩
    rw [(search?_eq_some_iff h).mpr hfirst] at hnone
    cases hnone
  · intro hnot
    cases hsearch : bytes.search? pattern with
    | none => rfl
    | some k => exact absurd ((search?_eq_some_iff h).mp hsearch).occurs (hnot k)

theorem isSome_search?_iff (h : pattern ≠ []) :
    (bytes.search? pattern).isSome ↔ ∃ k, bytes.OccursAt pattern k := by
  rw [Option.isSome_iff_ne_none, ne_eq, search?_eq_none_iff h]
  push Not
  rfl

/-- Exchanging the bytes of every pair twice changes nothing, also of a last byte alone. -/
@[simp] theorem swapPairs_swapPairs : ∀ bytes : Bytes, bytes.swapPairs.swapPairs = bytes
  | [] => rfl
  | [_] => rfl
  | a :: b :: rest => by
    rw [swapPairs_cons_cons, swapPairs_cons_cons, swapPairs_swapPairs rest]

/-- The other string has the bytes of every pair in each other's places, and a last byte without
partner in its own. -/
structure Exchanged (bytes other : Bytes) : Prop where
  length_eq : other.length = bytes.length
  first : ∀ k, 2 * k + 1 < bytes.length → other[2 * k]? = bytes[2 * k + 1]?
  second : ∀ k, 2 * k + 1 < bytes.length → other[2 * k + 1]? = bytes[2 * k]?
  last : ∀ k, 2 * k + 1 = bytes.length → other[2 * k]? = bytes[2 * k]?

lemma Exchanged.cons_cons {other : Bytes} (h : bytes.Exchanged other) (a b : UInt8) :
    Exchanged (a :: b :: bytes) (b :: a :: other) := by
  constructor
  · simp [h.length_eq]
  · intro k hk
    cases k with
    | zero => rfl
    | succ k => exact h.first k (by simp only [List.length_cons] at hk; omega)
  · intro k hk
    cases k with
    | zero => rfl
    | succ k => exact h.second k (by simp only [List.length_cons] at hk; omega)
  · intro k hk
    cases k with
    | zero => simp at hk
    | succ k => exact h.last k (by simp only [List.length_cons] at hk; omega)

theorem exchanged_swapPairs : ∀ bytes : Bytes, bytes.Exchanged bytes.swapPairs
  | [] => ⟨rfl, nofun, nofun, nofun⟩
  | [_] => ⟨rfl, by simp, by simp, fun _ _ => rfl⟩
  | a :: b :: rest => by
    rw [swapPairs_cons_cons]
    exact (exchanged_swapPairs rest).cons_cons a b

@[simp] theorem length_swapPairs (bytes : Bytes) : bytes.swapPairs.length = bytes.length :=
  (exchanged_swapPairs bytes).length_eq

theorem swapPairs_append : ∀ {pairs : Bytes}, Even pairs.length → ∀ rest : Bytes,
    swapPairs (pairs ++ rest) = pairs.swapPairs ++ rest.swapPairs
  | [], _, _ => rfl
  | [_], h, _ => absurd h Nat.not_even_one
  | a :: b :: pairs, h, rest => by
    have hpairs : Even pairs.length := by simpa [Nat.even_add] using h
    rw [List.cons_append, List.cons_append, swapPairs_cons_cons, swapPairs_cons_cons,
      swapPairs_append hpairs, List.cons_append, List.cons_append]

theorem drop_swapPairs : ∀ (k : ℕ) (bytes : Bytes),
    bytes.swapPairs.drop (2 * k) = swapPairs (bytes.drop (2 * k))
  | 0, _ => rfl
  | _ + 1, [] => by simp
  | _ + 1, [_] => by simp [Nat.mul_add]
  | k + 1, a :: b :: rest => by
    rw [Nat.mul_add, swapPairs_cons_cons]
    exact drop_swapPairs k rest

/-- A pattern of whole pairs stands at the same even offset when all pairs are exchanged. -/
theorem OccursAt.swapPairs {k : ℕ} (h : bytes.OccursAt pattern (2 * k))
    (heven : Even pattern.length) : bytes.swapPairs.OccursAt pattern.swapPairs (2 * k) := by
  obtain ⟨rest, hrest⟩ := h
  rw [OccursAt, drop_swapPairs, ← hrest, swapPairs_append heven]
  exact List.prefix_append _ _

/-- A pattern of even length stands at an even offset exactly where its exchanged form stands in
the exchanged bytes, since exchanging again undoes it. -/
theorem occursAt_swapPairs_iff {k : ℕ} (heven : Even pattern.length) :
    bytes.swapPairs.OccursAt pattern.swapPairs (2 * k) ↔ bytes.OccursAt pattern (2 * k) := by
  constructor
  · intro h
    have hback := h.swapPairs (by rwa [length_swapPairs])
    rwa [swapPairs_swapPairs, swapPairs_swapPairs] at hback
  · exact fun h => h.swapPairs heven

theorem search?_nil : bytes.search? [] = none := rfl

/-- Exchanging bytes moves those of a pair to each other's places, keeps a last byte without
partner, and is undone by doing it again; a pattern of whole pairs stands at an even offset before
and after. A search finds the first occurrence of a pattern that has one, and else nothing, also
for the empty pattern. -/
theorem exchanged_and_search?_eq_iff (bytes pattern : Bytes) :
    bytes.Exchanged bytes.swapPairs ∧ bytes.swapPairs.swapPairs = bytes ∧
    (Even pattern.length → ∀ k, Even k →
      (bytes.OccursAt pattern k ↔ bytes.swapPairs.OccursAt pattern.swapPairs k)) ∧
    (∀ k, bytes.search? pattern = some k ↔ pattern ≠ [] ∧ bytes.FirstAt pattern k) ∧
    (bytes.search? pattern = none ↔ pattern = [] ∨ ∀ k, ¬ bytes.OccursAt pattern k) := by
  refine ⟨exchanged_swapPairs bytes, swapPairs_swapPairs bytes, ?_, fun k => ?_, ?_⟩
  · intro heven k hk
    obtain ⟨j, rfl⟩ := hk
    rw [← Nat.two_mul]
    exact (occursAt_swapPairs_iff heven).symm
  · by_cases h : pattern = []
    · simp [h, search?_nil]
    · simp [h, search?_eq_some_iff h]
  · by_cases h : pattern = []
    · simp [h, search?_nil]
    · simp [h, search?_eq_none_iff h]

/-- The even offset matters: behind one byte the same pairs are cut apart. -/
example : OccursAt [0, 1, 2, 3] [1, 2] 1 ∧
    ¬ OccursAt (swapPairs [0, 1, 2, 3]) (swapPairs [1, 2]) 1 := by
  simp only [OccursAt]
  decide

/-- A text in exchanged pairs stands in order behind two bytes once these are put in order. -/
theorem exchanged_and_search?_eq_iff_text :
    Even (ofLatin "ezdl@a").length ∧ Even 2 ∧
      (ofLatin "01ezdl@a!").swapPairs.OccursAt (ofLatin "zelda@") 2 := by
  have heven : Even (ofLatin "ezdl@a").length := by decide
  have hoccurs : (ofLatin "01ezdl@a!").OccursAt (ofLatin "ezdl@a") 2 := by
    rw [OccursAt, ← List.isPrefixOf_iff_prefix]
    decide
  have htwo : Even 2 := by decide
  have hboth := exchanged_and_search?_eq_iff (ofLatin "01ezdl@a!") (ofLatin "ezdl@a")
  exact ⟨heven, htwo, (hboth.2.2.1 heven 2 htwo).mp hoccurs⟩

end Cartridge.Bytes
