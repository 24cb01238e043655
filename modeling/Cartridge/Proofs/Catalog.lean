import Cartridge.Catalog
import Cartridge.Proofs.Lists
import Mathlib.Data.List.Induction

/-!
# The catalog of a list of entries

The catalog of some entries has their keys in the order of the first arrival and gives a
key the last of its values. No other catalog does so.
-/
namespace Cartridge.Catalog

variable {α β : Type} [DecidableEq α]

/-- The catalog has the keys of the entries in the order of their first arrival, and gives
each key the last of its values. -/
structure Collects (c : Catalog α β) (entries : List (α × β)) : Prop where
  keys_eq : c.keys = (entries.map Prod.fst).eraseDups
  get?_eq : ∀ key, c.get? key = entries.reverse.lookup key

lemma ofList_concat (entries : List (α × β)) (e : α × β) :
    ofList (entries ++ [e]) = (ofList entries).put e.1 e.2 := by
  rw [ofList, ofList, List.foldl_append, List.foldl_cons, List.foldl_nil]

theorem collects_ofList (entries : List (α × β)) : (ofList entries).Collects entries := by
  induction entries using List.reverseRecOn with
  | nil => exact ⟨by simp [ofList, keys], fun key => rfl⟩
  | append_singleton entries e ih =>
    rw [ofList_concat]
    constructor
    · rw [keys_put, List.map_append, List.map_singleton, eraseDups_concat, ih.keys_eq]
    · intro key
      rw [get?_put, ih.get?_eq, List.reverse_append, List.reverse_singleton,
        List.singleton_append, lookup_entry]

lemma get?_eq_none_iff {c : Catalog α β} {key : α} : c.get? key = none ↔ key ∉ c.keys := by
  rw [get?, keys, List.lookup_eq_none_iff, List.mem_map]
  constructor
  · rintro hne ⟨e, he, rfl⟩
    simpa using hne e he
  · intro hnot e he
    have hkey : key ≠ e.1 := fun h => hnot ⟨e, he, h.symm⟩
    simpa using hkey

lemma get?_of_getElem? {c : Catalog α β} {i : ℕ} {key : α} {value : β}
    (h : c.entries[i]? = some (key, value)) : c.get? key = some value := by
  obtain ⟨entries, hnodup⟩ := c
  simp only [get?] at h ⊢
  induction entries generalizing i with
  | nil => simp at h
  | cons e rest ih =>
    obtain ⟨k, v⟩ := e
    rw [lookup_entry]
    cases i with
    | zero =>
      simp only [List.getElem?_cons_zero, Option.some.injEq, Prod.mk.injEq] at h
      rw [if_pos h.1.symm, h.2]
    | succ i =>
      rw [List.getElem?_cons_succ] at h
      rw [List.map_cons, List.nodup_cons] at hnodup
      have hkey : key ≠ k := by
        rintro rfl
        exact hnodup.1 (List.mem_map.mpr ⟨_, List.mem_of_getElem? h, rfl⟩)
      rw [if_neg hkey]
      exact ih hnodup.2 h

lemma mem_of_mem_ofList {entries : List (α × β)} {e : α × β} (h : e ∈ (ofList entries).entries) :
    e ∈ entries := by
  obtain ⟨i, hi⟩ := List.mem_iff_getElem?.mp h
  have hvalue : (ofList entries).get? e.1 = some e.2 := get?_of_getElem? hi
  rw [(collects_ofList entries).get?_eq, List.lookup_eq_some_iff] at hvalue
  obtain ⟨before, after, hreverse, -⟩ := hvalue
  rw [← List.mem_reverse, hreverse]
  simp

/-- The entry at a place, from the key there and its value. -/
lemma getElem?_entries_eq (c : Catalog α β) (i : ℕ) :
    c.entries[i]? = c.keys[i]?.bind fun key => (c.get? key).map (key, ·) := by
  rw [keys, List.getElem?_map]
  cases h : c.entries[i]? with
  | none => rfl
  | some e =>
    have hget : c.get? e.1 = some e.2 := get?_of_getElem? h
    simp [hget]

/-- Keys and values make the catalog. -/
theorem eq_of_keys_of_get? {c d : Catalog α β} (hkeys : c.keys = d.keys)
    (hget : ∀ key, c.get? key = d.get? key) : c = d := by
  ext i : 2
  simp only [getElem?_entries_eq, hkeys, hget]

theorem collects_iff {c : Catalog α β} {entries : List (α × β)} :
    c.Collects entries ↔ c = ofList entries := by
  constructor
  · intro h
    have hlist := collects_ofList entries
    exact eq_of_keys_of_get? (h.keys_eq.trans hlist.keys_eq.symm)
      fun key => (h.get?_eq key).trans (hlist.get?_eq key).symm
  · rintro rfl
    exact collects_ofList entries

end Cartridge.Catalog
