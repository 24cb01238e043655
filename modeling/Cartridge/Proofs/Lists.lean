import Mathlib.Data.List.Forall2
import Mathlib.Data.Nat.Notation
import Mathlib.Tactic.Lemma

/-!
# Lists that are cut, compared and run through

The proofs about texts, catalogs and configurations share these facts on lists.
-/
namespace Cartridge

variable {α β : Type}

/-- A list is cut where a condition fails for the first time. -/
lemma takeWhile_dropWhile_iff {p : α → Bool} {l before after : List α} :
    l.takeWhile p = before ∧ l.dropWhile p = after ↔
      l = before ++ after ∧ (∀ a ∈ before, p a = true) ∧ ∀ a ∈ after.head?, p a = false := by
  constructor
  · rintro ⟨rfl, rfl⟩
    refine ⟨List.takeWhile_append_dropWhile.symm, ?_, fun a ha => ?_⟩
    · exact List.all_eq_true.mp List.all_takeWhile
    · have hnot := List.head?_dropWhile_not p l
      rw [Option.mem_def.mp ha] at hnot
      exact hnot
  · rintro ⟨rfl, hbefore, hafter⟩
    rw [List.takeWhile_append_of_pos hbefore, List.dropWhile_append_of_pos hbefore]
    cases after with
    | nil => simp
    | cons a after => simp [hafter a rfl]

lemma rel_getElem?_of_forall₂ {R : α → β → Prop} {l : List α} {l' : List β}
    (h : List.Forall₂ R l l') (i : ℕ) : Option.Rel R l[i]? l'[i]? := by
  induction h generalizing i with
  | nil => exact .none
  | cons hhead _ ih =>
    cases i with
    | zero => exact .some hhead
    | succ i => exact ih i

section Steps

variable {P : β → Prop}

lemma forall_of_mapM {f : α → Option β} {l : List α} {l' : List β}
    (hf : ∀ a ∈ l, ∀ b, f a = some b → P b) (h : l.mapM f = some l') : ∀ b ∈ l', P b := by
  induction l generalizing l' with
  | nil =>
    cases h
    nofun
  | cons a l ih =>
    rw [List.mapM_cons] at h
    obtain ⟨b, hb, h⟩ := Option.bind_eq_some_iff.mp h
    obtain ⟨others, hothers, h⟩ := Option.bind_eq_some_iff.mp h
    cases h
    obtain ⟨hfirst, hrest⟩ := List.forall_mem_cons.mp hf
    exact List.forall_mem_cons.mpr ⟨hfirst b hb, ih hrest hothers⟩

/-- What holds at first and after each step holds after the last one. -/
lemma of_foldlM {f : β → α → Option β} {l : List α} {first last : β}
    (hstep : ∀ a ∈ l, ∀ b b', P b → f b a = some b' → P b') (hfirst : P first)
    (h : l.foldlM f first = some last) : P last := by
  induction l generalizing first with
  | nil =>
    cases h
    exact hfirst
  | cons a l ih =>
    obtain ⟨hhead, htail⟩ := List.forall_mem_cons.mp hstep
    obtain ⟨next, hnext, h⟩ := Option.bind_eq_some_iff.mp h
    exact ih htail (hhead first next hfirst hnext) h

end Steps

section Duplicates

variable [DecidableEq α]

lemma eraseDups_concat (l : List α) (a : α) :
    (l ++ [a]).eraseDups = if a ∈ l.eraseDups then l.eraseDups else l.eraseDups ++ [a] := by
  rw [List.eraseDups_append]
  by_cases h : a ∈ l <;> simp [List.removeAll, List.eraseDups_cons, h]

lemma eraseDups_of_nodup {l : List α} (h : l.Nodup) : l.eraseDups = l := by
  induction l with
  | nil => rfl
  | cons a l ih =>
    obtain ⟨hnot, hnodup⟩ := List.nodup_cons.mp h
    have hfilter : l.filter (fun b => !b == a) = l := by
      rw [List.filter_eq_self]
      intro b hb
      have hne : b ≠ a := fun heq => hnot (heq ▸ hb)
      simpa using hne
    rw [List.eraseDups_cons, hfilter, ih hnodup]

end Duplicates

end Cartridge
