import Cartridge.Proofs.Config.Reading
import Mathlib

/-!
# Finding values and keys

Keys lead to a value through tables. To ask for a path is to ask for its first part, which must be
a table, and then to ask that table for the rest. So the key that a group gives for a text, and the
text that the key leads to in the group, are found in the same table; where it is sorted, the key
is the least one with that text.
-/
namespace Cartridge.Config

namespace Table

variable {t : Table} {key text : String} {v : Value}

lemma mem_of_get? (h : t.get? key = some v) : (key, v) ∈ t := by
  induction t with
  | nil => cases h
  | cons e rest ih =>
    obtain ⟨k, w⟩ := e
    rw [get?] at h
    split_ifs at h with hkey
    · cases h
      rw [hkey]
      exact List.mem_cons_self
    · exact List.mem_cons_of_mem _ (ih h)

theorem Sorted.get?_eq_some_iff (h : t.Sorted) : t.get? key = some v ↔ (key, v) ∈ t := by
  refine ⟨mem_of_get?, fun hmem => ?_⟩
  induction t with
  | nil => cases hmem
  | cons e rest ih =>
    obtain ⟨k, w⟩ := e
    obtain ⟨hfirst, hrest⟩ := List.pairwise_cons.mp h
    rw [get?]
    rcases List.mem_cons.mp hmem with heq | hmem
    · cases heq
      rw [if_pos rfl]
    · rw [if_neg (hfirst _ hmem).ne]
      exact ih hrest hmem

/-- The key is the first of a table with the text as its value. -/
structure FirstWith (t : Table) (text key : String) : Prop where
  found : t.get? key = some (.string text)
  first : ∀ other < key, t.get? other ≠ some (.string text)

lemma FirstWith.unique {key' : String} (h : t.FirstWith text key) (h' : t.FirstWith text key') :
    key = key' := by
  rcases lt_trichotomy key key' with hlt | heq | hgt
  · exact absurd h.found (h'.first key hlt)
  · exact heq
  · exact absurd h'.found (h.first key' hgt)

lemma string?_beq_iff {v : Value} : (v.string? == some text) = true ↔ v = .string text := by
  cases v <;> simp [Value.string?]

/-- The first entry of a sorted table with a text has the least key with it: the entries before it
have other texts, and those behind it greater keys. -/
lemma Sorted.firstWith_of_find? (h : t.Sorted) {e : String × Value}
    (hfind : t.find? (fun e => e.2.string? == some text) = some e) : t.FirstWith text e.1 := by
  obtain ⟨k, w⟩ := e
  obtain ⟨htext, before, behind, rfl, hbefore⟩ := List.find?_eq_some_iff_append.mp hfind
  obtain rfl : w = .string text := string?_beq_iff.mp htext
  refine ⟨h.get?_eq_some_iff.mpr (List.mem_append_right _ List.mem_cons_self), ?_⟩
  intro other hlt hother
  rcases List.mem_append.mp (mem_of_get? hother) with hmem | hmem
  · have hnot := hbefore _ hmem
    simp [Value.string?] at hnot
  · rcases List.mem_cons.mp hmem with heq | hmem
    · cases heq
      exact lt_irrefl _ hlt
    · have hgt := (List.pairwise_cons.mp (List.pairwise_append.mp h).2.1).1 _ hmem
      exact lt_asymm hlt hgt

theorem Sorted.find?_eq_some_iff (h : t.Sorted) :
    (t.find? fun e => e.2.string? == some text).map Prod.fst = some key ↔
      t.FirstWith text key := by
  constructor
  · intro hfind
    obtain ⟨e, he, rfl⟩ := Option.map_eq_some_iff.mp hfind
    exact h.firstWith_of_find? he
  · intro hkey
    cases hfind : t.find? fun e => e.2.string? == some text with
    | none =>
      have hnot := List.find?_eq_none.mp hfind _ (mem_of_get? hkey.found)
      exact absurd (string?_beq_iff.mpr rfl) hnot
    | some e => rw [Option.map_some, (h.firstWith_of_find? hfind).unique hkey]

theorem Sorted.find?_eq_none_iff (h : t.Sorted) :
    t.find? (fun e => e.2.string? == some text) = none ↔
      ∀ key, t.get? key ≠ some (.string text) := by
  rw [List.find?_eq_none]
  constructor
  · intro hnone key hkey
    exact hnone _ (mem_of_get? hkey) (string?_beq_iff.mpr rfl)
  · intro hnot e he htext
    obtain ⟨k, w⟩ := e
    obtain rfl : w = .string text := string?_beq_iff.mp htext
    exact hnot k (h.get?_eq_some_iff.mpr he)

/-- Keys lead from a table to a value: the last one stands with it, and each of the others stands
with the table that the following ones start from. -/
inductive Leads : Table → List String → Value → Prop
  | last {t : Table} {key : String} {v : Value} (mem : (key, v) ∈ t) : Leads t [key] v
  | through {t entries : Table} {key : String} {path : List String} {v : Value}
      (mem : (key, .table entries) ∈ t) (leads : Leads entries path v) : Leads t (key :: path) v

end Table

namespace Tree

variable {t : Table} {key : String} {path front back : List String} {v : Value}

lemma find?_cons (key : String) (hpath : path ≠ []) (t : Table) :
    find? (key :: path) t = ((t.get? key).bind Value.table?).bind (find? path) := by
  rw [find?]
  · cases t.get? key with
    | none => rfl
    | some v => cases v <;> rfl
  · exact hpath

/-- The second part of a path is found in the table that the first part leads to. -/
theorem find?_append (hfront : front ≠ []) (hback : back ≠ []) (t : Table) :
    find? (front ++ back) t = ((find? front t).bind Value.table?).bind (find? back) := by
  induction front generalizing t with
  | nil => exact absurd rfl hfront
  | cons key front ih =>
    by_cases hnil : front = []
    · subst hnil
      exact find?_cons key hback t
    · have hrest : find? (front ++ back) =
          fun t => ((find? front t).bind Value.table?).bind (find? back) := funext (ih hnil)
      rw [List.cons_append, find?_cons key (List.append_ne_nil_of_left_ne_nil hnil back),
        find?_cons key hnil, hrest]
      cases (t.get? key).bind Value.table? <;> rfl

lemma table?_eq_some_iff : v.table? = some t ↔ v = .table t := by
  cases v <;> simp [Value.table?]

lemma find?_cons_eq_some_iff (hpath : path ≠ []) :
    find? (key :: path) t = some v ↔
      ∃ entries, t.get? key = some (.table entries) ∧ find? path entries = some v := by
  simp [find?_cons key hpath, Option.bind_eq_some_iff, table?_eq_some_iff]

/-- Where tables are sorted, the value found is the one that the keys lead to. -/
theorem find?_eq_some_iff (h : (Value.table t).InOrder) :
    find? path t = some v ↔ t.Leads path v := by
  induction path generalizing t with
  | nil =>
    constructor
    · nofun
    · nofun
  | cons key path ih =>
    obtain ⟨hsorted, hvalues⟩ := Value.inOrder_table_iff.mp h
    by_cases hnil : path = []
    · subst hnil
      constructor
      · exact fun hfind => .last (Table.mem_of_get? hfind)
      · intro hleads
        cases hleads with
        | last mem => exact hsorted.get?_eq_some_iff.mpr mem
        | through _ leads => cases leads
    · rw [find?_cons_eq_some_iff hnil]
      constructor
      · rintro ⟨entries, hget, hfind⟩
        have hmem := Table.mem_of_get? hget
        exact .through hmem ((ih (hvalues _ hmem)).mp hfind)
      · intro hleads
        cases hleads with
        | last => exact absurd rfl hnil
        | through mem leads =>
          exact ⟨_, hsorted.get?_eq_some_iff.mpr mem, (ih (hvalues _ mem)).mpr leads⟩

lemma inOrder_of_leads (h : (Value.table t).InOrder) (hleads : t.Leads path v) : v.InOrder := by
  induction hleads with
  | last mem => exact (Value.inOrder_table_iff.mp h).2 _ mem
  | through mem _ ih => exact ih ((Value.inOrder_table_iff.mp h).2 _ mem)

variable {tree : Tree} {group : List String} {text : String}

lemma InOrder.sorted_of_group? (h : tree.InOrder) (hgroup : tree.group? group = some t) :
    t.Sorted := by
  have ht : (Value.table t).InOrder := by
    rw [group?] at hgroup
    split_ifs at hgroup
    · cases hgroup
      exact h
    · obtain ⟨v, hv, htable⟩ := Option.bind_eq_some_iff.mp hgroup
      rw [table?_eq_some_iff.mp htable] at hv
      exact inOrder_of_leads h ((find?_eq_some_iff h).mp hv)
  exact (Value.inOrder_table_iff.mp ht).1

/-- What a group has under a key is what the keys of the group and this one lead to. -/
theorem get?_concat (tree : Tree) (group : List String) (key : String) :
    tree.get? (group ++ [key]) = (tree.group? group).bind (·.get? key) := by
  by_cases hnil : group = []
  · subst hnil
    rfl
  · have hempty : ¬ group.isEmpty := by simpa using hnil
    rw [get?, find?_append hnil (List.cons_ne_nil key []), group?, if_neg hempty]
    rfl

lemma string?_eq_some_iff :
    tree.string? path = some text ↔ tree.get? path = some (.string text) := by
  rw [string?, Option.bind_eq_some_iff]
  constructor
  · rintro ⟨v, hv, htext⟩
    cases v <;> cases htext
    exact hv
  · intro h
    exact ⟨_, h, rfl⟩

lemma keyOf?_eq (tree : Tree) (group : List String) (text : String) :
    tree.keyOf? group text = (tree.group? group).bind fun entries =>
      (entries.find? fun e => e.2.string? == some text).map Prod.fst := by
  simp only [keyOf?, Option.map_eq_bind]
  rfl

/-- The key is the first of a group that leads to the text, in the order of bytes. -/
structure FirstKey (tree : Tree) (group : List String) (text key : String) : Prop where
  found : tree.string? (group ++ [key]) = some text
  first : ∀ other, Text.BytesBefore other key → tree.string? (group ++ [other]) ≠ some text

lemma firstKey_iff :
    tree.FirstKey group text key ↔ ∃ entries, tree.group? group = some entries ∧
      entries.FirstWith text key := by
  have hstring (key : String) : tree.string? (group ++ [key]) = some text ↔
      ∃ entries, tree.group? group = some entries ∧ entries.get? key = some (.string text) := by
    rw [string?_eq_some_iff, get?_concat, Option.bind_eq_some_iff]
  constructor
  · rintro ⟨hfound, hfirst⟩
    obtain ⟨entries, hgroup, hkey⟩ := (hstring key).mp hfound
    refine ⟨entries, hgroup, hkey, fun other hlt hother => ?_⟩
    exact hfirst other (Text.bytesBefore_iff.mpr hlt) ((hstring other).mpr ⟨_, hgroup, hother⟩)
  · rintro ⟨entries, hgroup, hkey, hfirst⟩
    refine ⟨(hstring key).mpr ⟨_, hgroup, hkey⟩, fun other hbefore hother => ?_⟩
    obtain ⟨entries', hgroup', hother⟩ := (hstring other).mp hother
    rw [hgroup] at hgroup'
    cases hgroup'
    exact hfirst other (Text.bytesBefore_iff.mp hbefore) hother

/-- A group gives a text its first key. -/
theorem InOrder.keyOf?_eq_some_iff (h : tree.InOrder) :
    tree.keyOf? group text = some key ↔ tree.FirstKey group text key := by
  rw [keyOf?_eq, firstKey_iff, Option.bind_eq_some_iff]
  refine exists_congr fun entries => and_congr_right fun hgroup => ?_
  exact (h.sorted_of_group? hgroup).find?_eq_some_iff

/-- A group gives a text no key when none of its keys leads to the text. -/
theorem InOrder.keyOf?_eq_none_iff (h : tree.InOrder) :
    tree.keyOf? group text = none ↔ ∀ key, tree.string? (group ++ [key]) ≠ some text := by
  simp only [ne_eq, string?_eq_some_iff, get?_concat, keyOf?_eq]
  cases hgroup : tree.group? group with
  | none => simp
  | some entries =>
    rw [Option.bind_some, Option.map_eq_none_iff]
    exact (h.sorted_of_group? hgroup).find?_eq_none_iff

/-- What is found is found behind tables. -/
lemma exists_table_of_get? (h : tree.get? path = some v) (hfront : front <+: path)
    (hnil : front ≠ []) (hne : front ≠ path) :
    ∃ entries, tree.get? front = some (.table entries) := by
  obtain ⟨back, rfl⟩ := hfront
  have hback : back ≠ [] := by
    rintro rfl
    exact hne (List.append_nil front).symm
  rw [get?, find?_append hnil hback] at h
  obtain ⟨entries, hentries, -⟩ := Option.bind_eq_some_iff.mp h
  obtain ⟨w, hw, htable⟩ := Option.bind_eq_some_iff.mp hentries
  exact ⟨entries, by rw [get?, hw, table?_eq_some_iff.mp htable]⟩

/-- Asking a group for the key of a text undoes asking for the text of a key, in every
configuration whose tables are sorted, such as each one that has been read: the answer is the
first key in the order of bytes, and there is none only where no key leads to the text. A value
is there exactly when it is found, which takes at least one key and tables on the way. -/
theorem keyOf?_inverts_string? (tree : Tree) :
    (∀ source, ofText source = .ok tree → tree.InOrder) ∧
    (tree.InOrder →
      (∀ path v, tree.get? path = some v ↔ tree.root.Leads path v) ∧
      ∀ group text,
        (∀ key, tree.keyOf? group text = some key ↔ tree.FirstKey group text key) ∧
        (tree.keyOf? group text = none ↔
          ∀ key, tree.string? (group ++ [key]) ≠ some text)) ∧
    ∀ path, (tree.has path = true ↔ ∃ v, tree.get? path = some v) ∧
      ((∃ v, tree.get? path = some v) → path ≠ [] ∧
        ∀ front, front <+: path → front ≠ [] → front ≠ path →
          ∃ entries, tree.get? front = some (.table entries)) := by
  refine ⟨fun source => inOrder_of_ofText, fun h => ⟨fun path v => find?_eq_some_iff h, ?_⟩, ?_⟩
  · exact fun group text => ⟨fun key => h.keyOf?_eq_some_iff, h.keyOf?_eq_none_iff⟩
  · refine fun path => ⟨Option.isSome_iff_exists, ?_⟩
    rintro ⟨v, hv⟩
    refine ⟨?_, fun front => exists_table_of_get? hv⟩
    rintro rfl
    cases hv

/-- Two keys of one table with one text, of which the greater one is written first. -/
def sampleText : String := "[files]\nb = 'code'\na = 'code'\nnames.b = 'link'\n"

def sample : Tree where
  root := [("files", .table
    [("a", .string "code"), ("b", .string "code"), ("names", .table [("b", .string "link")])])]

/-- The lesser key is found, and the group with it is a table. -/
theorem keyOf?_inverts_string?_sample :
    ofText sampleText = .ok sample ∧ sample.FirstKey ["files"] "code" "a" ∧
      ∃ entries, sample.get? ["files"] = some (.table entries) := by
  have hread : ofText sampleText = .ok sample := by cbv
  obtain ⟨horder, hlookup, hpath⟩ := keyOf?_inverts_string? sample
  have hkey := ((hlookup (horder sampleText hread)).2 ["files"] "code").1 "a"
  have hgroup := ((hpath ["files", "a"]).2 ⟨_, rfl⟩).2 ["files"]
  exact ⟨hread, hkey.mp rfl, hgroup (by decide) (by decide) (by decide)⟩

end Tree

end Cartridge.Config
