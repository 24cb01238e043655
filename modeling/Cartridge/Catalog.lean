/-!
# Catalogs

A catalog holds at most one value for a key and lists its keys in the order in
which they first came. A later value takes the place of an earlier one.
-/
namespace Cartridge

/-- Values by key, in the order of the first arrival of the keys. -/
structure Catalog (α β : Type) where
  entries : List (α × β)
  nodup_keys : (entries.map Prod.fst).Nodup

namespace Catalog

variable {α β : Type}

def keys (c : Catalog α β) : List α := c.entries.map Prod.fst

def size (c : Catalog α β) : Nat := c.entries.length

def empty : Catalog α β := ⟨[], List.nodup_nil⟩

@[simp] theorem entries_empty : (empty : Catalog α β).entries = [] := rfl

@[ext] theorem ext {c d : Catalog α β} (h : c.entries = d.entries) : c = d := by
  cases c
  cases d
  cases h
  rfl

variable [DecidableEq α]

/-- Gives a key its value in a list of entries, at its place or else at the end. -/
def putIn (key : α) (value : β) : List (α × β) → List (α × β)
  | [] => [(key, value)]
  | (k, v) :: rest =>
    if k = key then (key, value) :: rest else (k, v) :: putIn key value rest

theorem keys_putIn (key : α) (value : β) (entries : List (α × β)) :
    (putIn key value entries).map Prod.fst =
      if key ∈ entries.map Prod.fst then entries.map Prod.fst
      else entries.map Prod.fst ++ [key] := by
  induction entries with
  | nil => simp [putIn]
  | cons e rest ih =>
    obtain ⟨k, v⟩ := e
    by_cases h : k = key
    · subst h
      simp [putIn]
    · have h' : key ≠ k := Ne.symm h
      simp only [putIn, if_neg h, List.map_cons, ih, List.mem_cons, h', false_or]
      split <;> rfl

def get? (c : Catalog α β) (key : α) : Option β := c.entries.lookup key

def put (c : Catalog α β) (key : α) (value : β) : Catalog α β where
  entries := putIn key value c.entries
  nodup_keys := by
    have h := c.nodup_keys
    rw [keys_putIn]
    split
    next => exact h
    next hk =>
      rw [List.nodup_append]
      refine ⟨h, by simp, ?_⟩
      rintro a ha b hb rfl
      rw [List.mem_singleton] at hb
      exact hk (hb ▸ ha)

theorem keys_put (c : Catalog α β) (key : α) (value : β) :
    (c.put key value).keys = if key ∈ c.keys then c.keys else c.keys ++ [key] :=
  keys_putIn key value c.entries

theorem lookup_entry (k other : α) (v : β) (rest : List (α × β)) :
    ((k, v) :: rest).lookup other = if other = k then some v else rest.lookup other := by
  by_cases h : other = k
  · subst h
    simp
  · rw [List.lookup_cons, beq_eq_false_iff_ne.2 h, if_neg h]

theorem lookup_putIn (key other : α) (value : β) (entries : List (α × β)) :
    (putIn key value entries).lookup other =
      if other = key then some value else entries.lookup other := by
  induction entries with
  | nil => exact lookup_entry key other value []
  | cons e rest ih =>
    obtain ⟨k, v⟩ := e
    rw [lookup_entry]
    by_cases h : k = key
    · subst h
      rw [putIn, if_pos rfl, lookup_entry]
      split <;> rfl
    · rw [putIn, if_neg h, lookup_entry, ih]
      split
      next ho => rw [if_neg (ho ▸ h)]
      next => rfl

/-- A key has the value that it was given, and all others keep theirs. -/
theorem get?_put (c : Catalog α β) (key other : α) (value : β) :
    (c.put key value).get? other = if other = key then some value else c.get? other :=
  lookup_putIn key other value c.entries

@[simp] theorem get?_empty (key : α) : (empty : Catalog α β).get? key = none := rfl

/-- The catalog of some entries, taken in order. -/
def ofList (entries : List (α × β)) : Catalog α β :=
  entries.foldl (fun c e => c.put e.1 e.2) empty

/-- The entry after that of a key. -/
def next? (c : Catalog α β) (key : α) : Option (α × β) :=
  (c.entries.dropWhile (·.1 ≠ key))[1]?

end Catalog

end Cartridge
