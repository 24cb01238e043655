import Cartridge.Proofs.Config.Order

/-!
# Configurations that have been read

The readers give no scalar values that hold other values, and the statements of a document put
none into it. All tables of a configuration therefore come from tables of its document, which are
put in order when they become values.
-/
namespace Cartridge.Config

namespace Entries

/-- All nodes of a table are well-formed. -/
def WellFormed (entries : Entries) : Prop := ∀ e ∈ entries, e.2.WellFormed

/-- The change makes well-formed tables of well-formed tables. -/
def Keeps (f : Entries → Option Entries) : Prop :=
  ∀ ⦃entries entries'⦄, entries.WellFormed → f entries = some entries' → entries'.WellFormed

variable {entries : Entries} {key : String} {node : Node}

lemma wellFormed_nil : WellFormed [] := nofun

lemma WellFormed.get? (h : entries.WellFormed) (hget : entries.get? key = some node) :
    node.WellFormed := by
  induction entries with
  | nil => cases hget
  | cons e rest ih =>
    obtain ⟨hfirst, hrest⟩ := List.forall_mem_cons.mp h
    rw [Entries.get?] at hget
    split_ifs at hget
    · cases hget
      exact hfirst
    · exact ih hrest hget

lemma WellFormed.table {origin : Origin} {sub : Entries} (h : entries.WellFormed)
    (hget : entries.get? key = some (.table origin sub)) : sub.WellFormed := by
  cases h.get? hget with
  | table hsub => exact hsub

lemma WellFormed.set (h : entries.WellFormed) (hnode : node.WellFormed) :
    (entries.set key node).WellFormed := by
  induction entries with
  | nil => exact List.forall_mem_singleton.mpr hnode
  | cons e rest ih =>
    obtain ⟨hfirst, hrest⟩ := List.forall_mem_cons.mp h
    rw [Entries.set]
    split_ifs
    · exact List.forall_mem_cons.mpr ⟨hnode, hrest⟩
    · exact List.forall_mem_cons.mpr ⟨hfirst, ih hrest⟩

lemma WellFormed.remove (h : entries.WellFormed) (key : String) :
    (entries.remove key).WellFormed := by
  induction entries with
  | nil => exact h
  | cons e rest ih =>
    obtain ⟨hfirst, hrest⟩ := List.forall_mem_cons.mp h
    rw [Entries.remove]
    split_ifs
    · exact hrest
    · exact List.forall_mem_cons.mpr ⟨hfirst, ih hrest⟩

lemma WellFormed.tables {elements : List Entries} (h : entries.WellFormed)
    (hget : entries.get? key = some (.tables elements)) : ∀ es ∈ elements, es.WellFormed := by
  cases h.get? hget with
  | tables helements => exact helements

variable {f : Entries → Option Entries}

lemma Keeps.changeLast (hf : Keeps f) {elements elements' : List Entries}
    (h : ∀ es ∈ elements, es.WellFormed)
    (hchange : Entries.changeLast f elements = some elements') :
    ∀ es ∈ elements', es.WellFormed := by
  fun_induction Entries.changeLast f elements generalizing elements' with
  | case1 => cases hchange
  | case2 last =>
    obtain ⟨last', hlast, rfl⟩ := Option.map_eq_some_iff.mp hchange
    exact List.forall_mem_singleton.mpr (hf (List.forall_mem_singleton.mp h) hlast)
  | case3 first rest hne ih =>
    obtain ⟨rest', hrest, rfl⟩ := Option.map_eq_some_iff.mp hchange
    obtain ⟨hfirst, hothers⟩ := List.forall_mem_cons.mp h
    exact List.forall_mem_cons.mpr ⟨hfirst, ih hothers hrest⟩

/-- What keeps a table keeps each table on the way to it. Tables that are missing come into being
empty; of several tables the last one is meant. -/
lemma Keeps.within (hf : Keeps f) (path : List String) : Keeps (within f path) := by
  intro entries entries' h hwithin
  induction path generalizing entries entries' with
  | nil => exact hf h hwithin
  | cons key path ih =>
    have hkeeps : Keeps (Entries.within f path) := ih
    rw [Entries.within] at hwithin
    split at hwithin
    · obtain ⟨sub, hsub, rfl⟩ := Option.map_eq_some_iff.mp hwithin
      exact h.set (.table (hkeeps wellFormed_nil hsub))
    · next origin sub hget =>
      split_ifs at hwithin
      obtain ⟨sub', hsub, rfl⟩ := Option.map_eq_some_iff.mp hwithin
      exact h.set (.table (hkeeps (h.table hget) hsub))
    · next elements hget =>
      obtain ⟨elements', helements, rfl⟩ := Option.map_eq_some_iff.mp hwithin
      exact h.set (.tables (hkeeps.changeLast (h.tables hget) helements))
    · cases hwithin
    · cases hwithin

lemma keeps_assign (last : String) (hnode : node.WellFormed) : Keeps (assign last node) := by
  intro entries entries' h hassign
  rw [assign] at hassign
  split at hassign
  · cases hassign
    exact h.set hnode
  · cases hassign

lemma keeps_assignDotted (last : String) (hnode : node.WellFormed) (path : List String) :
    Keeps (assignDotted last node path) := by
  intro entries entries' h hassign
  induction path generalizing entries entries' with
  | nil => exact keeps_assign last hnode h hassign
  | cons key path ih =>
    have hkeeps : Keeps (assignDotted last node path) := ih
    rw [assignDotted] at hassign
    split at hassign
    · obtain ⟨sub, hsub, rfl⟩ := Option.map_eq_some_iff.mp hassign
      exact h.set (.table (hkeeps wellFormed_nil hsub))
    · next origin sub hget =>
      split_ifs at hassign
      obtain ⟨sub', hsub, rfl⟩ := Option.map_eq_some_iff.mp hassign
      exact h.set (.table (hkeeps (h.table hget) hsub))
    · next elements hget =>
      split_ifs at hassign
      obtain ⟨elements', helements, rfl⟩ := Option.map_eq_some_iff.mp hassign
      exact h.set (.tables (hkeeps.changeLast (h.tables hget) helements))
    · cases hassign
    · cases hassign

lemma keeps_openTable (last : String) : Keeps (openTable last) := by
  intro entries entries' h hopen
  rw [openTable] at hopen
  split at hopen
  · cases hopen
    exact h.set (.table wellFormed_nil)
  · next sub hget =>
    cases hopen
    exact (h.remove last).set (.table (h.table hget))
  · cases hopen

lemma keeps_openElement (last : String) : Keeps (openElement last) := by
  intro entries entries' h hopen
  rw [openElement] at hopen
  split at hopen
  · cases hopen
    exact h.set (.tables (List.forall_mem_singleton.mpr wellFormed_nil))
  · next elements hget =>
    cases hopen
    have hnew : ∀ es ∈ elements ++ [[]], WellFormed es :=
      List.forall_mem_append.mpr ⟨h.tables hget, List.forall_mem_singleton.mpr wellFormed_nil⟩
    exact h.set (.tables hnew)
  · cases hopen

end Entries

/-- The node that a statement assigns, if it does, is well-formed. -/
def Statement.WellFormed : Statement → Prop
  | assign _ _ node => node.WellFormed
  | _ => True

namespace Document

lemma wellFormed_of_add? {d d' : Document} {s : Statement} (hd : d.root.WellFormed)
    (hs : s.WellFormed) (h : d.add? s = some d') : d'.root.WellFormed := by
  cases s with
  | header path last =>
    obtain ⟨root, hroot, rfl⟩ := Option.map_eq_some_iff.mp h
    exact (Entries.keeps_openTable last).within path hd hroot
  | arrayHeader path last =>
    obtain ⟨root, hroot, rfl⟩ := Option.map_eq_some_iff.mp h
    exact (Entries.keeps_openElement last).within path hd hroot
  | assign path last node =>
    obtain ⟨root, hroot, rfl⟩ := Option.map_eq_some_iff.mp h
    exact (Entries.keeps_assignDotted last hs path).within d.current hd hroot

/-- Whatever the order of the statements, the tables they make are put in order. -/
theorem inOrder_of_ofStatements? {statements : List Statement} {root : Table}
    (hs : ∀ s ∈ statements, s.WellFormed) (h : ofStatements? statements = some root) :
    (Value.table root).InOrder := by
  obtain ⟨d, hd, h⟩ := Option.bind_eq_some_iff.mp h
  obtain ⟨values, hvalues, h⟩ := Option.bind_eq_some_iff.mp h
  cases h
  have hroot : d.root.WellFormed :=
    of_foldlM (P := fun d => d.root.WellFormed)
      (fun s hmem _ _ hbefore hadd => wellFormed_of_add? hbefore (hs s hmem) hadd)
      Entries.wellFormed_nil hd
  exact Value.inOrder_ofList
    (inOrder_of_entriesToValues? (fun e he => (hroot e he).inOrder) hvalues)

end Document

section Scalars

variable {cs rest : List Char} {v : Value}

lemma isScalar_of_integerOf {negative : Bool} {n : ℕ} (h : integerOf negative n = some v) :
    v.IsScalar := by
  simp only [integerOf, Option.ite_none_right_eq_some, Option.some.injEq] at h
  rw [← h.2]
  trivial

lemma isScalar_of_floatOf {negative : Bool} {ds : List Char} {power : ℤ}
    (h : floatOf negative ds power = some v) : v.IsScalar := by
  unfold floatOf at h
  split at h
  · cases h
  · cases h
    trivial

lemma isScalar_of_decimal {negative : Bool} (h : decimal negative cs = some (v, rest)) :
    v.IsScalar := by
  unfold decimal at h
  split at h
  · cases h
    trivial
  · cases h
    trivial
  · obtain ⟨⟨whole, cs⟩, -, h⟩ := Option.bind_eq_some_iff.mp h
    dsimp only at h
    split at h
    · obtain ⟨⟨fraction, behind⟩, -, h⟩ := Option.bind_eq_some_iff.mp h
      obtain ⟨x, hx, h⟩ := Option.bind_eq_some_iff.mp h
      cases h
      exact isScalar_of_floatOf hx
    · split at h
      · obtain ⟨x, hx, h⟩ := Option.bind_eq_some_iff.mp h
        cases h
        exact isScalar_of_floatOf hx
      · obtain ⟨x, hx, h⟩ := Option.bind_eq_some_iff.mp h
        cases h
        exact isScalar_of_integerOf hx

lemma isScalar_of_based {base : ℕ} (h : based base cs = some (v, rest)) : v.IsScalar := by
  obtain ⟨⟨ds, behind⟩, -, h⟩ := Option.bind_eq_some_iff.mp h
  obtain ⟨x, hx, h⟩ := Option.bind_eq_some_iff.mp h
  cases h
  exact isScalar_of_integerOf hx

lemma isScalar_of_number (h : number cs = some (v, rest)) : v.IsScalar := by
  unfold number at h
  split at h
  · exact isScalar_of_based h
  · exact isScalar_of_based h
  · exact isScalar_of_based h
  · exact isScalar_of_decimal h

theorem isScalar_of_scalar (h : scalar cs = some (v, rest)) : v.IsScalar := by
  unfold scalar at h
  split at h
  · cases h
    trivial
  · cases h
    trivial
  · obtain ⟨_, -, h⟩ := Option.map_eq_some_iff.mp h
    cases h
    trivial
  · obtain ⟨_, -, h⟩ := Option.map_eq_some_iff.mp h
    cases h
    trivial
  · split at h
    · cases h
      trivial
    · exact isScalar_of_number h

end Scalars

/-- Every node that the reader gives is well-formed. -/
def ReadsWellFormed (reader : Reader Node) : Prop :=
  ∀ ⦃cs node rest⦄, reader cs = some (node, rest) → node.WellFormed

section Readers

variable {reader : Reader Node} {limit fuel : ℕ} {cs rest : List Char}

lemma wellFormed_of_elements (hreader : ReadsWellFormed reader) {done items : List Node}
    (hdone : ∀ n ∈ done, n.WellFormed) (h : elements reader done fuel cs = some (items, rest)) :
    ∀ n ∈ items, n.WellFormed := by
  induction fuel generalizing done cs with
  | zero => cases h
  | succ fuel ih =>
    rw [elements] at h
    split at h
    · cases h
      exact fun n hn => hdone n (List.mem_reverse.mp hn)
    · obtain ⟨⟨node, behind⟩, hnode, h⟩ := Option.bind_eq_some_iff.mp h
      have hmore : ∀ n ∈ node :: done, n.WellFormed :=
        List.forall_mem_cons.mpr ⟨hreader hnode, hdone⟩
      dsimp only at h
      split at h
      · exact ih hmore h
      · cases h
        exact fun n hn => hmore n (List.mem_reverse.mp hn)
      · cases h

lemma wellFormed_of_assignment (hreader : ReadsWellFormed reader)
    {a : List String × String × Node} (h : assignment reader cs = some (a, rest)) :
    a.2.2.WellFormed := by
  obtain ⟨⟨parts, behindKey⟩, -, h⟩ := Option.bind_eq_some_iff.mp h
  obtain ⟨⟨_, behindSign⟩, -, h⟩ := Option.bind_eq_some_iff.mp h
  obtain ⟨⟨node, behind⟩, hnode, h⟩ := Option.bind_eq_some_iff.mp h
  obtain ⟨⟨path, last⟩, -, h⟩ := Option.bind_eq_some_iff.mp h
  cases h
  exact hreader hnode

lemma wellFormed_of_moreAssignments (hreader : ReadsWellFormed reader)
    {done all : List (List String × String × Node)} (hdone : ∀ a ∈ done, a.2.2.WellFormed)
    (h : moreAssignments reader done fuel cs = some (all, rest)) :
    ∀ a ∈ all, a.2.2.WellFormed := by
  induction fuel generalizing done cs with
  | zero => cases h
  | succ fuel ih =>
    obtain ⟨⟨first, behind⟩, hfirst, h⟩ := Option.bind_eq_some_iff.mp h
    have hmore : ∀ a ∈ first :: done, a.2.2.WellFormed :=
      List.forall_mem_cons.mpr ⟨wellFormed_of_assignment hreader hfirst, hdone⟩
    dsimp only at h
    split at h
    · exact ih hmore h
    · cases h
      exact fun a ha => hmore a (List.mem_reverse.mp ha)
    · cases h

lemma readsWellFormed_inlineTable (hreader : ReadsWellFormed reader) :
    ReadsWellFormed (inlineTable limit reader) := by
  intro cs node rest h
  unfold inlineTable at h
  split at h
  · cases h
    exact .table Entries.wellFormed_nil
  · obtain ⟨⟨all, behind⟩, hread, h⟩ := Option.bind_eq_some_iff.mp h
    obtain ⟨table, htable, h⟩ := Option.bind_eq_some_iff.mp h
    cases h
    obtain ⟨entries, hentries, rfl⟩ := Option.map_eq_some_iff.mp htable
    have hall := wellFormed_of_moreAssignments hreader (List.forall_mem_nil _) hread
    refine .table (of_foldlM (P := Entries.WellFormed) ?_ Entries.wellFormed_nil hentries)
    exact fun a ha _ _ hbefore => Entries.keeps_assignDotted a.2.1 (hall a ha) a.1 hbefore

lemma wellFormed_of_map_scalar {node : Node}
    (h : (scalar cs).map (fun (v, rest) => (.scalar v, rest)) = some (node, rest)) :
    node.WellFormed := by
  obtain ⟨⟨v, behind⟩, hv, h⟩ := Option.map_eq_some_iff.mp h
  cases h
  exact .scalar (isScalar_of_scalar hv)

theorem readsWellFormed_value (limit depth : ℕ) : ReadsWellFormed (value limit depth) := by
  induction depth with
  | zero =>
    intro cs node rest h
    unfold value at h
    split at h
    · cases h
    · cases h
    · next heq => cases heq
    · next heq => cases heq
    · exact wellFormed_of_map_scalar h
  | succ depth ih =>
    intro cs node rest h
    unfold value at h
    split at h
    · next heq => cases heq
    · next heq => cases heq
    · next heq =>
      cases heq
      obtain ⟨⟨items, behind⟩, hitems, h⟩ := Option.bind_eq_some_iff.mp h
      cases h
      exact .array (wellFormed_of_elements ih (List.forall_mem_nil _) hitems)
    · next heq =>
      cases heq
      exact readsWellFormed_inlineTable ih h
    · exact wellFormed_of_map_scalar h

lemma wellFormed_of_statement {s : Statement} (h : statement limit cs = some (s, rest)) :
    s.WellFormed := by
  unfold statement at h
  split at h
  · obtain ⟨⟨⟨path, last⟩, behind⟩, -, h⟩ := Option.bind_eq_some_iff.mp h
    cases h
    trivial
  · obtain ⟨⟨⟨path, last⟩, behind⟩, -, h⟩ := Option.bind_eq_some_iff.mp h
    cases h
    trivial
  · obtain ⟨⟨⟨path, last, node⟩, behind⟩, hassign, h⟩ := Option.bind_eq_some_iff.mp h
    cases h
    exact wellFormed_of_assignment (readsWellFormed_value limit maxDepth) hassign

lemma wellFormed_of_statements {done all : List Statement} (hdone : ∀ s ∈ done, s.WellFormed)
    (h : statements done fuel cs = some all) : ∀ s ∈ all, s.WellFormed := by
  induction fuel generalizing done cs with
  | zero => cases h
  | succ fuel ih =>
    rw [statements] at h
    dsimp only at h
    split at h
    · cases h
      exact fun s hs => hdone s (List.mem_reverse.mp hs)
    · split at h
      · exact ih hdone h
      · cases h
    · obtain ⟨⟨s, behind⟩, hs, h⟩ := Option.bind_eq_some_iff.mp h
      obtain ⟨next, -, h⟩ := Option.bind_eq_some_iff.mp h
      exact ih (List.forall_mem_cons.mpr ⟨wellFormed_of_statement hs, hdone⟩) h

end Readers

/-- Every table of the configuration is sorted. -/
def Tree.InOrder (tree : Tree) : Prop := (Value.table tree.root).InOrder

/-- A configuration is in order as soon as it has been read. -/
theorem inOrder_of_ofText {text : String} {tree : Tree} (h : Tree.ofText text = .ok tree) :
    tree.InOrder := by
  unfold Tree.ofText at h
  split at h
  · next root hroot =>
    cases h
    obtain ⟨all, hall, h⟩ := Option.bind_eq_some_iff.mp hroot
    exact Document.inOrder_of_ofStatements?
      (wellFormed_of_statements (List.forall_mem_nil _) hall) h
  · cases h

end Cartridge.Config
