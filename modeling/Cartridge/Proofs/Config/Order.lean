import Cartridge.Config.Tree
import Cartridge.Proofs.Lists
import Mathlib.Data.List.Induction
import Mathlib.Data.String.Basic

/-!
# Configurations in order

Texts are ordered by the codes of their characters. That is also the order of their bytes: of two
characters the encodings differ before either of them ends, and the lesser one has the lesser byte
there.

Every table of a configuration that has been read lists its keys in this order, however it was
written. The tables of a document do not; each is put in order when it becomes a value. What a
document must not hold are tables among its scalar values, which are taken as they are: the
readers give none and the statements bring none in.
-/
namespace Cartridge.Text

/-- A text comes before another one when its bytes do. -/
def BytesBefore (a b : String) : Prop := a.toUTF8.data.toList < b.toUTF8.data.toList

/-- Whatever stands behind two characters, their encodings decide the order of the bytes: those
behind the first hold the digits of the code to the base 64. -/
lemma utf8EncodeChar_append_lt {c d : Char} (h : c < d) (cs ds : List UInt8) :
    String.utf8EncodeChar c ++ cs < String.utf8EncodeChar d ++ ds := by
  have hlt : c.val.toNat < d.val.toNat := h
  have hvalid : d.val.toNat < 0xD800 ∨ 0xDFFF < d.val.toNat ∧ d.val.toNat < 0x110000 := d.valid
  have hdigit (n : ℕ) : n / 4096 = n / 64 / 64 ∧ n / 262144 = n / 64 / 64 / 64 := by omega
  have hless {m n : ℕ} (hm : m < 256) (hn : n < 256) : UInt8.ofNat m < UInt8.ofNat n ↔ m < n :=
    UInt8.ofNat_lt_iff_lt hm hn
  have hsame {m n : ℕ} (hm : m < 256) (hn : n < 256) : UInt8.ofNat m = UInt8.ofNat n ↔ m = n := by
    rw [← UInt8.toNat_inj, UInt8.toNat_ofNat_of_lt' hm, UInt8.toNat_ofNat_of_lt' hn]
  simp only [String.utf8EncodeChar]
  split_ifs <;>
    simp (disch := omega) only [List.cons_append, List.cons_lt_cons_iff, hless, hsame,
      (hdigit _).1, (hdigit _).2] <;>
    omega

lemma flatMap_utf8EncodeChar_lt {cs ds : List Char} (h : cs < ds) :
    cs.flatMap String.utf8EncodeChar < ds.flatMap String.utf8EncodeChar := by
  induction h with
  | @nil d ds =>
    obtain ⟨b, bs, hbytes⟩ := List.exists_cons_of_ne_nil (@String.utf8EncodeChar_ne_nil d)
    rw [List.flatMap_nil, List.flatMap_cons, hbytes]
    exact List.nil_lt_cons b _
  | cons h ih =>
    rw [List.flatMap_cons, List.flatMap_cons]
    exact List.append_left_lt ih
  | rel h =>
    rw [List.flatMap_cons, List.flatMap_cons]
    exact utf8EncodeChar_append_lt h _ _

lemma toList_data_toUTF8 (text : String) :
    text.toUTF8.data.toList = text.toList.flatMap String.utf8EncodeChar := by
  rw [String.toUTF8_eq_toByteArray, ← String.utf8Encode_toList, List.utf8Encode,
    List.data_toByteArray]

lemma bytesBefore_of_lt {a b : String} (h : a < b) : BytesBefore a b := by
  rw [BytesBefore, toList_data_toUTF8, toList_data_toUTF8]
  exact flatMap_utf8EncodeChar_lt h

theorem bytesBefore_iff {a b : String} : BytesBefore a b ↔ a < b := by
  constructor
  · intro h
    rcases lt_trichotomy a b with hlt | rfl | hgt
    · exact hlt
    · exact absurd h (List.lt_irrefl _)
    · exact absurd (bytesBefore_of_lt hgt) (List.lt_asymm h)
  · exact bytesBefore_of_lt

end Cartridge.Text

namespace Cartridge.Config

namespace Table

/-- The keys are in order and none stands twice. -/
def Sorted (t : Table) : Prop := t.Pairwise fun e e' => e.1 < e'.1

variable {t : Table} {key : String} {v : Value}

lemma eq_or_mem_of_mem_insert {e : String × Value} (h : e ∈ t.insert key v) :
    e = (key, v) ∨ e ∈ t := by
  induction t with
  | nil => exact .inl (List.mem_singleton.mp h)
  | cons first rest ih =>
    obtain ⟨k, w⟩ := first
    rw [insert] at h
    split_ifs at h with hlt hgt
    · exact List.mem_cons.mp h
    · rcases List.mem_cons.mp h with rfl | hrest
      · exact .inr List.mem_cons_self
      · exact (ih hrest).imp_right (List.mem_cons_of_mem _)
    · exact (List.mem_cons.mp h).imp_right (List.mem_cons_of_mem _)

theorem Sorted.insert (h : t.Sorted) (key : String) (v : Value) : (t.insert key v).Sorted := by
  induction t with
  | nil => exact List.pairwise_singleton _ _
  | cons first rest ih =>
    obtain ⟨k, w⟩ := first
    obtain ⟨hfirst, hrest⟩ := List.pairwise_cons.mp h
    rw [Table.insert]
    split_ifs with hlt hgt
    · refine List.pairwise_cons.mpr ⟨fun e he => ?_, h⟩
      rcases List.mem_cons.mp he with rfl | he
      · exact hlt
      · exact lt_trans hlt (hfirst e he)
    · refine List.pairwise_cons.mpr ⟨fun e he => ?_, ih hrest⟩
      rcases eq_or_mem_of_mem_insert he with rfl | he
      · exact hgt
      · exact hfirst e he
    · obtain rfl : key = k := le_antisymm (not_lt.mp hgt) (not_lt.mp hlt)
      exact List.pairwise_cons.mpr ⟨hfirst, hrest⟩

lemma ofList_concat (entries : List (String × Value)) (e : String × Value) :
    ofList (entries ++ [e]) = (ofList entries).insert e.1 e.2 := by
  rw [ofList, ofList, List.foldl_append, List.foldl_cons, List.foldl_nil]

theorem sorted_ofList (entries : List (String × Value)) : (ofList entries).Sorted := by
  induction entries using List.reverseRecOn with
  | nil => exact List.Pairwise.nil
  | append_singleton entries e ih =>
    rw [ofList_concat]
    exact ih.insert e.1 e.2

lemma mem_of_mem_ofList {entries : List (String × Value)} {e : String × Value}
    (h : e ∈ ofList entries) : e ∈ entries := by
  induction entries using List.reverseRecOn with
  | nil => cases h
  | append_singleton entries last ih =>
    rw [ofList_concat] at h
    rcases eq_or_mem_of_mem_insert h with rfl | h
    · exact List.mem_append_right _ List.mem_cons_self
    · exact List.mem_append_left _ (ih h)

end Table

namespace Value

/-- The value holds no other values. -/
def IsScalar : Value → Prop
  | array _ | table _ => False
  | _ => True

/-- Every table in a value is sorted. -/
inductive InOrder : Value → Prop
  | scalar {v : Value} (h : v.IsScalar) : v.InOrder
  | array {items : List Value} (items_inOrder : ∀ v ∈ items, v.InOrder) : (array items).InOrder
  | table {entries : Table} (sorted : entries.Sorted) (values : ∀ e ∈ entries, e.2.InOrder) :
      (table entries).InOrder

lemma inOrder_table_iff {t : Table} :
    (table t).InOrder ↔ t.Sorted ∧ ∀ e ∈ t, e.2.InOrder := by
  constructor
  · intro h
    cases h with
    | scalar hscalar => exact hscalar.elim
    | table sorted values => exact ⟨sorted, values⟩
  · exact fun h => .table h.1 h.2

lemma inOrder_ofList {entries : List (String × Value)} (h : ∀ e ∈ entries, e.2.InOrder) :
    (table (Table.ofList entries)).InOrder :=
  .table (Table.sorted_ofList entries) fun e he => h e (Table.mem_of_mem_ofList he)

end Value

/-- The scalar values in a node hold no other values. -/
inductive Node.WellFormed : Node → Prop
  | scalar {v : Value} (h : v.IsScalar) : (scalar v).WellFormed
  | array {items : List Node} (h : ∀ n ∈ items, n.WellFormed) : (array items).WellFormed
  | table {origin : Origin} {entries : Entries} (h : ∀ e ∈ entries, e.2.WellFormed) :
      (table origin entries).WellFormed
  | tables {elements : List Entries} (h : ∀ entries ∈ elements, ∀ e ∈ entries, e.2.WellFormed) :
      (tables elements).WellFormed

lemma itemsToValues?_eq (items : List Node) : itemsToValues? items = items.mapM Node.toValue? := by
  induction items with
  | nil => rfl
  | cons node rest ih =>
    rw [itemsToValues?, List.mapM_cons, ih]
    cases node.toValue? <;> cases rest.mapM Node.toValue? <;> rfl

lemma elementsToValues?_eq (elements : List Entries) :
    elementsToValues? elements = elements.mapM tableToValue? := by
  induction elements with
  | nil => rfl
  | cons entries rest ih =>
    rw [elementsToValues?, List.mapM_cons, ih]
    cases tableToValue? entries <;> cases rest.mapM tableToValue? <;> rfl

lemma entriesToValues?_eq (entries : Entries) :
    entriesToValues? entries = entries.mapM fun e => e.2.toValue?.map (e.1, ·) := by
  induction entries with
  | nil => rfl
  | cons e rest ih =>
    rw [entriesToValues?, List.mapM_cons, ih]
    cases e.2.toValue? <;> cases rest.mapM fun e => e.2.toValue?.map (e.1, ·) <;> rfl

lemma inOrder_of_entriesToValues? {entries : Entries} {values : List (String × Value)}
    (hnodes : ∀ e ∈ entries, ∀ v, e.2.toValue? = some v → v.InOrder)
    (h : entriesToValues? entries = some values) : ∀ e ∈ values, e.2.InOrder := by
  rw [entriesToValues?_eq] at h
  refine forall_of_mapM (fun e he named hnamed => ?_) h
  obtain ⟨v, hv, rfl⟩ := Option.map_eq_some_iff.mp hnamed
  exact hnodes e he v hv

/-- A table is put in order, or it is a date or time. -/
lemma inOrder_of_tableToValue? {entries : Entries} {v : Value}
    (hnodes : ∀ e ∈ entries, ∀ v, e.2.toValue? = some v → v.InOrder)
    (h : tableToValue? entries = some v) : v.InOrder := by
  cases entries with
  | nil =>
    rw [tableToValue?] at h
    cases h
    exact .table List.Pairwise.nil nofun
  | cons e rest =>
    obtain ⟨key, node⟩ := e
    rw [tableToValue?] at h
    split_ifs at h
    · obtain ⟨d, -, rfl⟩ := Option.map_eq_some_iff.mp h
      exact .scalar trivial
    · split at h
      · next first others hfirst hothers =>
        cases h
        obtain ⟨hnode, hrest⟩ := List.forall_mem_cons.mp hnodes
        exact Value.inOrder_ofList (List.forall_mem_cons.mpr
          ⟨hnode first hfirst, inOrder_of_entriesToValues? hrest hothers⟩)
      · cases h

theorem Node.WellFormed.inOrder {n : Node} (hn : n.WellFormed) :
    ∀ v, n.toValue? = some v → v.InOrder := by
  induction hn with
  | scalar hscalar =>
    intro v h
    rw [toValue?] at h
    cases h
    exact .scalar hscalar
  | array _ ih =>
    intro v h
    rw [toValue?, itemsToValues?_eq] at h
    obtain ⟨values, hvalues, rfl⟩ := Option.map_eq_some_iff.mp h
    exact .array (forall_of_mapM ih hvalues)
  | table _ ih =>
    intro v h
    rw [toValue?] at h
    exact inOrder_of_tableToValue? ih h
  | tables _ ih =>
    intro v h
    rw [toValue?, elementsToValues?_eq] at h
    obtain ⟨values, hvalues, rfl⟩ := Option.map_eq_some_iff.mp h
    exact .array (forall_of_mapM
      (fun entries hentries _ => inOrder_of_tableToValue? (ih entries hentries)) hvalues)

end Cartridge.Config
