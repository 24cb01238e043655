import Cartridge.Proofs.Image.Naming
import Cartridge.Proofs.Lists
import Mathlib.Data.Option.Basic

/-!
# Files are read whatever their names

Two images that differ at most in the names of their files are used side by side. Each step
finds the same in both and keeps the same in both, names aside, so files that are chosen by
their indices have the same bytes in both, whatever has been read before.
-/
namespace Cartridge.Image

open FileRecord (SameRanges)

variable {image image' : Image}

/-- Two errors that are one, but for how they call a file. -/
inductive SameError : Cartridge.Error → Cartridge.Error → Prop
  | refl (e : Cartridge.Error) : SameError e e
  | outOfRange (label label' : String) (start stop length : ℕ) :
    SameError (.image (.outOfRange label start stop length))
      (.image (.outOfRange label' start stop length))

/-- Two outcomes that are related values, or both the same error. -/
inductive SameOutcome {α : Type} (R : α → α → Prop) :
    Except Cartridge.Error α → Except Cartridge.Error α → Prop
  | ok {a a' : α} (h : R a a') : SameOutcome R (.ok a) (.ok a')
  | error {e e' : Cartridge.Error} (h : SameError e e') : SameOutcome R (.error e) (.error e')

/-- The same bytes of a file, whatever its name. -/
structure Content.Alike (content content' : Content) : Prop where
  record : content.record.SameRanges content'.record
  bytes : content.bytes = content'.bytes
  decompressed : content.decompressed = content'.decompressed

/-- Contents that are kept under the same virtual starts, and are the same but for names. -/
structure Caches.Alike (caches caches' : Caches) : Prop where
  stored : ∀ vstart,
    Option.Rel Content.Alike (caches.stored.get? vstart) (caches'.stored.get? vstart)
  plain : ∀ vstart,
    Option.Rel Content.Alike (caches.plain.get? vstart) (caches'.plain.get? vstart)

lemma Caches.alike_empty : Caches.empty.Alike .empty := ⟨fun _ => .none, fun _ => .none⟩

lemma rel_get?_put {catalog catalog' : Catalog ℕ Content} {content content' : Content}
    (h : ∀ vstart, Option.Rel Content.Alike (catalog.get? vstart) (catalog'.get? vstart))
    (key : ℕ) (hcontent : content.Alike content') (vstart : ℕ) :
    Option.Rel Content.Alike ((catalog.put key content).get? vstart)
      ((catalog'.put key content').get? vstart) := by
  rw [Catalog.get?_put, Catalog.get?_put]
  split
  · exact .some hcontent
  · exact h vstart

/-- Accesses with the same outcome that leave contents which are the same but for names,
where they find such contents. -/
def Access.Agree {α : Type} (R : α → α → Prop) (access access' : Access α) : Prop :=
  ∀ caches caches', caches.Alike caches' →
    SameOutcome R (access.run caches).1 (access'.run caches').1 ∧
      (access.run caches).2.Alike (access'.run caches').2

namespace Access

variable {α β : Type} {R : α → α → Prop} {S : β → β → Prop}

lemma agree_liftExcept {result result' : Except Cartridge.Error α}
    (h : SameOutcome R result result') :
    Access.Agree R (liftExcept result) (liftExcept result') := by
  intro caches caches' hcaches
  rw [run_liftExcept, run_liftExcept]
  exact ⟨h, hcaches⟩

lemma Agree.bind {access access' : Access α} {next next' : α → Access β}
    (h : access.Agree R access') (hnext : ∀ a a', R a a' → (next a).Agree S (next' a')) :
    (access >>= next).Agree S (access' >>= next') := by
  intro caches caches' hcaches
  obtain ⟨hresult, hleft⟩ := h caches caches' hcaches
  rw [run_bind, run_bind]
  generalize access.run caches = outcome at hresult hleft ⊢
  generalize access'.run caches' = outcome' at hresult hleft ⊢
  obtain ⟨result, caches⟩ := outcome
  obtain ⟨result', caches'⟩ := outcome'
  cases hresult with
  | ok ha => exact hnext _ _ ha caches caches' hleft
  | error he => exact ⟨.error he, hleft⟩

end Access

/-- The bytes of a file are where its ranges tell. -/
lemma sameOutcome_read (bytes : Bytes) {r r' : FileRecord} (h : r.SameRanges r') :
    SameOutcome Content.Alike (Content.read bytes r) (Content.read bytes r') := by
  obtain ⟨name, rfl⟩ := h.exists_name
  have hmissing : ({ r with name } : FileRecord).isMissing = r.isMissing := rfl
  have hsize : ({ r with name } : FileRecord).physicalSize = r.physicalSize := rfl
  simp only [Content.read, hmissing, hsize]
  split
  · exact .error (.refl _)
  · split
    · exact .error (.outOfRange ..)
    · exact .ok ⟨h, rfl, rfl⟩

lemma sameOutcome_decompress {content content' : Content} (h : content.Alike content') :
    SameOutcome Content.Alike content.decompress content'.decompress := by
  have hcompressed : content'.record.isCompressed = content.record.isCompressed := by
    obtain ⟨name, hname⟩ := h.record.exists_name
    rw [hname]
    rfl
  have hplain : content'.isPlain = content.isPlain := by
    rw [Content.isPlain, Content.isPlain, hcompressed, h.decompressed]
  simp only [Content.decompress, hplain, ← h.bytes]
  split
  · exact .ok h
  · cases Yaz0.decompress content.bytes with
    | ok bytes => exact .ok ⟨h.record, rfl, rfl⟩
    | error cause => exact .error (.refl _)

/-- A file is read, or found among the contents that are kept, in both images alike. -/
lemma agree_storedOf (hbytes : image.bytes = image'.bytes) {r r' : FileRecord}
    (h : r.SameRanges r') : (image.storedOf r).Agree Content.Alike (image'.storedOf r') := by
  intro caches caches' hcaches
  rw [run_storedOf, run_storedOf, ← h.vstart, ← hbytes]
  have hkept := hcaches.stored r.vstart
  generalize caches.stored.get? r.vstart = kept at hkept ⊢
  generalize caches'.stored.get? r.vstart = kept' at hkept ⊢
  cases hkept with
  | some hcontent => exact ⟨.ok hcontent, hcaches⟩
  | none =>
    have hread := sameOutcome_read image.bytes h
    generalize Content.read image.bytes r = result at hread ⊢
    generalize Content.read image.bytes r' = result' at hread ⊢
    cases hread with
    | ok hcontent => exact ⟨.ok hcontent, rel_get?_put hcaches.stored _ hcontent, hcaches.plain⟩
    | error he => exact ⟨.error he, hcaches⟩

lemma agree_plainOf (hbytes : image.bytes = image'.bytes) {r r' : FileRecord}
    (h : r.SameRanges r') : (image.plainOf r).Agree Content.Alike (image'.plainOf r') := by
  intro caches caches' hcaches
  rw [run_plainOf, run_plainOf, ← h.vstart]
  have hkept := hcaches.plain r.vstart
  generalize caches.plain.get? r.vstart = kept at hkept ⊢
  generalize caches'.plain.get? r.vstart = kept' at hkept ⊢
  cases hkept with
  | some hcontent => exact ⟨.ok hcontent, hcaches⟩
  | none =>
    obtain ⟨hstored, hleft⟩ := agree_storedOf hbytes h caches caches' hcaches
    generalize (image.storedOf r).run caches = outcome at hstored hleft ⊢
    generalize (image'.storedOf r').run caches' = outcome' at hstored hleft ⊢
    obtain ⟨result, caches⟩ := outcome
    obtain ⟨result', caches'⟩ := outcome'
    cases hstored with
    | error he => exact ⟨.error he, hleft⟩
    | @ok stored stored' hstored =>
      have hplain := sameOutcome_decompress hstored
      dsimp only
      generalize stored.decompress = result at hplain ⊢
      generalize stored'.decompress = result' at hplain ⊢
      cases hplain with
      | ok hcontent => exact ⟨.ok hcontent, hleft.stored, rel_get?_put hleft.plain _ hcontent⟩
      | error he => exact ⟨.error he, hleft⟩

/-- The file with an index is the same one in both images. -/
lemma SameButNames.sameOutcome_record (h : image.SameButNames image') (index : ℕ) :
    SameOutcome SameRanges (image.record index) (image'.record index) := by
  have hrecord := rel_getElem?_of_forall₂ h.files index
  unfold Image.record
  generalize image.files[index]? = record at hrecord ⊢
  generalize image'.files[index]? = record' at hrecord ⊢
  cases hrecord with
  | some hranges => exact .ok hranges
  | none => exact .error (.refl _)

/-- A call for the file with an index, as it is in the image or decompressed. -/
inductive IndexCall
  | file (index : ℕ)
  | decompressed (index : ℕ)

def IndexCall.toCall : IndexCall → Call
  | file i => .file (.index i)
  | decompressed i => .decompressed (.index i)

/-- Two answers that are the same bytes of a file, whatever its name. -/
inductive Answer.Alike : Answer → Answer → Prop
  | content {content content' : Content} (h : content.Alike content') :
    Alike (.content content) (.content content')

theorem agree_call (h : image.SameButNames image') (c : IndexCall) :
    (c.toCall.access image).Agree Answer.Alike (c.toCall.access image') := by
  have hanswer : ∀ content content' : Content, content.Alike content' →
      Access.Agree Answer.Alike (pure (.content content)) (pure (.content content')) :=
    fun _ _ hcontent => Access.agree_liftExcept (.ok (.content hcontent))
  cases c with
  | file i =>
    refine Access.Agree.bind (R := Content.Alike) ?_ hanswer
    exact (Access.agree_liftExcept (h.sameOutcome_record i)).bind fun _ _ => agree_storedOf h.bytes
  | decompressed i =>
    refine Access.Agree.bind (R := Content.Alike) ?_ hanswer
    exact (Access.agree_liftExcept (h.sameOutcome_record i)).bind fun _ _ => agree_plainOf h.bytes

namespace Session

/-- Calls in turn, on images that differ at most in names and on contents that are the same but
for names, have the same outcomes. -/
theorem forall₂_answers {s s' : Session} (himage : s.image.SameButNames s'.image)
    (hcaches : s.caches.Alike s'.caches) (calls : List IndexCall) :
    List.Forall₂ (SameOutcome Answer.Alike) (s.answers (calls.map IndexCall.toCall))
      (s'.answers (calls.map IndexCall.toCall)) := by
  induction calls generalizing s s' with
  | nil => exact .nil
  | cons c calls ih =>
    obtain ⟨hanswer, hleft⟩ := agree_call himage c s.caches s'.caches hcaches
    rw [List.map_cons, answers, answers]
    exact .cons hanswer (ih himage hleft)

/-- Whatever configurations there are for a release, a dump cannot be loaded with either, for
the same reason, or else gives images that differ at most in the names of their files, and
calls for files by index have the same outcomes on both. -/
theorem load_error_or_sameButNames (dump : Bytes)
    (configOf configOf' : Release → Option Config.Tree) :
    (∃ e, load dump configOf = .error e ∧ load dump configOf' = .error e) ∨
      ∃ s s', load dump configOf = .ok s ∧ load dump configOf' = .ok s' ∧
        s.image.SameButNames s'.image ∧
        ∀ calls : List IndexCall, List.Forall₂ (SameOutcome Answer.Alike)
          (s.answers (calls.map IndexCall.toCall)) (s'.answers (calls.map IndexCall.toCall)) := by
  rw [load, load, load_eq_withConfig, load_eq_withConfig]
  cases hload : ofBytes dump with
  | error e => exact .inl ⟨e, rfl, rfl⟩
  | ok image =>
    right
    have himage := sameButNames_withConfig hload (configOf image.release) (configOf' image.release)
    refine ⟨_, _, rfl, rfl, himage, fun calls => ?_⟩
    exact forall₂_answers himage Caches.alike_empty calls

end Session

end Cartridge.Image
