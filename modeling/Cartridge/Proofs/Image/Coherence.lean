import Cartridge.Proofs.Image.Session
import Mathlib.Logic.Relation

/-!
# Coherence of the contents that are kept

Contents are only ever added: one that was read for a record of the file table, under
the virtual start of the record, or the decompression of a stored one, under the same
virtual start. Whatever has been done with an image, the contents that it keeps are
such ones, and what it answered once it answers again.
-/
namespace Cartridge.Image

variable {image : Image} {caches caches' : Caches}

/-- One content more is kept. -/
inductive Caches.Step (image : Image) (caches : Caches) : Caches → Prop
  | stored {record : FileRecord} {content : Content} (mem : record ∈ image.files)
      (new : caches.stored.get? record.vstart = none)
      (read : Content.read image.bytes record = .ok content) :
      Step image caches { caches with stored := caches.stored.put record.vstart content }
  | plain {vstart : ℕ} {stored content : Content} (new : caches.plain.get? vstart = none)
      (kept : caches.stored.get? vstart = some stored)
      (decompress : stored.decompress = .ok content) :
      Step image caches { caches with plain := caches.plain.put vstart content }

/-- Some contents more are kept. -/
abbrev Caches.Steps (image : Image) : Caches → Caches → Prop :=
  Relation.ReflTransGen (Caches.Step image)

open Relation (ReflTransGen)

/-- A content that was read for a record is kept. -/
lemma get?_of_storedOf {record : FileRecord} {content : Content}
    (h : (image.storedOf record).run caches = (.ok content, caches')) :
    caches'.stored.get? record.vstart = some content := by
  rw [run_storedOf] at h
  split at h
  · next hget =>
    cases h
    exact hget
  · split at h
    · cases h
      rw [Catalog.get?_put, if_pos rfl]
    · cases h

lemma get?_of_plainOf {record : FileRecord} {content : Content}
    (h : (image.plainOf record).run caches = (.ok content, caches')) :
    caches'.plain.get? record.vstart = some content := by
  rw [run_plainOf] at h
  split at h
  · next hget =>
    cases h
    exact hget
  · split at h
    · split at h
      · cases h
        rw [Catalog.get?_put, if_pos rfl]
      · cases h
    · cases h

lemma plain_run_storedOf (image : Image) (record : FileRecord) (caches : Caches) :
    ((image.storedOf record).run caches).2.plain = caches.plain := by
  rw [run_storedOf]
  split
  · rfl
  · split <;> rfl

lemma steps_storedOf {record : FileRecord} (hmem : record ∈ image.files) (caches : Caches) :
    Caches.Steps image caches ((image.storedOf record).run caches).2 := by
  rw [run_storedOf]
  split
  · exact .refl
  · next hnew =>
    split
    · next content hread => exact .single (.stored hmem hnew hread)
    · exact .refl

lemma steps_plainOf {record : FileRecord} (hmem : record ∈ image.files) (caches : Caches) :
    Caches.Steps image caches ((image.plainOf record).run caches).2 := by
  have hsteps := steps_storedOf hmem caches
  have hplain := plain_run_storedOf image record caches
  rw [run_plainOf]
  split
  · exact .refl
  · next hnew =>
    split
    · next stored caches' hstored =>
      rw [hstored] at hsteps hplain
      split
      · next content hdecompress =>
        refine hsteps.tail (.plain ?_ (get?_of_storedOf hstored) hdecompress)
        rw [hplain]
        exact hnew
      · exact hsteps
    · next e caches' hstored =>
      rw [hstored] at hsteps
      exact hsteps

/-- An access keeps contents one by one. -/
theorem closed_steps (image : Image) :
    Access.Closed image fun access =>
      ∀ caches, Caches.Steps image caches (access.run caches).2 where
  stored _ := steps_storedOf
  plain _ := steps_plainOf
  lift result caches := by
    rw [Access.run_liftExcept]
  bind {α β access next} hfirst hsecond caches := by
    rw [Access.run_bind]
    have hsteps := hfirst caches
    generalize access.run caches = outcome at hsteps ⊢
    obtain ⟨result, caches'⟩ := outcome
    cases result with
    | error e => exact hsteps
    | ok a => exact hsteps.trans (hsecond a caches')

/-- The first contents are among the later ones. -/
structure Caches.Within (caches later : Caches) : Prop where
  stored : ∀ {vstart content}, caches.stored.get? vstart = some content →
    later.stored.get? vstart = some content
  plain : ∀ {vstart content}, caches.plain.get? vstart = some content →
    later.plain.get? vstart = some content

lemma get?_put_of_some {catalog : Catalog ℕ Content} {key vstart : ℕ} {value content : Content}
    (hnew : catalog.get? key = none) (h : catalog.get? vstart = some content) :
    (catalog.put key value).get? vstart = some content := by
  have hne : vstart ≠ key := by
    rintro rfl
    rw [hnew] at h
    cases h
  rw [Catalog.get?_put, if_neg hne, h]

theorem Caches.Step.within (h : Caches.Step image caches caches') : caches.Within caches' := by
  cases h with
  | stored mem new read => exact ⟨get?_put_of_some new, id⟩
  | plain new kept decompress => exact ⟨id, get?_put_of_some new⟩

theorem Caches.Steps.within (h : Caches.Steps image caches caches') : caches.Within caches' := by
  induction h with
  | refl => exact ⟨id, id⟩
  | tail _ hstep ih =>
    have hwithin := hstep.within
    exact ⟨fun h => hwithin.stored (ih.stored h), fun h => hwithin.plain (ih.plain h)⟩

/-- A decompressed content is plain, and decompression leaves it as it is. -/
lemma isPlain_of_decompress {stored content : Content} (h : stored.decompress = .ok content) :
    content.isPlain := by
  unfold Content.decompress at h
  split at h
  · next hplain =>
    cases h
    exact hplain
  · split at h
    · cases h
      rfl
    · cases h

lemma decompress_of_isPlain {content : Content} (h : content.isPlain) :
    content.decompress = .ok content := by
  rw [Content.decompress, if_pos h]

/-- Every stored content was read for a record with its virtual start, and every
decompressed content is that of the stored content with the same virtual start. -/
structure Caches.Coherent (image : Image) (caches : Caches) : Prop where
  stored : ∀ {vstart content}, caches.stored.get? vstart = some content →
    ∃ record ∈ image.files, record.vstart = vstart ∧
      Content.read image.bytes record = .ok content
  plain : ∀ {vstart content}, caches.plain.get? vstart = some content →
    (∃ stored, caches.stored.get? vstart = some stored ∧ stored.decompress = .ok content) ∧
      content.isPlain ∧ content.decompress = .ok content

lemma coherent_empty (image : Image) : Caches.empty.Coherent image where
  stored h := by cases h
  plain h := by cases h

theorem Caches.Step.coherent (h : Caches.Step image caches caches')
    (hcoherent : caches.Coherent image) : caches'.Coherent image := by
  cases h with
  | @stored record content mem new read =>
    refine ⟨fun {vstart} {content'} hget => ?_, fun {vstart} {content'} hget => ?_⟩
    · rw [Catalog.get?_put] at hget
      split at hget
      · next hstart =>
        cases hget
        exact ⟨record, mem, hstart.symm, read⟩
      · exact hcoherent.stored hget
    · obtain ⟨⟨stored, hstored, hdecompress⟩, hplain⟩ := hcoherent.plain hget
      exact ⟨⟨stored, get?_put_of_some new hstored, hdecompress⟩, hplain⟩
  | @plain vstart stored content new kept decompress =>
    refine ⟨hcoherent.stored, fun {vstart'} {content'} hget => ?_⟩
    rw [Catalog.get?_put] at hget
    split at hget
    · next hstart =>
      cases hget
      subst hstart
      have hplain := isPlain_of_decompress decompress
      exact ⟨⟨stored, kept, decompress⟩, hplain, decompress_of_isPlain hplain⟩
    · exact hcoherent.plain hget

theorem Caches.Steps.coherent (h : Caches.Steps image caches caches')
    (hcoherent : caches.Coherent image) : caches'.Coherent image := by
  induction h with
  | refl => exact hcoherent
  | tail _ hstep ih => exact hstep.coherent ih

/-- With coherent contents the decompressed file is the decompression of the file. -/
theorem run_plainOf_of_coherent (h : caches.Coherent image) (record : FileRecord) :
    ((image.plainOf record).run caches).1 =
      ((image.storedOf record).run caches).1.bind Content.decompress := by
  rw [run_plainOf]
  split
  · next content hget =>
    obtain ⟨⟨stored, hstored, hdecompress⟩, -⟩ := h.plain hget
    rw [run_storedOf, hstored]
    exact hdecompress.symm
  · split
    · next stored caches' hstored =>
      rw [hstored]
      simp only [Except.bind]
      split
      · next content hdecompress => exact hdecompress.symm
      · next e hdecompress => exact hdecompress.symm
    · next e caches' hstored =>
      rw [hstored]
      rfl

lemma vstart_of_record {choice : Choice} {record : FileRecord}
    (h : choice.record image = .ok record) : choice.vstart image = .ok record.vstart := by
  rw [Choice.vstart, h]
  rfl

lemma exists_record_of_vstart {choice : Choice} {vstart : ℕ}
    (h : choice.vstart image = .ok vstart) :
    ∃ record, choice.record image = .ok record ∧ record.vstart = vstart := by
  exact map_eq_ok.mp h

namespace Choice

variable {choice other : Choice} {content : Content} {later : Caches}

/-- A content that was read for a chosen file is read again for a file with the same
virtual start, where this is so of their records. -/
lemma run_again {read : FileRecord → Access Content}
    (h : (liftExcept (choice.record image) >>= read : Access Content).run caches =
      (.ok content, caches'))
    (hother : other.vstart image = choice.vstart image)
    (hread : ∀ record record', (read record).run caches = (.ok content, caches') →
      record'.vstart = record.vstart → ((read record').run later).1 = .ok content) :
    ((liftExcept (other.record image) >>= read : Access Content).run later).1 = .ok content := by
  cases hrecord : choice.record image with
  | error e =>
    rw [hrecord] at h
    cases h
  | ok record =>
    rw [hrecord] at h
    rw [vstart_of_record hrecord] at hother
    obtain ⟨record', hrecord', hstart⟩ := exists_record_of_vstart hother
    rw [hrecord']
    exact hread record record' h hstart

lemma run_file_again (h : (choice.file image).run caches = (.ok content, caches'))
    (hlater : caches'.Within later) (hother : other.vstart image = choice.vstart image) :
    ((other.file image).run later).1 = .ok content := by
  rw [choice.file_eq] at h
  rw [other.file_eq]
  refine run_again h hother fun record record' hrun hstart => ?_
  rw [run_storedOf, hstart, hlater.stored (get?_of_storedOf hrun)]

lemma run_decompressed_again
    (h : (choice.decompressed image).run caches = (.ok content, caches'))
    (hlater : caches'.Within later) (hother : other.vstart image = choice.vstart image) :
    ((other.decompressed image).run later).1 = .ok content := by
  rw [choice.decompressed_eq] at h
  rw [other.decompressed_eq]
  refine run_again h hother fun record record' hrun hstart => ?_
  rw [run_plainOf, hstart, hlater.plain (get?_of_plainOf hrun)]

/-- The decompressed file is the decompression of the file, and fails as this fails. -/
lemma run_decompressed (h : caches.Coherent image) (choice : Choice) :
    ((choice.decompressed image).run caches).1 =
      ((choice.file image).run caches).1.bind Content.decompress := by
  rw [choice.decompressed_eq, choice.file_eq]
  cases choice.record image with
  | error e => rfl
  | ok record => exact run_plainOf_of_coherent h record

end Choice

namespace Session

/-- What holds of an image in use at any time: a decompressed file is the decompression
of the file; the contents that are kept are coherent; and whatever is done next, a file
has the content that a file with the same virtual start had. -/
structure Sound (s : Session) : Prop where
  decompressed_eq : ∀ choice : Choice, (s.run (choice.decompressed ·)).1 =
    (s.run (choice.file ·)).1.bind Content.decompress
  coherent : s.caches.Coherent s.image
  file_again : ∀ (choice : Choice) (content : Content),
    (s.run (choice.file ·)).1 = .ok content → ∀ (calls : List Call) (other : Choice),
      other.vstart s.image = choice.vstart s.image →
        (((s.run (choice.file ·)).2.after calls).run (other.file ·)).1 = .ok content
  decompressed_again : ∀ (choice : Choice) (content : Content),
    (s.run (choice.decompressed ·)).1 = .ok content → ∀ (calls : List Call) (other : Choice),
      other.vstart s.image = choice.vstart s.image →
        (((s.run (choice.decompressed ·)).2.after calls).run (other.decompressed ·)).1 =
          .ok content

lemma image_after (s : Session) (calls : List Call) : (s.after calls).image = s.image := by
  induction calls generalizing s with
  | nil => rfl
  | cons c calls ih => exact ih (s.call c).2

/-- Calls keep contents one by one. -/
theorem steps_after (s : Session) (calls : List Call) :
    Caches.Steps s.image s.caches (s.after calls).caches := by
  induction calls generalizing s with
  | nil => exact .refl
  | cons c calls ih => exact ((closed_steps s.image).call c s.caches).trans (ih (s.call c).2)

theorem sound_of_coherent {s : Session} (h : s.caches.Coherent s.image) : s.Sound where
  decompressed_eq := Choice.run_decompressed h
  coherent := h
  file_again choice content hcontent calls other hother := by
    have hwithin := (steps_after (s.run (choice.file ·)).2 calls).within
    change ((other.file ((s.run (choice.file ·)).2.after calls).image).run _).1 = _
    rw [image_after]
    exact Choice.run_file_again (Prod.ext hcontent rfl) hwithin hother
  decompressed_again choice content hcontent calls other hother := by
    have hwithin := (steps_after (s.run (choice.decompressed ·)).2 calls).within
    change ((other.decompressed ((s.run (choice.decompressed ·)).2.after calls).image).run _).1 = _
    rw [image_after]
    exact Choice.run_decompressed_again (Prod.ext hcontent rfl) hwithin hother

lemma caches_of_load {dump : Bytes} {configOf : Release → Option Config.Tree} {s : Session}
    (h : load dump configOf = .ok s) : s.caches = .empty := by
  obtain ⟨image, -, hsession⟩ := bind_eq_ok.mp h
  cases hsession
  rfl

/-- Whatever calls were made since an image was loaded, it is sound, and the image is
what it was. -/
theorem sound_after_load {dump : Bytes} {configOf : Release → Option Config.Tree} {s : Session}
    (h : load dump configOf = .ok s) (calls : List Call) :
    (s.after calls).Sound ∧ (s.after calls).image = s.image := by
  have himage := image_after s calls
  refine ⟨sound_of_coherent ?_, himage⟩
  rw [himage]
  apply (steps_after s calls).coherent
  rw [caches_of_load h]
  exact coherent_empty s.image

/-- A file that was left out has the content of a file with its virtual start. -/
theorem sound_after_load_sample :
    let s : Session := ⟨sample 0x60, .empty⟩
    let record : FileRecord := { vstart := 0x60, vend := 0x66, pstart := 0, pend := 0 }
    let content : Content := ⟨record, magic, false⟩
    load (sampleDump 0x60) (fun _ => none) = .ok s ∧
      (s.run ((Choice.index 2).file ·)).1 = .error (.image (.missingFile 0x60)) ∧
      ((s.call (.file (.index 1))).2.run ((Choice.index 2).file ·)).1 = .ok content := by
  have hload := load_sample (.inl rfl)
  obtain ⟨hsound, -⟩ := sound_after_load hload []
  exact ⟨hload, rfl, hsound.file_again (.index 1) _ rfl [] (.index 2) rfl⟩

end Session

end Cartridge.Image
