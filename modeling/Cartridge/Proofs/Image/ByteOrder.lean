import Cartridge.Proofs.Bytes.Search
import Cartridge.Proofs.Image.Session

/-!
# Images of either byte order

An image whose bytes stand in exchanged pairs is put in order before anything is read
from it. So it is the image of the bytes in order, but for the note that the bytes had
to be exchanged.
-/
namespace Cartridge.Image

open Bytes (OccursAt FirstAt)

variable {dump bytes : Bytes}

lemma magic_ne_nil : magic ≠ [] := by decide

lemma swappedMagic_ne_nil : swappedMagic ≠ [] := by decide

lemma swapPairs_magic : magic.swapPairs = swappedMagic := by decide

/-- Bytes with the magic text in them are in order. -/
theorem normalize_of_occursAt {k : ℕ} (h : dump.OccursAt magic k) :
    normalize dump = .ok (dump, false) := by
  have hsome : (dump.search? magic).isSome := (Bytes.isSome_search?_iff magic_ne_nil).mpr ⟨k, h⟩
  rw [normalize, if_pos hsome]

/-- Bytes with the magic text only in exchanged pairs are put in order. -/
theorem normalize_of_swapped {k : ℕ} (hnot : ∀ j, ¬ dump.OccursAt magic j)
    (h : dump.OccursAt swappedMagic k) : normalize dump = .ok (dump.swapPairs, true) := by
  have hnone : ¬ (dump.search? magic).isSome := by
    rw [(Bytes.search?_eq_none_iff magic_ne_nil).mpr hnot]
    decide
  have hsome : (dump.search? swappedMagic).isSome :=
    (Bytes.isSome_search?_iff swappedMagic_ne_nil).mpr ⟨k, h⟩
  rw [normalize, if_neg hnone, if_pos hsome]

/-- What is read from bytes in order, and the note whether they had to be exchanged. -/
lemma ofBytes_eq {swapped : Bool} (h : normalize dump = .ok (bytes, swapped)) {offset : ℕ}
    (hmagic : bytes.FirstAt magic offset) :
    ofBytes dump = (readTable bytes (offset + Release.blockSize)).map fun files =>
      { bytes, swapped, magicOffset := offset, files
        release := .ofBlock (bytes.drop offset)
        header := Header.ofBytes? bytes
        config := none } := by
  have hsearch := (Bytes.search?_eq_some_iff magic_ne_nil).mpr hmagic
  simp only [ofBytes, h, bind, Except.bind, hsearch]
  cases readTable bytes (offset + Release.blockSize) <;> rfl

/-- An image is what its dump holds: the bytes in order, the place of the first magic text, and the
file table and the release that stand there. -/
structure ReadFrom (dump : Bytes) (image : Image) : Prop where
  normalize_eq : normalize dump = .ok (image.bytes, image.swapped)
  firstAt : image.bytes.FirstAt magic image.magicOffset
  readTable_eq : readTable image.bytes (image.magicOffset + Release.blockSize) = .ok image.files
  release_eq : image.release = .ofBlock (image.bytes.drop image.magicOffset)
  config_eq : image.config = none

lemma readFrom_of_ofBytes {image : Image} (h : ofBytes dump = .ok image) :
    ReadFrom dump image := by
  unfold ofBytes at h
  obtain ⟨⟨bytes, swapped⟩, hnormalize, h⟩ := bind_eq_ok.mp h
  dsimp only at h
  split at h
  · cases h
  · next magicOffset hsearch =>
    obtain ⟨files, htable, h⟩ := bind_eq_ok.mp h
    cases h
    exact ⟨hnormalize, (Bytes.search?_eq_some_iff magic_ne_nil).mp hsearch, htable, rfl, rfl⟩

/-- An image gets a configuration after everything has been read. -/
lemma load_eq (configOf : Release → Option Config.Tree) :
    load dump configOf = (ofBytes dump).map fun image =>
      match configOf image.release with
      | some config => image.configure config
      | none => image := by
  rw [load]
  cases ofBytes dump with
  | error e => rfl
  | ok image =>
    simp only [bind, Except.bind, Except.map]
    cases configOf image.release <;> rfl

lemma Session.image_of_load {configOf : Release → Option Config.Tree} {s : Session}
    (h : Session.load dump configOf = .ok s) : Image.load dump configOf = .ok s.image := by
  obtain ⟨image, himage, hsession⟩ := bind_eq_ok.mp h
  cases hsession
  exact himage

/-- Bytes with the magic text at an even offset, and their exchanged pairs without it, are
loaded alike: either both fail with one error, or both give one image, which holds the bytes
in order and the first place of the magic text, and tells which of the two was exchanged. -/
theorem load_swapPairs (hmagic : ∃ k, dump.OccursAt magic (2 * k))
    (hnot : ∀ k, ¬ dump.swapPairs.OccursAt magic k) (configOf : Release → Option Config.Tree) :
    (∃ e, load dump configOf = .error e ∧ load dump.swapPairs configOf = .error e) ∨
      ∃ image, load dump configOf = .ok image ∧
        load dump.swapPairs configOf = .ok { image with swapped := true } ∧
        image.swapped = false ∧ image.bytes = dump ∧ dump.FirstAt magic image.magicOffset := by
  obtain ⟨k, hk⟩ := hmagic
  have hplain : normalize dump = .ok (dump, false) := normalize_of_occursAt hk
  have hswapped : normalize dump.swapPairs = .ok (dump, true) := by
    have hoccurs := hk.swapPairs (by decide)
    rw [swapPairs_magic] at hoccurs
    rw [normalize_of_swapped hnot hoccurs, Bytes.swapPairs_swapPairs]
  obtain ⟨offset, hfirst⟩ : ∃ offset, dump.FirstAt magic offset := by
    obtain ⟨offset, hsearch⟩ := Option.isSome_iff_exists.mp
      ((Bytes.isSome_search?_iff magic_ne_nil).mpr ⟨_, hk⟩)
    exact ⟨offset, (Bytes.search?_eq_some_iff magic_ne_nil).mp hsearch⟩
  rw [load_eq, load_eq, ofBytes_eq hplain hfirst, ofBytes_eq hswapped hfirst]
  cases readTable dump (offset + Release.blockSize) with
  | error e => exact .inl ⟨e, rfl, rfl⟩
  | ok files =>
    right
    simp only [Except.map]
    cases configOf (.ofBlock (dump.drop offset)) with
    | none => exact ⟨_, rfl, rfl, rfl, rfl, hfirst⟩
    | some config => exact ⟨_, rfl, rfl, rfl, rfl, hfirst⟩

/-- The sample with exchanged pairs is the sample. -/
theorem load_swapPairs_sample :
    (sampleDump 0x66).OccursAt magic (2 * 0) ∧
      (∀ k, ¬ (sampleDump 0x66).swapPairs.OccursAt magic k) ∧
      load (sampleDump 0x66).swapPairs (fun _ => none) =
        .ok { sample 0x66 with swapped := true } := by
  have hmagic : (sampleDump 0x66).OccursAt magic (2 * 0) := List.prefix_append _ _
  have hnot : ∀ k, ¬ (sampleDump 0x66).swapPairs.OccursAt magic k :=
    (Bytes.search?_eq_none_iff magic_ne_nil).mp (by decide +kernel)
  have hsample : load (sampleDump 0x66) (fun _ => none) = .ok (sample 0x66) :=
    Session.image_of_load (load_sample (.inr rfl))
  rcases load_swapPairs ⟨0, hmagic⟩ hnot (fun _ => none) with ⟨e, herror, -⟩ | ⟨image, hok, h, -⟩
  · rw [hsample] at herror
    cases herror
  · rw [hsample] at hok
    cases hok
    exact ⟨hmagic, hnot, h⟩

end Cartridge.Image
