import Cartridge.Proofs.Image.Coherence
import Mathlib.Data.List.Nodup

/-!
# Calls that do not influence one another

Where no two records of the file table have one virtual start, a content that is kept
for a record is the one that would be read for it again. No call can then tell what was
done with the image before.
-/
namespace Cartridge.Image

variable {image : Image} {caches : Caches}

/-- No two files have one virtual start. -/
def Distinct (image : Image) : Prop := (image.files.map FileRecord.vstart).Nodup

lemma Distinct.eq (h : image.Distinct) {record other : FileRecord}
    (hrecord : record ∈ image.files) (hother : other ∈ image.files)
    (hstart : record.vstart = other.vstart) : record = other :=
  List.inj_on_of_nodup_map h hrecord hother hstart

/-- A file has the content that is in the image, whatever is kept. -/
lemma run_storedOf_of_distinct (h : image.Distinct) (hcoherent : caches.Coherent image)
    {record : FileRecord} (hmem : record ∈ image.files) :
    ((image.storedOf record).run caches).1 = Content.read image.bytes record := by
  rw [run_storedOf]
  split
  · next content hget =>
    obtain ⟨other, hother, hstart, hread⟩ := hcoherent.stored hget
    rw [h.eq hmem hother hstart.symm, hread]
  · split
    · next content hread => exact hread.symm
    · next e hread => exact hread.symm

lemma run_plainOf_of_distinct (h : image.Distinct) (hcoherent : caches.Coherent image)
    {record : FileRecord} (hmem : record ∈ image.files) :
    ((image.plainOf record).run caches).1 =
      (Content.read image.bytes record).bind Content.decompress := by
  rw [run_plainOf_of_coherent hcoherent, run_storedOf_of_distinct h hcoherent hmem]

/-- The access gives the same result for all coherent contents, and leaves such ones. -/
def Access.Transparent (image : Image) {α : Type} (access : Access α) : Prop :=
  ∀ caches, caches.Coherent image → (access.run caches).2.Coherent image ∧
    ∀ other, other.Coherent image → (access.run caches).1 = (access.run other).1

theorem closed_transparent (h : image.Distinct) :
    Access.Closed image (Access.Transparent image) where
  stored record hmem caches hcoherent := by
    refine ⟨(steps_storedOf hmem caches).coherent hcoherent, fun other hother => ?_⟩
    rw [run_storedOf_of_distinct h hcoherent hmem, run_storedOf_of_distinct h hother hmem]
  plain record hmem caches hcoherent := by
    refine ⟨(steps_plainOf hmem caches).coherent hcoherent, fun other hother => ?_⟩
    rw [run_plainOf_of_distinct h hcoherent hmem, run_plainOf_of_distinct h hother hmem]
  lift result caches hcoherent := by
    rw [Access.run_liftExcept]
    refine ⟨hcoherent, fun other _ => ?_⟩
    rw [Access.run_liftExcept]
  bind {α β access next} hfirst hsecond caches hcoherent := by
    obtain ⟨hleft, hagree⟩ := hfirst caches hcoherent
    simp only [Access.run_bind]
    generalize access.run caches = outcome at hleft hagree ⊢
    obtain ⟨result, caches'⟩ := outcome
    cases result with
    | error e =>
      refine ⟨hleft, fun other hother => ?_⟩
      have hresult := hagree other hother
      generalize access.run other = outcome at hresult ⊢
      obtain ⟨result, other'⟩ := outcome
      cases hresult
      rfl
    | ok a =>
      refine ⟨(hsecond a caches' hleft).1, fun other hother => ?_⟩
      have hresult := hagree other hother
      have hother' := (hfirst other hother).1
      generalize access.run other = outcome at hresult hother' ⊢
      obtain ⟨result, other'⟩ := outcome
      cases hresult
      exact (hsecond a caches' hleft).2 other' hother'

namespace Session

/-- Calls on coherent contents answer what they answer on no contents. -/
theorem answers_of_coherent {s : Session} (h : s.image.Distinct)
    (hcoherent : s.caches.Coherent s.image) (calls : List Call) :
    s.answers calls = calls.map fun c => (c.access s.image).run .empty |>.1 := by
  induction calls generalizing s with
  | nil => rfl
  | cons c calls ih =>
    obtain ⟨hnext, hagree⟩ := (closed_transparent h).call c s.caches hcoherent
    rw [answers, List.map_cons]
    congr 1
    · exact hagree .empty (coherent_empty s.image)
    · exact ih (s := (s.call c).2) h hnext

/-- In an image whose files have distinct virtual starts, every call of a sequence
answers what it answers as the first one after the image was loaded. -/
theorem answers_after_load {dump : Bytes} {configOf : Release → Option Config.Tree}
    {s : Session} (hload : load dump configOf = .ok s) (h : s.image.Distinct)
    (calls : List Call) : s.answers calls = calls.map fun c => (s.call c).1 := by
  have hempty := caches_of_load hload
  have hcoherent : s.caches.Coherent s.image := by
    rw [hempty]
    exact coherent_empty s.image
  rw [answers_of_coherent h hcoherent]
  simp only [call, run, hempty]

/-- A file that was left out is still missing when another one has been read. -/
theorem answers_after_load_sample :
    let s : Session := ⟨sample 0x66, .empty⟩
    load (sampleDump 0x66) (fun _ => none) = .ok s ∧ s.image.Distinct ∧
      s.answers [.file (.index 1), .decompressed (.index 2), .file (.address 0x66)] = [
        .ok (.content ⟨{ vstart := 0x60, vend := 0x66, pstart := 0, pend := 0 }, magic, false⟩),
        .error (.image (.missingFile 0x66)),
        .error (.image (.missingFile 0x66))] := by
  have hload := load_sample (.inr rfl)
  have hdistinct : (sample 0x66).Distinct := by
    unfold Distinct
    decide
  exact ⟨hload, hdistinct, answers_after_load hload hdistinct _⟩

end Session

end Cartridge.Image
