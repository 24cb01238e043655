import Cartridge.Image.Messages
import Cartridge.Proofs.Result
import Mathlib.Data.Nat.Notation
import Mathlib.Tactic.Lemma

/-!
# Images in use

An image is used by one call after another. A call gives an answer or fails, and in
either case it may leave contents behind that later calls find. Every call is made of
reading stored contents, reading decompressed contents and steps that do neither; what
these keep is kept by every call.
-/
namespace Cartridge.Image

inductive Choice
  | index (index : ℕ)
  | address (address : ℕ)
  | name (name : String)

def Choice.position (image : Image) : Choice → Except Cartridge.Error ℕ
  | .index i => .ok i
  | .address vstart => image.indexOfAddress vstart
  | .name label => image.indexOfName label

def Choice.record (image : Image) (choice : Choice) : Except Cartridge.Error FileRecord := do
  image.record (← choice.position image)

def Choice.vstart (image : Image) (choice : Choice) : Except Cartridge.Error ℕ :=
  (choice.record image).map FileRecord.vstart

def Choice.file (image : Image) : Choice → Access Content
  | .index i => image.file i
  | .address vstart => image.fileAt vstart
  | .name label => image.fileNamed label

def Choice.decompressed (image : Image) : Choice → Access Content
  | .index i => image.decompressed i
  | .address vstart => image.decompressedAt vstart
  | .name label => image.decompressedNamed label

lemma mem_of_record {image : Image} {index : ℕ} {record : FileRecord}
    (h : image.record index = .ok record) : record ∈ image.files := by
  unfold Image.record at h
  split at h
  · next hget =>
    cases h
    exact List.mem_of_getElem? hget
  · cases h

lemma mem_of_choice {image : Image} {choice : Choice} {record : FileRecord}
    (h : choice.record image = .ok record) : record ∈ image.files := by
  obtain ⟨i, -, hrecord⟩ := bind_eq_ok.mp h
  exact mem_of_record hrecord

lemma Choice.file_eq (image : Image) (choice : Choice) :
    choice.file image = liftExcept (choice.record image) >>= image.storedOf := by
  have hfile : choice.file image = liftExcept (choice.position image) >>= image.file := by
    cases choice <;> rfl
  rw [hfile, Choice.record]
  cases choice.position image <;> rfl

lemma Choice.decompressed_eq (image : Image) (choice : Choice) :
    choice.decompressed image = liftExcept (choice.record image) >>= image.plainOf := by
  have hdecompressed : choice.decompressed image =
      liftExcept (choice.position image) >>= image.decompressed := by
    cases choice <;> rfl
  rw [hdecompressed, Choice.record]
  cases choice.position image <;> rfl

inductive Call
  | file (choice : Choice)
  | decompressed (choice : Choice)
  | messageIndex
  | message (index : Message.Index) (language : Language) (id : ℕ)

inductive Answer
  | content (content : Content)
  | messageIndex (index : Message.Index)
  | message (message : Message)

def Call.access (image : Image) : Call → Access Answer
  | .file choice => return .content (← choice.file image)
  | .decompressed choice => return .content (← choice.decompressed image)
  | .messageIndex => return .messageIndex (← image.messageIndex)
  | .message index language id => return .message (← image.message index language id)

/-- An image in use. -/
structure Session where
  image : Image
  caches : Caches

namespace Session

def load (dump : Bytes) (configOf : Release → Option Config.Tree) :
    Except Cartridge.Error Session := do
  return ⟨← Image.load dump configOf, .empty⟩

def run {α : Type} (s : Session) (access : Image → Access α) :
    Except Cartridge.Error α × Session :=
  let (result, caches) := (access s.image).run s.caches
  (result, { s with caches })

def call (s : Session) (c : Call) : Except Cartridge.Error Answer × Session :=
  s.run (c.access ·)

def after (s : Session) (calls : List Call) : Session :=
  calls.foldl (fun s c => (s.call c).2) s

/-- What calls answer, one after another. -/
def answers (s : Session) : List Call → List (Except Cartridge.Error Answer)
  | [] => []
  | c :: calls => (s.call c).1 :: (s.call c).2.answers calls

end Session

namespace Access

section Run

variable {α β : Type} {caches caches' : Caches}

lemma exists_of_run_bind {access : Access α} {next : α → Access β} {b : β}
    (h : ((access >>= next).run caches).1 = .ok b) :
    ∃ a caches', access.run caches = (.ok a, caches') ∧ ((next a).run caches').1 = .ok b := by
  rw [run_bind] at h
  split at h
  · next a caches' hrun => exact ⟨a, caches', hrun, h⟩
  · cases h

lemma run_liftExcept_eq_ok {result : Except Cartridge.Error α} {a : α} :
    Access.run (liftExcept result) caches = (.ok a, caches') ↔
      result = .ok a ∧ caches = caches' := by
  rw [run_liftExcept, Prod.mk.injEq]

end Run

/-- A property of accesses to an image that holds of reading the contents of its
files, of steps that read none, and of one access behind another when it holds of both. -/
structure Closed (image : Image) (Q : ∀ {α : Type}, Access α → Prop) : Prop where
  stored : ∀ record ∈ image.files, Q (image.storedOf record)
  plain : ∀ record ∈ image.files, Q (image.plainOf record)
  lift : ∀ {α : Type} (result : Except Cartridge.Error α), Q (liftExcept result : Access α)
  bind : ∀ {α β : Type} {access : Access α} {next : α → Access β},
    Q access → (∀ a, Q (next a)) → Q (access >>= next)

namespace Closed

variable {image : Image} {Q : ∀ {α : Type}, Access α → Prop}

lemma pure (h : Closed image Q) {α : Type} (a : α) : Q (Pure.pure a : Access α) := h.lift (.ok a)

lemma map (h : Closed image Q) {α β : Type} {access : Access α} (haccess : Q access)
    (f : α → β) : Q (do return f (← access)) :=
  h.bind haccess fun a => h.pure (f a)

lemma file (h : Closed image Q) (choice : Choice) : Q (choice.file image) := by
  rw [choice.file_eq]
  cases hrecord : choice.record image with
  | error e => exact h.lift (.error e)
  | ok record => exact h.stored record (mem_of_choice hrecord)

lemma decompressed (h : Closed image Q) (choice : Choice) : Q (choice.decompressed image) := by
  rw [choice.decompressed_eq]
  cases hrecord : choice.record image with
  | error e => exact h.lift (.error e)
  | ok record => exact h.plain record (mem_of_choice hrecord)

lemma decompressAll (h : Closed image Q) (files : List (Language × String)) :
    Q (image.decompressAll files) := by
  induction files with
  | nil => exact h.pure []
  | cons file files ih =>
    exact h.bind (h.decompressed (.name file.2)) fun content => h.map ih _

lemma tableSource (h : Closed image Q) (game : Game) (region : Region)
    (place : Config.TablePlace) : Q (image.tableSource game region place) := by
  unfold Image.tableSource
  split
  · exact h.bind (h.lift _) fun files => h.map (h.decompressAll _) _
  · exact h.bind (h.lift _) fun offset => h.map (h.decompressed (.name "code")) _

lemma messageIndex (h : Closed image Q) : Q image.messageIndex := by
  refine h.bind (h.lift _) fun gameRegion => ?_
  refine h.bind (h.lift _) fun config => h.bind (h.lift _) fun place => ?_
  exact h.bind (h.tableSource _ _ place) fun source => h.lift _

lemma message (h : Closed image Q) (index : Message.Index) (language : Language) (id : ℕ) :
    Q (image.message index language id) := by
  unfold Image.message
  split
  · exact h.lift (.error _)
  · refine h.bind (h.lift _) fun encoding => h.bind (h.lift _) fun name => ?_
    exact h.bind (h.decompressed (.name name)) fun content => h.lift _

theorem call (h : Closed image Q) (c : Call) : Q (c.access image) := by
  cases c with
  | file choice => exact h.map (h.file choice) _
  | decompressed choice => exact h.map (h.decompressed choice) _
  | messageIndex => exact h.map h.messageIndex _
  | message index language id => exact h.map (h.message index language id) _

end Closed

end Access

def FileRecord.toBytes (r : FileRecord) : Bytes :=
  [r.vstart, r.vend, r.pstart, r.pend].flatMap (Bytes.ofNat 4)

/-- The records of the table itself, of a file with the bytes of the magic text, and of
a file with the given virtual start that was left out. -/
def sampleTable (vstart : ℕ) : List FileRecord := [
  { vstart := 0x30, vend := 0x60, pstart := 0x30, pend := 0 },
  { vstart := 0x60, vend := 0x66, pstart := 0x00, pend := 0 },
  { vstart, vend := 0x70, pstart := FileRecord.absent, pend := FileRecord.absent }]

/-- A cartridge that holds a build block without a date, and a file table. -/
def sampleDump (vstart : ℕ) : Bytes :=
  magic ++ List.replicate 42 0 ++ (sampleTable vstart).flatMap FileRecord.toBytes

def sample (vstart : ℕ) : Image where
  bytes := sampleDump vstart
  swapped := false
  magicOffset := 0
  release := .unknown
  header := Header.ofBytes? (sampleDump vstart)
  files := sampleTable vstart
  config := none

lemma tableRecord?_of_read {start position : ℕ} {bytes : Bytes} {record : FileRecord}
    (hread : FileRecord.read? bytes 0 = some record) (hstart : record.pstart = start) :
    tableRecord? start position bytes = some (position, record) := by
  rw [tableRecord?]
  split
  · next h =>
    rw [hread] at h
    cases h
  · next h =>
    rw [hread] at h
    cases h
    rw [if_pos hstart]

/-- The sample is loaded, whether or not two of its files have one virtual start. -/
lemma load_sample {vstart : ℕ} (h : vstart = 0x60 ∨ vstart = 0x66) :
    Session.load (sampleDump vstart) (fun _ => none) = .ok ⟨sample vstart, .empty⟩ := by
  have hsearch : (sampleDump vstart).search? magic = some 0 := by
    rcases h with rfl | rfl <;> decide +kernel
  have hrelease : Release.ofBlock (sampleDump vstart) = .unknown := by
    rcases h with rfl | rfl <;> decide +kernel
  have hread : FileRecord.read? ((sampleDump vstart).drop 0x30) 0 =
      some { vstart := 0x30, vend := 0x60, pstart := 0x30, pend := 0 } := by
    rcases h with rfl | rfl <;> decide +kernel
  have htable : readTable (sampleDump vstart) 0x30 = .ok (sampleTable vstart) := by
    rw [readTable, tableRecord?_of_read hread rfl]
    rcases h with rfl | rfl <;> rfl
  simp only [Session.load, load, ofBytes, normalize, hsearch]
  simp [bind, Except.bind, Release.blockSize, hsearch, hrelease, htable]
  rfl

end Cartridge.Image
