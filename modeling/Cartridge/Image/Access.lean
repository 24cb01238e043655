import Cartridge.Catalog
import Cartridge.Image.Basic

/-!
# Access to files

The content of a file is its bytes, as they are in the cartridge or decompressed.
Contents are kept once they have been read, by the virtual start of the file. Files
with one virtual start therefore share the content of the first of them that was
read. A failure leaves nothing behind, except that a file which cannot be
decompressed stays as it was read.
-/
namespace Cartridge.Image

structure Content where
  record : FileRecord
  bytes : Bytes
  decompressed : Bool
deriving DecidableEq

namespace Content

/-- The bytes in the physical range of a file. -/
def read (image : Bytes) (record : FileRecord) : Except Cartridge.Error Content :=
  let start := record.pstart
  let stop := start + record.physicalSize
  if record.isMissing then .error (.image (.missingFile record.vstart))
  else if image.length < stop then
    .error (.image (.outOfRange record.label start stop image.length))
  else .ok ⟨record, image.extract start stop, false⟩

/-- Whether the bytes are those that the game works with. -/
def isPlain (c : Content) : Bool := c.decompressed || !c.record.isCompressed

/-- The decompressed file. Plain bytes stay as they are. -/
def decompress (c : Content) : Except Cartridge.Error Content :=
  if c.isPlain then .ok c
  else
    match Yaz0.decompress c.bytes with
    | .ok bytes => .ok ⟨c.record, bytes, true⟩
    | .error cause => .error (.yaz0 cause)

end Content

/-- The contents that have been read, as they were in the image and decompressed. -/
structure Caches where
  stored : Catalog Nat Content
  plain : Catalog Nat Content

def Caches.empty : Caches := ⟨.empty, .empty⟩

/-- What is done with files: it may keep contents, and it may fail. -/
abbrev Access := ExceptT Cartridge.Error (StateM Caches)

def Access.run (access : Access α) (caches : Caches) :
    Except Cartridge.Error α × Caches :=
  StateT.run (ExceptT.run access) caches

@[simp] theorem Access.run_pure (a : α) (caches : Caches) :
    Access.run (pure a) caches = (.ok a, caches) := rfl

theorem Access.run_bind (access : Access α) (next : α → Access β) (caches : Caches) :
    Access.run (access >>= next) caches =
      match access.run caches with
      | (.ok a, caches) => (next a).run caches
      | (.error e, caches) => (.error e, caches) := by
  unfold Access.run
  rw [ExceptT.run_bind, StateT.run_bind]
  generalize StateT.run (ExceptT.run access) caches = outcome
  obtain ⟨result, caches'⟩ := outcome
  cases result <;> rfl

@[simp] theorem Access.run_liftExcept (result : Except Cartridge.Error α) (caches : Caches) :
    Access.run (liftExcept result) caches = (result, caches) := by
  cases result <;> rfl

/-- The content of the file with a record, as it is in the image. -/
def storedOf (image : Image) (record : FileRecord) : Access Content := do
  match (← get).stored.get? record.vstart with
  | some content => return content
  | none =>
    let content ← liftExcept (Content.read image.bytes record)
    modify fun caches => { caches with stored := caches.stored.put record.vstart content }
    return content

/-- A content that is kept is given again, and one that is read is kept. -/
theorem run_storedOf (image : Image) (record : FileRecord) (caches : Caches) :
    (image.storedOf record).run caches =
      match caches.stored.get? record.vstart with
      | some content => (.ok content, caches)
      | none =>
        match Content.read image.bytes record with
        | .ok content =>
          (.ok content, { caches with stored := caches.stored.put record.vstart content })
        | .error e => (.error e, caches) := by
  unfold storedOf
  rw [Access.run_bind]
  change Access.run (match caches.stored.get? record.vstart with
    | some content => _
    | none => _) caches = _
  cases caches.stored.get? record.vstart with
  | some content => rfl
  | none =>
    simp only [Access.run_bind, Access.run_liftExcept]
    cases Content.read image.bytes record <;> rfl

/-- The decompressed content of the file with a record. -/
def plainOf (image : Image) (record : FileRecord) : Access Content := do
  match (← get).plain.get? record.vstart with
  | some content => return content
  | none =>
    let content ← liftExcept (← image.storedOf record).decompress
    modify fun caches => { caches with plain := caches.plain.put record.vstart content }
    return content

/-- A decompressed content that is kept is given again, and a new one is kept. -/
theorem run_plainOf (image : Image) (record : FileRecord) (caches : Caches) :
    (image.plainOf record).run caches =
      match caches.plain.get? record.vstart with
      | some content => (.ok content, caches)
      | none =>
        match (image.storedOf record).run caches with
        | (.ok stored, caches) =>
          match stored.decompress with
          | .ok content =>
            (.ok content, { caches with plain := caches.plain.put record.vstart content })
          | .error e => (.error e, caches)
        | (.error e, caches) => (.error e, caches) := by
  unfold plainOf
  rw [Access.run_bind]
  change Access.run (match caches.plain.get? record.vstart with
    | some content => _
    | none => _) caches = _
  cases caches.plain.get? record.vstart with
  | some content => rfl
  | none =>
    simp only [Access.run_bind, Access.run_liftExcept]
    generalize (image.storedOf record).run caches = outcome
    obtain ⟨result, caches'⟩ := outcome
    cases result with
    | error e => rfl
    | ok stored =>
      cases h : stored.decompress with
      | error e => simp only [h]
      | ok content =>
        simp only [h]
        rfl

def file (image : Image) (index : Nat) : Access Content := do
  image.storedOf (← liftExcept (image.record index))

def decompressed (image : Image) (index : Nat) : Access Content := do
  image.plainOf (← liftExcept (image.record index))

def fileAt (image : Image) (address : Nat) : Access Content := do
  image.file (← liftExcept (image.indexOfAddress address))

def decompressedAt (image : Image) (address : Nat) : Access Content := do
  image.decompressed (← liftExcept (image.indexOfAddress address))

def fileNamed (image : Image) (name : String) : Access Content := do
  image.file (← liftExcept (image.indexOfName name))

def decompressedNamed (image : Image) (name : String) : Access Content := do
  image.decompressed (← liftExcept (image.indexOfName name))

end Cartridge.Image
