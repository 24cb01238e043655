import Cartridge.Config.Tree
import Cartridge.Error
import Cartridge.Header
import Cartridge.Image.FileRecord
import Cartridge.Release

/-!
# Images

An image is a copy of a whole cartridge, in some dumps with the two bytes of every
pair exchanged. A magic text opens the build block, and behind the build block
stands the file table. The table is a file of the cartridge too, so the first
record from its start on whose physical range begins at this start tells how long
the table is.

A configuration gives the files their names and changes nothing else.
-/
namespace Cartridge

/-- An image with what is known of it. -/
structure Image where
  bytes : Bytes
  swapped : Bool
  magicOffset : Nat
  release : Release
  header : Option Header
  files : List Image.FileRecord
  config : Option Config.Tree

namespace Image

/-- The text that opens the build block. -/
def magic : Bytes := Bytes.ofLatin "zelda@"

/-- The magic text in an image with exchanged bytes. -/
def swappedMagic : Bytes := Bytes.ofLatin "ezdl@a"

/-- The bytes in their right order and whether they had to be exchanged. -/
def normalize (dump : Bytes) : Except Cartridge.Error (Bytes × Bool) :=
  if (dump.search? magic).isSome then .ok (dump, false)
  else if (dump.search? swappedMagic).isSome then .ok (dump.swapPairs, true)
  else .error (.image .noMagic)

/-- The record of the file table itself, with its position. The search for it has
come to `position` and has the bytes from there on before it. -/
def tableRecord? (start position : Nat) (bytes : Bytes) : Option (Nat × FileRecord) :=
  match _ : FileRecord.read? bytes 0 with
  | none => none
  | some record =>
    if record.pstart = start then some (position, record)
    else tableRecord? start (position + FileRecord.size) (bytes.drop FileRecord.size)
termination_by bytes.length
decreasing_by
  have := FileRecord.length_of_read? (by assumption)
  simp only [FileRecord.size, List.length_drop] at *
  omega

/-- Up to `count` records, one after another. -/
def records : Nat → Bytes → List FileRecord
  | 0, _ => []
  | count + 1, bytes =>
    match FileRecord.read? bytes 0 with
    | none => []
    | some record => record :: records count (bytes.drop FileRecord.size)

/-- The records before the first blank one, where a blank one in front counts. -/
def beforeBlank : List FileRecord → List FileRecord
  | [] => []
  | first :: rest => first :: rest.takeWhile fun r => !r.isBlank

/-- The number of records that begin within so many bytes. -/
def recordCount (size : Nat) : Nat := (size + FileRecord.size - 1) / FileRecord.size

/-- The file table that starts at an offset. -/
def readTable (bytes : Bytes) (start : Nat) : Except Cartridge.Error (List FileRecord) :=
  let table := bytes.drop start
  match tableRecord? start start table with
  | none => .error (.image (.bad (.noFileTable start)))
  | some (position, record) =>
    let stop := start + record.virtualSize
    if record.isCompressed || record.isMissing then
      .error (.image (.bad (.fileTableNotPlain position)))
    else if bytes.length < stop then
      .error (.image (.bad (.fileTableTooLong start stop)))
    else .ok (beforeBlank (records (recordCount record.virtualSize) table))

/-- The name that a configuration gives to the file at a virtual address: a known
name, or else a made-up one. -/
def nameOf? (config : Config.Tree) (address : Nat) : Option String :=
  let key := Numeral.upperHex 8 address
  config.string? ["fileList", key] <|> config.string? ["fileList", "fakeNames", key]

/-- Reads an image; no file has a name yet. -/
def ofBytes (dump : Bytes) : Except Cartridge.Error Image := do
  let (bytes, swapped) ← normalize dump
  match bytes.search? magic with
  | none => .error (.image .noMagic)
  | some magicOffset =>
    let files ← readTable bytes (magicOffset + Release.blockSize)
    .ok {
      bytes, swapped, magicOffset, files
      release := .ofBlock (bytes.drop magicOffset)
      header := Header.ofBytes? bytes
      config := none }

/-- Gives the files the names of a configuration. -/
def configure (image : Image) (config : Config.Tree) : Image :=
  { image with
    config := some config
    files := image.files.map fun r =>
      { r with name := (nameOf? config r.vstart).getD "" } }

/-- Reads an image and names its files, when there is a configuration for its release. -/
def load (dump : Bytes) (configOf : Release → Option Config.Tree) :
    Except Cartridge.Error Image := do
  let image ← ofBytes dump
  match configOf image.release with
  | some config => .ok (image.configure config)
  | none => .ok image

def record (image : Image) (index : Nat) : Except Cartridge.Error FileRecord :=
  match image.files[index]? with
  | some record => .ok record
  | none => .error (.image (.noSuchIndex index))

/-- The index of the first file with a virtual address. -/
def indexOfAddress (image : Image) (address : Nat) : Except Cartridge.Error Nat :=
  match image.files.findIdx? (·.vstart == address) with
  | some index => .ok index
  | none => .error (.image (.noSuchAddress address))

/-- The index of the first file with a name. -/
def indexOfName (image : Image) (name : String) : Except Cartridge.Error Nat :=
  match image.config, image.files.findIdx? (·.name == name) with
  | none, _ => .error (.image .noConfiguration)
  | some _, some index => .ok index
  | some _, none => .error (.image (.noSuchName name))

def render (image : Image) : String :=
  String.intercalate "\n" [
    "",
    "Version:                  " ++ image.release.title,
    "Byte-swapped:             " ++ (if image.swapped then "true" else "false"),
    "Build info offset:        0x" ++ Numeral.lowerHex 1 image.magicOffset,
    "Files:                    " ++ toString image.files.length,
    "Configuration:            " ++ (if image.config.isSome then "loaded" else "none"),
    (image.header.map Header.render).getD ""]

end Image

end Cartridge
