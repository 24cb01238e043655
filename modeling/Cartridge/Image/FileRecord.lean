import Cartridge.Bytes
import Cartridge.Text.Numeral

/-!
# File records

The file table of a cartridge has a record of 16 bytes for each file. The virtual
range of a file is where the game sees it; the physical range is where its bytes
are. A physical range without an end has the size of the virtual one, one with an
end holds a compressed file, and one of all ones belongs to a file that was left
out of the cartridge. A listing has a column for each bound.
-/
namespace Cartridge.Column

/-- The blanks that a text lacks to the width of a column. A wider text lacks none. -/
def blanks (width : Nat) (text : String) : String :=
  String.ofList (List.replicate (width - text.length) ' ')

/-- A text at the left of its column. -/
def left (width : Nat) (text : String) : String := text ++ blanks width text

/-- A text at the right of its column. -/
def right (width : Nat) (text : String) : String := blanks width text ++ text

end Cartridge.Column

namespace Cartridge.Image

/-- A record of the file table, with the name of the file where it is known. -/
structure FileRecord where
  vstart : Nat
  vend : Nat
  pstart : Nat
  pend : Nat
  name : String := ""
deriving DecidableEq

namespace FileRecord

def size : Nat := 16

/-- Both bounds of the physical range of a file that was left out. -/
def absent : Nat := 0xFFFFFFFF

def read? (bytes : Bytes) (offset : Nat) : Option FileRecord := do
  some {
    vstart := ← bytes.u32? offset
    vend := ← bytes.u32? (offset + 4)
    pstart := ← bytes.u32? (offset + 8)
    pend := ← bytes.u32? (offset + 12) }

/-- A record can be read where its 16 bytes are all there. -/
theorem length_of_read? {bytes : Bytes} {offset : Nat} {r : FileRecord}
    (h : read? bytes offset = some r) : offset + size ≤ bytes.length := by
  simp only [read?, bind, Option.bind_eq_some_iff] at h
  obtain ⟨_, _, _, _, _, _, w, hw, _⟩ := h
  simp only [Bytes.u32?, Option.map_eq_some_iff, Bytes.slice?_eq_some] at hw
  obtain ⟨part, ⟨rfl, hl⟩, _⟩ := hw
  simp only [List.length_take, List.length_drop] at hl
  simp only [size]
  omega

def isMissing (r : FileRecord) : Bool := r.pstart == absent && r.pend == absent

def isCompressed (r : FileRecord) : Bool := r.pend != 0 && !r.isMissing

def virtualSize (r : FileRecord) : Nat := r.vend - r.vstart

def physicalSize (r : FileRecord) : Nat :=
  if r.pend = 0 then r.virtualSize else r.pend - r.pstart

/-- Whether all bounds are zero. -/
def isBlank (r : FileRecord) : Bool :=
  r.vstart == 0 && r.vend == 0 && r.pstart == 0 && r.pend == 0

/-- The name of the file, or else its virtual start. -/
def label (r : FileRecord) : String :=
  if r.name.isEmpty then Numeral.upperHex 8 r.vstart else r.name

def storage (r : FileRecord) : String :=
  if r.isMissing then "missing" else if r.isCompressed then "yaz0" else ""

def render (r : FileRecord) : String :=
  " ".intercalate [
    Numeral.upperHex 8 r.vstart,
    Numeral.upperHex 8 r.vend,
    Numeral.upperHex 8 r.pstart,
    Numeral.upperHex 8 r.pend,
    Column.right 8 (Numeral.upperHex 1 r.virtualSize),
    Column.left 7 r.storage,
    r.name]

def heads : String :=
  " ".intercalate [
    Column.right 4 "#",
    Column.left 8 "vstart",
    Column.left 8 "vend",
    Column.left 8 "pstart",
    Column.left 8 "pend",
    Column.right 8 "size",
    Column.left 7 "flags",
    "name"]

/-- The rows of records, numbered from `index` on. -/
def rowsFrom (index : Nat) : List FileRecord → List String
  | [] => []
  | r :: rest =>
    (Column.right 4 (toString index) ++ " " ++ r.render ++ "\n") :: rowsFrom (index + 1) rest

def renderAll (records : List FileRecord) : String :=
  heads ++ "\n" ++ String.join (rowsFrom 0 records)

end FileRecord

end Cartridge.Image
