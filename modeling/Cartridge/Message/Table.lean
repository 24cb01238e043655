import Cartridge.Bytes
import Cartridge.Catalog
import Cartridge.Error
import Cartridge.Release
import Cartridge.Text.Labelled

/-!
# Message tables

A message table tells by the id of a message how its box looks and where its
text is. It comes in three forms. A closed table ends with the id 0xFFFF. A list
of addresses ends with a zero and goes with another table, which has the ids.
A table that is a file of its own ends with the file.

A message index has a message table for each language of a release. The code file
of a release holds the tables one behind the other, each beginning where the one
before it ends:

* Ocarina of Time for NTSC: closed tables for Japanese and English;
* Ocarina of Time for PAL: a closed table for English, then the addresses for
  German and for French, both with the ids of English;
* Majora's Mask for Japan and for the United States: one closed table.

The European Majora's Mask has a file for each language instead.
-/
namespace Cartridge.Message

/-- How a text box looks. -/
inductive BoxKind
  | black
  | wooden
  | blue
  | ocarina
  | noBox
  | noBoxNoShadow
  | credits
  | other (code : Nat)
deriving DecidableEq

namespace BoxKind

def ofCode : Nat → BoxKind
  | 0x0 => black
  | 0x1 => wooden
  | 0x2 => blue
  | 0x3 => ocarina
  | 0x4 => noBox
  | 0x5 => noBoxNoShadow
  | 0xB => credits
  | code => other code

def labelled : BoxKind → Labelled
  | black => .word "Black"
  | wooden => .word "Wooden"
  | blue => .word "Blue"
  | ocarina => .word "Ocarina"
  | noBox => .word "NoBox"
  | noBoxNoShadow => .word "NoBoxNoShadow"
  | credits => .word "Credits"
  | other code => .tuple "Other" [.nat code]

end BoxKind

/-- Where on the screen a text box is. -/
inductive BoxPosition
  | varying
  | top
  | middle
  | bottom
  | other (code : Nat)
deriving DecidableEq

namespace BoxPosition

def ofCode : Nat → BoxPosition
  | 0 => varying
  | 1 => top
  | 2 => middle
  | 3 => bottom
  | code => other code

def labelled : BoxPosition → Labelled
  | varying => .word "Variable"
  | top => .word "Top"
  | middle => .word "Middle"
  | bottom => .word "Bottom"
  | other code => .tuple "Other" [.nat code]

end BoxPosition

/-- What a table tells of a message. The address is an offset in the file with the
texts of the language. -/
structure TableEntry where
  kind : BoxKind
  position : BoxPosition
  address : Nat
deriving DecidableEq

/-- The part of an address that counts: the low 24 bits, without the segment. -/
def addressOf (word : Nat) : Nat := word % 2 ^ 24

/-- The entry with this byte on the box and this address. -/
def TableEntry.ofFields (info : UInt8) (address : Nat) : TableEntry where
  kind := .ofCode (info.toNat / 16)
  position := .ofCode (info.toNat % 16)
  address := addressOf address

/-- A message table: entries by id. -/
abbrev Table := Catalog Nat TableEntry

namespace Table

def entrySize : Nat := 8

/-- The id that closes a table. -/
def lastId : Nat := 0xFFFF

/-- The entries that the bytes hold, one after another; bytes at the end that are
less than an entry do not count. -/
def entriesOf : Bytes → List (Nat × TableEntry)
  | i0 :: i1 :: info :: _ :: a0 :: a1 :: a2 :: a3 :: rest =>
    (Bytes.toNat [i0, i1], .ofFields info (Bytes.toNat [a0, a1, a2, a3])) :: entriesOf rest
  | _ => []

/-- The entries before the first with the last id, when there is such a one. -/
def closedEntries? : Bytes → Option (List (Nat × TableEntry))
  | i0 :: i1 :: info :: _ :: a0 :: a1 :: a2 :: a3 :: rest =>
    let id := Bytes.toNat [i0, i1]
    if id = lastId then some []
    else (closedEntries? rest).map
      ((id, .ofFields info (Bytes.toNat [a0, a1, a2, a3])) :: ·)
  | _ => none

/-- The closed table at an offset and the offset behind it. -/
def read? (bytes : Bytes) (offset : Nat) : Option (Table × Nat) :=
  (closedEntries? (bytes.drop offset)).map fun entries =>
    (.ofList entries, offset + (entries.length + 1) * entrySize)

/-- The words before the first zero, when there is such a one. -/
def wordsToZero? : Bytes → Option (List Nat)
  | a0 :: a1 :: a2 :: a3 :: rest =>
    let word := Bytes.toNat [a0, a1, a2, a3]
    if word = 0 then some [] else (wordsToZero? rest).map (word :: ·)
  | _ => none

/-- The entries, as many as there are words, with the words as addresses. -/
def readdress (entries : List (Nat × TableEntry)) (words : List Nat) :
    List (Nat × TableEntry) :=
  List.zipWith (fun e word => (e.1, { e.2 with address := addressOf word })) entries words

theorem ids_readdress (entries : List (Nat × TableEntry)) (words : List Nat) :
    (readdress entries words).map Prod.fst = (entries.map Prod.fst).take words.length := by
  induction entries generalizing words with
  | nil => simp [readdress]
  | cons e rest ih =>
    cases words with
    | nil => simp [readdress]
    | cons word words => simpa [readdress] using ih words

/-- The table with the words as addresses of its first entries, and no others. -/
def withAddresses (ids : Table) (words : List Nat) : Table where
  entries := readdress ids.entries words
  nodup_keys := by
    rw [ids_readdress]
    exact ids.nodup_keys.sublist (List.take_sublist _ _)

/-- The table whose addresses are listed at an offset, for the ids and boxes of
another table in their order, and the offset behind the list. Addresses without an
id do not count. -/
def readAddresses? (bytes : Bytes) (offset : Nat) (ids : Table) : Option (Table × Nat) :=
  (wordsToZero? (bytes.drop offset)).map fun words =>
    (withAddresses ids words, offset + (words.length + 1) * 4)

/-- The table that is a whole file. Entries with the last id do not count. -/
def ofFile (bytes : Bytes) : Table :=
  .ofList ((entriesOf bytes).filter (·.1 ≠ lastId))

/-- The address after that of an id. -/
def nextAddress? (table : Table) (id : Nat) : Option Nat :=
  (table.next? id).map (·.2.address)

end Table

abbrev Index := Catalog Language Table

/-- Where message tables are: in a code file from an offset on, or in files. -/
inductive TableSource
  | code (bytes : Bytes) (offset : Nat)
  | files (files : List (Language × Bytes))

namespace Table

/-- What has been read, or the error that the table at this offset does not end. -/
def orOpen (offset : Nat) (read : Option α) : Except Cartridge.Error α :=
  match read with
  | some a => .ok a
  | none => .error (.image (.bad (.openMessageTable offset)))

/-- The closed table at an offset and the offset behind it. -/
def read (bytes : Bytes) (offset : Nat) : Except Cartridge.Error (Table × Nat) :=
  orOpen offset (read? bytes offset)

/-- The table whose addresses are listed at an offset, and the offset behind it. -/
def readAddresses (bytes : Bytes) (offset : Nat) (ids : Table) :
    Except Cartridge.Error (Table × Nat) :=
  orOpen offset (readAddresses? bytes offset ids)

end Table

namespace Index

def ofNtsc (code : Bytes) (offset : Nat) : Except Cartridge.Error Index := do
  let (japanese, next) ← Table.read code offset
  let (english, _) ← Table.read code next
  .ok (.ofList [(.japanese, japanese), (.english, english)])

def ofPal (code : Bytes) (offset : Nat) : Except Cartridge.Error Index := do
  let (english, next) ← Table.read code offset
  let (german, next) ← Table.readAddresses code next english
  let (french, _) ← Table.readAddresses code next english
  .ok (.ofList [(.english, english), (.german, german), (.french, french)])

def ofSingle (language : Language) (code : Bytes) (offset : Nat) :
    Except Cartridge.Error Index := do
  let (table, _) ← Table.read code offset
  .ok (.ofList [(language, table)])

def ofFiles (files : List (Language × Bytes)) : Index :=
  .ofList (files.map fun file => (file.1, Table.ofFile file.2))

def ofSource (game : Option Game) (region : Option Region) (source : TableSource) :
    Except Cartridge.Error Index :=
  match game, region, source with
  | some .oot, some .ntsc, .code code offset => ofNtsc code offset
  | some .oot, some .pal, .code code offset => ofPal code offset
  | some .mm, some .eu, .files files => .ok (ofFiles files)
  | some .mm, some .jp, .code code offset => ofSingle .japanese code offset
  | some .mm, some .us, .code code offset => ofSingle .english code offset
  | game, region, _ => .error (.noLayout game region)

/-- What the index tells of a message. -/
def entry? (index : Index) (language : Language) (id : Nat) : Option TableEntry := do
  (← index.get? language).get? id

/-- The address after that of a message, in the order of the table. -/
def nextAddress? (index : Index) (language : Language) (id : Nat) : Option Nat := do
  (← index.get? language).nextAddress? id

def messageCount (index : Index) : Nat :=
  index.entries.foldl (fun count part => count + part.2.size) 0

end Index

end Cartridge.Message
