import Cartridge.Bytes
import Cartridge.Command.Read
import Cartridge.Command.Render

/-!
# Display lists

Nothing marks where a display list begins, but each ends with an end command.
So a file is scanned from its end: an end command opens a list, words that read
as commands are added to its front, and the first that does not begins it.
Bytes after the last whole word do not count.
-/
namespace Cartridge

/-- A display list and the offset of its first word. -/
structure DisplayList where
  offset : Nat
  commands : List Command
deriving DecidableEq

namespace DisplayList

def wordSize : Nat := 8

/-- The words of a file behind the reversed `done`. -/
def wordsOnto (done : List UInt64) : Bytes → List UInt64
  | a :: b :: c :: d :: e :: f :: g :: h :: rest =>
    wordsOnto (UInt64.ofNat (Bytes.toNat [a, b, c, d, e, f, g, h]) :: done) rest
  | _ => done.reverse

def words (bytes : Bytes) : List UInt64 := wordsOnto [] bytes

def length (list : DisplayList) : Nat := list.commands.length

def stop (list : DisplayList) : Nat := list.offset + list.length * wordSize

/-- The word of an end command. -/
def endWord : UInt64 := 0xDF00000000000000

/-- Puts a list among lists in the order of their offsets, in place of one that
is there with the same offset. -/
def put (list : DisplayList) : List DisplayList → List DisplayList
  | [] => [list]
  | first :: rest =>
    if list.offset < first.offset then list :: first :: rest
    else if list.offset = first.offset then list :: rest
    else first :: put list rest

/-- What a scan has found so far: lists with a beginning, in the order of their
offsets, and the commands of a list without one. -/
structure Scan where
  lists : List DisplayList := []
  pending : Option (List Command) := none

namespace Scan

/-- Begins the pending list at `offset`, if there is one. -/
def close (scan : Scan) (offset : Nat) : Scan :=
  match scan.pending with
  | some commands => ⟨put ⟨offset, commands⟩ scan.lists, none⟩
  | none => scan

/-- Scans the word before those scanned so far. -/
def step (scan : Scan) (word : UInt64) (index : Nat) : Scan :=
  let next := (index + 1) * wordSize
  if word = endWord then { scan.close next with pending := some [.endDl] }
  else
    match scan.pending with
    | none => scan
    | some commands =>
      match Command.read word with
      | .ok (some command) => { scan with pending := some (command :: commands) }
      | _ => scan.close next

end Scan

/-- Scans words from the last to the first, of which the first is the word
`index` of the file. -/
def scanFrom (index : Nat) (words : List UInt64) : Scan :=
  (words.zipIdx index).foldr (fun (word, index) scan => scan.step word index) {}

/-- The display lists of a file, in the order of their offsets. -/
def ofBytes (bytes : Bytes) : List DisplayList := ((scanFrom 0 (words bytes)).close 0).lists

def renderLines (offset : Nat) : List Command → List String
  | [] => []
  | command :: rest =>
    ("    " ++ Numeral.upperHex 8 offset ++ ": " ++ command.render ++ "\n")
      :: renderLines (offset + wordSize) rest

def render (list : DisplayList) : String :=
  "dlist_" ++ Numeral.upperHex 8 list.offset ++ ":\n"
    ++ String.join (renderLines list.offset list.commands)

def renderAll (lists : List DisplayList) : String := String.join (lists.map render)

end DisplayList

end Cartridge
