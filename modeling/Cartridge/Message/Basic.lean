import Cartridge.Message.Encoding

/-!
# Messages

A message is text, and in Majora's Mask settings of its text box before it. The game
shows a message in boxes of lines. A newline code ends a line, each of the three box
breaks ends a box, and the end code ends the message; none of these is part of a line.
-/
namespace Cartridge.Message

/-- Cuts a list at the elements with a property, which are left out. There is
always one part more than there are cuts. -/
def cutAt (isCut : α → Bool) : List α → List (List α)
  | [] => [[]]
  | a :: rest =>
    if isCut a then [] :: cutAt isCut rest
    else
      match cutAt isCut rest with
      | [] => [[a]]
      | part :: parts => (a :: part) :: parts

/-- Fragments that stand in one line. -/
abbrev Line := List Fragment

/-- Lines that stand in one box. -/
abbrev TextBox := List Line

namespace Fragment

def isStop (f : Fragment) : Bool := f.code? == some .stop

def isNewLine (f : Fragment) : Bool := f.code? == some .newLine

def isBoxBreak (f : Fragment) : Bool := f.code?.any Control.isBoxBreak

end Fragment

def TextBox.ofFragments (fragments : List Fragment) : List TextBox :=
  (cutAt Fragment.isBoxBreak (fragments.takeWhile fun f => !f.isStop)).map
    (cutAt Fragment.isNewLine)

/-- The settings of a text box. -/
structure BoxSettings where
  boxType : Nat
  boxPosition : Nat
  icon : Nat
  nextMessage : Option Nat
  firstPrice : Option Nat
  secondPrice : Option Nat
deriving DecidableEq

namespace BoxSettings

def size : Nat := 11

/-- A number where all ones mean that there is none. -/
def optional (n : Nat) : Option Nat := if n = 0xFFFF then none else some n

/-- The settings at the start of the bytes, when there are enough bytes. -/
def ofBytes? (bytes : Bytes) : Option BoxSettings :=
  match bytes with
  | boxType :: boxPosition :: icon :: n0 :: n1 :: p0 :: p1 :: q0 :: q1 :: _ :: _ :: _ =>
    some {
      boxType := boxType.toNat
      boxPosition := boxPosition.toNat
      icon := icon.toNat
      nextMessage := optional (Bytes.toNat [n0, n1])
      firstPrice := optional (Bytes.toNat [p0, p1])
      secondPrice := optional (Bytes.toNat [q0, q1]) }
  | _ => none

/-- Takes the settings at a cursor. Where bytes are missing the cursor stops behind
the last one. -/
def read (c : Cursor) : Step BoxSettings :=
  match ofBytes? (c.rest.take size) with
  | some settings => (.ok settings, c.advance size)
  | none =>
    let stopped := c.advance c.remaining
    (.error (.unexpectedEnd stopped.pos), stopped)

def labelled (s : BoxSettings) : Labelled :=
  let optional (n : Option Nat) := Labelled.option (n.map .nat)
  .record "MmMessageHeader" [
    ("box_type", .nat s.boxType),
    ("box_position", .nat s.boxPosition),
    ("icon", .nat s.icon),
    ("next_message", optional s.nextMessage),
    ("first_price", optional s.firstPrice),
    ("second_price", optional s.secondPrice)]

end BoxSettings

end Message

structure Message where
  settings : Option Message.BoxSettings
  fragments : List Message.Fragment
deriving DecidableEq

namespace Message

def readAt (encoding : Encoding) (c : Cursor) : Step Message :=
  if encoding.hasHeader then
    match BoxSettings.read c with
    | (.error e, c) => (.error e, c)
    | (.ok settings, c) =>
      let (result, c) := encoding.lexer.read c
      (result.map (⟨some settings, ·⟩), c)
  else
    let (result, c) := encoding.lexer.read c
    (result.map (⟨none, ·⟩), c)

/-- Reads the message at an offset of a buffer. -/
def read (encoding : Encoding) (bytes : Bytes) (offset : Nat) : Except Error Message :=
  (readAt encoding ⟨bytes, offset⟩).1

def boxes (m : Message) : List TextBox := TextBox.ofFragments m.fragments

def plainText (m : Message) : String := Fragment.plainAll m.fragments

end Message

end Cartridge
