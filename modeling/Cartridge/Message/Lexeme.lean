import Cartridge.Bytes
import Cartridge.Message.Fragment
import Cartridge.Text.Labelled

/-!
# Reading bytes lexeme by lexeme

A cursor is a position in a buffer of bytes. A step answers or fails, and moves the
cursor; a step that lacks bytes is an error at the position of the cursor.

An encoding is a rule that reads one lexeme from the front of the bytes. A
lexeme is a character, another fragment or the end of the message, and takes
one byte or more. Reading a message takes lexeme after lexeme up to the end and
joins characters that follow one another.
-/
namespace Cartridge.Message

inductive Reason
  | unknownColor
  | noCharacter
deriving DecidableEq

def Reason.message : Reason → String
  | unknownColor => "unknown color"
  | noCharacter => "not a Shift-JIS character"

inductive Error
  | badSequence (bytes : Bytes) (reason : Option Reason)
  | unexpectedEnd (position : Nat)
  | noMessage (language : String) (id : Nat)
  | unsupported (what : String)
deriving DecidableEq

namespace Error

def message : Error → String
  | badSequence bytes reason =>
    "bad text sequence " ++ Numeral.hexList (bytes.map UInt8.toNat)
      ++ match reason with
        | some reason => ": " ++ reason.message
        | none => ""
  | unexpectedEnd position =>
    "message ran off the end of its buffer at offset 0x" ++ Numeral.lowerHex 1 position
  | noMessage language id =>
    "no message 0x" ++ Numeral.upperHex 4 id ++ " for language " ++ language
  | unsupported what => "no text decoder for " ++ what

def labelled : Error → Labelled
  | badSequence bytes reason =>
    .record "BadSequence" [
      ("bytes", .list (bytes.map fun b => .nat b.toNat)),
      ("reason", .option (reason.map fun r => .word (Quoted.render r.message)))]
  | unexpectedEnd position => .tuple "UnexpectedEnd" [.nat position]
  | noMessage language id =>
    .record "NoMessage" [("language", .word (Quoted.render language)), ("id", .nat id)]
  | unsupported what => .tuple "Unsupported" [.word (Quoted.render what)]

end Error

structure Cursor where
  bytes : Bytes
  pos : Nat := 0

/-- What a step answers, and where it leaves the cursor. -/
abbrev Step (α : Type) := Except Error α × Cursor

namespace Cursor

def rest (c : Cursor) : Bytes := c.bytes.drop c.pos

def remaining (c : Cursor) : Nat := c.bytes.length - c.pos

def peek? (c : Cursor) : Option UInt8 := c.rest.head?

/-- The cursor `n` bytes further. -/
def advance (c : Cursor) (n : Nat) : Cursor := { c with pos := c.pos + n }

def next (c : Cursor) : Step UInt8 :=
  match c.peek? with
  | some b => (.ok b, c.advance 1)
  | none => (.error (.unexpectedEnd c.pos), c)

/-- Takes the number that the next `n` bytes spell, modulo 2^32. Not even a number
of no bytes can be taken behind the end. -/
def number (c : Cursor) (n : Nat) : Step Nat :=
  if c.pos + n ≤ c.bytes.length then
    (.ok (Bytes.toNat (c.rest.take n) % 2 ^ 32), c.advance n)
  else (.error (.unexpectedEnd c.pos), c)

/-- The bytes from `start` up to the cursor. -/
def since (c : Cursor) (start : Nat) : Bytes := c.bytes.extract start c.pos

end Cursor

/-- What stands at the front of the bytes. Sizes count the bytes behind the first. -/
inductive Lexeme
  | char (c : Char) (more : Nat)
  | fragment (f : Fragment) (more : Nat)
  | stop (more : Nat)
  /-- The first byte and `more` others mean nothing. -/
  | bad (more : Nat) (reason : Option Reason)
  /-- The bytes end inside a lexeme, of which `taken` bytes are complete. -/
  | short (taken : Nat)
deriving DecidableEq

/-- An encoding reads a lexeme from a first byte and those behind it. -/
abbrev Lexer := UInt8 → Bytes → Lexeme

/-- What one lexeme adds to a message. -/
inductive Piece
  | char (c : Char)
  | fragment (f : Fragment)
deriving DecidableEq

/-- The lexeme that adds a piece and has `more` bytes behind its first. -/
def Piece.lexeme (more : Nat) : Piece → Lexeme
  | char c => .char c more
  | fragment f => .fragment f more

namespace Lexeme

/-- A control code whose argument has `size` bytes, of which the code itself takes
one byte and `more` others. -/
def control (code : Control) (size more : Nat) (rest : Bytes) : Lexeme :=
  if size = 0 then .fragment (.control code none) more
  else
    match Bytes.slice? rest more size with
    | some argument => .fragment (.control code (some (Bytes.toNat argument))) (more + size)
    | none => .short (more + 1)

end Lexeme

namespace Lexer

/-- Reads a message from bytes that start at `pos`. The fragments before them are
in `before`, last first. Gives the position behind the last byte read too. -/
def readFrom (lexer : Lexer) (pos : Nat) (before : List Fragment) (bytes : Bytes) :
    Except Error (List Fragment) × Nat :=
  match bytes with
  | [] => (.error (.unexpectedEnd pos), pos)
  | b :: rest =>
    match lexer b rest with
    | .char c more => readFrom lexer (pos + 1 + more) (Fragment.pushChar c before) (rest.drop more)
    | .fragment f more => readFrom lexer (pos + 1 + more) (f :: before) (rest.drop more)
    | .stop more => (.ok (Fragment.control .stop none :: before).reverse, pos + 1 + more)
    | .bad more reason =>
      (.error (.badSequence (b :: rest.take more) reason), pos + 1 + more)
    | .short taken => (.error (.unexpectedEnd (pos + taken)), pos + taken)
termination_by bytes.length
decreasing_by all_goals simp only [List.length_cons, List.length_drop]; omega

def read (lexer : Lexer) (c : Cursor) : Step (List Fragment) :=
  let (result, pos) := readFrom lexer c.pos [] c.rest
  (result, { c with pos })

end Lexer

end Cartridge.Message
