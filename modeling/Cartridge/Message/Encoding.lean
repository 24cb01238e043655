import Cartridge.Release
import Cartridge.Message.Lexeme
import Cartridge.Text.DoubleByte

/-!
# Encodings of messages

There are four encodings. Three of them take one byte for a character: one in
Ocarina of Time, and two in Majora's Mask that differ in three characters. The
Japanese encoding takes units of two bytes, of which some are control codes.
-/
namespace Cartridge.Message

/-- The button at a place of the font. -/
def buttonAt? (place : Nat) : Option Fragment := (Button.all[place]?).map .button

namespace Ocarina

def letters : List Char :=
  "ÀîÂÄÇÈÉÊËÏÔÖÙÛÜßàáâäçèéêëïôöùûü".toList

def control? : Nat → Option (Control × Nat)
  | 0x01 => some (.newLine, 0)
  | 0x04 => some (.boxBreak, 0)
  | 0x06 => some (.shift, 1)
  | 0x07 => some (.goto, 2)
  | 0x08 => some (.quickTextOn, 0)
  | 0x09 => some (.quickTextOff, 0)
  | 0x0A => some (.persistent, 0)
  | 0x0B => some (.event, 0)
  | 0x0C => some (.boxBreakDelayed, 1)
  | 0x0D => some (.awaitButton, 0)
  | 0x0E => some (.fade, 1)
  | 0x0F => some (.playerName, 0)
  | 0x10 => some (.ocarina, 0)
  | 0x11 => some (.fade2, 2)
  | 0x12 => some (.sound, 2)
  | 0x13 => some (.itemIcon, 1)
  | 0x14 => some (.textSpeed, 1)
  | 0x15 => some (.background, 3)
  | 0x16 => some (.marathonTime, 0)
  | 0x17 => some (.raceTime, 0)
  | 0x18 => some (.points, 0)
  | 0x19 => some (.goldSkulltulas, 0)
  | 0x1A => some (.unskippable, 0)
  | 0x1B => some (.twoChoice, 0)
  | 0x1C => some (.threeChoice, 0)
  | 0x1D => some (.fishWeight, 0)
  | 0x1E => some (.highScore, 1)
  | 0x1F => some (.time, 0)
  | _ => none

def color? : Nat → Option TextColor
  | 0x40 => some .standard
  | 0x41 => some .red
  | 0x42 => some .green
  | 0x43 => some .blue
  | 0x44 => some .lightBlue
  | 0x45 => some .pink
  | 0x46 => some .yellow
  | 0x47 => some .black
  | _ => none

def stopByte : Nat := 0x02

def colorByte : Nat := 0x05

def char? (b : Nat) : Option Char :=
  if 0x20 ≤ b ∧ b ≤ 0x7E then some (Char.ofNat b)
  else if 0x80 ≤ b then letters[b - 0x80]?
  else none

def button? (b : Nat) : Option Fragment := if 0x9F ≤ b then buttonAt? (b - 0x9F) else none

def colorLexeme : Bytes → Lexeme
  | [] => .short 1
  | code :: _ =>
    match color? code.toNat with
    | some color => .fragment (.color color) 1
    | none => .bad 1 (some .unknownColor)

end Ocarina

/-- What a first byte means, before those behind it are read. -/
inductive Meaning
  | stop
  | colorMark
  | piece (p : Piece)
  | control (code : Control) (size : Nat)
  | nothing
deriving DecidableEq

/-- The lexeme of a first byte with a meaning and of the bytes behind it. -/
def Meaning.lexeme (rest : Bytes) : Meaning → Lexeme
  | stop => .stop 0
  | colorMark => Ocarina.colorLexeme rest
  | piece p => p.lexeme 0
  | control code size => .control code size 0 rest
  | nothing => .bad 0 none

namespace Ocarina

/-- What a byte means: a character before a button, and a button before a control code. -/
def meaning (b : Nat) : Meaning :=
  if b = stopByte then .stop
  else if b = colorByte then .colorMark
  else
    match char? b, button? b, control? b with
    | some c, _, _ => .piece (.char c)
    | none, some button, _ => .piece (.fragment button)
    | none, none, some (code, size) => .control code size
    | none, none, none => .nothing

def lexer : Lexer := fun byte rest => (meaning byte.toNat).lexeme rest

end Ocarina

namespace Japanese

def control? : Nat → Option (Control × Nat)
  | 0x000A => some (.newLine, 0)
  | 0x81A5 => some (.boxBreak, 0)
  | 0x86C7 => some (.shift, 2)
  | 0x81CB => some (.goto, 2)
  | 0x8189 => some (.quickTextOn, 0)
  | 0x818A => some (.quickTextOff, 0)
  | 0x86C8 => some (.persistent, 0)
  | 0x819F => some (.event, 0)
  | 0x81A3 => some (.boxBreakDelayed, 2)
  | 0x81A4 => some (.awaitButton, 0)
  | 0x819E => some (.fade, 2)
  | 0x874F => some (.playerName, 0)
  | 0x81F0 => some (.ocarina, 0)
  | 0x81F4 => some (.fade2, 2)
  | 0x81F3 => some (.sound, 2)
  | 0x819A => some (.itemIcon, 2)
  | 0x86C9 => some (.textSpeed, 2)
  | 0x86B3 => some (.background, 4)
  | 0x8791 => some (.marathonTime, 0)
  | 0x8792 => some (.raceTime, 0)
  | 0x879B => some (.points, 0)
  | 0x86A3 => some (.goldSkulltulas, 0)
  | 0x8199 => some (.unskippable, 0)
  | 0x81BC => some (.twoChoice, 0)
  | 0x81B8 => some (.threeChoice, 0)
  | 0x86A4 => some (.fishWeight, 0)
  | 0x869F => some (.highScore, 2)
  | 0x81A1 => some (.time, 0)
  | _ => none

def stopUnit : Nat := 0x8170

def colorUnit : Nat := 0x000B

def button? (u : Nat) : Option Fragment := if 0x839F ≤ u then buttonAt? (u - 0x839F) else none

/-- Reads the unit of a colour behind the colour unit. -/
def colorLexeme : Bytes → Lexeme
  | high :: code :: _ =>
    match if high = 0 then Ocarina.color? code.toNat else none with
    | some color => .fragment (.color color) 3
    | none => .bad 3 (some .unknownColor)
  | _ => .short 2

/-- The number that the two bytes of a unit spell. -/
def unit (lead trail : UInt8) : Nat := lead.toNat * 256 + trail.toNat

variable (char? : Nat → Nat → Option Char)

/-- Reads a character of a table. -/
def charLexeme (lead trail : Nat) : Lexeme :=
  if DoubleByte.isLead lead then
    match char? lead trail with
    | some c => .char c 1
    | none => .bad 1 (some .noCharacter)
  else .bad 1 none

/-- Reads one lexeme of the encoding, with the characters of a table. -/
def lexer : Lexer := fun lead rest =>
  match rest with
  | [] => .short 0
  | trail :: behind =>
    if unit lead trail = stopUnit then .stop 1
    else if unit lead trail = colorUnit then colorLexeme behind
    else
      match control? (unit lead trail), button? (unit lead trail) with
      | some (code, size), _ => .control code size 1 rest
      | none, some button => .fragment button 1
      | none, none => charLexeme char? lead.toNat trail.toNat

end Japanese

namespace Majora

/-- The letters and marks from byte 0x80 on; the last three are European. -/
def letters : List Char :=
  "ÀÁÂÄÇÈÉÊËÌÍÎÏÑÒÓÔÖÙÚÛÜßàáâäçèéêëìíîïñòóôöùúûü¡¿ª".toList

def control? : Nat → Option (Control × Nat)
  | 0x0B => some (.swampCruiseHits, 0)
  | 0x0C => some (.strayFairies, 0)
  | 0x0D => some (.goldSkulltulas, 0)
  | 0x10 => some (.boxBreak, 0)
  | 0x11 => some (.newLine, 0)
  | 0x12 => some (.boxBreak2, 0)
  | 0x13 => some (.carriageReturn, 0)
  | 0x14 => some (.shift, 1)
  | 0x15 => some (.proceed, 0)
  | 0x16 => some (.playerName, 0)
  | 0x17 => some (.quickTextOn, 0)
  | 0x18 => some (.quickTextOff, 0)
  | 0x19 => some (.event, 0)
  | 0x1A => some (.persistent, 0)
  | 0x1B => some (.boxBreakDelayed, 2)
  | 0x1C => some (.fade, 2)
  | 0x1D => some (.delayEnd, 2)
  | 0x1E => some (.sound, 2)
  | 0x1F => some (.delay, 2)
  | 0xC1 => some (.background, 0)
  | 0xC2 => some (.twoChoice, 0)
  | 0xC3 => some (.threeChoice, 0)
  | _ => none

def color? : Nat → Option TextColor
  | 0x00 => some .standard
  | 0x01 => some .red
  | 0x02 => some .green
  | 0x03 => some .blue
  | 0x04 => some .yellow
  | 0x05 => some .lightBlue
  | 0x06 => some .pink
  | 0x07 => some .silver
  | 0x08 => some .orange
  | _ => none

def stopByte : Nat := 0xBF

/-- The character of a byte, in a font that goes up to the byte `last`. -/
def char? (last b : Nat) : Option Char :=
  if 0x20 ≤ b ∧ b ≤ 0x7E then some (Char.ofNat b)
  else if 0x80 ≤ b ∧ b ≤ last then letters[b - 0x80]?
  else none

def button? (b : Nat) : Option Fragment := if 0xB0 ≤ b then buttonAt? (b - 0xB0) else none

/-- The codes whose argument is their own byte: three that show nothing, and those
that show a number of the game. -/
def selfArgument? (b : Nat) : Option Control :=
  if b = 0x0A ∨ b = 0x0E ∨ b = 0x0F then some .reserved
  else if 0xC4 ≤ b then some .gameValue
  else none

/-- What a byte means, in a font that goes up to the byte `last`. -/
def meaning (last b : Nat) : Meaning :=
  if b = stopByte then .stop
  else
    match color? b, control? b, selfArgument? b with
    | some color, _, _ => .piece (.fragment (.color color))
    | none, some (code, size), _ => .control code size
    | none, none, some code => .piece (.fragment (.control code (some b)))
    | none, none, none =>
      match char? last b, button? b with
      | some c, _ => .piece (.char c)
      | none, some button => .piece (.fragment button)
      | none, none => .nothing

def lexer (last : Nat) : Lexer := fun byte rest => (meaning last byte.toNat).lexeme rest

end Majora

/-- The encodings. -/
inductive Encoding
  | ootAscii
  | ootShiftJis
  | mmAscii
  | mmEuAscii
deriving DecidableEq

namespace Encoding

/-- The lexemes of an encoding. -/
def lexer : Encoding → Lexer
  | ootAscii => Ocarina.lexer
  | ootShiftJis => Japanese.lexer DoubleByte.char?
  | mmAscii => Majora.lexer 0xAC
  | mmEuAscii => Majora.lexer 0xAF

/-- Whether settings of a text box precede the text. -/
def hasHeader : Encoding → Bool
  | mmAscii | mmEuAscii => true
  | ootAscii | ootShiftJis => false

/-- The encoding of a language on the cartridges of a game and region. -/
def ofLanguage? : Game → Region → Language → Option Encoding
  | .oot, _, .japanese => some ootShiftJis
  | .oot, _, _ => some ootAscii
  | .mm, _, .japanese => none
  | .mm, .eu, _ => some mmEuAscii
  | .mm, _, _ => some mmAscii

end Encoding

end Cartridge.Message
