import Cartridge.Config.Tree
import Cartridge.Message.Lexeme
import Cartridge.Release
import Cartridge.Yaz0

/-!
# Errors

What can be wrong with an image as a whole, why a file of it cannot be had, and every
error that an operation on an image can end in, by the part of the library that it
comes from.
-/
namespace Cartridge

namespace Image

/-- What is wrong with the tables of an image. -/
inductive Flaw
  | noFileTable (start : Nat)
  | fileTableNotPlain (position : Nat)
  | fileTableTooLong (start stop : Nat)
  | openMessageTable (start : Nat)
deriving DecidableEq

def Flaw.message : Flaw → String
  | noFileTable start => "no file table entry for offset 0x" ++ Numeral.lowerHex 1 start
  | fileTableNotPlain position =>
    "file table entry at 0x" ++ Numeral.lowerHex 1 position
      ++ " claims the table is compressed or missing"
  | fileTableTooLong start stop =>
    "file table 0x" ++ Numeral.lowerHex 1 start ++ "..0x" ++ Numeral.lowerHex 1 stop
      ++ " runs past the image"
  | openMessageTable start =>
    "message table at 0x" ++ Numeral.lowerHex 1 start ++ " has no terminator"

inductive Error
  | noMagic
  | bad (flaw : Flaw)
  | noSuchIndex (index : Nat)
  | noSuchName (name : String)
  | noSuchAddress (address : Nat)
  | noConfiguration
  | outOfRange (name : String) (start stop length : Nat)
  | missingFile (address : Nat)
deriving DecidableEq

namespace Error

def message : Error → String
  | noMagic => "no zelda@ magic found in ROM"
  | bad flaw => "bad ROM: " ++ flaw.message
  | noSuchIndex index => "no file at index " ++ toString index
  | noSuchName name => "no file named " ++ Quoted.render name
  | noSuchAddress address =>
    "no file starting at virtual address 0x" ++ Numeral.upperHex 8 address
  | noConfiguration => "no configuration loaded for this ROM version"
  | outOfRange name start stop length =>
    "file " ++ Quoted.render name ++ " range 0x" ++ Numeral.upperHex 1 start
      ++ "..0x" ++ Numeral.upperHex 1 stop
      ++ " lies outside the ROM (0x" ++ Numeral.upperHex 1 length ++ " bytes)"
  | missingFile address =>
    "file at 0x" ++ Numeral.upperHex 8 address ++ " is missing from this ROM"

def labelled : Error → Labelled
  | noMagic => .word "NoMagic"
  | bad flaw => .tuple "BadRom" [.word (Quoted.render flaw.message)]
  | noSuchIndex index => .tuple "BadIndex" [.nat index]
  | noSuchName name => .tuple "NoSuchName" [.word (Quoted.render name)]
  | noSuchAddress address => .tuple "NoSuchAddress" [.nat address]
  | noConfiguration => .word "NoConfiguration"
  | outOfRange name start stop length =>
    .record "OutOfRange" [
      ("name", .word (Quoted.render name)),
      ("start", .nat start),
      ("end", .nat stop),
      ("len", .nat length)]
  | missingFile address => .tuple "MissingFile" [.nat address]

end Error

end Image

inductive Error
  | yaz0 (cause : Yaz0.Error)
  | image (cause : Image.Error)
  | text (cause : Message.Error)
  | config (cause : Config.Error)
  | noLayout (game : Option Game) (region : Option Region)
deriving DecidableEq

namespace Error

def noLayoutText (game : Option Game) (region : Option Region) : String :=
  let game := Labelled.option (game.map fun g => .word g.label)
  let region := Labelled.option (region.map fun r => .word r.label)
  "no message table layout for " ++ game.render ++ " " ++ region.render
    ++ " with this source"

def message : Error → String
  | yaz0 cause => cause.message
  | image cause => cause.message
  | text cause => cause.message
  | config cause => cause.message
  | noLayout game region => "internal error: " ++ noLayoutText game region

def labelled : Error → Labelled
  | yaz0 cause => .tuple "Yaz0" [cause.labelled]
  | image cause => .tuple "Rom" [cause.labelled]
  | text cause => .tuple "Text" [cause.labelled]
  | config cause => .tuple "Config" [cause.labelled]
  | noLayout game region =>
    .tuple "Internal" [.word (Quoted.render (noLayoutText game region))]

end Error

end Cartridge
