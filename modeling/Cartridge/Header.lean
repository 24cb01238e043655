import Cartridge.Bytes
import Cartridge.Text.Numeral

/-!
# Cartridge headers

The first 64 bytes of a cartridge: settings of the console, two checksums, the
title and the code of the game. Characters are the codes of their bytes.
-/
namespace Cartridge

/-- The header of a cartridge. -/
structure Header where
  piSettings : Nat
  clockRate : Nat
  bootAddress : Nat
  release : Nat
  crc1 : Nat
  crc2 : Nat
  title : String
  gameCode : String
  revision : Nat
deriving DecidableEq

namespace Header

def size : Nat := 0x40

/-- Removes zero characters and blanks from the end of a title. -/
def trimTitle (title : Bytes) : Bytes :=
  (title.reverse.dropWhile fun b => b == 0 || b == 0x20).reverse

/-- The header at the start of a cartridge, when the cartridge is long enough. -/
def ofBytes? (bytes : Bytes) : Option Header := do
  let block ← bytes.slice? 0 size
  some {
    piSettings := ← block.u32? 0x00
    clockRate := ← block.u32? 0x04
    bootAddress := ← block.u32? 0x08
    release := ← block.u32? 0x0C
    crc1 := ← block.u32? 0x10
    crc2 := ← block.u32? 0x14
    title := (trimTitle (block.extract 0x20 0x34)).toLatin
    gameCode := Bytes.toLatin (block.extract 0x3B 0x3F)
    revision := (block.getD 0x3F 0).toNat }

/-- The letter of the region, last in the code of the game. -/
def regionCode? (header : Header) : Option Char := header.gameCode.toList[3]?

/-- The header as a table of its fields, one a line. -/
def render (header : Header) : String :=
  let word n := "0x" ++ Numeral.lowerHex 8 n
  String.intercalate "\n" [
    "",
    "Title:                    " ++ header.title,
    "Game code:                " ++ header.gameCode,
    "Revision:                 " ++ toString header.revision,
    "PI settings:              " ++ word header.piSettings,
    "Clock rate:               " ++ word header.clockRate,
    "Boot address:             " ++ word header.bootAddress,
    "Release:                  " ++ word header.release,
    "CRC1:                     " ++ word header.crc1,
    "CRC2:                     " ++ word header.crc2,
    ""]

end Header

end Cartridge
