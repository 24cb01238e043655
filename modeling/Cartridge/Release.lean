import Cartridge.Bytes

/-!
# Releases and languages

A release of a game is known by the time it was built. The time stands in the
build block of a cartridge: a user name, zero bytes, and then the date as text
up to the next zero byte or the end of the block. Configurations name the languages
of messages by codes.
-/
namespace Cartridge

inductive Game
  | oot
  | mm
deriving DecidableEq

def Game.label : Game → String
  | oot => "Oot"
  | mm => "Mm"

inductive Region
  | ntsc
  | pal
  | jp
  | us
  | eu
deriving DecidableEq

def Region.label : Region → String
  | ntsc => "Ntsc"
  | pal => "Pal"
  | jp => "Jp"
  | us => "Us"
  | eu => "Eu"

inductive Language
  | japanese
  | english
  | german
  | french
  | spanish
deriving DecidableEq, Repr

namespace Language

def all : List Language := [japanese, english, german, french, spanish]

def code : Language → String
  | japanese => "jp"
  | english => "en"
  | german => "de"
  | french => "fr"
  | spanish => "es"

def ofCode? (code : String) : Option Language := all.find? (·.code == code)

end Language

/-- The known releases, and one for all others. -/
inductive Release
  | ootNtsc10
  | ootNtsc11
  | ootNtsc12
  | ootPal10
  | ootPal11
  | ootPalMqDebug
  | mmJp10
  | mmJp11
  | mmUs
  | mmEu10
  | mmEu11
  | mmEuDebug
  | unknown
deriving DecidableEq

namespace Release

def known : List Release :=
  [.ootNtsc10, .ootNtsc11, .ootNtsc12, .ootPal10, .ootPal11, .ootPalMqDebug,
    .mmJp10, .mmJp11, .mmUs, .mmEu10, .mmEu11, .mmEuDebug]

def date? : Release → Option String
  | ootNtsc10 => some "98-10-21 04:56:31"
  | ootNtsc11 => some "98-10-26 10:58:45"
  | ootNtsc12 => some "98-11-12 18:17:03"
  | ootPal10 => some "98-11-10 14:34:22"
  | ootPal11 => some "98-11-18 17:36:49"
  | ootPalMqDebug => some "03-02-21 00:16:31"
  | mmJp10 => some "00-03-31 02:22:11"
  | mmJp11 => some "00-04-04 09:34:16"
  | mmUs => some "00-07-31 17:04:16"
  | mmEu10 => some "00-09-25 11:16:53"
  | mmEu11 => some "00-09-29 09:29:41"
  | mmEuDebug => some "00-09-29 09:29:05"
  | unknown => none

/-- The release that was built at this time. -/
def ofDate (date : String) : Release :=
  (known.find? fun r => r.date? == some date).getD unknown

def blockSize : Nat := 0x30

def blockDate (block : Bytes) : Bytes :=
  let afterUser := (block.take blockSize).dropWhile (· != 0)
  (afterUser.dropWhile (· == 0)).takeWhile (· != 0)

/-- The release that a build block names. -/
def ofBlock (block : Bytes) : Release := ofDate (blockDate block).toLatin

/-- The game of a known release. -/
def game? : Release → Option Game
  | ootNtsc10 | ootNtsc11 | ootNtsc12 | ootPal10 | ootPal11 | ootPalMqDebug => some .oot
  | mmJp10 | mmJp11 | mmUs | mmEu10 | mmEu11 | mmEuDebug => some .mm
  | unknown => none

/-- The region that a known release was made for. -/
def region? : Release → Option Region
  | ootNtsc10 | ootNtsc11 | ootNtsc12 => some .ntsc
  | ootPal10 | ootPal11 | ootPalMqDebug => some .pal
  | mmJp10 | mmJp11 => some .jp
  | mmUs => some .us
  | mmEu10 | mmEu11 | mmEuDebug => some .eu
  | unknown => none

def configName? : Release → Option String
  | ootNtsc10 => some "oot-ntsc-1.0"
  | ootNtsc11 => some "oot-ntsc-1.1"
  | ootNtsc12 => some "oot-ntsc-1.2"
  | ootPal10 => some "oot-pal-1.0"
  | ootPal11 => some "oot-pal-1.1"
  | ootPalMqDebug => some "oot-pal-mq-debug"
  | mmJp10 => some "mm-jp-1.0"
  | mmJp11 => some "mm-jp-1.1"
  | mmUs => some "mm-us"
  | mmEu10 => some "mm-eu-1.0"
  | mmEu11 => some "mm-eu-1.1"
  | mmEuDebug => some "mm-eu-debug"
  | unknown => none

def title : Release → String
  | ootNtsc10 => "Ocarina of Time NTSC 1.0"
  | ootNtsc11 => "Ocarina of Time NTSC 1.1"
  | ootNtsc12 => "Ocarina of Time NTSC 1.2"
  | ootPal10 => "Ocarina of Time PAL 1.0"
  | ootPal11 => "Ocarina of Time PAL 1.1"
  | ootPalMqDebug => "Ocarina of Time Master Quest Debug"
  | mmJp10 => "Majora's Mask JP 1.0"
  | mmJp11 => "Majora's Mask JP 1.1"
  | mmUs => "Majora's Mask US"
  | mmEu10 => "Majora's Mask EU 1.0"
  | mmEu11 => "Majora's Mask EU 1.1"
  | mmEuDebug => "Majora's Mask EU Debug"
  | unknown => "unknown build"

end Release

end Cartridge
