import Cartridge.Bytes
import Cartridge.Text.Labelled
import Cartridge.Text.Numeral

/-!
# Compressed files

A compressed file has a header of 16 bytes: a magic word, the size of the
content, and 8 bytes without meaning. Groups of up to eight tokens follow, each
group behind a byte of flags that are used from the highest bit on. A set flag
announces one byte of content. A clear flag announces a reference of two or
three bytes, which repeats content that lies `distance` bytes back; where the
distance is less than the length, the reference repeats bytes of its own.

Reading ends when the content has the size of the header or when no byte is
left, and only the first of these is a success. A reference that would go past
the end of the content is cut there.
-/
namespace Cartridge.Yaz0

inductive Error
  | badMagic (found : Bytes)
  | truncated (length : Nat)
  | badReference (distance position : Nat)
  | sizeMismatch (expected actual : Nat)
deriving DecidableEq

namespace Error

def message : Error → String
  | badMagic found => "bad Yaz0 header: magic " ++ Numeral.hexList (found.map UInt8.toNat)
  | truncated length => s!"Yaz0 stream too short for header ({length} bytes)"
  | badReference distance position =>
    s!"back-reference distance {distance} reaches before output start at 0x"
      ++ Numeral.lowerHex 1 position
  | sizeMismatch expected actual => s!"decompressed {actual} bytes, header declared {expected}"

def labelled : Error → Labelled
  | badMagic found => .tuple "BadMagic" [.list (found.map fun b => .nat b.toNat)]
  | truncated length => .tuple "Truncated" [.nat length]
  | badReference distance position =>
    .record "BadReference" [("distance", .nat distance), ("position", .nat position)]
  | sizeMismatch expected actual =>
    .record "SizeMismatch" [("expected", .nat expected), ("actual", .nat actual)]

end Error

def headerSize : Nat := 0x10

/-- The magic words that open a compressed file. -/
def magics : List Bytes := [Bytes.ofLatin "Yaz0", Bytes.ofLatin "Yaz1"]

def isCompressed (bytes : Bytes) : Bool := magics.contains (bytes.take 4)

def declaredSize (bytes : Bytes) : Except Error Nat :=
  if bytes.length < headerSize then .error (.truncated bytes.length)
  else if isCompressed bytes then .ok (Bytes.toNat (bytes.extract 4 8))
  else .error (.badMagic (bytes.take 4))

/-- The flags of a group, in the order of their use. -/
def flagBits (flags : UInt8) : List Bool :=
  [7, 6, 5, 4, 3, 2, 1, 0].map flags.toNat.testBit

/-- Appends `n` bytes, each equal to the one `distance` places before it. -/
def copyBack (distance : Nat) : Nat → Array UInt8 → Array UInt8
  | 0, out => out
  | n + 1, out => copyBack distance n (out.push (out.getD (out.size - distance) 0))

@[simp] theorem size_copyBack (distance n : Nat) (out : Array UInt8) :
    (copyBack distance n out).size = out.size + n := by
  induction n generalizing out with
  | zero => rfl
  | succ n ih =>
    rw [copyBack, ih, Array.size_push]
    omega

/-- Repeats `length` bytes of the content, or as many as `size` leaves room for. -/
def repeatBack (size distance length : Nat) (out : Array UInt8) : Except Error (Array UInt8) :=
  if out.size < distance then .error (.badReference distance out.size)
  else .ok (copyBack distance (min length (size - out.size)) out)

/-- The distance that the first two bytes of a reference hold. -/
def distanceOf (b0 b1 : UInt8) : Nat := b0.toNat % 16 * 256 + b1.toNat + 1

theorem distanceOf_pos (b0 b1 : UInt8) : 0 < distanceOf b0 b1 := Nat.succ_pos _

theorem distanceOf_le (b0 b1 : UInt8) : distanceOf b0 b1 ≤ 4096 := by
  have := b1.toNat_lt
  simp only [distanceOf]
  omega

/-- Reads tokens under the pending `flags` until the content in `out` has `size`
bytes or the source is used up. A reference cut short is an error that names
the `total` length of the file. -/
def readTokens (total size : Nat) :
    List Bool → Bytes → Array UInt8 → Except Error (Array UInt8)
  | _, [], out => .ok out
  | [], group :: source, out =>
    if size ≤ out.size then .ok out
    else readTokens total size (flagBits group) source out
  | true :: flags, byte :: source, out =>
    if size ≤ out.size then .ok out
    else readTokens total size flags source (out.push byte)
  | false :: _, [_], out =>
    if size ≤ out.size then .ok out else .error (.truncated total)
  | false :: flags, b0 :: b1 :: source, out =>
    if size ≤ out.size then .ok out
    else if b0.toNat / 16 = 0 then
      match source with
      | [] => .error (.truncated total)
      | b2 :: source =>
        match repeatBack size (distanceOf b0 b1) (b2.toNat + 0x12) out with
        | .ok out => readTokens total size flags source out
        | .error e => .error e
    else
      match repeatBack size (distanceOf b0 b1) (b0.toNat / 16 + 2) out with
      | .ok out => readTokens total size flags source out
      | .error e => .error e

def decompress (file : Bytes) : Except Error Bytes := do
  let size ← declaredSize file
  let out ← readTokens file.length size [] (file.drop headerSize) #[]
  if out.size = size then .ok out.toList else .error (.sizeMismatch size out.size)

end Cartridge.Yaz0
