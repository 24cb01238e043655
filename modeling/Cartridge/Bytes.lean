import Cartridge.Word

/-!
# Byte strings

A byte string is a list of bytes. Numbers in it are big-endian and are read
at an offset; a read that would run past the end gives nothing. The two
searches of the library stand here as well: swapping adjacent bytes, and the
first occurrence of a pattern.
-/
namespace Cartridge

/-- A string of bytes. -/
abbrev Bytes := List UInt8

namespace Bytes

/-- The number that the bytes spell, most significant byte first. -/
def toNat (bytes : Bytes) : Nat :=
  bytes.foldl (fun n b => n * 256 + b.toNat) 0

/-- The `size` bytes from `offset` on, when the string is long enough. -/
def slice? (bytes : Bytes) (offset size : Nat) : Option Bytes :=
  let part := (bytes.drop offset).take size
  if part.length = size then some part else none

/-- The 16-bit number at `offset`. -/
def u16? (bytes : Bytes) (offset : Nat) : Option Nat :=
  (bytes.slice? offset 2).map toNat

/-- The 32-bit number at `offset`. -/
def u32? (bytes : Bytes) (offset : Nat) : Option Nat :=
  (bytes.slice? offset 4).map toNat

/-- The 64-bit word at `offset`. -/
def u64? (bytes : Bytes) (offset : Nat) : Option UInt64 :=
  (bytes.slice? offset 8).map fun part => UInt64.ofNat (toNat part)

/-- The number `n` in `size` bytes, most significant first. -/
def ofNat (size n : Nat) : Bytes :=
  (List.range size).reverse.map fun i => UInt8.ofNat (n / 256 ^ i)

@[simp] theorem length_ofNat (size n : Nat) : (ofNat size n).length = size := by
  simp [ofNat]

theorem slice?_eq_some {bytes part : Bytes} {offset size : Nat} :
    bytes.slice? offset size = some part ↔
      (bytes.drop offset).take size = part ∧ part.length = size := by
  simp only [slice?]
  constructor
  · intro h
    split at h
    next hl => cases h; exact ⟨rfl, hl⟩
    next => cases h
  · rintro ⟨rfl, h⟩
    rw [if_pos h]

/-- Exchanges the two bytes of each pair in front of the reversed `done`. -/
def swapOnto (done : Bytes) : Bytes → Bytes
  | a :: b :: rest => swapOnto (a :: b :: done) rest
  | rest => done.reverse ++ rest

/-- Exchanges the two bytes of every pair; a last byte without partner stays. -/
def swapPairs (bytes : Bytes) : Bytes := swapOnto [] bytes

theorem swapOnto_eq : ∀ bytes done : Bytes,
    swapOnto done bytes = done.reverse ++ swapPairs bytes
  | a :: b :: rest, done => by
    rw [swapPairs, swapOnto, swapOnto, swapOnto_eq rest, swapOnto_eq rest [a, b]]
    simp
  | [], done => by simp [swapPairs, swapOnto]
  | [a], done => by simp [swapPairs, swapOnto]

@[simp] theorem swapPairs_nil : swapPairs [] = [] := rfl

@[simp] theorem swapPairs_single (a : UInt8) : swapPairs [a] = [a] := rfl

@[simp] theorem swapPairs_cons_cons (a b : UInt8) (rest : Bytes) :
    swapPairs (a :: b :: rest) = b :: a :: swapPairs rest := by
  rw [swapPairs, swapOnto, swapOnto_eq]
  rfl

/-- Searches `bytes`, whose first byte stands at `offset`, for `pattern`. -/
def searchFrom? (pattern : Bytes) (offset : Nat) : Bytes → Option Nat
  | [] => none
  | b :: rest =>
    if pattern.isPrefixOf (b :: rest) then some offset
    else searchFrom? pattern (offset + 1) rest

/-- The least offset at which `pattern` occurs; the empty pattern occurs nowhere. -/
def search? (bytes pattern : Bytes) : Option Nat :=
  if pattern.isEmpty then none else searchFrom? pattern 0 bytes

/-- The bytes with the codes of the characters, for texts of codes below 256. -/
def ofLatin (text : String) : Bytes :=
  text.toList.map fun c => UInt8.ofNat c.toNat

/-- The characters with the codes of the bytes. -/
def toLatin (bytes : Bytes) : String :=
  String.ofList (bytes.map fun b => Char.ofNat b.toNat)

end Bytes

end Cartridge
