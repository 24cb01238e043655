/-!
# Bit fields of 64-bit words

Bit 0 is the least significant. A field is named by its lowest bit and its
width, and may hold the code of a value. A bit reader takes fields one after the
other from the top of what is left of a word.

Powers of natural numbers and of integers are those of the core library, so that a
definition means the same where an algebra library offers powers of its own.
-/
namespace Cartridge

attribute [scoped instance (high)] instPowNat

attribute [default_instance high + 1] instPowNat

namespace Word

/-- The `width` bits of `word` from bit `shift` upward. -/
def field (word : UInt64) (shift width : Nat) : Nat :=
  word.toNat / 2 ^ shift % 2 ^ width

theorem field_lt (word : UInt64) (shift width : Nat) : field word shift width < 2 ^ width :=
  Nat.mod_lt _ (Nat.two_pow_pos width)

/-- The lower 32 bits. -/
def low (word : UInt64) : Nat := field word 0 32

/-- The number that the lowest `width` bits of `n` mean in two's complement. -/
def signed (width n : Nat) : Int := Int.bmod n (2 ^ width)

end Word

/-- Values that a field of `width` bits holds as codes, each as one of its own. -/
class Coded (α : Type) where
  all : List α
  code : α → Nat
  width : Nat
  mem_all : ∀ x, x ∈ all
  code_lt : ∀ x, code x < 2 ^ width
  code_injective : ∀ x y, code x = code y → x = y

namespace Coded

variable {α : Type} [Coded α]

/-- The value that a code means, if any. -/
def ofCode? (n : Nat) : Option α := all.find? fun x => code x = n

theorem ofCode?_eq_some_iff {n : Nat} {x : α} : ofCode? n = some x ↔ n = code x := by
  have hcode {m : Nat} {y : α} (h : ofCode? m = some y) : code y = m := by
    have hfound := List.find?_some h
    exact of_decide_eq_true hfound
  constructor
  · intro h
    exact (hcode h).symm
  · rintro rfl
    cases hfind : (ofCode? (code x) : Option α) with
    | none => simpa using List.find?_eq_none.mp hfind x (mem_all x)
    | some y => rw [code_injective y x (hcode hfind)]

end Coded

/-- A number of `left` bits of which fields are taken from the top. -/
structure BitReader where
  value : Nat
  left : Nat

namespace BitReader

/-- A reader of the 56 bits that follow the top byte of `word`. -/
def afterTopByte (word : UInt64) : BitReader := ⟨Word.field word 0 56, 56⟩

/-- Takes the next `width` bits, when that many are left. -/
def take? (reader : BitReader) (width : Nat) : Option (Nat × BitReader) :=
  if width ≤ reader.left then
    let rest := reader.left - width
    some (reader.value / 2 ^ rest, ⟨reader.value % 2 ^ rest, rest⟩)
  else none

/-- Takes fields of the given widths in turn. -/
def takeAll? (reader : BitReader) : List Nat → Option (List Nat × BitReader)
  | [] => some ([], reader)
  | width :: widths => do
    let (value, reader) ← reader.take? width
    let (values, reader) ← reader.takeAll? widths
    some (value :: values, reader)

end BitReader

end Cartridge
