import Cartridge.Decimal
import Cartridge.Text.Labelled

/-!
# Fixed-point registers

A register of `int + frac` bits holds a number in units of `2 ^ (-frac)`,
signed or not. Every operation computes exactly on integers and wraps its
result into the register, so a register always holds a value in range: that is
part of its type. Registers have between 1 and 63 bits.
-/
namespace Cartridge

/-- The layout of a fixed-point register. -/
structure Shape where
  signed : Bool
  int : Nat
  frac : Nat
  width_pos : 0 < int + frac := by decide
  width_le : int + frac ≤ 63 := by decide
deriving DecidableEq

namespace Shape

def width (s : Shape) : Nat := s.int + s.frac

/-- The least value, in units of the last place. -/
def least (s : Shape) : Int := if s.signed then -2 ^ (s.width - 1) else 0

/-- The greatest value, in units of the last place. -/
def greatest (s : Shape) : Int := if s.signed then 2 ^ (s.width - 1) - 1 else 2 ^ s.width - 1

/-- The value in range that equals `v` modulo `2 ^ width`. -/
def wrap (s : Shape) (v : Int) : Int :=
  let m := v % 2 ^ s.width
  if s.signed ∧ 2 ^ (s.width - 1) ≤ m then m - 2 ^ s.width else m

theorem two_pow_width (s : Shape) : (2 : Int) ^ s.width = 2 * 2 ^ (s.width - 1) := by
  have h : s.width = s.width - 1 + 1 := by
    have := s.width_pos
    simp only [width]
    omega
  rw [← Int.pow_succ', ← h]

theorem least_le_wrap (s : Shape) (v : Int) : s.least ≤ s.wrap v := by
  have half : (0 : Int) < 2 ^ (s.width - 1) := Int.pow_pos (by decide)
  have full := s.two_pow_width
  have nonneg : 0 ≤ v % 2 ^ s.width := Int.emod_nonneg _ (by omega)
  cases hs : s.signed with
  | false =>
    simp only [least, wrap, hs, Bool.false_eq_true, false_and, if_false]
    exact nonneg
  | true =>
    simp only [least, wrap, hs, true_and, if_true]
    split <;> omega

theorem wrap_le_greatest (s : Shape) (v : Int) : s.wrap v ≤ s.greatest := by
  have half : (0 : Int) < 2 ^ (s.width - 1) := Int.pow_pos (by decide)
  have full := s.two_pow_width
  have below : v % 2 ^ s.width < 2 ^ s.width := Int.emod_lt_of_pos _ (by omega)
  cases hs : s.signed with
  | false =>
    simp only [greatest, wrap, hs, Bool.false_eq_true, false_and, if_false]
    omega
  | true =>
    simp only [greatest, wrap, hs, true_and, if_true]
    split <;> omega

theorem least_le_greatest (s : Shape) : s.least ≤ s.greatest :=
  Int.le_trans (s.least_le_wrap 0) (s.wrap_le_greatest 0)

end Shape

/-- A number in a register of shape `s`, in units of the last place. -/
structure Fixed (s : Shape) where
  raw : Int
  least_le : s.least ≤ raw
  le_greatest : raw ≤ s.greatest
deriving DecidableEq

namespace Fixed

variable {s : Shape}

@[ext] theorem ext {x y : Fixed s} (h : x.raw = y.raw) : x = y := by
  cases x
  cases y
  cases h
  rfl

/-- The register that `v` units wrap to. -/
def ofRaw (v : Int) : Fixed s := ⟨s.wrap v, s.least_le_wrap v, s.wrap_le_greatest v⟩

@[simp] theorem raw_ofRaw (v : Int) : (ofRaw v : Fixed s).raw = s.wrap v := rfl

/-- The register that a bit pattern wraps to. -/
def ofBits (pattern : Nat) : Fixed s := ofRaw pattern

def ofInt (n : Int) : Fixed s := ofRaw (n * 2 ^ s.frac)

/-- The bit pattern, in two's complement. -/
def bits (x : Fixed s) : Nat := (x.raw % 2 ^ s.width).toNat

/-- The whole part, rounded down. -/
def floor (x : Fixed s) : Int := x.raw / 2 ^ s.frac

def greatest : Fixed s := ⟨s.greatest, s.least_le_greatest, Int.le_refl _⟩

def least : Fixed s := ⟨s.least, Int.le_refl _, s.least_le_greatest⟩

def zero : Fixed s := ofRaw 0

def add (x y : Fixed s) : Fixed s := ofRaw (x.raw + y.raw)

def sub (x y : Fixed s) : Fixed s := ofRaw (x.raw - y.raw)

def neg (x : Fixed s) : Fixed s := ofRaw (-x.raw)

/-- The product, rounded down to a unit. -/
def mul (x y : Fixed s) : Fixed s := ofRaw (x.raw * y.raw / 2 ^ s.frac)

/-- The quotient, rounded toward zero, when the divisor is not zero. -/
def div? (x y : Fixed s) : Option (Fixed s) :=
  if y.raw = 0 then none else some (ofRaw ((x.raw * 2 ^ s.frac).tdiv y.raw))

/-- The remainder with the sign of the dividend, when the divisor is not zero. -/
def rem? (x y : Fixed s) : Option (Fixed s) :=
  if y.raw = 0 then none else some (ofRaw (x.raw.tmod y.raw))

/-- What an operation on 128-bit words makes of the words that hold two numbers. A
negative number has ones in all the bits above its register. -/
def combine (op : BitVec 128 → BitVec 128 → BitVec 128) (x y : Fixed s) : Fixed s :=
  ofRaw (op (.ofInt 128 x.raw) (.ofInt 128 y.raw)).toInt

/-- The bits that both registers hold. -/
def and (x y : Fixed s) : Fixed s := combine (· &&& ·) x y

/-- The bits that one of the registers holds. -/
def or (x y : Fixed s) : Fixed s := combine (· ||| ·) x y

/-- The bits that just one of the registers holds. -/
def xor (x y : Fixed s) : Fixed s := combine (· ^^^ ·) x y

/-- The bits moved up by `n` places; none is left after a whole width. -/
def shiftLeft (x : Fixed s) (n : Nat) : Fixed s :=
  if s.width ≤ n then zero else ofRaw (x.raw * 2 ^ n)

/-- The bits moved down by `n` places, the sign filling in from above; no move goes
further than 127 places. -/
def shiftRight (x : Fixed s) (n : Nat) : Fixed s := ofRaw (x.raw >>> min n 127)

def compare (x y : Fixed s) : Ordering := Ord.compare x.raw y.raw

instance : LE (Fixed s) := ⟨fun x y => x.raw ≤ y.raw⟩

instance : LT (Fixed s) := ⟨fun x y => x.raw < y.raw⟩

instance (x y : Fixed s) : Decidable (x ≤ y) := inferInstanceAs (Decidable (x.raw ≤ y.raw))

instance (x y : Fixed s) : Decidable (x < y) := inferInstanceAs (Decidable (x.raw < y.raw))

/-- The number in another shape. A negative number is read as its bit pattern
when the target is unsigned; fraction bits that do not fit are dropped, and
what is left wraps into the target. -/
def convert (x : Fixed s) (t : Shape) : Fixed t :=
  let v := if s.signed ∧ ¬ t.signed ∧ x.raw < 0 then x.raw + 2 ^ s.width else x.raw
  ofRaw (if s.frac ≤ t.frac then v * 2 ^ (t.frac - s.frac) else v / 2 ^ (s.frac - t.frac))

/-- The number as binary floating point, rounded to the nearest. -/
def toBinary64 (x : Fixed s) : Binary64 := .ofInt x.raw s.frac

def toDecimal (x : Fixed s) : String := x.toBinary64.toDecimal

/-- The number in decimal, labelled with its shape. -/
def labelled (x : Fixed s) : Labelled :=
  .tuple ((if s.signed then "s" else "u") ++ "Q" ++ toString s.int ++ "." ++ toString s.frac)
    [.word x.toDecimal]

end Fixed

end Cartridge
