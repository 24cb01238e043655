import Cartridge.Proofs.Fixed.Register
import Mathlib.Data.Rat.Floor

/-!
# Registers of other shapes

A conversion reads a register as a number, moves the number to the places of the other shape
and wraps it there. A shape that has as many places on both sides of the point has room for
every reading, so that nothing is lost and the way back gives the same register, whatever the
two signs are. The number itself is kept where the sign is, and where a register without a sign
has a place more for it. A shape with fewer places behind the point drops the lowest bits.
-/
namespace Cartridge

section Scaling

variable {v : ℤ} {a b d : ℕ}

/-- A number below a power of two has room in a greater one after a move. -/
lemma mul_two_pow_lt (h : v < 2 ^ a) (hle : a + d ≤ b) : v * 2 ^ d < 2 ^ b := by
  have hpos : (0 : ℤ) < 2 ^ d := Int.pow_pos (by decide)
  calc
    v * 2 ^ d < 2 ^ a * 2 ^ d := Int.mul_lt_mul_of_pos_right h hpos
    _ = 2 ^ (a + d) := (Int.pow_add 2 a d).symm
    _ ≤ 2 ^ b := pow_le_pow_right₀ one_le_two hle

lemma neg_two_pow_le_mul (h : -2 ^ a ≤ v) (hle : a + d ≤ b) : -2 ^ b ≤ v * 2 ^ d := by
  have hpos : (0 : ℤ) ≤ 2 ^ d := Int.pow_nonneg (by decide)
  calc
    (-2 ^ b : ℤ) ≤ -2 ^ (a + d) := Int.neg_le_neg (pow_le_pow_right₀ one_le_two hle)
    _ = -2 ^ a * 2 ^ d := by rw [Int.pow_add, Int.neg_mul]
    _ ≤ v * 2 ^ d := Int.mul_le_mul_of_nonneg_right h hpos

/-- Dropping the lowest bits of a number rounds its fraction down. -/
lemma floor_div_two_pow (v : ℤ) (k : ℕ) : ⌊(v : ℚ) / 2 ^ k⌋ = v >>> k := by
  have h := Rat.floor_intCast_div_natCast v (2 ^ k)
  push_cast at h
  rw [h, Int.shiftRight_eq_div_pow]
  norm_cast

end Scaling

namespace Shape

variable {s : Shape}

lemma least_of_signed (h : s.signed) : s.least = -2 ^ (s.width - 1) := if_pos h

lemma greatest_of_signed (h : s.signed) : s.greatest = 2 ^ (s.width - 1) - 1 := if_pos h

lemma least_of_unsigned (h : ¬ s.signed) : s.least = 0 := if_neg h

lemma greatest_of_unsigned (h : ¬ s.signed) : s.greatest = 2 ^ s.width - 1 := if_neg h

end Shape

namespace Fixed

variable {s t : Shape}

/-- The number that a conversion moves. A register with a sign is read as its bit pattern where
the target has no sign. -/
def reading (x : Fixed s) (t : Shape) : ℤ := if s.signed ∧ ¬ t.signed then x.bits else x.raw

lemma raw_lt_two_pow (x : Fixed s) : -2 ^ s.width ≤ x.raw ∧ x.raw < 2 ^ s.width := by
  have hl := x.least_le
  have hg := x.le_greatest
  have half : (0 : ℤ) < 2 ^ (s.width - 1) := Int.pow_pos (by decide)
  have full := s.two_pow_width
  by_cases hs : s.signed
  · rw [Shape.least_of_signed hs] at hl
    rw [Shape.greatest_of_signed hs] at hg
    constructor <;> omega
  · rw [Shape.least_of_unsigned hs] at hl
    rw [Shape.greatest_of_unsigned hs] at hg
    constructor <;> omega

/-- The bit pattern of a negative number stands for one that is greater by all values. -/
lemma bits_eq (x : Fixed s) :
    (x.bits : ℤ) = if x.raw < 0 then x.raw + 2 ^ s.width else x.raw := by
  have hnonneg := Int.emod_nonneg x.raw (ne_of_gt s.two_pow_width_pos)
  obtain ⟨hge, hlt⟩ := x.raw_lt_two_pow
  rw [bits, Int.toNat_of_nonneg hnonneg]
  split
  · rw [← Int.add_emod_right]
    exact Int.emod_eq_of_lt (by omega) (by omega)
  · exact Int.emod_eq_of_lt (by omega) hlt

lemma bits_lt_two_pow (x : Fixed s) : (x.bits : ℤ) < 2 ^ s.width := by exact_mod_cast x.bits_lt

lemma bits_of_unsigned (hs : ¬ s.signed) (x : Fixed s) : (x.bits : ℤ) = x.raw := by
  have hl := x.least_le
  rw [Shape.least_of_unsigned hs] at hl
  rw [bits_eq, if_neg (Int.not_lt_of_ge hl)]

lemma reading_eq_bits (hs : s.signed) (ht : ¬ t.signed) (x : Fixed s) : x.reading t = x.bits :=
  if_pos ⟨hs, ht⟩

lemma reading_eq_raw (h : s.signed → t.signed) (x : Fixed s) : x.reading t = x.raw :=
  if_neg fun hsign => hsign.2 (h hsign.1)

/-- A register is what its readings wrap to. -/
lemma ofRaw_reading (x : Fixed s) (t : Shape) : ofRaw (x.reading t) = x := by
  unfold reading
  split
  · exact ofBits_bits x
  · exact ofRaw_raw x

/-- Only a negative number is read in another way than as itself. -/
lemma reading_eq (x : Fixed s) (t : Shape) : x.reading t =
    if s.signed ∧ ¬ t.signed ∧ x.raw < 0 then x.raw + 2 ^ s.width else x.raw := by
  rw [reading, bits_eq]
  by_cases hsign : s.signed ∧ ¬ t.signed
  · simp [hsign]
  · rw [if_neg hsign, if_neg fun h => hsign ⟨h.1, h.2.1⟩]

theorem convert_eq (x : Fixed s) (t : Shape) : x.convert t =
    ofRaw (if s.frac ≤ t.frac then x.reading t * 2 ^ (t.frac - s.frac)
      else x.reading t / 2 ^ (s.frac - t.frac)) := by
  rw [reading_eq]
  rfl

section Widening

variable (hint : s.int ≤ t.int) (hfrac : s.frac ≤ t.frac)
include hint hfrac

lemma width_add_le : s.width + (t.frac - s.frac) ≤ t.width := by
  simp only [Shape.width]
  omega

/-- A bit pattern fits into a shape without a sign that has no fewer places. -/
lemma raw_convert_of_unsigned (ht : ¬ t.signed) (x : Fixed s) :
    (x.convert t).raw = x.reading t * 2 ^ (t.frac - s.frac) := by
  have hreading : x.reading t = x.bits := by
    by_cases hs : s.signed
    · exact reading_eq_bits hs ht x
    · rw [reading_eq_raw fun h => absurd h hs, bits_of_unsigned hs]
  have hlt := mul_two_pow_lt x.bits_lt_two_pow (width_add_le hint hfrac)
  have hnonneg : (0 : ℤ) ≤ x.bits * 2 ^ (t.frac - s.frac) :=
    Int.mul_nonneg (Int.natCast_nonneg _) (Int.pow_nonneg (by decide))
  rw [convert_eq, if_pos hfrac, hreading, raw_ofRaw]
  apply Shape.wrap_eq_self
  · rwa [Shape.least_of_unsigned ht]
  · rw [Shape.greatest_of_unsigned ht]
    omega

/-- A number fits into a shape with a sign that has no fewer places, when one of them is there
for the sign. -/
lemma raw_convert_of_signed (ht : t.signed) (hplace : s.signed ∨ s.int < t.int) (x : Fixed s) :
    (x.convert t).raw = x.raw * 2 ^ (t.frac - s.frac) := by
  have hwidth := width_add_le hint hfrac
  have hfits : ∃ a, a + (t.frac - s.frac) ≤ t.width - 1 ∧ -2 ^ a ≤ x.raw ∧ x.raw < 2 ^ a := by
    by_cases hs : s.signed
    · have hpos : 0 < s.width := s.width_pos
      have hl := x.least_le
      have hg := x.le_greatest
      rw [Shape.least_of_signed hs] at hl
      rw [Shape.greatest_of_signed hs] at hg
      exact ⟨s.width - 1, by omega, hl, by omega⟩
    · have hlt : s.int < t.int := hplace.resolve_left hs
      refine ⟨s.width, ?_, x.raw_lt_two_pow⟩
      simp only [Shape.width] at hwidth ⊢
      omega
  obtain ⟨a, hle, hge, hlt⟩ := hfits
  have hlow := neg_two_pow_le_mul hge hle
  have hhigh := mul_two_pow_lt hlt hle
  rw [convert_eq, if_pos hfrac, reading_eq_raw fun _ => ht, raw_ofRaw]
  apply Shape.wrap_eq_self
  · rwa [Shape.least_of_signed ht]
  · rw [Shape.greatest_of_signed ht]
    omega

/-- On the way back a register is read as the number that was put into it: this may have wrapped to
a negative one, but its bit pattern has not. -/
theorem reading_convert (x : Fixed s) :
    (x.convert t).reading s = x.reading t * 2 ^ (t.frac - s.frac) := by
  by_cases ht : t.signed
  · by_cases hs : s.signed
    · rw [reading_eq_raw fun _ => hs, reading_eq_raw fun _ => ht,
        raw_convert_of_signed hint hfrac ht (.inl hs)]
    · have hlt := mul_two_pow_lt x.bits_lt_two_pow (width_add_le hint hfrac)
      have hnonneg : (0 : ℤ) ≤ x.bits * 2 ^ (t.frac - s.frac) :=
        Int.mul_nonneg (Int.natCast_nonneg _) (Int.pow_nonneg (by decide))
      rw [reading_eq_bits ht hs, reading_eq_raw fun _ => ht, convert_eq, if_pos hfrac,
        reading_eq_raw fun _ => ht, bits_ofRaw, ← bits_of_unsigned hs,
        Int.emod_eq_of_lt hnonneg hlt, Int.toNat_of_nonneg hnonneg]
  · rw [reading_eq_raw fun h => absurd h ht, raw_convert_of_unsigned hint hfrac ht]

theorem convert_convert (x : Fixed s) : (x.convert t).convert s = x := by
  have hpos : (2 : ℤ) ^ (t.frac - s.frac) ≠ 0 := Int.pow_ne_zero (by decide)
  rw [convert_eq (x.convert t), reading_convert hint hfrac]
  split
  · next hle =>
    have hsame : t.frac = s.frac := Nat.le_antisymm hle hfrac
    simpa [hsame] using ofRaw_reading x t
  · rw [Int.mul_ediv_cancel _ hpos, ofRaw_reading]

/-- The number is kept where the sign is, and where there is a place more for a sign. -/
theorem raw_convert (hsign : s.signed = t.signed ∨ ¬ s.signed ∧ t.signed ∧ s.int < t.int)
    (x : Fixed s) : (x.convert t).raw * 2 ^ s.frac = x.raw * 2 ^ t.frac := by
  have hraw : (x.convert t).raw = x.raw * 2 ^ (t.frac - s.frac) := by
    by_cases ht : t.signed
    · apply raw_convert_of_signed hint hfrac ht
      rcases hsign with hsame | ⟨-, -, hlt⟩
      · exact .inl (hsame ▸ ht)
      · exact .inr hlt
    · have hs : ¬ s.signed := by
        rcases hsign with hsame | ⟨hs, -, -⟩
        · exact hsame ▸ ht
        · exact hs
      rw [raw_convert_of_unsigned hint hfrac ht, reading_eq_raw fun h => absurd h hs]
  rw [hraw, Int.mul_assoc, ← Int.pow_add, Nat.sub_add_cancel hfrac]

end Widening

/-- A change of the sign alone keeps the bit pattern. -/
theorem bits_convert (hint : s.int = t.int) (hfrac : s.frac = t.frac) (x : Fixed s) :
    (x.convert t).bits = x.bits := by
  have hwidth : s.width = t.width := by rw [Shape.width, Shape.width, hint, hfrac]
  calc
    (x.convert t).bits = (ofRaw (x.reading t) : Fixed t).bits := by
      rw [convert_eq, if_pos (Nat.le_of_eq hfrac), hfrac, Nat.sub_self, Int.pow_zero, Int.mul_one]
    _ = (ofRaw (x.reading t) : Fixed s).bits := by rw [bits_ofRaw, bits_ofRaw, hwidth]
    _ = x.bits := by rw [ofRaw_reading]

theorem convert_bijective (hint : s.int = t.int) (hfrac : s.frac = t.frac) :
    Function.Bijective fun x : Fixed s => x.convert t := by
  refine Function.bijective_iff_has_inverse.mpr ⟨fun y => y.convert s, ?_, ?_⟩
  · exact convert_convert (Nat.le_of_eq hint) (Nat.le_of_eq hfrac)
  · exact convert_convert (Nat.le_of_eq hint.symm) (Nat.le_of_eq hfrac.symm)

theorem convert_of_lt (h : t.frac < s.frac) (x : Fixed s) :
    x.convert t = ofRaw (x.reading t >>> (s.frac - t.frac)) := by
  rw [convert_eq, if_neg (Nat.not_le_of_lt h), Int.shiftRight_eq_div_pow]
  norm_cast

variable (s t) in
/-- What a conversion of registers keeps. -/
structure KeepsNumbers : Prop where
  /-- With room for all places the way there and back changes nothing. -/
  round_trip : s.int ≤ t.int → s.frac ≤ t.frac → ∀ x : Fixed s, (x.convert t).convert s = x
  /-- The number is the same one when the signs are, or when there is room for one. -/
  exact_number : s.int ≤ t.int → s.frac ≤ t.frac →
    (s.signed = t.signed ∨ ¬ s.signed ∧ t.signed ∧ s.int < t.int) →
    ∀ x : Fixed s, (x.convert t).raw * 2 ^ s.frac = x.raw * 2 ^ t.frac
  /-- A change of the sign alone keeps the bit pattern. -/
  same_bits : s.int = t.int → s.frac = t.frac → ∀ x : Fixed s, (x.convert t).bits = x.bits
  bijective : s.int = t.int → s.frac = t.frac →
    Function.Bijective fun x : Fixed s => x.convert t
  /-- Fraction bits without a place are dropped, which rounds the number down, and the rest is
  cut off to the width of the target. -/
  rounds_down : t.frac < s.frac → ∀ x : Fixed s,
    x.convert t = ofRaw ⌊(x.reading t : ℚ) / 2 ^ (s.frac - t.frac)⌋ ∧
      ((x.convert t).bits : ℤ) = (x.reading t >>> (s.frac - t.frac)) % 2 ^ t.width

/-- Conversions keep numbers between all shapes. -/
theorem keepsNumbers (s t : Shape) : KeepsNumbers s t where
  round_trip := convert_convert
  exact_number := raw_convert
  same_bits := bits_convert
  bijective := convert_bijective
  rounds_down h x := by
    have hnonneg := Int.emod_nonneg (x.reading t >>> (s.frac - t.frac))
      (ne_of_gt t.two_pow_width_pos)
    rw [floor_div_two_pow, ← convert_of_lt h, convert_of_lt h, bits_ofRaw,
      Int.toNat_of_nonneg hnonneg]
    exact ⟨rfl, rfl⟩

/-- Screen coordinates have room with a sign and more places, change to a sign by their bit
patterns, and lose quarters among the whole numbers. -/
theorem keepsNumbers_coordinate :
    let coordinate : Shape := ⟨false, 10, 2, by decide, by decide⟩
    let wide : Shape := ⟨true, 12, 4, by decide, by decide⟩
    let signed : Shape := ⟨true, 10, 2, by decide, by decide⟩
    let whole : Shape := ⟨true, 10, 0, by decide, by decide⟩
    (∀ x : Fixed coordinate, (x.convert wide).convert coordinate = x) ∧
      (∀ x : Fixed coordinate, (x.convert wide).raw * 2 ^ 2 = x.raw * 2 ^ 4) ∧
      (∀ x : Fixed coordinate, (x.convert signed).bits = x.bits) ∧
      (Function.Bijective fun x : Fixed coordinate => x.convert signed) ∧
      ∀ x : Fixed coordinate, x.convert whole = ofRaw ⌊(x.reading whole : ℚ) / 2 ^ 2⌋ ∧
        ((x.convert whole).bits : ℤ) = (x.reading whole >>> (2 : ℕ)) % 2 ^ 10 := by
  intro coordinate wide signed whole
  refine ⟨?_, ?_, ?_, ?_, ?_⟩
  · exact (keepsNumbers coordinate wide).round_trip (by decide) (by decide)
  · exact (keepsNumbers coordinate wide).exact_number (by decide) (by decide) (by decide)
  · exact (keepsNumbers coordinate signed).same_bits (by decide) (by decide)
  · exact (keepsNumbers coordinate signed).bijective (by decide) (by decide)
  · exact (keepsNumbers coordinate whole).rounds_down (by decide)

/-- The greatest coordinate has the bit pattern of -1. -/
example : ((.ofBits 0xFFF : Fixed ⟨false, 10, 2, by decide, by decide⟩).convert
    ⟨true, 10, 2, by decide, by decide⟩).raw = -1 := by decide

end Fixed

end Cartridge
