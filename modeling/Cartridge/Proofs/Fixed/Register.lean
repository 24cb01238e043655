import Cartridge.Fixed
import Mathlib.Tactic.NormNum

/-!
# Registers as words

Wrapping into a register changes nothing modulo the number of its values, and nothing at all for
a number in range; so a register and its bit pattern determine each other. A register then
behaves as a word of as many bits in two's complement. Operations compute on integers that are
longer than the register; wrapping cuts the results off, and what is left are the results of the
same operations on words of the register's own length.
-/
namespace Cartridge

namespace Shape

variable (s : Shape)

theorem two_pow_width_pos : (0 : ℤ) < 2 ^ s.width := Int.pow_pos (by decide)

theorem wrap_emod (v : ℤ) : s.wrap v % 2 ^ s.width = v % 2 ^ s.width := by
  simp only [wrap]
  split
  · rw [Int.sub_emod_right, Int.emod_emod]
  · rw [Int.emod_emod]

theorem wrap_congr {u v : ℤ} (h : u % 2 ^ s.width = v % 2 ^ s.width) : s.wrap u = s.wrap v := by
  simp only [wrap, h]

theorem wrap_eq_self {v : ℤ} (hl : s.least ≤ v) (hg : v ≤ s.greatest) : s.wrap v = v := by
  have half : (0 : ℤ) < 2 ^ (s.width - 1) := Int.pow_pos (by decide)
  have full := s.two_pow_width
  have hdiv := Int.emod_add_mul_ediv v (2 ^ s.width)
  simp only [least, greatest] at hl hg
  simp only [wrap]
  by_cases hs : s.signed
  · simp only [hs, if_true, true_and] at hl hg ⊢
    by_cases hv : 0 ≤ v
    · rw [Int.emod_eq_of_lt hv (by omega), if_neg (by omega)]
    · rw [← Int.add_emod_right, Int.emod_eq_of_lt (by omega) (by omega), if_pos (by omega)]
      omega
  · simp only [hs, Bool.false_eq_true, if_false, false_and] at hl hg ⊢
    exact Int.emod_eq_of_lt hl (by omega)

end Shape

namespace Fixed

variable {s : Shape}

theorem bits_ofRaw (v : ℤ) : (ofRaw v : Fixed s).bits = (v % 2 ^ s.width).toNat := by
  rw [bits, raw_ofRaw, Shape.wrap_emod]

theorem bits_lt (x : Fixed s) : x.bits < 2 ^ s.width := by
  have hpos := s.two_pow_width_pos
  have hlt := Int.emod_lt_of_pos x.raw hpos
  have hcast : ((2 ^ s.width : ℕ) : ℤ) = 2 ^ s.width := by norm_cast
  simp only [bits]
  omega

theorem bits_ofBits {pattern : ℕ} (h : pattern < 2 ^ s.width) :
    (ofBits pattern : Fixed s).bits = pattern := by
  have hcast : ((2 ^ s.width : ℕ) : ℤ) = 2 ^ s.width := by norm_cast
  rw [ofBits, bits_ofRaw, Int.emod_eq_of_lt (by omega) (by omega), Int.toNat_natCast]

theorem ofBits_bits (x : Fixed s) : ofBits x.bits = x := by
  have hpos := s.two_pow_width_pos
  have hnonneg := Int.emod_nonneg x.raw (ne_of_gt hpos)
  apply ext
  calc
    (ofBits x.bits : Fixed s).raw = s.wrap (x.raw % 2 ^ s.width) := by
      rw [ofBits, raw_ofRaw, bits, Int.toNat_of_nonneg hnonneg]
    _ = s.wrap x.raw := s.wrap_congr (Int.emod_emod _ _)
    _ = x.raw := s.wrap_eq_self x.least_le x.le_greatest

theorem ofBits_eq_iff {pattern : ℕ} (h : pattern < 2 ^ s.width) {x : Fixed s} :
    ofBits pattern = x ↔ pattern = x.bits := by
  constructor
  · rintro rfl
    exact (bits_ofBits h).symm
  · rintro rfl
    exact ofBits_bits x

/-- The word that a register holds. -/
def pattern (x : Fixed s) : BitVec s.width := BitVec.ofNat s.width x.bits

theorem toNat_pattern (x : Fixed s) : x.pattern.toNat = x.bits := by
  rw [pattern, BitVec.toNat_ofNat, Nat.mod_eq_of_lt x.bits_lt]

/-- Cutting an integer off to a word is wrapping it into the register. -/
theorem pattern_ofRaw (v : ℤ) : (ofRaw v : Fixed s).pattern = BitVec.ofInt s.width v := by
  have hcast : ((2 ^ s.width : ℕ) : ℤ) = 2 ^ s.width := by norm_cast
  apply BitVec.eq_of_toNat_eq
  rw [toNat_pattern, bits_ofRaw, BitVec.toNat_ofInt, hcast]

theorem ofRaw_raw (x : Fixed s) : ofRaw x.raw = x :=
  ext (s.wrap_eq_self x.least_le x.le_greatest)

theorem pattern_eq_ofInt (x : Fixed s) : x.pattern = BitVec.ofInt s.width x.raw := by
  rw [← pattern_ofRaw, ofRaw_raw]

/-- The integer that a word means depends on whether the register has a sign. -/
theorem raw_eq (x : Fixed s) :
    x.raw = if s.signed then x.pattern.toInt else (x.pattern.toNat : ℤ) := by
  have hl := x.least_le
  have hg := x.le_greatest
  rw [pattern_eq_ofInt]
  have hpos : 0 < s.width := s.width_pos
  simp only [Shape.least, Shape.greatest] at hl hg
  by_cases hs : s.signed
  · simp only [hs, if_true] at hl hg ⊢
    exact (BitVec.toInt_ofInt_eq_self hpos hl (by omega)).symm
  · simp only [hs, Bool.false_eq_true, if_false] at hl hg ⊢
    have hcast : ((2 ^ s.width : ℕ) : ℤ) = 2 ^ s.width := by norm_cast
    rw [BitVec.toNat_ofInt, hcast, Int.emod_eq_of_lt hl (by omega), Int.toNat_of_nonneg hl]

/-- No register holds an integer of more than 64 bits. -/
theorem raw_bounds (x : Fixed s) : -2 ^ 63 ≤ x.raw ∧ x.raw < 2 ^ 63 := by
  have hl := x.least_le
  have hg := x.le_greatest
  have half : (0 : ℤ) < 2 ^ (s.width - 1) := Int.pow_pos (by decide)
  have full := s.two_pow_width
  have hle : (2 : ℤ) ^ s.width ≤ 2 ^ 63 := pow_le_pow_right₀ one_le_two s.width_le
  simp only [Shape.least, Shape.greatest] at hl hg
  split at hl <;> split at hg <;> constructor <;> omega

theorem pattern_add (x y : Fixed s) : (x.add y).pattern = x.pattern + y.pattern := by
  rw [add, pattern_ofRaw, BitVec.ofInt_add, ← pattern_eq_ofInt, ← pattern_eq_ofInt]

theorem pattern_neg (x : Fixed s) : x.neg.pattern = -x.pattern := by
  rw [neg, pattern_ofRaw, BitVec.ofInt_neg, ← pattern_eq_ofInt]

theorem pattern_sub (x y : Fixed s) : (x.sub y).pattern = x.pattern - y.pattern := by
  rw [sub, pattern_ofRaw, Int.sub_eq_add_neg, BitVec.ofInt_add, BitVec.ofInt_neg,
    ← pattern_eq_ofInt, ← pattern_eq_ofInt, BitVec.sub_eq_add_neg]

/-- The word of 128 bits for a register is the word of the register with its sign
in the bits above. -/
lemma signExtend_ofInt_raw (x : Fixed s) :
    (BitVec.ofInt 128 x.raw).signExtend s.width = x.pattern := by
  obtain ⟨hl, hg⟩ := x.raw_bounds
  have hraw : (BitVec.ofInt 128 x.raw).toInt = x.raw :=
    BitVec.toInt_ofInt_eq_self (by decide) (by omega) (by omega)
  rw [BitVec.signExtend, hraw, pattern_eq_ofInt]

/-- An operation that works bit by bit does the same on long words and on short ones. -/
lemma pattern_combine {op : BitVec 128 → BitVec 128 → BitVec 128}
    {opWord : BitVec s.width → BitVec s.width → BitVec s.width}
    (h : ∀ a b, (op a b).signExtend s.width =
      opWord (a.signExtend s.width) (b.signExtend s.width)) (x y : Fixed s) :
    (combine op x y).pattern = opWord x.pattern y.pattern := by
  rw [combine, pattern_ofRaw, ← BitVec.signExtend, h, signExtend_ofInt_raw, signExtend_ofInt_raw]

theorem pattern_and (x y : Fixed s) : (x.and y).pattern = x.pattern &&& y.pattern :=
  pattern_combine (fun _ _ => BitVec.signExtend_and) x y

theorem pattern_or (x y : Fixed s) : (x.or y).pattern = x.pattern ||| y.pattern :=
  pattern_combine (fun _ _ => BitVec.signExtend_or) x y

theorem pattern_xor (x y : Fixed s) : (x.xor y).pattern = x.pattern ^^^ y.pattern :=
  pattern_combine (fun _ _ => BitVec.signExtend_xor) x y

theorem pattern_shiftLeft (x : Fixed s) (n : ℕ) : (x.shiftLeft n).pattern = x.pattern <<< n := by
  rw [shiftLeft]
  split
  · next hn =>
    rw [BitVec.shiftLeft_eq_zero hn, zero, pattern_ofRaw, BitVec.ofInt_ofNat]
  · have hpow : BitVec.ofInt s.width (2 ^ n) = BitVec.twoPow s.width n := by
      rw [← BitVec.toNat_inj, BitVec.toNat_twoPow]
      norm_cast
    rw [pattern_ofRaw, BitVec.ofInt_mul, hpow, ← pattern_eq_ofInt, BitVec.shiftLeft_eq_mul_twoPow]

/-- After 63 places nothing but the sign is left. -/
lemma shiftRight_min (x : Fixed s) (n : ℕ) : x.raw >>> min n 127 = x.raw >>> n := by
  obtain ⟨hl, hg⟩ := x.raw_bounds
  have hsign : ∀ m : ℕ, 63 ≤ m → x.raw >>> m = if x.raw < 0 then -1 else 0 := by
    intro m hm
    have hle : (2 : ℤ) ^ 63 ≤ 2 ^ m := pow_le_pow_right₀ one_le_two hm
    rw [Int.shiftRight_eq_div_pow, Nat.cast_pow, Nat.cast_ofNat]
    split
    · next hneg => exact Int.ediv_eq_neg_one_of_neg_of_le hneg (by omega)
    · exact Int.ediv_eq_zero_of_lt (by omega) (by omega)
  rcases Nat.le_total n 127 with hn | hn
  · rw [Nat.min_eq_left hn]
  · rw [Nat.min_eq_right hn, hsign 127 (by decide), hsign n (by omega)]

theorem pattern_shiftRight (x : Fixed s) (n : ℕ) : (x.shiftRight n).pattern =
    if s.signed then x.pattern.sshiftRight n else x.pattern >>> n := by
  have hraw := x.raw_eq
  rw [shiftRight, shiftRight_min, pattern_ofRaw]
  split
  · next hs =>
    rw [if_pos hs] at hraw
    rw [hraw, BitVec.sshiftRight_eq]
  · next hs =>
    rw [if_neg hs] at hraw
    rw [hraw, ← Int.natCast_shiftRight, BitVec.ofInt_natCast, ← BitVec.toNat_ushiftRight,
      BitVec.ofNat_toNat, BitVec.setWidth_eq]

/-- The order of numbers is the signed or the unsigned order of their words. -/
theorem lt_iff (x y : Fixed s) :
    x < y ↔ if s.signed then x.pattern.slt y.pattern else x.pattern.ult y.pattern := by
  have hlt : x < y ↔ x.raw < y.raw := Iff.rfl
  rw [hlt, x.raw_eq, y.raw_eq]
  split
  · rw [BitVec.slt_iff_toInt_lt]
  · rw [BitVec.ult_iff_toNat_lt, Int.ofNat_lt]

theorem compare_eq_lt_iff (x y : Fixed s) : x.compare y = .lt ↔ x < y :=
  Int.compare_eq_lt

/-- The register that an integer wraps to holds the one number in range that the integer
equals modulo the number of its values. -/
theorem raw_ofRaw_eq_iff (v r : ℤ) : (ofRaw v : Fixed s).raw = r ↔
    ((least : Fixed s).raw ≤ r ∧ r ≤ (greatest : Fixed s).raw) ∧
      r % 2 ^ s.width = v % 2 ^ s.width := by
  constructor
  · rintro rfl
    exact ⟨⟨s.least_le_wrap v, s.wrap_le_greatest v⟩, s.wrap_emod v⟩
  · rintro ⟨⟨hl, hg⟩, hmod⟩
    calc
      (ofRaw v : Fixed s).raw = s.wrap r := s.wrap_congr hmod.symm
      _ = r := s.wrap_eq_self hl hg

variable (s) in
/-- The registers of a shape are words of its width in two's complement: each holds a number
in range, wrapping an integer changes nothing modulo the number of values, and the operations
are those of the words. -/
structure TwosComplement : Prop where
  raw_ofRaw : ∀ v r : ℤ, (ofRaw v : Fixed s).raw = r ↔
    ((least : Fixed s).raw ≤ r ∧ r ≤ (greatest : Fixed s).raw) ∧
      r % 2 ^ s.width = v % 2 ^ s.width
  bits_ofRaw : ∀ v : ℤ, ((ofRaw v : Fixed s).bits : ℤ) = v % 2 ^ s.width
  ofBits_bits : ∀ x : Fixed s, ofBits x.bits = x
  in_range : ∀ x : Fixed s, (least : Fixed s).raw ≤ x.raw ∧ x.raw ≤ (greatest : Fixed s).raw
  toNat_pattern : ∀ x : Fixed s, x.pattern.toNat = x.bits
  add : ∀ x y : Fixed s, (x.add y).pattern = x.pattern + y.pattern
  sub : ∀ x y : Fixed s, (x.sub y).pattern = x.pattern - y.pattern
  neg : ∀ x : Fixed s, x.neg.pattern = -x.pattern
  and : ∀ x y : Fixed s, (x.and y).pattern = x.pattern &&& y.pattern
  or : ∀ x y : Fixed s, (x.or y).pattern = x.pattern ||| y.pattern
  xor : ∀ x y : Fixed s, (x.xor y).pattern = x.pattern ^^^ y.pattern
  shiftLeft : ∀ (x : Fixed s) (n : ℕ), (x.shiftLeft n).pattern = x.pattern <<< n
  shiftRight : ∀ (x : Fixed s) (n : ℕ), (x.shiftRight n).pattern =
    if s.signed then x.pattern.sshiftRight n else x.pattern >>> n
  lt_iff : ∀ x y : Fixed s,
    x < y ↔ if s.signed then x.pattern.slt y.pattern else x.pattern.ult y.pattern
  compare : ∀ x y : Fixed s, x.compare y = .lt ↔ x < y

/-- Registers of every shape are words in two's complement. -/
theorem twosComplement (s : Shape) : TwosComplement s where
  raw_ofRaw := raw_ofRaw_eq_iff
  bits_ofRaw v := by
    have hnonneg := Int.emod_nonneg v (ne_of_gt s.two_pow_width_pos)
    rw [bits_ofRaw, Int.toNat_of_nonneg hnonneg]
  ofBits_bits := ofBits_bits
  in_range x := ⟨x.least_le, x.le_greatest⟩
  toNat_pattern := toNat_pattern
  add := pattern_add
  sub := pattern_sub
  neg := pattern_neg
  and := pattern_and
  or := pattern_or
  xor := pattern_xor
  shiftLeft := pattern_shiftLeft
  shiftRight := pattern_shiftRight
  lt_iff := lt_iff
  compare := compare_eq_lt_iff

/-- A shift keeps the sign. -/
example : ((.ofRaw (-8) : Fixed ⟨true, 10, 2, by decide, by decide⟩).shiftRight 2).raw = -2 := by
  decide

end Fixed

end Cartridge
