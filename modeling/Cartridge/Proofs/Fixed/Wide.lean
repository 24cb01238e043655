import Cartridge.Proofs.Fixed.Conversion

/-!
# Operations in words of 128 bits

A machine keeps the integers that come up inside an operation in words of 128 bits. In the
operations below each of them must be one that a word holds; where it is not, or where the
divisor is zero, there is no result. Registers have at most 63 bits, so that a product of two
of them and a dividend moved by a whole width still have room: the operations always have their
results, which are those of the exact operations.
-/
namespace Cartridge.Fixed

/-- The integers that a word of 128 bits with a sign holds. -/
def InWord (v : ℤ) : Prop := -2 ^ 127 ≤ v ∧ v < 2 ^ 127

instance (v : ℤ) : Decidable (InWord v) := inferInstanceAs (Decidable (_ ∧ _))

namespace Wide

variable {s : Shape}

/-- An integer, when a word holds it. -/
def word? (v : ℤ) : Option ℤ := if InWord v then some v else none

/-- The lowest bits of a word. -/
def lowest (bits : ℕ) (v : ℤ) : ℤ := (BitVec.ofInt 128 v &&& BitVec.ofInt 128 (2 ^ bits - 1)).toInt

/-- Wraps a word into a register. -/
def wrap? (s : Shape) (v : ℤ) : Option ℤ := do
  let modulus ← word? (2 ^ s.width)
  let m := lowest s.width v
  if s.signed ∧ modulus >>> (1 : ℕ) ≤ m then word? (m - modulus) else some m

def add? (x y : Fixed s) : Option ℤ := do
  let sum ← word? (x.raw + y.raw)
  wrap? s sum

def sub? (x y : Fixed s) : Option ℤ := do
  let difference ← word? (x.raw - y.raw)
  wrap? s difference

def neg? (x : Fixed s) : Option ℤ := do
  let opposite ← word? (-x.raw)
  wrap? s opposite

def mul? (x y : Fixed s) : Option ℤ := do
  let product ← word? (x.raw * y.raw)
  wrap? s (product >>> s.frac)

/-- The quotient of two words, rounded toward zero. -/
def quotient? (a b : ℤ) : Option ℤ := if b = 0 then none else word? (a.tdiv b)

/-- The remainder of two words, with the sign of the first. -/
def remainder? (a b : ℤ) : Option ℤ := if b = 0 then none else word? (a.tmod b)

/-- Division without a look at the divisor. -/
def div? (x y : Fixed s) : Option ℤ := do
  let dividend ← word? (x.raw * 2 ^ s.frac)
  let quotient ← quotient? dividend y.raw
  wrap? s quotient

/-- Division behind a look at the divisor: where it is zero there is no quotient, which is a
result of its own. -/
def checkedDiv? (x y : Fixed s) : Option (Option ℤ) :=
  if y.raw = 0 then some none else (div? x y).map some

def rem? (x y : Fixed s) : Option ℤ := do
  let remainder ← remainder? x.raw y.raw
  wrap? s remainder

def shiftLeft? (x : Fixed s) (n : ℕ) : Option ℤ :=
  if s.width ≤ n then wrap? s 0
  else do
    let moved ← word? (x.raw * 2 ^ n)
    wrap? s moved

def shiftRight? (x : Fixed s) (n : ℕ) : Option ℤ := wrap? s (x.raw >>> min n 127)

def reading? (x : Fixed s) (t : Shape) : Option ℤ := do
  let modulus ← word? (2 ^ s.width)
  if s.signed ∧ ¬ t.signed ∧ x.raw < 0 then word? (x.raw + modulus) else some x.raw

/-- Moves a word from some places behind the point to others. -/
def move? (places places' : ℕ) (v : ℤ) : Option ℤ :=
  if places ≤ places' then word? (v * 2 ^ (places' - places)) else some (v >>> (places - places'))

def convert? (x : Fixed s) (t : Shape) : Option ℤ := do
  let reading ← reading? x t
  let moved ← move? s.frac t.frac reading
  wrap? t moved

lemma word?_of_inWord {v : ℤ} (h : InWord v) : word? v = some v := if_pos h

lemma inWord_of_bounds {v : ℤ} (hl : -2 ^ 126 ≤ v) (hg : v < 2 ^ 126) : InWord v := by
  constructor <;> omega

lemma inWord_two_pow {n : ℕ} (h : n ≤ 126) : InWord (2 ^ n) := by
  have hpos : (0 : ℤ) < 2 ^ n := Int.pow_pos (by decide)
  have hle : (2 : ℤ) ^ n ≤ 2 ^ 126 := pow_le_pow_right₀ one_le_two h
  constructor <;> omega

/-- The lowest bits are what a division by a power of two leaves. -/
lemma lowest_eq {bits : ℕ} (h : bits ≤ 63) (v : ℤ) : lowest bits v = v % 2 ^ bits := by
  have hle : 2 ^ bits ≤ 2 ^ 63 := Nat.pow_le_pow_right (by decide) h
  have hpos : 0 < 2 ^ bits := Nat.pow_pos (by decide)
  have hcast : ((2 ^ bits : ℕ) : ℤ) = 2 ^ bits := by norm_cast
  have hdvd : (2 : ℤ) ^ bits ∣ 2 ^ 128 := pow_dvd_pow 2 (by omega)
  have hones : (BitVec.ofInt 128 (2 ^ bits - 1)).toNat = 2 ^ bits - 1 := by
    rw [BitVec.toNat_ofInt]
    omega
  have hword : ((BitVec.ofInt 128 v).toNat : ℤ) = v % 2 ^ 128 := by
    rw [BitVec.toNat_ofInt]
    omega
  have hnat : (BitVec.ofInt 128 v &&& BitVec.ofInt 128 (2 ^ bits - 1)).toNat =
      (BitVec.ofInt 128 v).toNat % 2 ^ bits := by
    rw [BitVec.toNat_and, hones, Nat.and_two_pow_sub_one_eq_mod]
  have hlt := Nat.mod_lt (BitVec.ofInt 128 v).toNat hpos
  rw [lowest, BitVec.toInt_eq_toNat_of_lt (by omega), hnat, Int.natCast_mod, hword, hcast]
  exact Int.emod_emod_of_dvd v hdvd

theorem wrap?_eq (s : Shape) (v : ℤ) : wrap? s v = some (s.wrap v) := by
  have hwidth : s.width ≤ 63 := s.width_le
  have hmodulus : InWord (2 ^ s.width) := inWord_two_pow (by omega)
  have hhalf : (2 : ℤ) ^ s.width >>> (1 : ℕ) = 2 ^ (s.width - 1) := by
    rw [s.two_pow_width, Int.shiftRight_eq_div_pow]
    omega
  have hpos := s.two_pow_width_pos
  have hnonneg := Int.emod_nonneg v (ne_of_gt hpos)
  have hlt := Int.emod_lt_of_pos v hpos
  have hle : (2 : ℤ) ^ s.width ≤ 2 ^ 63 := pow_le_pow_right₀ one_le_two hwidth
  have hdifference : InWord (v % 2 ^ s.width - 2 ^ s.width) := by constructor <;> omega
  simp only [wrap?, word?_of_inWord hmodulus, Option.bind_eq_bind, Option.bind_some,
    lowest_eq hwidth, hhalf, word?_of_inWord hdifference, Shape.wrap]
  split <;> rfl

/-- What fits into a register has room in a word when it is moved by a register's width. -/
lemma inWord_mul_two_pow {v : ℤ} {n : ℕ} (hl : -2 ^ 63 ≤ v) (hg : v < 2 ^ 63) (h : n ≤ 63) :
    InWord (v * 2 ^ n) :=
  ⟨neg_two_pow_le_mul hl (by omega), mul_two_pow_lt hg (by omega)⟩

lemma inWord_mul (x y : Fixed s) : InWord (x.raw * y.raw) := by
  have hbound : ∀ z : Fixed s, |z.raw| ≤ 2 ^ 63 := by
    intro z
    obtain ⟨hl, hg⟩ := z.raw_bounds
    exact abs_le.mpr ⟨hl, by omega⟩
  have hproduct : |x.raw * y.raw| ≤ 2 ^ 63 * 2 ^ 63 := by
    rw [abs_mul]
    exact mul_le_mul (hbound x) (hbound y) (abs_nonneg _) (by decide)
  obtain ⟨hl, hg⟩ := abs_le.mp hproduct
  constructor <;> omega

lemma inWord_tdiv {v : ℤ} (hl : -2 ^ 126 ≤ v) (hg : v < 2 ^ 126) (d : ℤ) : InWord (v.tdiv d) := by
  have hle := Int.natAbs_tdiv_le_natAbs v d
  constructor <;> omega

lemma reading_bounds (x : Fixed s) (t : Shape) :
    -2 ^ 63 ≤ x.reading t ∧ x.reading t < 2 ^ 63 := by
  have hle : (2 : ℤ) ^ s.width ≤ 2 ^ 63 := pow_le_pow_right₀ one_le_two s.width_le
  have hlt := x.bits_lt_two_pow
  unfold reading
  split
  · constructor <;> omega
  · exact x.raw_bounds

section Operations

variable (x y : Fixed s)

lemma bind_word? {v : ℤ} (h : InWord v) (f : ℤ → Option ℤ) : (word? v >>= f) = f v := by
  rw [word?_of_inWord h, Option.bind_eq_bind, Option.bind_some]

lemma inWord_add : InWord (x.raw + y.raw) := by
  obtain ⟨hx, hx'⟩ := x.raw_bounds
  obtain ⟨hy, hy'⟩ := y.raw_bounds
  constructor <;> omega

lemma inWord_sub : InWord (x.raw - y.raw) := by
  obtain ⟨hx, hx'⟩ := x.raw_bounds
  obtain ⟨hy, hy'⟩ := y.raw_bounds
  constructor <;> omega

lemma inWord_neg : InWord (-x.raw) := by
  obtain ⟨hx, hx'⟩ := x.raw_bounds
  constructor <;> omega

lemma inWord_raw_mul_two_pow {n : ℕ} (h : n ≤ s.width) : InWord (x.raw * 2 ^ n) := by
  obtain ⟨hx, hx'⟩ := x.raw_bounds
  exact inWord_mul_two_pow hx hx' (h.trans s.width_le)

lemma frac_le_width : s.frac ≤ s.width := Nat.le_add_left s.frac s.int

theorem add?_eq : add? x y = some (x.add y).raw := by
  rw [add?, bind_word? (inWord_add x y), wrap?_eq]
  rfl

theorem sub?_eq : sub? x y = some (x.sub y).raw := by
  rw [sub?, bind_word? (inWord_sub x y), wrap?_eq]
  rfl

theorem neg?_eq : neg? x = some x.neg.raw := by
  rw [neg?, bind_word? (inWord_neg x), wrap?_eq]
  rfl

lemma raw_mul : (x.mul y).raw = s.wrap ((x.raw * y.raw) >>> s.frac) := by
  rw [mul, raw_ofRaw, Int.shiftRight_eq_div_pow]
  norm_cast

theorem mul?_eq : mul? x y = some (x.mul y).raw := by
  rw [mul?, bind_word? (inWord_mul x y), wrap?_eq, raw_mul]

theorem shiftLeft?_eq (n : ℕ) : shiftLeft? x n = some (x.shiftLeft n).raw := by
  rw [shiftLeft?, shiftLeft]
  split
  · rw [wrap?_eq]
    rfl
  · next hn =>
    rw [bind_word? (inWord_raw_mul_two_pow x (by omega)), wrap?_eq]
    rfl

theorem shiftRight?_eq (n : ℕ) : shiftRight? x n = some (x.shiftRight n).raw := by
  rw [shiftRight?, wrap?_eq]
  rfl

/-- What a conversion reads has room in a word when it is moved to the places of the target. -/
lemma inWord_reading (t : Shape) : InWord (x.reading t * 2 ^ (t.frac - s.frac)) := by
  obtain ⟨hl, hg⟩ := reading_bounds x t
  have hfrac : t.frac - s.frac ≤ 63 := (Nat.sub_le _ _).trans (frac_le_width.trans t.width_le)
  exact inWord_mul_two_pow hl hg hfrac

lemma reading?_eq (t : Shape) : reading? x t = some (x.reading t) := by
  have hwidth : s.width ≤ 63 := s.width_le
  have hmodulus : InWord (2 ^ s.width) := inWord_two_pow (by omega)
  obtain ⟨hl, hg⟩ := reading_bounds x t
  rw [reading?, bind_word? hmodulus]
  rw [reading_eq] at hl hg ⊢
  split
  · next hneg =>
    rw [if_pos hneg] at hl hg
    exact word?_of_inWord (inWord_of_bounds (by omega) (by omega))
  · rfl

lemma move?_eq (t : Shape) : move? s.frac t.frac (x.reading t) =
    some (if s.frac ≤ t.frac then x.reading t * 2 ^ (t.frac - s.frac)
      else x.reading t / 2 ^ (s.frac - t.frac)) := by
  unfold move?
  split
  · exact word?_of_inWord (inWord_reading x t)
  · rw [Int.shiftRight_eq_div_pow]
    norm_cast

theorem convert?_eq (t : Shape) : convert? x t = some (x.convert t).raw := by
  rw [convert_eq, raw_ofRaw]
  simp only [convert?, reading?_eq, move?_eq, wrap?_eq, Option.bind_eq_bind, Option.bind_some]

end Operations

/-- What is left by a division that rounds toward zero: it is less than the divisor and has the
sign of the dividend. -/
structure IsRemainder (a b r : ℤ) : Prop where
  eq_tmod : r = a.tmod b
  abs_lt : |r| < |b|
  sign_eq : r = 0 ∨ r.sign = a.sign
  eq_add : a = a.tdiv b * b + r

lemma isRemainder_tmod (a : ℤ) {b : ℤ} (hb : b ≠ 0) : IsRemainder a b (a.tmod b) where
  eq_tmod := rfl
  abs_lt := by
    have hpos : 0 < b.natAbs := Int.natAbs_pos.mpr hb
    have hlt := Nat.mod_lt a.natAbs hpos
    rw [Int.abs_eq_natAbs, Int.abs_eq_natAbs, Int.natAbs_tmod]
    exact_mod_cast hlt
  sign_eq := by
    have hsign := Int.sign_tmod a b
    split at hsign
    · exact .inl (Int.sign_eq_zero_iff_zero.mp hsign)
    · exact .inr hsign
  eq_add := by
    rw [Int.mul_comm]
    exact (Int.mul_tdiv_add_tmod a b).symm

/-- A remainder stands between zero and the dividend. -/
lemma wrap_tmod (x : Fixed s) (b : ℤ) : s.wrap (x.raw.tmod b) = x.raw.tmod b := by
  have hzero : s.least ≤ 0 ∧ 0 ≤ s.greatest := by
    have half : (0 : ℤ) < 2 ^ (s.width - 1) := Int.pow_pos (by decide)
    have full := s.two_pow_width
    by_cases hs : s.signed
    · rw [Shape.least_of_signed hs, Shape.greatest_of_signed hs]
      constructor <;> omega
    · rw [Shape.least_of_unsigned hs, Shape.greatest_of_unsigned hs]
      constructor <;> omega
  have hl := x.least_le
  have hg := x.le_greatest
  have habs := Int.natAbs_tmod x.raw b
  have hle := Nat.mod_le x.raw.natAbs b.natAbs
  rcases Int.le_total 0 x.raw with hpos | hneg
  · have hnonneg := Int.tmod_nonneg b hpos
    exact s.wrap_eq_self (by omega) (by omega)
  · have hnonneg := Int.tmod_nonneg b (Int.neg_nonneg_of_nonpos hneg)
    rw [Int.neg_tmod] at hnonneg
    exact s.wrap_eq_self (by omega) (by omega)

section Division

variable (x : Fixed s) {y : Fixed s} (hy : y.raw ≠ 0)
include hy

theorem div?_eq : div? x y = some (s.wrap ((x.raw * 2 ^ s.frac).tdiv y.raw)) := by
  obtain ⟨hl, hg⟩ := x.raw_bounds
  have hfrac : s.frac ≤ 63 := frac_le_width.trans s.width_le
  have hlow : -2 ^ 126 ≤ x.raw * 2 ^ s.frac := neg_two_pow_le_mul hl (by omega)
  have hhigh : x.raw * 2 ^ s.frac < 2 ^ 126 := mul_two_pow_lt hg (by omega)
  rw [div?, bind_word? (inWord_of_bounds hlow hhigh), quotient?, if_neg hy,
    bind_word? (inWord_tdiv hlow hhigh y.raw), wrap?_eq]

theorem rem?_eq : rem? x y = some (x.raw.tmod y.raw) := by
  obtain ⟨hl, hg⟩ := x.raw_bounds
  have habs := Int.natAbs_tmod x.raw y.raw
  have hle := Nat.mod_le x.raw.natAbs y.raw.natAbs
  have hword : InWord (x.raw.tmod y.raw) := inWord_of_bounds (by omega) (by omega)
  rw [rem?, remainder?, if_neg hy, bind_word? hword, wrap?_eq, wrap_tmod]

end Division

theorem checkedDiv?_eq (x y : Fixed s) : checkedDiv? x y = some ((x.div? y).map raw) := by
  unfold checkedDiv? Fixed.div?
  split
  · rfl
  · next hy =>
    rw [div?_eq x hy]
    rfl

end Wide

variable {s : Shape}

lemma div?_eq_none_iff {x y : Fixed s} : x.div? y = none ↔ y.raw = 0 := by
  unfold div?
  split <;> simp [*]

variable (s) in
/-- Every operation of a shape has room in words of 128 bits, and gives there what it gives on
integers without bounds; so it rounds and wraps once, at its end. -/
structure ExactInWords : Prop where
  in_word : ∀ x y : Fixed s, InWord (x.raw + y.raw) ∧ InWord (x.raw - y.raw) ∧ InWord (-x.raw) ∧
    InWord (x.raw * y.raw) ∧ InWord (x.raw * 2 ^ s.frac) ∧
    ∀ n < s.width, InWord (x.raw * 2 ^ n)
  in_word_convert : ∀ (x : Fixed s) (t : Shape),
    InWord (x.reading t) ∧ InWord (x.reading t * 2 ^ (t.frac - s.frac))
  add : ∀ x y : Fixed s, Wide.add? x y = some (x.add y).raw
  sub : ∀ x y : Fixed s, Wide.sub? x y = some (x.sub y).raw
  neg : ∀ x : Fixed s, Wide.neg? x = some x.neg.raw
  shiftLeft : ∀ (x : Fixed s) (n : ℕ), Wide.shiftLeft? x n = some (x.shiftLeft n).raw
  shiftRight : ∀ (x : Fixed s) (n : ℕ), Wide.shiftRight? x n = some (x.shiftRight n).raw
  convert : ∀ (x : Fixed s) (t : Shape), Wide.convert? x t = some (x.convert t).raw
  mul : ∀ x y : Fixed s, Wide.mul? x y = some (x.mul y).raw ∧
    (x.mul y).raw = s.wrap ⌊((x.raw * y.raw : ℤ) : ℚ) / 2 ^ s.frac⌋
  div : ∀ x y : Fixed s, y.raw ≠ 0 → ∃ z : Fixed s, x.div? y = some z ∧
    Wide.div? x y = some z.raw ∧ z.raw = s.wrap ((x.raw * 2 ^ s.frac).tdiv y.raw)
  checkedDiv : ∀ x y : Fixed s, Wide.checkedDiv? x y = some ((x.div? y).map raw) ∧
    (x.div? y = none ↔ y.raw = 0)
  rem : ∀ x y : Fixed s, y.raw ≠ 0 → ∃ z : Fixed s, x.rem? y = some z ∧
    Wide.rem? x y = some z.raw ∧ Wide.IsRemainder x.raw y.raw z.raw

/-- Registers of every shape have exact operations in words of 128 bits. -/
theorem exactInWords (s : Shape) : ExactInWords s where
  in_word x y := by
    refine ⟨Wide.inWord_add x y, Wide.inWord_sub x y, Wide.inWord_neg x, Wide.inWord_mul x y,
      Wide.inWord_raw_mul_two_pow x Wide.frac_le_width, ?_⟩
    intro n hn
    exact Wide.inWord_raw_mul_two_pow x (Nat.le_of_lt hn)
  in_word_convert x t := by
    obtain ⟨hl, hg⟩ := Wide.reading_bounds x t
    exact ⟨Wide.inWord_of_bounds (by omega) (by omega), Wide.inWord_reading x t⟩
  add := Wide.add?_eq
  sub := Wide.sub?_eq
  neg := Wide.neg?_eq
  shiftLeft := Wide.shiftLeft?_eq
  shiftRight := Wide.shiftRight?_eq
  convert := Wide.convert?_eq
  mul x y := by
    rw [floor_div_two_pow]
    exact ⟨Wide.mul?_eq x y, Wide.raw_mul x y⟩
  div x y hy := ⟨_, if_neg hy, Wide.div?_eq x hy, rfl⟩
  checkedDiv x y := ⟨Wide.checkedDiv?_eq x y, div?_eq_none_iff⟩
  rem x y hy := by
    refine ⟨_, if_neg hy, ?_⟩
    rw [raw_ofRaw, Wide.wrap_tmod]
    exact ⟨Wide.rem?_eq x hy, Wide.isRemainder_tmod x.raw hy⟩

/-- The widest register has a third, and a remainder of its least number. -/
theorem exactInWords_widest :
    let widest : Shape := ⟨true, 32, 31, by decide, by decide⟩
    let one : Fixed widest := ofInt 1
    let three : Fixed widest := ofInt 3
    (∃ z : Fixed widest, one.div? three = some z ∧ Wide.div? one three = some z.raw ∧
        z.raw = widest.wrap ((one.raw * 2 ^ 31).tdiv three.raw)) ∧
      ∃ z : Fixed widest, least.rem? three = some z ∧ Wide.rem? least three = some z.raw ∧
        Wide.IsRemainder (least : Fixed widest).raw three.raw z.raw := by
  intro widest one three
  exact ⟨(exactInWords widest).div one three (by decide),
    (exactInWords widest).rem least three (by decide)⟩

/-- A third is rounded toward zero, also below zero. -/
example : ((.ofInt (-1) : Fixed ⟨true, 32, 31, by decide, by decide⟩).div? (.ofInt 3)).map raw =
    some (-0x2AAAAAAA) := by decide

end Cartridge.Fixed
