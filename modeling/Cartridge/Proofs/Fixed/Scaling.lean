import Cartridge.Proofs.Fixed.Register
import Mathlib.Data.Int.ModEq
import Mathlib.Tactic.Ring

/-!
# Whole numbers as factors

A product is rounded down after the places of one factor have been dropped, a quotient is rounded
toward zero after as many have been added, and a sum wraps at every step. Where one of the numbers
is whole there is nothing to round, and what wraps on the way wraps to the same register in the
end: a whole factor makes the sum of as many copies, and dividing by it undoes the product as long
as that has not wrapped.
-/
namespace Cartridge.Fixed

variable {s : Shape} {k : ℤ}

/-- The sum of so many copies of a register, which wraps whenever a copy is added. -/
def copies : ℕ → Fixed s → Fixed s
  | 0, _ => zero
  | n + 1, x => (copies n x).add x

section Wrapping

lemma ofRaw_eq_of_modEq {u v : ℤ} (h : u ≡ v [ZMOD 2 ^ s.width]) : (ofRaw u : Fixed s) = ofRaw v :=
  ext (s.wrap_congr h)

lemma raw_ofRaw_modEq (v : ℤ) : (ofRaw v : Fixed s).raw ≡ v [ZMOD 2 ^ s.width] := s.wrap_emod v

/-- It does not matter whether a number has wrapped before something is added to it. -/
lemma add_ofRaw (v : ℤ) (x : Fixed s) : (ofRaw v).add x = ofRaw (v + x.raw) :=
  ofRaw_eq_of_modEq ((raw_ofRaw_modEq v).add_right x.raw)

lemma neg_ofRaw (v : ℤ) : (ofRaw v : Fixed s).neg = ofRaw (-v) :=
  ofRaw_eq_of_modEq (raw_ofRaw_modEq v).neg

theorem copies_eq (n : ℕ) (x : Fixed s) : copies n x = ofRaw (n * x.raw) := by
  induction n with
  | zero => simp [copies, zero]
  | succ n ih =>
    rw [copies, ih, add_ofRaw]
    congr 1
    push_cast
    ring

end Wrapping

section Scaling

variable (hk : (ofInt k : Fixed s).raw = k * 2 ^ s.frac) (x : Fixed s)
include hk

/-- The places that a whole factor brings are those that the product drops. -/
theorem mul_ofInt : x.mul (ofInt k) = ofRaw (k * x.raw) := by
  have hpos : (2 : ℤ) ^ s.frac ≠ 0 := by positivity
  have hproduct : x.raw * (k * 2 ^ s.frac) = k * x.raw * 2 ^ s.frac := by ring
  rw [mul, hk, hproduct, Int.mul_ediv_cancel _ hpos]

/-- A whole factor makes the sum of as many copies, or its opposite. -/
theorem mul_ofInt_eq_copies : x.mul (ofInt k) =
    if k < 0 then (copies k.natAbs x).neg else copies k.natAbs x := by
  rw [mul_ofInt hk, copies_eq]
  split
  · next hneg =>
    have habs : (k.natAbs : ℤ) = -k := by omega
    rw [neg_ofRaw, habs, Int.neg_mul, Int.neg_neg]
  · next hnonneg =>
    have habs : (k.natAbs : ℤ) = k := by omega
    rw [habs]

/-- A product in range, divided by its whole factor, is the other factor. -/
theorem div?_mul_ofInt (hne : k ≠ 0) (hl : s.least ≤ k * x.raw) (hg : k * x.raw ≤ s.greatest) :
    (x.mul (ofInt k)).div? (ofInt k) = some x := by
  have hraw : (x.mul (ofInt k)).raw = k * x.raw := by
    rw [mul_ofInt hk, raw_ofRaw, s.wrap_eq_self hl hg]
  have hdivisor : k * 2 ^ s.frac ≠ 0 := by positivity
  have hdividend : k * x.raw * 2 ^ s.frac = x.raw * (k * 2 ^ s.frac) := by ring
  rw [div?, hk, if_neg hdivisor, hraw, hdividend, Int.mul_tdiv_cancel _ hdivisor, ofRaw_raw]

end Scaling

/-- A whole number scales a register exactly: the product is the multiple of the register's number
that is cut off to the width, which is the sum of as many copies or its opposite, and dividing by
the whole number gives the register back unless the multiple is out of range. -/
structure ScalesExactly (k : ℤ) (x : Fixed s) : Prop where
  raw_mul : (x.mul (ofInt k)).raw = s.wrap (k * x.raw)
  modEq : (x.mul (ofInt k)).raw ≡ k * x.raw [ZMOD 2 ^ s.width]
  eq_copies : x.mul (ofInt k) = if k < 0 then (copies k.natAbs x).neg else copies k.natAbs x
  div_mul : k ≠ 0 → s.least ≤ k * x.raw → k * x.raw ≤ s.greatest →
    (x.mul (ofInt k)).div? (ofInt k) = some x

/-- Every whole number that a shape has scales its registers exactly. -/
theorem scalesExactly (s : Shape) (k : ℤ) (hk : (ofInt k : Fixed s).raw = k * 2 ^ s.frac)
    (x : Fixed s) : ScalesExactly k x where
  raw_mul := by rw [mul_ofInt hk, raw_ofRaw]
  modEq := by
    rw [mul_ofInt hk]
    exact raw_ofRaw_modEq _
  eq_copies := mul_ofInt_eq_copies hk x
  div_mul := div?_mul_ofInt hk x

/-- A negative factor and the way back; and a product that wraps many times, in a register with
places behind the point and in one without. -/
theorem scalesExactly_coordinate :
    let coordinate : Shape := ⟨true, 10, 2, by decide, by decide⟩
    let whole : Shape := ⟨true, 12, 0, by decide, by decide⟩
    let x : Fixed coordinate := ofRaw 6
    (ofInt (-2) : Fixed coordinate).raw = -2 * 2 ^ 2 ∧
      x.mul (ofInt (-2)) = (copies 2 x).neg ∧ (x.mul (ofInt (-2))).div? (ofInt (-2)) = some x ∧
      ((greatest : Fixed coordinate).mul (ofInt 500)).raw = -500 ∧
      ((greatest : Fixed whole).mul (ofInt 500)).raw = -500 := by
  intro coordinate whole x
  have hnegative : (ofInt (-2) : Fixed coordinate).raw = -2 * 2 ^ 2 := by decide
  have hx := scalesExactly coordinate (-2) hnegative x
  have hgreatest := scalesExactly coordinate 500 (by decide) greatest
  have hwhole := scalesExactly whole 500 (by decide) greatest
  refine ⟨hnegative, hx.eq_copies, hx.div_mul (by decide) (by decide) (by decide), ?_, ?_⟩
  · rw [hgreatest.raw_mul]
    decide
  · rw [hwhole.raw_mul]
    decide

end Cartridge.Fixed
