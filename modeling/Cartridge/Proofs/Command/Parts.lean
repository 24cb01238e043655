import Cartridge.Proofs.Command.Layout
import Cartridge.Proofs.Result
import Mathlib.Tactic.IntervalCases

/-!
# Reading the parts of commands

Addresses, vertices, corners and the other parts of commands are each read from
a word exactly when the part is well formed and the word holds its fields.
-/
namespace Cartridge

/-- A number is a multiple of `2 ^ low` below `2 ^ high` when its bits lie in between. -/
lemma bits_between_iff {low high n : ℕ} :
    n % 2 ^ low = 0 ∧ n < 2 ^ high ↔ ∀ i, n.testBit i = true → low ≤ i ∧ i < high := by
  constructor
  · rintro ⟨hlow, hhigh⟩ i hi
    constructor
    · by_contra hlt
      have hbit := Nat.testBit_mod_two_pow n low i
      rw [hlow, Nat.zero_testBit, hi, Bool.and_true] at hbit
      exact hlt (Nat.le_of_not_lt (of_decide_eq_false hbit.symm))
    · by_contra hge
      have hpow : 2 ^ high ≤ 2 ^ i := Nat.pow_le_pow_right (by decide) (by omega)
      rw [Nat.testBit_lt_two_pow (Nat.lt_of_lt_of_le hhigh hpow)] at hi
      cases hi
  · intro h
    constructor
    · apply Nat.eq_of_testBit_eq
      intro i
      rw [Nat.testBit_mod_two_pow, Nat.zero_testBit]
      cases hi : n.testBit i with
      | false => rw [Bool.and_false]
      | true =>
        have hlow := (h i hi).1
        rw [Bool.and_true]
        exact decide_eq_false (Nat.not_lt_of_le hlow)
    · apply Nat.lt_pow_two_of_testBit
      intro i hi
      by_contra hbit
      have := (h i (by simpa using hbit)).2
      omega

namespace Word

lemma low_def (word : UInt64) : low word = field word 0 32 := rfl

lemma flag_eq_iff {word : UInt64} {shift : ℕ} {b : Bool} :
    (field word shift 1 == 1) = b ↔ field word shift 1 = b.toNat := by
  have hlt := field_lt word shift 1
  generalize field word shift 1 = n at *
  interval_cases n <;> cases b <;> decide

lemma clear_flag_eq_iff {word : UInt64} {shift : ℕ} {b : Bool} :
    (field word shift 1 == 0) = b ↔ field word shift 1 = (!b).toNat := by
  have hlt := field_lt word shift 1
  have hclear : (field word shift 1 == 0) = !(field word shift 1 == 1) := by
    obtain h | h : field word shift 1 = 0 ∨ field word shift 1 = 1 := by omega
    · rw [h]
      rfl
    · rw [h]
      rfl
  rw [hclear, Bool.not_eq_eq_eq_not, flag_eq_iff]

theorem field_eq_and_lt_iff {word : UInt64} {shift width value : ℕ} :
    value < 2 ^ width ∧ field word shift width = value ↔ field word shift width = value := by
  constructor
  · exact And.right
  · rintro rfl
    exact ⟨field_lt word shift width, rfl⟩

theorem pattern_lt (width : ℕ) (i : ℤ) : pattern width i < 2 ^ width := by
  have hpos : (0 : ℤ) < 2 ^ width := Int.pow_pos (by decide)
  have hlt := Int.emod_lt_of_pos i hpos
  have hcast : ((2 ^ width : ℕ) : ℤ) = 2 ^ width := by norm_cast
  simp only [pattern]
  omega

theorem pattern_signed {width n : ℕ} (h : n < 2 ^ width) : pattern width (signed width n) = n := by
  have hcast : ((2 ^ width : ℕ) : ℤ) = 2 ^ width := by norm_cast
  rw [pattern, signed, ← hcast, Int.bmod_emod, Int.emod_eq_of_lt (by omega) (by omega),
    Int.toNat_natCast]

/-- A number in range is what its pattern in two's complement means. -/
theorem signed_pattern {width : ℕ} {i : ℤ} (hl : -2 ^ width ≤ i) (hg : i < 2 ^ width) :
    signed (width + 1) (pattern (width + 1) i) = i := by
  have hcast : ((2 ^ (width + 1) : ℕ) : ℤ) = 2 ^ (width + 1) := by norm_cast
  have hdouble : (2 : ℤ) ^ (width + 1) = 2 * 2 ^ width := by rw [Int.pow_succ, Int.mul_comm]
  have hnonneg : 0 ≤ i % 2 ^ (width + 1) := Int.emod_nonneg _ (by omega)
  rw [signed, pattern, Int.toNat_of_nonneg hnonneg, ← hcast, Int.emod_bmod]
  apply Int.bmod_eq_of_le <;> omega

/-- A field means the number whose pattern it holds. -/
theorem signed_field_eq_iff {word : UInt64} {shift width : ℕ} {i : ℤ} :
    signed (width + 1) (field word shift (width + 1)) = i ↔
      (-2 ^ width ≤ i ∧ i < 2 ^ width) ∧
        field word shift (width + 1) = pattern (width + 1) i := by
  have hcast : ((2 ^ (width + 1) : ℕ) : ℤ) = 2 ^ (width + 1) := by norm_cast
  have hdouble : (2 : ℤ) ^ (width + 1) = 2 * 2 ^ width := by rw [Int.pow_succ, Int.mul_comm]
  have hpos : 0 < 2 ^ (width + 1) := Nat.two_pow_pos _
  constructor
  · rintro rfl
    have hl := Int.le_bmod (x := field word shift (width + 1)) hpos
    have hg := Int.bmod_lt (x := field word shift (width + 1)) hpos
    refine ⟨⟨?_, ?_⟩, (pattern_signed (field_lt _ _ _)).symm⟩ <;> simp only [signed] <;> omega
  · rintro ⟨⟨hl, hg⟩, h⟩
    rw [h, signed_pattern hl hg]

/-- A field makes the register whose pattern it holds. -/
theorem ofBits_field_eq_iff (s : Shape) (width : ℕ) (h : s.width = width) {word : UInt64}
    {shift : ℕ} {x : Fixed s} :
    Fixed.ofBits (field word shift width) = x ↔ field word shift width = x.bits := by
  subst h
  exact Fixed.ofBits_eq_iff (field_lt word shift _)

end Word

namespace Command

variable {word : UInt64}

theorem readAddress_eq_ok {a : Address} :
    readAddress (Word.low word) = .ok a ↔ a.WellFormed ∧ a.field.Holds word := by
  rw [readAddress, FixedBits.Holds, Address.field, Word.low, Address.WellFormed, Address.segment]
  constructor
  · intro h
    split at h
    · cases h
      exact ⟨‹_›, rfl⟩
    · cases h
  · rintro ⟨hseg, hvalue⟩
    rw [hvalue, if_pos hseg]

theorem readVertex_eq_ok {shift width v : ℕ} :
    readVertex (Word.field word shift (width + 1)) = .ok v ↔
      v ≤ 31 ∧ Word.field word (shift + 1) width = v ∧ Word.field word shift 1 = 0 := by
  have hparity := Word.field_lt word shift 1
  rw [readVertex, Word.field_succ]
  generalize Word.field word (shift + 1) width = high at *
  generalize Word.field word shift 1 = parity at *
  constructor
  · intro h
    split at h
    · cases h
    · split at h
      · cases h
        omega
      · cases h
  · rintro ⟨hv, rfl, rfl⟩
    rw [if_neg (by omega), if_pos (by omega)]
    congr 1
    omega

/-- The lowest bits of the three bytes of a triangle. -/
def parities (shift : ℕ) : List FixedBits := [⟨shift + 16, 1, 0⟩, ⟨shift + 8, 1, 0⟩, ⟨shift, 1, 0⟩]

lemma parities_hold {shift : ℕ} (high : Word.field word (shift + 16) 1 = 0)
    (middle : Word.field word (shift + 8) 1 = 0) (low : Word.field word shift 1 = 0) :
    ∀ f ∈ parities shift, f.Holds word := by
  simp only [parities, List.forall_mem_cons]
  exact ⟨high, middle, low, List.forall_mem_nil _⟩

theorem readTriangle_eq_ok {shift : ℕ} {t : Triangle} :
    readTriangle word shift = .ok t ↔
      t.WellFormed ∧ (∀ f ∈ t.fields shift, f.Holds word) ∧
        ∀ f ∈ parities shift, f.Holds word := by
  simp only [readTriangle, bind_eq_ok, readVertex_eq_ok, Triangle.WellFormed, Triangle.fields,
    parities, List.forall_mem_cons, FixedBits.holds_mk]
  constructor
  · rintro ⟨v0, ⟨h0, f0, p0⟩, v1, ⟨h1, f1, p1⟩, v2, ⟨h2, f2, p2⟩, h⟩
    cases h
    exact ⟨⟨h0, h1, h2⟩, ⟨f0, f1, f2, List.forall_mem_nil _⟩, p0, p1, p2, List.forall_mem_nil _⟩
  · rintro ⟨⟨h0, h1, h2⟩, ⟨f0, f1, f2, -⟩, p0, p1, p2, -⟩
    exact ⟨t.v0, ⟨h0, f0, p0⟩, t.v1, ⟨h1, f1, p1⟩, t.v2, ⟨h2, f2, p2⟩, rfl⟩

theorem readCorner_eq_iff {shift : ℕ} {c : Corner} :
    readCorner word shift = c ↔ ∀ f ∈ c.fields shift, f.Holds word := by
  obtain ⟨x, y⟩ := c
  simp [readCorner, Corner.fields, FixedBits.Holds, Word.ofBits_field_eq_iff .coord 12 rfl]

theorem checkCorners_eq_ok {ul lr : Corner} {u : Unit} :
    checkCorners ul lr = .ok u ↔ ul.Ordered lr := by
  rw [checkCorners, Corner.Ordered]
  constructor
  · intro h
    split at h
    · assumption
    · cases h
  · intro h
    exact if_pos h

lemma holds_tileRect_iff {ulFirst : Bool} {r : TileRect} :
    (∀ f ∈ r.fields ulFirst, f.Holds word) ↔
      readCorner word 32 = (if ulFirst then r.ul else r.lr) ∧
        readCorner word 0 = (if ulFirst then r.lr else r.ul) ∧ Word.field word 24 3 = r.tile := by
  rw [TileRect.fields, List.forall_mem_append, List.forall_mem_append, ← readCorner_eq_iff,
    ← readCorner_eq_iff, List.forall_mem_singleton, FixedBits.Holds, and_assoc]

theorem readTileRect_eq_ok {ulFirst : Bool} {r : TileRect} :
    readTileRect ulFirst word = .ok r ↔
      r.WellFormed ∧ ∀ f ∈ r.fields ulFirst, f.Holds word := by
  have htile := Word.field_lt word 24 3
  rw [holds_tileRect_iff, TileRect.WellFormed]
  simp only [readTileRect, bind_eq_ok, checkCorners_eq_ok]
  constructor
  · rintro ⟨u, horder, h⟩
    cases h
    refine ⟨⟨horder, Nat.le_of_lt_succ htile⟩, ?_⟩
    cases ulFirst <;> exact ⟨rfl, rfl, rfl⟩
  · rintro ⟨⟨horder, -⟩, hhigh, hlow, htile⟩
    rw [hhigh, hlow, htile]
    cases ulFirst <;> exact ⟨(), horder, rfl⟩

theorem ofCode_texelSize {x : TexelSize} :
    TexelSize.ofCode (Word.field word 51 2) = x ↔ Word.field word 51 2 = x.code := by
  have hlt := Word.field_lt word 51 2
  constructor
  · rintro rfl
    generalize Word.field word 51 2 = n at *
    interval_cases n <;> rfl
  · intro h
    rw [h]
    cases x <;> rfl

theorem readFormat_eq_ok {n : ℕ} {x : ImageFormat} : readFormat n = .ok x ↔ n = x.code := by
  have hcode : Coded.ofCode? n = some x ↔ n = x.code := Coded.ofCode?_eq_some_iff
  rw [← hcode, readFormat]
  cases (Coded.ofCode? n : Option ImageFormat) <;> simp

theorem readImageSource_eq_ok {i : ImageSource} :
    readImageSource word = .ok i ↔ i.WellFormed ∧ ∀ f ∈ i.fields, f.Holds word := by
  have hwidth := Word.field_lt word 32 12
  simp only [readImageSource, bind_eq_ok, readFormat_eq_ok, readAddress_eq_ok,
    ImageSource.WellFormed, ImageSource.fields, List.forall_mem_cons]
  constructor
  · rintro ⟨format, hformat, address, haddress, h⟩
    cases h
    exact ⟨⟨Nat.le_add_left _ _, hwidth, haddress.1⟩, hformat, ofCode_texelSize.mp rfl, rfl,
      haddress.2, List.forall_mem_nil _⟩
  · rintro ⟨⟨hpos, hle, hsegment⟩, hformat, hsize, hw, haddress, -⟩
    refine ⟨i.format, hformat, i.address, ⟨hsegment, haddress⟩, ?_⟩
    have hsize' := ofCode_texelSize.mpr hsize
    have hw' : Word.field word 32 12 + 1 = i.width := by
      rw [hw]
      exact Nat.sub_add_cancel hpos
    rw [hsize', hw']

theorem readColor_eq_iff {c : Color} :
    readColor word = c ↔ c.WellFormed ∧ ∀ f ∈ c.fields, f.Holds word := by
  have hr := Word.field_lt word 24 8
  have hg := Word.field_lt word 16 8
  have hb := Word.field_lt word 8 8
  have ha := Word.field_lt word 0 8
  obtain ⟨r, g, b, a⟩ := c
  simp only [readColor, Color.WellFormed, Color.fields, List.forall_mem_cons, FixedBits.holds_mk,
    Color.mk.injEq]
  constructor
  · rintro ⟨rfl, rfl, rfl, rfl⟩
    exact ⟨⟨hr, hg, hb, ha⟩, rfl, rfl, rfl, rfl, List.forall_mem_nil _⟩
  · rintro ⟨-, h1, h2, h3, h4, -⟩
    exact ⟨h1, h2, h3, h4⟩

theorem readMode_eq_ok {shift len data : ℕ} :
    readMode word = .ok (shift, len, data) ↔
      ModeField shift len data ∧ ∀ f ∈ modeFields shift len data, f.Holds word := by
  simp only [readMode, ModeField, ← bits_between_iff, modeFields, List.forall_mem_cons,
    FixedBits.Holds, ← Word.low_def]
  generalize Word.low word = low
  generalize Word.field word 40 8 = fromTop
  generalize Word.field word 32 8 = count
  constructor
  · intro h
    split at h
    · cases h
    · split at h
      · rename_i hfit hdata
        cases h
        exact ⟨⟨by omega, by omega, hdata⟩, by omega, by omega, rfl, List.forall_mem_nil _⟩
      · cases h
  · rintro ⟨⟨hpos, hle, hdata⟩, rfl, rfl, rfl, -⟩
    have hlen : len - 1 + 1 = len := by omega
    have hshift : 32 - (32 - shift - len) - len = shift := by omega
    rw [hlen, if_neg (by omega), hshift, if_pos hdata]

theorem readAxis_eq_iff {shift : ℕ} {a : TileAxis} :
    readAxis (Word.field word (shift + 8) 2) (Word.field word (shift + 4) 4)
        (Word.field word shift 4) = a ↔
      a.WellFormed ∧ ∀ f ∈ a.fields shift, f.Holds word := by
  have hcode := Word.field_lt word (shift + 8) 2
  have hmask := Word.field_lt word (shift + 4) 4
  have hshift := Word.field_lt word shift 4
  obtain ⟨clamp, mirror, mask, amount⟩ := a
  simp only [readAxis, TileAxis.WellFormed, TileAxis.fields, List.forall_mem_cons, FixedBits.Holds,
    TileAxis.mk.injEq]
  generalize Word.field word (shift + 8) 2 = code at *
  have hbits : (code / 2 % 2 == 1) = clamp ∧ (code % 2 == 1) = mirror ↔
      code = 2 * clamp.toNat + mirror.toNat := by
    interval_cases code <;> cases clamp <;> cases mirror <;> decide
  rw [← and_assoc, hbits]
  constructor
  · rintro ⟨hc, rfl, rfl⟩
    exact ⟨⟨by omega, by omega⟩, hc, rfl, rfl, List.forall_mem_nil _⟩
  · rintro ⟨-, hc, hm, hs, -⟩
    exact ⟨hc, hm, hs⟩

/-- The number that the lower half of a word holds is any number of 32 bits. -/
lemma low_eq_iff {value : ℕ} : Word.low word = value ↔
    value < 2 ^ 32 ∧ ∀ f ∈ [(⟨0, 32, value⟩ : FixedBits)], f.Holds word := by
  rw [List.forall_mem_singleton, FixedBits.holds_mk, Word.field_eq_and_lt_iff, Word.low_def]

lemma halves_eq_iff {hi lo : ℕ} : Word.field word 32 24 = hi ∧ Word.low word = lo ↔
    (hi < 2 ^ 24 ∧ lo < 2 ^ 32) ∧
      ∀ f ∈ [(⟨32, 24, hi⟩ : FixedBits), ⟨0, 32, lo⟩], f.Holds word := by
  rw [List.forall_mem_cons, FixedBits.holds_mk, and_and_and_comm, Word.field_eq_and_lt_iff,
    low_eq_iff]

theorem readKey_eq_iff {width center scale : ℕ} {k : KeyChannel} :
    readKey (Word.field word width 12) (Word.field word center 8) (Word.field word scale 8) = k ↔
      k.WellFormed ∧ Word.field word width 12 = k.width.bits ∧
        Word.field word center 8 = k.center ∧ Word.field word scale 8 = k.scale := by
  obtain ⟨w, c, s⟩ := k
  have hcenter := Word.field_lt word center 8
  have hscale := Word.field_lt word scale 8
  simp only [readKey, KeyChannel.mk.injEq, KeyChannel.WellFormed,
    Word.ofBits_field_eq_iff .keyWidth 12 rfl]
  constructor
  · rintro ⟨hw, rfl, rfl⟩
    exact ⟨⟨hcenter, hscale⟩, hw, rfl, rfl⟩
  · exact And.right

theorem coefficient_eq_iff {shift : ℕ} {k : ℤ} :
    coefficient word shift = k ↔
      (-256 ≤ k ∧ k ≤ 255) ∧ Word.field word shift 9 = Word.pattern 9 k := by
  rw [coefficient, Word.signed_field_eq_iff]
  apply and_congr_left'
  omega

end Command

end Cartridge
