import Cartridge.Command.Opcode
import Mathlib.Data.List.Pairwise
import Mathlib.Tactic.Lemma

/-!
# Words as lists of fields

A list of fields that do not overlap is the same thing as a mask with a pattern,
and one that covers all 64 bits is the same thing as a word. Everything is shown
bit by bit, so it does not matter in which order the fields are listed.

A bit reader that starts behind the top byte gives the fields of the word that
lie next to each other from there on.
-/
namespace Cartridge

namespace Word

theorem testBit_field (word : UInt64) (shift width i : ℕ) :
    (field word shift width).testBit i =
      (decide (i < width) && word.toNat.testBit (shift + i)) := by
  simp [field, Nat.testBit_mod_two_pow, Nat.testBit_div_two_pow, Nat.add_comm]

/-- A field holds a value when the word has the bits of the value in its place. -/
theorem field_eq_iff {word : UInt64} {shift width value : ℕ} (h : value < 2 ^ width) :
    field word shift width = value ↔
      ∀ i < width, word.toNat.testBit (shift + i) = value.testBit i := by
  constructor
  · rintro rfl i hi
    simp [testBit_field, hi]
  · intro hbits
    apply Nat.eq_of_testBit_eq
    intro i
    rw [testBit_field]
    by_cases hi : i < width
    · simpa [hi] using hbits i hi
    · have hpow : 2 ^ width ≤ 2 ^ i := Nat.pow_le_pow_right (by decide) (by omega)
      simp [hi, Nat.testBit_lt_two_pow (Nat.lt_of_lt_of_le h hpow)]

/-- The lowest bits of a field make a field of their own. -/
theorem field_add (word : UInt64) (shift low high : ℕ) :
    field word shift (low + high) =
      field word (shift + low) high * 2 ^ low + field word shift low := by
  simp only [field, Nat.pow_add, ← Nat.div_div_eq_div_mul]
  rw [Nat.mod_mul, Nat.add_comm, Nat.mul_comm]

/-- A field one bit wider has twice the value, and one more when the new lowest
bit is set. -/
theorem field_succ (word : UInt64) (shift width : ℕ) :
    field word shift (width + 1) =
      2 * field word (shift + 1) width + field word shift 1 := by
  rw [Nat.add_comm width, field_add, Nat.pow_one, Nat.mul_comm]

theorem field_div (word : UInt64) (shift low high : ℕ) :
    field word shift (low + high) / 2 ^ low = field word (shift + low) high := by
  have hlow := field_lt word shift low
  rw [field_add, Nat.mul_comm, Nat.mul_add_div (Nat.two_pow_pos low), Nat.div_eq_of_lt hlow,
    Nat.add_zero]

theorem field_mod (word : UInt64) (shift low high : ℕ) :
    field word shift (low + high) % 2 ^ low = field word shift low := by
  rw [field_add, Nat.mul_comm, Nat.mul_add_mod]
  exact Nat.mod_eq_of_lt (field_lt word shift low)

theorem field_eq_zero {word : UInt64} {shift width low len : ℕ} (h : field word shift width = 0)
    (hl : shift ≤ low) (hr : low + len ≤ shift + width) : field word low len = 0 := by
  have hbits := (field_eq_iff (Nat.two_pow_pos width)).mp h
  rw [field_eq_iff (Nat.two_pow_pos len)]
  intro i hi
  have hbit := hbits (low + i - shift) (by omega)
  rw [Nat.add_sub_cancel' (by omega)] at hbit
  rw [hbit, Nat.zero_testBit, Nat.zero_testBit]

end Word

namespace FixedBits

/-- The word has the value of the field in its place. -/
def Holds (f : FixedBits) (word : UInt64) : Prop := Word.field word f.shift f.width = f.value

/-- The value is not too great for the width. -/
def Fits (f : FixedBits) : Prop := f.value < 2 ^ f.width

/-- Bit `i` of a word belongs to the field. -/
def Covers (f : FixedBits) (i : ℕ) : Prop := f.shift ≤ i ∧ i < f.shift + f.width

/-- The fields have no bit in common. -/
def Apart (f g : FixedBits) : Prop :=
  f.shift + f.width ≤ g.shift ∨ g.shift + g.width ≤ f.shift

instance (f : FixedBits) : Decidable f.Fits := inferInstanceAs (Decidable (_ < _))

instance (f : FixedBits) (i : ℕ) : Decidable (f.Covers i) := inferInstanceAs (Decidable (_ ∧ _))

instance (f g : FixedBits) : Decidable (f.Apart g) := inferInstanceAs (Decidable (_ ∨ _))

def maskOf (fields : List FixedBits) : ℕ := fields.foldl (fun m f => m ||| f.mask) 0

/-- The values of all fields in their places. -/
def patternOf (fields : List FixedBits) : ℕ := fields.foldl (fun p f => p ||| f.pattern) 0

/-- The fields do not overlap, and together they cover a word. -/
def Tile (fields : List FixedBits) : Prop :=
  fields.Pairwise Apart ∧ maskOf fields = 2 ^ 64 - 1

/-- The word that fields make. -/
def toWord (fields : List FixedBits) : UInt64 := UInt64.ofNat (patternOf fields)

theorem testBit_mask (f : FixedBits) (i : ℕ) : f.mask.testBit i = decide (f.Covers i) := by
  simp only [mask, Nat.testBit_shiftLeft, Nat.testBit_two_pow_sub_one, ge_iff_le]
  rw [← Bool.decide_and, decide_eq_decide, Covers]
  omega

theorem testBit_pattern {f : FixedBits} (hf : f.Fits) (i : ℕ) :
    f.pattern.testBit i = (decide (f.Covers i) && f.value.testBit (i - f.shift)) := by
  simp only [pattern, Nat.testBit_shiftLeft, Covers, ge_iff_le]
  by_cases h : f.shift ≤ i
  · by_cases hi : i < f.shift + f.width
    · simp [h, hi]
    · have hpow : 2 ^ f.width ≤ 2 ^ (i - f.shift) :=
        Nat.pow_le_pow_right (by decide) (by omega)
      simp [hi, Nat.testBit_lt_two_pow (Nat.lt_of_lt_of_le hf hpow)]
  · simp [h]

/-- The place of a field, its lowest bit and its width. -/
def span (f : FixedBits) : ℕ × ℕ := (f.shift, f.width)

/-- Ones in several places. -/
def spanMask (spans : List (ℕ × ℕ)) : ℕ :=
  spans.foldl (fun m span => m ||| (2 ^ span.2 - 1) <<< span.1) 0

/-- The mask of fields is known from their places alone. -/
theorem maskOf_eq_spanMask (fields : List FixedBits) :
    maskOf fields = spanMask (fields.map span) := by
  rw [maskOf, spanMask, List.foldl_map]
  rfl

theorem holds_mk {word : UInt64} {shift width value : ℕ} :
    (⟨shift, width, value⟩ : FixedBits).Holds word ↔ Word.field word shift width = value :=
  Iff.rfl

theorem fits_mk {shift width value : ℕ} :
    (⟨shift, width, value⟩ : FixedBits).Fits ↔ value < 2 ^ width :=
  Iff.rfl

lemma testBit_foldl_lor (g : FixedBits → ℕ) (fields : List FixedBits) (n i : ℕ) :
    (fields.foldl (fun m f => m ||| g f) n).testBit i =
      (n.testBit i || fields.any fun f => (g f).testBit i) := by
  induction fields generalizing n with
  | nil => simp
  | cons f fields ih => simp [ih, Nat.testBit_or, Bool.or_assoc]

lemma testBit_maskOf (fields : List FixedBits) (i : ℕ) :
    (maskOf fields).testBit i = fields.any fun f => f.mask.testBit i := by
  simp [maskOf, testBit_foldl_lor]

lemma testBit_patternOf (fields : List FixedBits) (i : ℕ) :
    (patternOf fields).testBit i = fields.any fun f => f.pattern.testBit i := by
  simp [patternOf, testBit_foldl_lor]

/-- A bit belongs to at most one of several fields without overlap. -/
lemma eq_of_covers {fields : List FixedBits} (apart : fields.Pairwise Apart)
    {f g : FixedBits} (hf : f ∈ fields) (hg : g ∈ fields) {i : ℕ}
    (hfi : f.Covers i) (hgi : g.Covers i) : f = g := by
  have : Std.Symm Apart := ⟨fun _ _ h => h.symm⟩
  by_contra hne
  have happart := apart.forall hf hg hne
  simp only [Apart, Covers] at happart hfi hgi
  omega

/-- In the place of one of the fields the pattern has the bits of that field. -/
lemma testBit_patternOf_of_covers {fields : List FixedBits} (fits : ∀ f ∈ fields, f.Fits)
    (apart : fields.Pairwise Apart) {f : FixedBits} (hf : f ∈ fields) {i : ℕ}
    (hi : f.Covers i) : (patternOf fields).testBit i = f.value.testBit (i - f.shift) := by
  rw [testBit_patternOf, Bool.eq_iff_iff, List.any_eq_true]
  constructor
  · rintro ⟨g, hg, hgi⟩
    rw [testBit_pattern (fits g hg), Bool.and_eq_true, decide_eq_true_eq] at hgi
    rw [eq_of_covers apart hf hg hi hgi.1]
    exact hgi.2
  · intro hv
    exact ⟨f, hf, by simp [testBit_pattern (fits f hf), hi, hv]⟩

lemma testBit_maskOf_of_covers {fields : List FixedBits} {f : FixedBits} (hf : f ∈ fields)
    {i : ℕ} (hi : f.Covers i) : (maskOf fields).testBit i = true := by
  rw [testBit_maskOf, List.any_eq_true]
  exact ⟨f, hf, by simp [testBit_mask, hi]⟩

/-- A word has the pattern of a list of fields under their mask exactly when it
holds each of the fields. -/
theorem land_maskOf_eq_iff {fields : List FixedBits} (fits : ∀ f ∈ fields, f.Fits)
    (apart : fields.Pairwise Apart) (word : UInt64) :
    word.toNat &&& maskOf fields = patternOf fields ↔ ∀ f ∈ fields, f.Holds word := by
  constructor
  · intro h f hf
    apply (Word.field_eq_iff (fits f hf)).mpr
    intro i hi
    have hcovers : f.Covers (f.shift + i) := ⟨Nat.le_add_right _ _, by omega⟩
    have hbit := congrArg (fun n => n.testBit (f.shift + i)) h
    simp only [Nat.testBit_and, testBit_maskOf_of_covers hf hcovers, Bool.and_true] at hbit
    rw [hbit, testBit_patternOf_of_covers fits apart hf hcovers, Nat.add_sub_cancel_left]
  · intro h
    apply Nat.eq_of_testBit_eq
    intro i
    rw [Nat.testBit_and]
    by_cases hi : ∃ f ∈ fields, f.Covers i
    · obtain ⟨f, hf, hfi⟩ := hi
      have hbits := (Word.field_eq_iff (fits f hf)).mp (h f hf) (i - f.shift)
        (by have := hfi.1; have := hfi.2; omega)
      rw [Nat.add_sub_cancel' hfi.1] at hbits
      rw [testBit_maskOf_of_covers hf hfi, Bool.and_true, hbits,
        testBit_patternOf_of_covers fits apart hf hfi]
    · have hnone : ∀ f ∈ fields, ¬ f.Covers i := fun f hf hfi => hi ⟨f, hf, hfi⟩
      have hmask : (maskOf fields).testBit i = false := by
        rw [testBit_maskOf, List.any_eq_false]
        intro f hf
        simp [testBit_mask, hnone f hf]
      have hpattern : (patternOf fields).testBit i = false := by
        rw [testBit_patternOf, List.any_eq_false]
        intro f hf
        simp [testBit_pattern (fits f hf), hnone f hf]
      rw [hmask, hpattern, Bool.and_false]

lemma patternOf_land_maskOf {fields : List FixedBits} (fits : ∀ f ∈ fields, f.Fits) :
    patternOf fields &&& maskOf fields = patternOf fields := by
  apply Nat.eq_of_testBit_eq
  intro i
  rw [Nat.testBit_and]
  cases hp : (patternOf fields).testBit i with
  | false => rfl
  | true =>
    rw [testBit_patternOf, List.any_eq_true] at hp
    obtain ⟨f, hf, hfi⟩ := hp
    rw [testBit_pattern (fits f hf), Bool.and_eq_true, decide_eq_true_eq] at hfi
    rw [testBit_maskOf_of_covers hf hfi.1, Bool.and_true]

/-- Fields that tile a word hold in one word only, the one that they make. -/
theorem holds_iff_eq_toWord {fields : List FixedBits} (fits : ∀ f ∈ fields, f.Fits)
    (tile : Tile fields) (word : UInt64) :
    (∀ f ∈ fields, f.Holds word) ↔ word = toWord fields := by
  obtain ⟨apart, full⟩ := tile
  have hpattern := patternOf_land_maskOf fits
  rw [← land_maskOf_eq_iff fits apart, full, Nat.and_two_pow_sub_one_eq_mod,
    Nat.mod_eq_of_lt word.toNat_lt]
  rw [full, Nat.and_two_pow_sub_one_eq_mod] at hpattern
  constructor
  · intro h
    rw [toWord, ← h, UInt64.ofNat_toNat]
  · rintro rfl
    rw [toWord, UInt64.toNat_ofNat', hpattern]

end FixedBits

namespace Word

/-- The number of bits in fields of the given widths. -/
def total : List ℕ → ℕ
  | [] => 0
  | width :: widths => width + total widths

/-- The fields of the given widths that lie below bit `top`, from the top. -/
def slices (word : UInt64) (top : ℕ) : List ℕ → List ℕ
  | [] => []
  | width :: widths => field word (top - width) width :: slices word (top - width) widths

end Word

namespace BitReader

/-- A reader of the lowest `left` bits of a word. -/
def ofWord (word : UInt64) (left : ℕ) : BitReader := ⟨Word.field word 0 left, left⟩

theorem take?_ofWord {word : UInt64} {left width : ℕ} (h : width ≤ left) :
    (ofWord word left).take? width =
      some (Word.field word (left - width) width, ofWord word (left - width)) := by
  have hsplit : left = left - width + width := by omega
  have hvalue := Word.field_div word 0 (left - width) width
  have hrest := Word.field_mod word 0 (left - width) width
  rw [← hsplit] at hvalue hrest
  rw [Nat.zero_add] at hvalue
  simp only [take?, ofWord, if_pos h, hvalue, hrest]

/-- A bit reader gives the slices of its word and goes on below them. -/
theorem takeAll?_ofWord {word : UInt64} {left : ℕ} {widths : List ℕ}
    (h : Word.total widths ≤ left) :
    (ofWord word left).takeAll? widths =
      some (Word.slices word left widths, ofWord word (left - Word.total widths)) := by
  induction widths generalizing left with
  | nil => rfl
  | cons width widths ih =>
    rw [Word.total] at h ⊢
    have hrest : (ofWord word (left - width)).takeAll? widths = _ := ih (by omega)
    simp only [takeAll?, take?_ofWord (show width ≤ left by omega), hrest, Word.slices,
      Option.bind_eq_bind, Option.bind_some]
    rw [Nat.sub_add_eq]

theorem takeAll?_afterTopByte (word : UInt64) {widths : List ℕ} (h : Word.total widths ≤ 56) :
    (afterTopByte word).takeAll? widths =
      some (Word.slices word 56 widths, ofWord word (56 - Word.total widths)) :=
  takeAll?_ofWord h

end BitReader

end Cartridge
