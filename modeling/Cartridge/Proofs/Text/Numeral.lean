import Cartridge.Word
import Cartridge.Text.Numeral
import Mathlib.Data.List.Forall2
import Mathlib.Data.Nat.Digits.Defs
import Mathlib.Tactic.Ring

/-!
# Numbers that digits spell

A numeral is one digit or more, the first of them on top, and may have a plus sign in front. It is
read exactly when the number is below a limit, however many zeros it begins with. A reader whose
products and sums must all stay below the limit reads the same numerals: digits that follow never
make a number smaller.
-/
namespace Cartridge.Numeral

/-- The digits by their values, with letters in lower case. -/
def lowerDigits : List Char := "0123456789abcdef".toList

/-- The digits by their values, with letters in upper case. -/
def upperDigits : List Char := "0123456789ABCDEF".toList

/-- A character is the digit with a value in a base. -/
structure IsDigit (base : ℕ) (c : Char) (value : ℕ) : Prop where
  value_lt : value < base
  getElem?_eq : lowerDigits[value]? = some c ∨ upperDigits[value]? = some c

/-- Characters are the digits of a number. -/
def Spells (base : ℕ) (digits : List Char) (n : ℕ) : Prop :=
  digits ≠ [] ∧ ∃ values, List.Forall₂ (IsDigit base) digits values ∧
    n = Nat.ofDigits base values.reverse

/-- A text is the digits of a number, behind at most one plus sign. -/
def SpellsSigned (base : ℕ) (text : List Char) (n : ℕ) : Prop :=
  Spells base text n ∨ ∃ digits, text = '+' :: digits ∧ Spells base digits n

section Digits

variable {base : ℕ} {c : Char} {d : ℕ}

/-- A smaller base has the first digits of base 16. -/
lemma digitValue?_eq_some_iff_sixteen (hbase : base ≤ 16) :
    digitValue? base c = some d ↔ digitValue? 16 c = some d ∧ d < base := by
  simp only [digitValue?, Option.ite_none_right_eq_some, Option.some.injEq]
  split_ifs <;> omega

lemma toNat_lt_of_digitValue? (h : digitValue? base c = some d) : c.toNat < 128 := by
  have hle : ∀ a : Char, c ≤ a → a.toNat < 128 → c.toNat < 128 :=
    fun _ hle => Nat.lt_of_le_of_lt hle
  simp only [digitValue?, Option.ite_none_right_eq_some, Option.some.injEq] at h
  split_ifs at h with hdecimal hlower hupper
  · exact hle '9' hdecimal.2 (by decide)
  · exact hle 'z' hlower.2 (by decide)
  · exact hle 'Z' hupper.2 (by decide)
  · omega

/-- The value of a digit is its place among the digits. -/
theorem digitValue?_eq_some_iff (hbase : base ≤ 16) :
    digitValue? base c = some d ↔ IsDigit base c d := by
  have hvalues : ∀ k < 128, ∀ v ∈ digitValue? 16 (Char.ofNat k),
      lowerDigits[v]? = some (Char.ofNat k) ∨ upperDigits[v]? = some (Char.ofNat k) := by
    decide +kernel
  have hlower : ∀ k < 16, lowerDigits[k]?.bind (digitValue? 16) = some k := by decide +kernel
  have hupper : ∀ k < 16, upperDigits[k]?.bind (digitValue? 16) = some k := by decide +kernel
  rw [digitValue?_eq_some_iff_sixteen hbase]
  constructor
  · rintro ⟨hvalue, hlt⟩
    have hplace := hvalues c.toNat (toNat_lt_of_digitValue? hvalue) d
    rw [Char.ofNat_toNat] at hplace
    exact ⟨hlt, hplace hvalue⟩
  · rintro ⟨hlt, hplace⟩
    refine ⟨?_, hlt⟩
    cases hplace with
    | inl hplace => simpa only [hplace, Option.bind_some] using hlower d (by omega)
    | inr hplace => simpa only [hplace, Option.bind_some] using hupper d (by omega)

end Digits

section Numerals

variable {base limit n m : ℕ} {digits text : List Char}

/-- What has been read counts for the more, the more digits follow. -/
lemma readDigits?_eq_some_iff (hbase : base ≤ 16) :
    readDigits? base n digits = some m ↔ ∃ values, List.Forall₂ (IsDigit base) digits values ∧
      m = n * base ^ values.length + Nat.ofDigits base values.reverse := by
  induction digits generalizing n with
  | nil => simp [readDigits?, eq_comm]
  | cons c rest ih =>
    have hstep : readDigits? base n (c :: rest) = some m ↔
        ∃ d, digitValue? base c = some d ∧ readDigits? base (n * base + d) rest = some m := by
      rw [readDigits?]
      cases digitValue? base c <;> simp
    have hcons (d : ℕ) (values : List ℕ) :
        n * base ^ (d :: values).length + Nat.ofDigits base (d :: values).reverse =
          (n * base + d) * base ^ values.length + Nat.ofDigits base values.reverse := by
      rw [List.length_cons, List.reverse_cons, Nat.ofDigits_append, Nat.ofDigits_singleton,
        List.length_reverse]
      ring
    rw [hstep]
    constructor
    · rintro ⟨d, hd, hrest⟩
      obtain ⟨values, hvalues, rfl⟩ := ih.mp hrest
      exact ⟨d :: values, .cons ((digitValue?_eq_some_iff hbase).mp hd) hvalues,
        (hcons d values).symm⟩
    · rintro ⟨values, hvalues, rfl⟩
      obtain ⟨d, others, hd, hothers, rfl⟩ := List.forall₂_cons_left_iff.mp hvalues
      exact ⟨d, (digitValue?_eq_some_iff hbase).mpr hd, ih.mpr ⟨others, hothers, hcons d others⟩⟩

theorem readUnsigned?_eq_some_iff (hbase : base ≤ 16) :
    readUnsigned? base digits = some n ↔ Spells base digits n := by
  cases digits with
  | nil => simp [readUnsigned?, Spells]
  | cons c rest => simp [readUnsigned?, Spells, readDigits?_eq_some_iff hbase]

lemma not_spells_plus (hbase : base ≤ 16) (rest : List Char) : ¬ Spells base ('+' :: rest) n := by
  rintro ⟨-, values, hvalues, -⟩
  obtain ⟨d, others, hd, -⟩ := List.forall₂_cons_left_iff.mp hvalues
  have hnone : digitValue? 16 '+' = none := by decide
  have hvalue := (digitValue?_eq_some_iff_sixteen hbase).mp ((digitValue?_eq_some_iff hbase).mpr hd)
  rw [hnone] at hvalue
  cases hvalue.1

/-- The digits of a text behind its sign. -/
def unsigned : List Char → List Char
  | '+' :: rest => rest
  | text => text

lemma spellsSigned_iff (hbase : base ≤ 16) :
    SpellsSigned base text n ↔ Spells base (unsigned text) n := by
  unfold unsigned SpellsSigned
  split
  · next rest => simp [not_spells_plus hbase]
  · next hnot =>
    constructor
    · rintro (h | ⟨digits, rfl, -⟩)
      · exact h
      · exact absurd rfl (hnot digits)
    · exact .inl

/-- A number, when it is below a limit. -/
def below? (limit n : ℕ) : Option ℕ := if n < limit then some n else none

lemma readBelow?_eq (base limit : ℕ) (text : List Char) :
    readBelow? base limit text = (readUnsigned? base (unsigned text)).bind (below? limit) := by
  unfold unsigned
  split
  · next rest =>
    rw [readBelow?]
    cases readUnsigned? base rest <;> rfl
  · next hnot =>
    unfold readBelow?
    split
    · exact absurd rfl (hnot _)
    · dsimp only
      cases readUnsigned? base text <;> rfl

theorem readBelow?_eq_some_iff (hbase : base ≤ 16) :
    readBelow? base limit text = some n ↔ SpellsSigned base text n ∧ n < limit := by
  rw [spellsSigned_iff hbase, ← readUnsigned?_eq_some_iff hbase, readBelow?_eq]
  cases readUnsigned? base (unsigned text) with
  | none => simp
  | some m =>
    simp only [Option.bind_some, below?, Option.ite_none_right_eq_some, Option.some.injEq]
    omega

/-- Reads digits with numbers below a limit: where a product or a sum is not, there is no number. -/
def readWithin? (base limit n : ℕ) : List Char → Option ℕ
  | [] => some n
  | c :: rest => do
    let d ← digitValue? base c
    let product ← below? limit (n * base)
    let sum ← below? limit (product + d)
    readWithin? base limit sum rest

/-- Reads a numeral with numbers below a limit. -/
def readNumeralWithin? (base limit : ℕ) (text : List Char) : Option ℕ :=
  if (unsigned text).isEmpty then none else readWithin? base limit 0 (unsigned text)

lemma le_of_readDigits? (hpos : 0 < base) (h : readDigits? base n digits = some m) : n ≤ m := by
  induction digits generalizing n with
  | nil =>
    cases h
    exact Nat.le_refl _
  | cons c rest ih =>
    rw [readDigits?] at h
    split at h
    · have hnext := ih h
      have hmul : n ≤ n * base := Nat.le_mul_of_pos_right n hpos
      omega
    · cases h

/-- A number that leaves the limit on the way does not come back. -/
lemma readWithin?_eq (hpos : 0 < base) (h : n < limit) :
    readWithin? base limit n digits = (readDigits? base n digits).bind (below? limit) := by
  induction digits generalizing n with
  | nil => simp [readWithin?, readDigits?, below?, h]
  | cons c rest ih =>
    rw [readWithin?, readDigits?]
    cases digitValue? base c with
    | none => rfl
    | some d =>
      by_cases hsum : n * base + d < limit
      · have hproduct : n * base < limit := by omega
        simp [below?, hproduct, hsum, ih]
      · have hnone : (readDigits? base (n * base + d) rest).bind (below? limit) = none := by
          cases hread : readDigits? base (n * base + d) rest with
          | none => rfl
          | some m =>
            have hle := le_of_readDigits? hpos hread
            exact if_neg (by omega)
        by_cases hproduct : n * base < limit <;> simp [below?, hproduct, hsum, hnone]

theorem readNumeralWithin?_eq (hpos : 0 < base) (hlimit : 0 < limit) (text : List Char) :
    readNumeralWithin? base limit text = readBelow? base limit text := by
  rw [readNumeralWithin?, readBelow?_eq, readUnsigned?, readWithin?_eq hpos hlimit]
  split <;> rfl

end Numerals

end Cartridge.Numeral
