import Cartridge.Proofs.Command.Parts

/-!
# Machine arithmetic

Numbers of a machine have a width. A sum, a product or a narrower number has a result below only
where the width has room for the exact one, a difference only where it is not negative, and a
move by some places only where there are fewer places than bits. The field of a word and the
number that it means in two's complement are taken in such steps, and these always have results.
-/
namespace Cartridge.Machine

/-- A number, when `width` bits hold it. -/
def narrow? (width n : ℕ) : Option ℕ := if n < 2 ^ width then some n else none

/-- An integer, when `width` bits hold it in two's complement. -/
def narrowSigned? (width : ℕ) (i : ℤ) : Option ℤ :=
  if -2 ^ (width - 1) ≤ i ∧ i < 2 ^ (width - 1) then some i else none

def add? (width a b : ℕ) : Option ℕ := narrow? width (a + b)

def mul? (width a b : ℕ) : Option ℕ := narrow? width (a * b)

def sub? (a b : ℕ) : Option ℕ := if b ≤ a then some (a - b) else none

/-- A number of `width` bits moved up; what is moved out of them is lost. -/
def shiftLeft? (width n places : ℕ) : Option ℕ :=
  if places < width then some ((n <<< places) % 2 ^ width) else none

def shiftRight? (width n places : ℕ) : Option ℕ :=
  if places < width then some (n >>> places) else none

/-- The bits that a number of `width` bits leaves clear. -/
def complement (width n : ℕ) : ℕ := 2 ^ width - 1 - n

/-- A field of a word, under a mask. -/
def field? (word : UInt64) (shift width : ℕ) : Option ℕ := do
  let moved ← shiftRight? 64 word.toNat shift
  let above ← shiftLeft? 64 1 width
  let ones ← sub? above 1
  some (moved &&& ones)

/-- A field of a word, as a number of `size` bits. -/
def fieldInto? (size : ℕ) (word : UInt64) (shift width : ℕ) : Option ℕ := do
  narrow? size (← field? word shift width)

/-- What the lowest `width` bits of a number mean. They are moved to the top of a word and back,
and on the way back the sign fills in from above. -/
def signExtend? (n width : ℕ) : Option ℤ := do
  let places ← sub? 64 width
  let moved ← shiftLeft? 64 n places
  if places < 64 then some (Word.signed 64 moved >>> places) else none

lemma narrow?_of_lt {width n : ℕ} (h : n < 2 ^ width) : narrow? width n = some n := if_pos h

lemma narrowSigned?_of_bounds {width : ℕ} {i : ℤ} (hl : -2 ^ (width - 1) ≤ i)
    (hg : i < 2 ^ (width - 1)) : narrowSigned? width i = some i := if_pos ⟨hl, hg⟩

lemma add?_of_lt {width a b : ℕ} (h : a + b < 2 ^ width) : add? width a b = some (a + b) :=
  narrow?_of_lt h

lemma mul?_of_lt {width a b : ℕ} (h : a * b < 2 ^ width) : mul? width a b = some (a * b) :=
  narrow?_of_lt h

lemma sub?_of_le {a b : ℕ} (h : b ≤ a) : sub? a b = some (a - b) := if_pos h

lemma shiftLeft?_of_lt {width n places : ℕ} (hplaces : places < width)
    (h : n * 2 ^ places < 2 ^ width) : shiftLeft? width n places = some (n * 2 ^ places) := by
  rw [shiftLeft?, if_pos hplaces, Nat.shiftLeft_eq, Nat.mod_eq_of_lt h]

lemma shiftRight?_of_lt {width n places : ℕ} (h : places < width) :
    shiftRight? width n places = some (n / 2 ^ places) := by
  rw [shiftRight?, if_pos h, Nat.shiftRight_eq_div_pow]

variable {word : UInt64} {shift width : ℕ}

theorem field?_eq (hshift : shift < 64) (hwidth : width < 64) :
    field? word shift width = some (Word.field word shift width) := by
  have hlt : 1 * 2 ^ width < 2 ^ 64 := by
    rw [Nat.one_mul]
    exact Nat.pow_lt_pow_right (by decide) hwidth
  have hpos : 1 ≤ 2 ^ width := Nat.two_pow_pos width
  simp only [field?, shiftRight?_of_lt hshift, shiftLeft?_of_lt hwidth hlt, Nat.one_mul,
    sub?_of_le hpos, Option.bind_eq_bind, Option.bind_some, Nat.and_two_pow_sub_one_eq_mod,
    Word.field]

theorem fieldInto?_eq {size : ℕ} (hshift : shift < 64) (hwidth : width < 64)
    (hsize : width ≤ size) :
    fieldInto? size word shift width = some (Word.field word shift width) := by
  have hpow : 2 ^ width ≤ 2 ^ size := Nat.pow_le_pow_right (by decide) hsize
  have hlt := Word.field_lt word shift width
  rw [fieldInto?, field?_eq hshift hwidth, Option.bind_eq_bind, Option.bind_some,
    narrow?_of_lt (Nat.lt_of_lt_of_le hlt hpow)]

lemma signed_bounds (width n : ℕ) :
    -2 ^ width ≤ Word.signed (width + 1) n ∧ Word.signed (width + 1) n < 2 ^ width := by
  have hcast : ((2 ^ (width + 1) : ℕ) : ℤ) = 2 ^ (width + 1) := by norm_cast
  have hdouble : (2 : ℤ) ^ (width + 1) = 2 * 2 ^ width := by rw [Int.pow_succ, Int.mul_comm]
  have hpos : 0 < 2 ^ (width + 1) := Nat.two_pow_pos _
  have hl := Int.le_bmod (x := n) hpos
  have hg := Int.bmod_lt (x := n) hpos
  constructor <;> simp only [Word.signed] <;> omega

/-- The upper half of the patterns means negative numbers. -/
lemma signed_eq {n : ℕ} (h : n < 2 ^ (width + 1)) :
    Word.signed (width + 1) n = if n < 2 ^ width then (n : ℤ) else n - 2 ^ (width + 1) := by
  have hcast : ((2 ^ (width + 1) : ℕ) : ℤ) = 2 ^ (width + 1) := by norm_cast
  have hdouble : 2 ^ (width + 1) = 2 * 2 ^ width := by rw [Nat.pow_succ, Nat.mul_comm]
  have hmod : (n : ℤ) % (2 ^ (width + 1) : ℕ) = n := Int.emod_eq_of_lt (by omega) (by omega)
  rw [Word.signed, Int.bmod_def, hmod, hcast]
  split <;> split <;> omega

/-- At the top of a wider number the same bits mean as many times more. -/
lemma signed_mul_two_pow {n : ℕ} (places : ℕ) (h : n < 2 ^ (width + 1)) :
    Word.signed (width + places + 1) (n * 2 ^ places) =
      Word.signed (width + 1) n * 2 ^ places := by
  have hpos : 0 < 2 ^ places := Nat.two_pow_pos places
  have hwide : n * 2 ^ places < 2 ^ (width + places + 1) := by
    rw [Nat.add_right_comm, Nat.pow_add]
    exact Nat.mul_lt_mul_of_pos_right h hpos
  have hhalf : n * 2 ^ places < 2 ^ (width + places) ↔ n < 2 ^ width := by
    rw [Nat.pow_add]
    exact Nat.mul_lt_mul_right hpos
  rw [signed_eq hwide, signed_eq h]
  simp only [hhalf]
  split
  · norm_cast
  · rw [Int.sub_mul, Nat.add_right_comm, Int.pow_add]
    norm_cast

/-- The number that the lowest bits mean comes back from the top of a word. -/
theorem signExtend?_eq {n : ℕ} (hwidth : 0 < width) (hle : width ≤ 64) (h : n < 2 ^ width) :
    signExtend? n width = some (Word.signed width n) := by
  obtain ⟨width, rfl⟩ := Nat.exists_eq_add_of_le' hwidth
  obtain ⟨places, hsum⟩ : ∃ places, width + places + 1 = 64 := ⟨63 - width, by omega⟩
  have hsub : sub? 64 (width + 1) = some places := by
    rw [sub?_of_le hle]
    congr 1
    omega
  have hplaces : places < 64 := by omega
  have hlt : n * 2 ^ places < 2 ^ 64 := by
    rw [← hsum, Nat.add_right_comm, Nat.pow_add]
    exact Nat.mul_lt_mul_of_pos_right h (Nat.two_pow_pos places)
  have htop := signed_mul_two_pow places h
  have hback : (Word.signed (width + 1) n * 2 ^ places) >>> places =
      Word.signed (width + 1) n := by
    rw [Int.shiftRight_eq_div_pow]
    norm_cast
    exact Int.mul_ediv_cancel _ (by have := Nat.two_pow_pos places; omega)
  rw [hsum] at htop
  simp only [signExtend?, hsub, shiftLeft?_of_lt hplaces hlt, if_pos hplaces, htop, hback,
    Option.bind_eq_bind, Option.bind_some]

end Cartridge.Machine
