import Cartridge.Bytes
import Mathlib.Data.Nat.Notation
import Mathlib.Tactic.Lemma

/-!
# Numbers in byte strings

A number is the value of its digits to the base 256, and of a greater number as
many digits as there is room for are kept. A number is read at an offset exactly
when all its bytes are there.
-/
namespace Cartridge.Bytes

lemma foldl_digits (bytes : Bytes) (n : ℕ) :
    bytes.foldl (fun n b => n * 256 + b.toNat) n = n * 256 ^ bytes.length + toNat bytes := by
  induction bytes generalizing n with
  | nil => simp [toNat]
  | cons b bytes ih =>
    have hfirst := ih b.toNat
    rw [toNat, List.foldl_cons, List.foldl_cons, ih, Nat.zero_mul, Nat.zero_add, hfirst,
      List.length_cons, Nat.pow_succ, Nat.add_mul, Nat.mul_assoc, Nat.mul_comm 256, Nat.add_assoc]

theorem toNat_cons (b : UInt8) (bytes : Bytes) :
    toNat (b :: bytes) = b.toNat * 256 ^ bytes.length + toNat bytes := by
  rw [toNat, List.foldl_cons, Nat.zero_mul, Nat.zero_add, foldl_digits]

lemma ofNat_succ (size n : ℕ) :
    ofNat (size + 1) n = UInt8.ofNat (n / 256 ^ size) :: ofNat size n := by
  simp [ofNat, List.range_succ]

/-- The bytes of a number spell what of it they have room for. -/
theorem toNat_ofNat_mod (size n : ℕ) : toNat (ofNat size n) = n % 256 ^ size := by
  induction size with
  | zero => simp [ofNat, toNat, Nat.mod_one]
  | succ size ih =>
    rw [ofNat_succ, toNat_cons, ih, length_ofNat, Nat.pow_succ, Nat.mod_mul, Nat.add_comm,
      UInt8.toNat_ofNat', Nat.mul_comm]

theorem toNat_ofNat {size n : ℕ} (h : n < 256 ^ size) : toNat (ofNat size n) = n := by
  rw [toNat_ofNat_mod, Nat.mod_eq_of_lt h]

theorem toNat_lt (bytes : Bytes) : toNat bytes < 256 ^ bytes.length := by
  induction bytes with
  | nil => decide
  | cons b bytes ih =>
    have hb : b.toNat + 1 ≤ 256 := b.toNat_lt
    calc toNat (b :: bytes) = b.toNat * 256 ^ bytes.length + toNat bytes := toNat_cons b bytes
      _ < (b.toNat + 1) * 256 ^ bytes.length := by rw [Nat.add_one_mul]; omega
      _ ≤ 256 * 256 ^ bytes.length := Nat.mul_le_mul_right _ hb
      _ = 256 ^ (b :: bytes).length := by rw [List.length_cons, Nat.pow_succ, Nat.mul_comm]

/-- What a number has beyond its bytes is not written. -/
lemma ofNat_mul_add (size m n : ℕ) : ofNat size (m * 256 ^ size + n) = ofNat size n := by
  induction size generalizing m with
  | zero => rfl
  | succ size ih =>
    have hpos : 0 < 256 ^ size := Nat.pow_pos (by decide)
    have hmul : m * 256 ^ (size + 1) = m * 256 * 256 ^ size := by
      rw [Nat.pow_succ, Nat.mul_comm (256 ^ size), Nat.mul_assoc]
    rw [hmul, ofNat_succ, ofNat_succ, ih, Nat.add_comm, Nat.add_mul_div_right n _ hpos]
    congr 1
    apply UInt8.toNat.inj
    rw [UInt8.toNat_ofNat', UInt8.toNat_ofNat', Nat.add_mul_mod_self_right]

theorem ofNat_toNat (bytes : Bytes) : ofNat bytes.length (toNat bytes) = bytes := by
  induction bytes with
  | nil => rfl
  | cons b bytes ih =>
    have hpos : 0 < 256 ^ bytes.length := Nat.pow_pos (by decide)
    have hfirst : (b.toNat * 256 ^ bytes.length + toNat bytes) / 256 ^ bytes.length = b.toNat := by
      rw [Nat.add_comm, Nat.add_mul_div_right _ _ hpos, Nat.div_eq_of_lt (toNat_lt bytes),
        Nat.zero_add]
    rw [List.length_cons, ofNat_succ, toNat_cons, hfirst, ofNat_mul_add, ih, UInt8.ofNat_toNat]

theorem slice?_eq_none_iff {bytes : Bytes} {offset size : ℕ} (h : 0 < size) :
    bytes.slice? offset size = none ↔ bytes.length < offset + size := by
  have hlength : ((bytes.drop offset).take size).length = min size (bytes.length - offset) := by
    rw [List.length_take, List.length_drop]
  simp only [slice?, hlength]
  constructor
  · intro hnone
    split at hnone
    · cases hnone
    · omega
  · intro hlt
    rw [if_neg (by omega)]

theorem slice?_drop (bytes : Bytes) (n offset size : ℕ) :
    slice? (bytes.drop n) offset size = bytes.slice? (n + offset) size := by
  simp only [slice?, List.drop_drop]

theorem u64?_drop (bytes : Bytes) (n offset : ℕ) :
    u64? (bytes.drop n) offset = bytes.u64? (n + offset) := by
  simp only [u64?, slice?_drop]

theorem u64?_eq_none_iff {bytes : Bytes} {offset : ℕ} :
    bytes.u64? offset = none ↔ bytes.length < offset + 8 := by
  rw [u64?, Option.map_eq_none_iff, slice?_eq_none_iff (by decide)]

theorem isSome_u32?_iff {bytes : Bytes} {offset : ℕ} :
    (bytes.u32? offset).isSome ↔ offset + 4 ≤ bytes.length := by
  rw [Option.isSome_iff_ne_none, ne_eq, u32?, Option.map_eq_none_iff,
    slice?_eq_none_iff (by decide), Nat.not_lt]

/-- Places of parts of one size, counted from an offset on or from the next one. -/
lemma add_one_mul_add (offset k size : ℕ) :
    offset + (k + 1) * size = offset + size + k * size := by
  rw [Nat.add_one_mul, Nat.add_assoc, Nat.add_comm (k * size)]

/-- The strings have the same bytes from `start` up to `stop`. -/
def AgreeOn (bytes other : Bytes) (start stop : ℕ) : Prop :=
  ∀ i, start ≤ i → i < stop → other[i]? = bytes[i]?

variable {bytes other : Bytes} {start stop : ℕ}

lemma AgreeOn.mono (h : bytes.AgreeOn other start stop) {start' stop' : ℕ}
    (hstart : start ≤ start') (hstop : stop' ≤ stop) : bytes.AgreeOn other start' stop' :=
  fun i hi hlt => h i (Nat.le_trans hstart hi) (Nat.lt_of_lt_of_le hlt hstop)

/-- A part of the string is the same where all its bytes are. -/
theorem slice?_of_agreeOn {offset size : ℕ} (h : bytes.AgreeOn other offset (offset + size)) :
    other.slice? offset size = bytes.slice? offset size := by
  have hpart : (other.drop offset).take size = (bytes.drop offset).take size := by
    ext1 i
    rw [List.getElem?_take, List.getElem?_take]
    split
    · next hi =>
      rw [List.getElem?_drop, List.getElem?_drop]
      exact h _ (Nat.le_add_right _ _) (Nat.add_lt_add_left hi _)
    · rfl
  rw [slice?, slice?, hpart]

/-- From `start` on the strings are the same when they agree however far one goes. -/
theorem drop_of_agreeOn (h : ∀ stop, bytes.AgreeOn other start stop) :
    other.drop start = bytes.drop start := by
  ext1 i
  rw [List.getElem?_drop, List.getElem?_drop]
  exact h _ _ (Nat.le_add_right _ _) (Nat.lt_succ_self _)

end Cartridge.Bytes
