import Cartridge.Config.Tree
import Cartridge.Proofs.Text.Numeral

/-!
# Numbers in configurations

A number of a configuration is an integer or a text with a numeral, which is hexadecimal behind
`0x` and decimal otherwise. It is read exactly when it is below 2^32; the value of any other kind
and the number that is too great are bad values, and a key that leads nowhere is missing.
-/
namespace Cartridge.Config

open Numeral (SpellsSigned readNumeralWithin?)

namespace Value

/-- A value denotes a number of any size. -/
inductive Denotes : Value → ℕ → Prop
  | integer (n : ℕ) : Denotes (.integer n) n
  | hexadecimal {text : String} {digits : List Char} {n : ℕ}
      (text_eq : text.toList = ['0', 'x'] ++ digits) (spells : SpellsSigned 16 digits n) :
      Denotes (.string text) n
  | decimal {text : String} {n : ℕ} (no_marker : ¬ ['0', 'x'] <+: text.toList)
      (spells : SpellsSigned 10 text.toList n) : Denotes (.string text) n

/-- The number of a value, where no number on the way may need more than 32 bits. -/
def numberInWords? : Value → Option ℕ
  | string text =>
    match text.toList with
    | '0' :: 'x' :: digits => readNumeralWithin? 16 (2 ^ 32) digits
    | digits => readNumeralWithin? 10 (2 ^ 32) digits
  | v => v.u32?

section Texts

variable {text : String} {digits : List Char} {n : ℕ}

lemma denotes_hexadecimal_iff (h : text.toList = ['0', 'x'] ++ digits) :
    (string text).Denotes n ↔ SpellsSigned 16 digits n := by
  constructor
  · intro hdenotes
    cases hdenotes with
    | hexadecimal text_eq spells =>
      rw [h, List.append_cancel_left_eq] at text_eq
      rwa [text_eq]
    | decimal no_marker spells => exact absurd ⟨digits, h.symm⟩ no_marker
  · exact .hexadecimal h

lemma denotes_decimal_iff (h : ¬ ['0', 'x'] <+: text.toList) :
    (string text).Denotes n ↔ SpellsSigned 10 text.toList n := by
  constructor
  · intro hdenotes
    cases hdenotes with
    | hexadecimal text_eq spells => exact absurd ⟨_, text_eq.symm⟩ h
    | decimal no_marker spells => exact spells
  · exact .decimal h

lemma number?_hexadecimal (h : text.toList = ['0', 'x'] ++ digits) :
    (string text).number? = Numeral.readBelow? 16 (2 ^ 32) digits := by
  simp [number?, h]

lemma number?_decimal (h : ¬ ['0', 'x'] <+: text.toList) :
    (string text).number? = Numeral.readBelow? 10 (2 ^ 32) text.toList := by
  simp only [number?]
  split
  · next digits htext => exact absurd ⟨digits, htext.symm⟩ h
  · rfl

/-- A text is a number when it has a numeral of a number below 2^32 in its base. -/
lemma number?_string_eq_some_iff :
    (string text).number? = some n ↔ (string text).Denotes n ∧ n < 2 ^ 32 := by
  by_cases hmarker : ['0', 'x'] <+: text.toList
  · obtain ⟨digits, hdigits⟩ := hmarker
    rw [number?_hexadecimal hdigits.symm, Numeral.readBelow?_eq_some_iff (by decide),
      denotes_hexadecimal_iff hdigits.symm]
  · rw [number?_decimal hmarker, Numeral.readBelow?_eq_some_iff (by decide),
      denotes_decimal_iff hmarker]

end Texts

lemma number?_integer_eq_some_iff {i : ℤ} {n : ℕ} :
    (integer i).number? = some n ↔ (integer i).Denotes n ∧ n < 2 ^ 32 := by
  have hdenotes : (integer i).Denotes n ↔ i = n := by
    constructor
    · intro h
      cases h
      rfl
    · rintro rfl
      exact .integer n
  simp only [hdenotes, number?, u32?]
  split
  · simp only [Option.some.injEq]
    omega
  · simp only [reduceCtorEq, false_iff, not_and, not_lt]
    omega

/-- A value is read as the number below 2^32 that it denotes. -/
theorem number?_eq_some_iff {v : Value} {n : ℕ} :
    v.number? = some n ↔ v.Denotes n ∧ n < 2 ^ 32 := by
  have hother (hnone : v.number? = none) (hnot : ¬ v.Denotes n) :
      v.number? = some n ↔ v.Denotes n ∧ n < 2 ^ 32 := by
    simp [hnone, hnot]
  cases v with
  | string text => exact number?_string_eq_some_iff
  | integer i => exact number?_integer_eq_some_iff
  | float _ | boolean _ | datetime _ | array _ | table _ => exact hother rfl nofun

theorem number?_eq_none_iff {v : Value} :
    v.number? = none ↔ ∀ n, v.Denotes n → 2 ^ 32 ≤ n := by
  simp only [Option.eq_none_iff_forall_ne_some, ne_eq, number?_eq_some_iff, not_and, not_lt]

/-- The greatest number, behind a plus sign and zeros; the next one; and a marker in upper case. -/
example : (string "0x+000000000ffFFffFF").number? = some 0xFFFFFFFF ∧
    (string "4294967296").number? = none ∧ (string "0X10").number? = none := by cbv

/-- Words of 32 bits have room for every number on the way to one that is read. -/
theorem numberInWords?_eq (v : Value) : v.numberInWords? = v.number? := by
  cases v with
  | string text =>
    have hread (base : ℕ) (hpos : 0 < base) :
        readNumeralWithin? base (2 ^ 32) = Numeral.readBelow? base (2 ^ 32) :=
      funext (Numeral.readNumeralWithin?_eq hpos (by decide))
    simp only [numberInWords?, hread 16 (by decide), hread 10 (by decide)]
    rfl
  | _ => rfl

end Value

lemma number_eq_ok_iff {tree : Tree} {path : List String} {n : ℕ} :
    tree.number path = .ok n ↔ ∃ v, tree.get? path = some v ∧ v.number? = some n := by
  unfold Tree.number
  cases hget : tree.get? path with
  | none => simp
  | some v => cases hnumber : v.number? <;> simp [hnumber]

lemma number_eq_error_iff {tree : Tree} {path : List String} {e : Error} :
    tree.number path = .error e ↔
      tree.get? path = none ∧ e = .missingKey (".".intercalate path) ∨
      ∃ v, tree.get? path = some v ∧ v.number? = none ∧
        e = .badValue (".".intercalate path) v.renderAlone := by
  unfold Tree.number
  cases hget : tree.get? path with
  | none => simp [eq_comm]
  | some v => cases hnumber : v.number? <;> simp [hnumber, eq_comm]

/-- The number that keys lead to is read exactly when they lead to a value that denotes one below
2^32, and words of 32 bits are enough for that. Keys that lead nowhere are missing, and every other
value is a bad one. -/
theorem number_exact (tree : Tree) (path : List String) :
    (∀ n, tree.number path = .ok n ↔
      ∃ v, tree.get? path = some v ∧ v.Denotes n ∧ n < 2 ^ 32) ∧
    (∀ e, tree.number path = .error e ↔
      tree.get? path = none ∧ e = .missingKey (".".intercalate path) ∨
      ∃ v, tree.get? path = some v ∧ (∀ n, v.Denotes n → 2 ^ 32 ≤ n) ∧
        e = .badValue (".".intercalate path) v.renderAlone) ∧
    ∀ v : Value, v.numberInWords? = v.number? := by
  refine ⟨fun n => ?_, fun e => ?_, Value.numberInWords?_eq⟩
  · simp only [number_eq_ok_iff, Value.number?_eq_some_iff]
  · simp only [number_eq_error_iff, Value.number?_eq_none_iff]

end Cartridge.Config
