import Mathlib.Data.Nat.Notation
import Mathlib.Logic.Function.Defs
import Mathlib.Tactic.Lemma

/-!
# Results of steps in turn

One step after another succeeds when both do, and fails with the first error.
-/
namespace Cartridge

variable {ε α β : Type}

lemma bind_eq_ok {x : Except ε α} {f : α → Except ε β} {b : β} :
    (x >>= f) = .ok b ↔ ∃ a, x = .ok a ∧ f a = .ok b := by
  cases x with
  | error e => simp [bind, Except.bind]
  | ok a => simp [bind, Except.bind]

lemma bind_eq_error {x : Except ε α} {f : α → Except ε β} {e : ε} :
    (x >>= f) = .error e ↔ x = .error e ∨ ∃ a, x = .ok a ∧ f a = .error e := by
  cases x with
  | error e => simp [bind, Except.bind]
  | ok a => simp [bind, Except.bind]

lemma map_eq_ok {x : Except ε α} {f : α → β} {b : β} :
    x.map f = .ok b ↔ ∃ a, x = .ok a ∧ f a = b := by
  cases x with
  | error e => simp [Except.map]
  | ok a => simp [Except.map]

lemma map_eq_ok_iff {x : Except ε α} {f : α → β} (hf : Function.Injective f) {a : α} :
    x.map f = .ok (f a) ↔ x = .ok a := by
  rw [map_eq_ok]
  constructor
  · rintro ⟨b, hb, h⟩
    rw [hb, hf h]
  · intro h
    exact ⟨a, h, rfl⟩

lemma mapError_eq_ok {ε' : Type} {x : Except ε α} {f : ε → ε'} {a : α} :
    x.mapError f = .ok a ↔ x = .ok a := by
  cases x with
  | error e => constructor <;> intro h <;> cases h
  | ok b => constructor <;> intro h <;> cases h <;> rfl

/-- A result that is a value with one property or an error with another. -/
inductive Settles (Q : α → Prop) (P : ε → Prop) : Except ε α → Prop
  | ok {a : α} (h : Q a) : Settles Q P (.ok a)
  | error {e : ε} (h : P e) : Settles Q P (.error e)

namespace Settles

variable {Q Q' : α → Prop} {R : β → Prop} {P P' : ε → Prop} {x : Except ε α}

lemma of_eq_ok {a : α} (h : Settles Q P x) (hx : x = .ok a) : Q a := by
  subst hx
  cases h with
  | ok ha => exact ha

lemma of_eq_error {e : ε} (h : Settles Q P x) (hx : x = .error e) : P e := by
  subst hx
  cases h with
  | error he => exact he

/-- A step that needs no more than what the step before it settles. -/
lemma bind {f : α → Except ε β} (h : Settles Q P x) (hnext : ∀ a, Q a → Settles R P (f a)) :
    Settles R P (x >>= f) := by
  cases h with
  | ok ha => exact hnext _ ha
  | error he => exact .error he

lemma map {f : α → β} (h : Settles Q P x) (hf : ∀ a, Q a → R (f a)) :
    Settles R P (x.map f) := by
  cases h with
  | ok ha => exact .ok (hf _ ha)
  | error he => exact .error he

lemma mono (h : Settles Q P x) (hok : ∀ a, Q a → Q' a) (herror : ∀ e, P e → P' e) :
    Settles Q' P' x := by
  cases h with
  | ok ha => exact .ok (hok _ ha)
  | error he => exact .error (herror _ he)

lemma mono_error (h : Settles Q P x) (herror : ∀ e, P e → P' e) : Settles Q P' x :=
  h.mono (fun _ => id) herror

/-- What is no error of the kind that may come is not the error that comes. -/
lemma ne_error {e : ε} (h : Settles Q P x) (he : ¬ P e) : x ≠ .error e :=
  fun hx => he (h.of_eq_error hx)

end Settles

end Cartridge
