import Mathlib.Data.Fintype.Card
import Mathlib.Tactic.Ring

/-!
# Arithmetic that notes overflows

A computation on machine integers has a value, which wraps around, and it is noted whether an
operation has overflowed. If none has, the value is the one of every way to compile the computation.

## Main definitions

* `Noted` — a value, and whether an operation has overflowed.
* `Noted.all` — the entries of an array, one after the other.
* `Noted.signed` — the result of an operation on signed integers of some number of bits.

## Main results

* `Noted.signed_eq_pure` — a result that fits does not overflow.
-/

/-- A value, and whether an operation on the way has overflowed. -/
@[ext]
structure Noted (α : Type) where
  value : α
  overflowed : Bool

namespace Noted

variable {α β : Type} {n : ℕ}

instance instMonad : Monad Noted where
  pure a := ⟨a, false⟩
  bind m f := ⟨(f m.value).value, m.overflowed || (f m.value).overflowed⟩

instance instLawfulMonad : LawfulMonad Noted :=
  LawfulMonad.mk' Noted
    (fun m => Noted.ext rfl (Bool.or_false _))
    (fun _ _ => rfl)
    (fun _ _ _ => Noted.ext rfl (Bool.or_assoc _ _ _))

/-- Compute the entries of an array. -/
def all (f : Fin n → Noted α) : Noted (Fin n → α) :=
  ⟨fun k => (f k).value, decide (∃ k, (f k).overflowed = true)⟩

/-- Entries without an overflow are an array without one. -/
lemma all_eq_pure {f : Fin n → Noted α} {g : Fin n → α} (h : ∀ k, f k = pure (g k)) :
    all f = pure g := by
  refine Noted.ext (funext fun k => congrArg value (h k)) (decide_eq_false ?_)
  rintro ⟨k, hk⟩
  rw [h k] at hk
  cases hk

/-- The result of an operation on signed integers: it wraps around, and it is noted whether it did
not fit. -/
def signed (bits : ℕ) (x : ℤ) : Noted ℤ :=
  ⟨x.bmod (2 ^ bits), !decide (-2 ^ (bits - 1) ≤ x ∧ x < 2 ^ (bits - 1))⟩

/-- A result that fits does not overflow. -/
lemma signed_eq_pure {bits : ℕ} (hbits : bits ≠ 0) {x : ℤ} (hlow : -2 ^ (bits - 1) ≤ x)
    (hhigh : x < 2 ^ (bits - 1)) : signed bits x = pure x := by
  obtain ⟨b, rfl⟩ := Nat.exists_eq_succ_of_ne_zero hbits
  rw [Nat.succ_sub_one] at hlow hhigh
  have hcast : ((2 ^ (b + 1) : ℕ) : ℤ) = 2 ^ b * 2 := by rw [Nat.cast_pow, pow_succ]; rfl
  have hwrap : x.bmod (2 ^ (b + 1)) = x :=
    Int.bmod_eq_of_le_mul_two (by rw [hcast]; omega) (by rw [hcast]; omega)
  refine Noted.ext hwrap ?_
  show (!decide (-2 ^ b ≤ x ∧ x < 2 ^ b)) = false
  rw [decide_eq_true ⟨hlow, hhigh⟩, Bool.not_true]

end Noted
