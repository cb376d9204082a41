import Mathlib.Algebra.Ring.Nat

/-!
# Outcomes of fallible code

Code that may return an error, and may also stop the program: a checked arithmetic operation
that overflows, an index out of bounds.

## Main definitions

* `Outcome` — a value, an error or a panic.
* `RustStd.addU64` — 64-bit addition in a build with or without overflow checks.

## Main results

* `RustStd.bind_eq_ok` — when a sequence of fallible parts succeeds.
* `RustStd.addU64_cases` — a sum is exact, or it panics where overflow is checked.
-/

/-- What a fallible computation ends with. -/
inductive Outcome (ε α : Type)
  | ok (a : α)
  | err (e : ε)
  | panic
  deriving DecidableEq, Repr

namespace RustStd

section Except

variable {ε ε' α β : Type}

/-- A sequence succeeds iff its parts do. -/
lemma bind_eq_ok {r : Except ε α} {k : α → Except ε β} {b : β} :
    r >>= k = .ok b ↔ ∃ a, r = .ok a ∧ k a = .ok b := by
  cases r with
  | error e => exact ⟨nofun, fun ⟨_, h, _⟩ => nomatch h⟩
  | ok a => exact ⟨fun h => ⟨a, rfl, h⟩, fun ⟨_, ha, h⟩ => Except.ok.inj ha ▸ h⟩

/-- Changing the error changes no success. -/
lemma mapError_eq_ok {r : Except ε α} {f : ε → ε'} {a : α} :
    r.mapError f = .ok a ↔ r = .ok a := by
  cases r with
  | error e => exact ⟨nofun, nofun⟩
  | ok a' => exact ⟨fun h => congrArg Except.ok (Except.ok.inj h), fun h => by rw [h]; rfl⟩

/-- Changing the value changes no error. -/
lemma map_eq_ok {r : Except ε α} {f : α → β} {b : β} :
    r.map f = .ok b ↔ ∃ a, r = .ok a ∧ f a = b := by
  cases r with
  | error e => simp [Except.map]
  | ok a => simp [Except.map]

/-- Whether a value that is reached has a property can be told. -/
instance instDecidableForallOk (r : Except ε α) (P : α → Prop) [DecidablePred P] :
    Decidable (∀ a, r = .ok a → P a) :=
  match r with
  | .ok a => decidable_of_iff (P a) (by simp)
  | .error _ => isTrue (by simp)

end Except

/-- Addition of 64-bit numbers. If the sum does not fit, a build with overflow checks panics, and
one without them returns what is left of the sum. -/
def addU64 (checks : Bool) (a b : UInt64) : Option UInt64 :=
  if checks = true ∧ 2 ^ 64 ≤ a.toNat + b.toNat then none else some (a + b)

/-- A sum that fits is exact in every build; a build with checks panics on one that does not. -/
lemma addU64_cases (a b : UInt64) :
    (a.toNat + b.toNat < 2 ^ 64 ∧
      ∃ c, (∀ checks, addU64 checks a b = some c) ∧ c.toNat = a.toNat + b.toNat) ∨
    ¬ a.toNat + b.toNat < 2 ^ 64 ∧ addU64 true a b = none := by
  unfold addU64
  rcases Nat.lt_or_ge (a.toNat + b.toNat) (2 ^ 64) with hlt | hge
  · refine .inl ⟨hlt, a + b, fun _ => if_neg fun h => absurd h.2 (Nat.not_le.mpr hlt), ?_⟩
    rw [UInt64.toNat_add]
    exact Nat.mod_eq_of_lt hlt
  · exact .inr ⟨Nat.not_lt.mpr hge, if_pos ⟨rfl, hge⟩⟩

end RustStd
