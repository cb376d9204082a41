import Mathlib.Order.Defs.PartialOrder

/-!
# Records that expire

A store keeps what it was given until it has expired, and forgets some of what has expired. What has
expired stays so, so that the store and the list of all that was ever given agree on what has not.

## Main definitions

* `Expiry.Lifetime` — when values have expired.
* `Expiry.Tracks` — the store holds what was given, except for values that have expired.

## Main results

* `Expiry.Tracks.live_iff` — store and history agree on what has not expired.
* `Expiry.Tracks.forget`, `Expiry.Tracks.give` — the relation is kept when the store forgets what
  has expired, and when something is given to it.
-/

namespace Expiry

/-- When values have expired. What has expired stays so. -/
structure Lifetime (ν τ : Type) [Preorder τ] where
  /-- The value has expired at this time. -/
  Expired : ν → τ → Prop
  mono : ∀ {value time time'}, time ≤ time' → Expired value time → Expired value time'

variable {κ ν τ : Type} [Preorder τ]

/-- What is stored was given, and what was given is stored or has expired. -/
structure Tracks (life : Lifetime ν τ) (given stored : κ → ν → Prop) (clock : τ) : Prop where
  given_of_stored : ∀ {key value}, stored key value → given key value
  stored_or_expired : ∀ {key value}, given key value →
    stored key value ∨ life.Expired value clock

namespace Tracks

variable {life : Lifetime ν τ} {given given' stored stored' : κ → ν → Prop} {clock time : τ}

/-- **Store and history agree** on what has not expired. -/
theorem live_iff (h : Tracks life given stored clock) (htime : clock ≤ time) {key : κ} {value : ν} :
    stored key value ∧ ¬ life.Expired value time ↔ given key value ∧ ¬ life.Expired value time := by
  constructor
  · rintro ⟨hstored, hlive⟩
    exact ⟨h.given_of_stored hstored, hlive⟩
  · rintro ⟨hgiven, hlive⟩
    rcases h.stored_or_expired hgiven with hstored | hexpired
    · exact ⟨hstored, hlive⟩
    · exact absurd (life.mono htime hexpired) hlive

/-- The store may forget what has expired. -/
lemma forget (h : Tracks life given stored clock) (htime : clock ≤ time)
    (hsub : ∀ {key value}, stored' key value → stored key value)
    (hdrop : ∀ {key value}, stored key value → stored' key value ∨ life.Expired value time) :
    Tracks life given stored' time where
  given_of_stored hstored := h.given_of_stored (hsub hstored)
  stored_or_expired hgiven := by
    rcases h.stored_or_expired hgiven with hstored | hexpired
    · exact hdrop hstored
    · exact Or.inr (life.mono htime hexpired)

/-- Something is given to the store. -/
lemma give (h : Tracks life given stored clock) {new : κ → ν → Prop}
    (hgiven : ∀ {key value}, given' key value ↔ given key value ∨ new key value)
    (hstored : ∀ {key value}, stored' key value ↔ stored key value ∨ new key value) :
    Tracks life given' stored' clock where
  given_of_stored hkey := by
    rw [hgiven]
    exact (hstored.mp hkey).imp_left h.given_of_stored
  stored_or_expired hkey := by
    rw [hstored]
    rcases hgiven.mp hkey with hold | hnew
    · exact (h.stored_or_expired hold).imp_left Or.inl
    · exact Or.inl (Or.inr hnew)

end Tracks

end Expiry
