import Mathlib.Analysis.Complex.Exponential
import Mathlib.Tactic.Positivity

/-!
# Saturation

The share that an exponential saturation has reached, and a value that lies between two bounds by a
share.

## Main definitions

* `Saturation.reached` — the share `1 - exp (-x)`.
* `Saturation.between` — the value that lies between two bounds by a share.

## Main results

* `Saturation.reached_nonneg`, `Saturation.reached_lt_one`, `Saturation.reached_strictMono`.
* `Saturation.between_mem`, `Saturation.between_mono`, `Saturation.between_inj`.
-/

namespace Saturation

/-- The share that is reached, from zero towards one. -/
noncomputable def reached (x : ℝ) : ℝ := 1 - Real.exp (-x)

/-- The value between two bounds by a share of their difference. -/
def between (low high share : ℝ) : ℝ := low + (high - low) * share

variable {x y low high share share' : ℝ}

/-- A larger argument reaches more. -/
lemma reached_strictMono : StrictMono reached := fun x y h => by
  unfold reached
  have hexp : Real.exp (-y) < Real.exp (-x) := Real.exp_lt_exp.mpr (neg_lt_neg h)
  linarith

/-- At the start nothing is reached. -/
@[simp] lemma reached_zero : reached 0 = 0 := by
  rw [reached, neg_zero, Real.exp_zero, sub_self]

/-- The share is not negative. -/
lemma reached_nonneg (h : 0 ≤ x) : 0 ≤ reached x := by
  rw [← reached_zero]
  exact reached_strictMono.monotone h

/-- It is never one. -/
lemma reached_lt_one (x : ℝ) : reached x < 1 := by
  unfold reached
  have hexp : 0 < Real.exp (-x) := Real.exp_pos _
  linarith

/-- Nothing is reached only at the start. -/
lemma reached_eq_zero_iff : reached x = 0 ↔ x = 0 := by
  have h := reached_strictMono.injective.eq_iff (a := x) (b := 0)
  rwa [reached_zero] at h

/-- A product of shares is a share. -/
lemma mul_share (hx : 0 ≤ x ∧ x < 1) (hy : 0 ≤ y ∧ y ≤ 1) : 0 ≤ x * y ∧ x * y < 1 :=
  ⟨mul_nonneg hx.1 hy.1, lt_of_le_of_lt (mul_le_of_le_one_right hx.1 hy.2) hx.2⟩

/-- A share of less than one lies below the upper bound. -/
lemma between_mem (h : low < high) (hshare : 0 ≤ share ∧ share < 1) :
    low ≤ between low high share ∧ between low high share < high := by
  have hdiff : 0 < high - low := sub_pos.mpr h
  have hlow : 0 ≤ (high - low) * share := mul_nonneg hdiff.le hshare.1
  have hhigh : (high - low) * share < high - low := mul_lt_of_lt_one_right hdiff hshare.2
  unfold between
  constructor
  · linarith
  · linarith

/-- A larger share lies higher. -/
lemma between_mono (h : low < high) (hle : share ≤ share') :
    between low high share ≤ between low high share' := by
  have hdiff : (high - low) * share ≤ (high - low) * share' :=
    mul_le_mul_of_nonneg_left hle (sub_pos.mpr h).le
  unfold between
  linarith

/-- Different shares lie at different values. -/
lemma between_inj (h : low < high) : between low high share = between low high share' ↔
    share = share' := by
  unfold between
  rw [add_right_inj, mul_right_inj' (sub_pos.mpr h).ne']

end Saturation
