import Mathlib.Data.Rat.Floor

/-!
# Rounded shares of a total

A total is split by percentages and every share is rounded to the nearest integer on its own. The
shares add up to at most the total exactly when what rounding takes away covers the excess of the
percentages over one. Each share loses at most a half, so the number of shares bounds how far
rounding can matter.

## Main definitions

* `RoundedShares.roundHalfAway` — the nearest integer, halves rounded away from zero.
* `RoundedShares.loss` — what rounding takes away.
* `RoundedShares.paid` — the sum of the rounded shares.

## Main results

* `RoundedShares.paid_le_iff` — when the shares add up to at most the total.
* `RoundedShares.abs_totalLoss_le` — rounding takes at most a half for each share.
* `RoundedShares.paid_le_cap_iff` — when they add up to at most a part of the total and some units.
-/

namespace RoundedShares

/-- The nearest integer of a number that is not negative; halves are rounded away from zero. -/
def roundHalfAway (x : ℚ) : ℕ := ⌊x + 1 / 2⌋₊

/-- What rounding takes away; negative where it adds. -/
def loss (x : ℚ) : ℚ := x - roundHalfAway x

/-- The sum of the rounded shares of a total. -/
def paid (total : ℚ) (percentages : List ℚ) : ℕ :=
  (percentages.map fun p => roundHalfAway (total * p)).sum

/-- What rounding takes away from all shares. -/
def totalLoss (total : ℚ) (percentages : List ℚ) : ℚ :=
  (percentages.map fun p => loss (total * p)).sum

variable {total x cap : ℚ} {percentages : List ℚ}

/-- Rounding loses at most a half. -/
lemma abs_loss_le (hx : 0 ≤ x) : |loss x| ≤ 1 / 2 := by
  have hpos : 0 ≤ x + 1 / 2 := by linarith
  have hle : (roundHalfAway x : ℚ) ≤ x + 1 / 2 := Nat.floor_le hpos
  have hlt : x + 1 / 2 < roundHalfAway x + 1 := Nat.lt_floor_add_one _
  rw [loss, abs_le]
  constructor
  · linarith
  · linarith

/-- A share of at most everything is rounded to at most the total. -/
lemma roundHalfAway_le {n : ℕ} (hx : x ≤ n) : roundHalfAway x ≤ n := by
  refine Nat.lt_succ_iff.mp ((Nat.floor_lt' (Nat.succ_ne_zero n)).mpr ?_)
  push_cast
  linarith

/-- The exact shares are the rounded ones and what rounding takes away. -/
lemma paid_add_totalLoss (total : ℚ) (percentages : List ℚ) :
    (paid total percentages : ℚ) + totalLoss total percentages = total * percentages.sum := by
  induction percentages with
  | nil => simp [paid, totalLoss]
  | cons p ps ih =>
    have hp : (roundHalfAway (total * p) : ℚ) + loss (total * p) = total * p := by
      rw [loss]
      ring
    have hpaid : (paid total (p :: ps) : ℚ) = roundHalfAway (total * p) + paid total ps := by
      simp [paid]
    have hloss : totalLoss total (p :: ps) = loss (total * p) + totalLoss total ps := by
      simp [totalLoss]
    rw [hpaid, hloss, List.sum_cons, mul_add]
    linarith

/-- The shares add up to at most the total iff rounding takes away the excess of the percentages
over one. -/
theorem paid_le_iff :
    (paid total percentages : ℚ) ≤ total ↔
      total * (percentages.sum - 1) ≤ totalLoss total percentages := by
  have h := paid_add_totalLoss total percentages
  rw [mul_sub, mul_one]
  constructor
  · intro hle
    linarith
  · intro hle
    linarith

/-- All shares together lose at most a half each. -/
lemma abs_totalLoss_le (htotal : 0 ≤ total) (h : ∀ p ∈ percentages, 0 ≤ p) :
    |totalLoss total percentages| ≤ percentages.length / 2 := by
  induction percentages with
  | nil => simp [totalLoss]
  | cons p ps ih =>
    rw [List.forall_mem_cons] at h
    have hp := abs_loss_le (mul_nonneg htotal h.1)
    have hps := ih h.2
    have hsum : totalLoss total (p :: ps) = loss (total * p) + totalLoss total ps := by
      simp [totalLoss]
    have hadd := abs_add_le (loss (total * p)) (totalLoss total ps)
    rw [hsum, List.length_cons]
    push_cast
    linarith

/-- The shares add up to at most a part of the total and some units iff rounding and the units cover
the excess of the percentages over that part. -/
theorem paid_le_cap_iff (units : ℚ) :
    (paid total percentages : ℚ) ≤ cap * total + units ↔
      total * (percentages.sum - cap) ≤ totalLoss total percentages + units := by
  have h := paid_add_totalLoss total percentages
  rw [mul_sub, mul_comm total cap]
  constructor
  · intro hle
    linarith
  · intro hle
    linarith

/-- Percentages that add up to at most the part never pay more than it and a unit each. -/
lemma excess_le_of_sum_le (htotal : 0 ≤ total) (h : ∀ p ∈ percentages, 0 ≤ p)
    (hsum : percentages.sum ≤ cap) :
    total * (percentages.sum - cap) ≤ totalLoss total percentages + percentages.length := by
  have hloss := (abs_le.mp (abs_totalLoss_le htotal h)).1
  have hexcess : total * (percentages.sum - cap) ≤ 0 :=
    mul_nonpos_of_nonneg_of_nonpos htotal (sub_nonpos.mpr hsum)
  have hlength : (0 : ℚ) ≤ percentages.length := Nat.cast_nonneg _
  linarith

end RoundedShares
