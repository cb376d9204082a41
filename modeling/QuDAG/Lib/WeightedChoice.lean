import Mathlib.Tactic.Linarith
import Mathlib.Tactic.Positivity

/-!
# Weighted choice

A choice among weights by a target: the first position at which the running sum of the weights
reaches the target. A target that is not above the whole sum always chooses, and with positive
weights every position is chosen by some target.

## Main definitions

* `WeightedChoice.total` — the sum of the weights, on top of a sum so far.
* `WeightedChoice.pick` — the position that a target chooses.

## Main results

* `WeightedChoice.exists_pick_of_le` — a target within the whole sum chooses.
* `WeightedChoice.exists_target` — every position can be chosen.
-/

namespace WeightedChoice

variable {F : Type} [Field F] [LinearOrder F]

/-- The sum of the weights, on top of a sum so far. -/
def total (sum : F) (weights : List F) : F := weights.foldl (fun a b => a + b) sum

/-- The first position at which the running sum reaches the target. -/
def pick (target : F) : F → List F → Option ℕ
  | _, [] => none
  | sum, w :: weights =>
    if target ≤ sum + w then some 0 else (pick target (sum + w) weights).map fun i => i + 1

variable {target sum : F} {weights : List F}

/-- What is chosen is a position. -/
lemma lt_of_pick {i : ℕ} : ∀ {sum : F} {weights : List F}, pick target sum weights = some i →
    i < weights.length := by
  induction i with
  | zero =>
    rintro sum (_ | ⟨w, weights⟩) h
    · cases h
    · exact Nat.succ_pos _
  | succ i ih =>
    rintro sum (_ | ⟨w, weights⟩) h
    · cases h
    · rw [pick] at h
      split_ifs at h
      · cases h
      · obtain ⟨j, hj, hji⟩ := Option.map_eq_some_iff.mp h
        obtain rfl := Nat.succ.inj hji
        exact Nat.succ_lt_succ (ih hj)

/-- **A target within the whole sum chooses** among some weights. -/
lemma exists_pick_of_le : ∀ {sum : F} {weights : List F}, weights ≠ [] →
    target ≤ total sum weights → ∃ i, pick target sum weights = some i
  | _, [], h, _ => absurd rfl h
  | sum, w :: weights, _, hle => by
    rw [pick]
    split_ifs with hreached
    · exact ⟨0, rfl⟩
    · have hmore : weights ≠ [] := by
        rintro rfl
        exact hreached hle
      obtain ⟨i, hi⟩ := exists_pick_of_le hmore hle
      exact ⟨i + 1, by rw [hi, Option.map_some]⟩

variable [IsStrictOrderedRing F]

/-- Weights that are not negative do not lower the sum. -/
lemma le_total : ∀ {sum : F} {weights : List F}, (∀ w ∈ weights, 0 ≤ w) → sum ≤ total sum weights
  | sum, [], _ => le_refl sum
  | sum, w :: weights, h => by
    rw [List.forall_mem_cons] at h
    have hrest : sum + w ≤ total (sum + w) weights := le_total h.2
    exact le_trans (le_add_of_nonneg_right h.1) hrest

/-- **Every position can be chosen** among positive weights, by a target above the sum so far and
below the whole sum. -/
lemma exists_target : ∀ {i : ℕ} {sum : F} {weights : List F}, (∀ w ∈ weights, 0 < w) →
    i < weights.length → ∃ target, sum < target ∧ target < total sum weights ∧
      pick target sum weights = some i
  | _, _, [], _, hi => absurd hi (Nat.not_lt_zero _)
  | 0, sum, w :: weights, h, _ => by
    rw [List.forall_mem_cons] at h
    have hrest : sum + w ≤ total (sum + w) weights := le_total fun v hv => (h.2 v hv).le
    have hhalf : w / 2 < w := half_lt_self h.1
    refine ⟨sum + w / 2, lt_add_of_pos_right sum (half_pos h.1), ?_, ?_⟩
    · exact lt_of_lt_of_le (by linarith) hrest
    · rw [pick, if_pos (by linarith)]
  | i + 1, sum, w :: weights, h, hi => by
    rw [List.forall_mem_cons] at h
    obtain ⟨target, hlow, hhigh, hpick⟩ :=
      @exists_target i (sum + w) weights h.2 (Nat.lt_of_succ_lt_succ hi)
    refine ⟨target, lt_trans (lt_add_of_pos_right sum h.1) hlow, hhigh, ?_⟩
    rw [pick, if_neg (not_le.mpr hlow), hpick, Option.map_some]

end WeightedChoice
