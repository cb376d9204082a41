import Mathlib.Algebra.Order.Field.Basic
import Mathlib.Data.Bool.Count
import Mathlib.Tactic.Linarith
import Mathlib.Tactic.Ring

/-!
# Deciding on a running share

Votes are counted one by one. After each of them the share of positive votes so far is compared
with two thresholds, and a crossing overwrites the verdict: at `β` or above the verdict is
positive, else at `1 - β` or below it is negative, and in between it stays. The final verdict
may depend on the order of the votes; this module says exactly when.

## Main definitions

* `RunningShare.share`, `RunningShare.verdict` — the share of a count and what it decides.
* `RunningShare.tally` — the verdict after a list of votes.

## Main results

* `RunningShare.tally_of_verdict` — a count that decides settles the tally of its votes.
* `RunningShare.tally_positive_first`, `RunningShare.tally_negative_first` — if it does not decide,
  the votes that come first win.
* `RunningShare.tally_independent_iff` — when the tally is the same in all orders.
-/

namespace RunningShare

/-- The share of `p` positive votes among `p + n`. -/
def share (p n : ℕ) : ℚ := (p : ℚ) / ((p + n : ℕ) : ℚ)

/-- What a count decides: positive at `β` or above, else negative at `1 - β` or below. -/
def verdict (β : ℚ) (p n : ℕ) : Option Bool :=
  if β ≤ share p n then some true else if share p n ≤ 1 - β then some false else none

/-- The verdict after a list of votes, from `p` positive and `n` negative votes and the verdict
`w` on. -/
def tally (β : ℚ) : (p n : ℕ) → (w : Option Bool) → List Bool → Option Bool
  | _, _, w, [] => w
  | p, n, w, true :: votes => tally β (p + 1) n ((verdict β (p + 1) n).or w) votes
  | p, n, w, false :: votes => tally β p (n + 1) ((verdict β p (n + 1)).or w) votes

variable {β : ℚ}

/-! ## Shares -/

/-- All votes are positive. -/
lemma share_zero_right {p : ℕ} (hp : 0 < p) : share p 0 = 1 := by
  unfold share
  rw [Nat.add_zero]
  exact div_self (Nat.cast_ne_zero.mpr hp.ne')

/-- No vote is positive. -/
lemma share_zero_left (n : ℕ) : share 0 n = 0 := by
  unfold share
  rw [Nat.cast_zero, zero_div]

/-- Shares lie between zero and one. -/
lemma share_mem (p n : ℕ) : 0 ≤ share p n ∧ share p n ≤ 1 := by
  refine ⟨div_nonneg (Nat.cast_nonneg p) (Nat.cast_nonneg _), ?_⟩
  exact div_le_one_of_le₀ (Nat.cast_le.mpr (Nat.le_add_right p n)) (Nat.cast_nonneg _)

/-- Negative votes lower the share. -/
lemma share_add_right_le {p n : ℕ} (h : 0 < p + n) (k : ℕ) : share p (n + k) ≤ share p n := by
  refine div_le_div_of_nonneg_left (Nat.cast_nonneg p) (Nat.cast_pos.mpr h) ?_
  exact Nat.cast_le.mpr (by omega)

/-- Positive votes raise the share. -/
lemma share_le_add_left {p n : ℕ} (h : 0 < p + n) (k : ℕ) : share p n ≤ share (p + k) n := by
  unfold share
  rw [div_le_div_iff₀ (Nat.cast_pos.mpr h) (Nat.cast_pos.mpr (by omega))]
  have hmul : p * (p + k + n) ≤ (p + k) * (p + n) := by
    have hkn : 0 ≤ k * n := Nat.zero_le _
    calc p * (p + k + n) ≤ p * (p + k + n) + k * n := Nat.le_add_right _ _
      _ = (p + k) * (p + n) := by ring
  exact_mod_cast hmul

/-! ## Tallies -/

/-- The votes of a list one after the other. -/
lemma tally_append (p n : ℕ) (w : Option Bool) (l₁ l₂ : List Bool) :
    tally β p n w (l₁ ++ l₂) =
      tally β (p + l₁.count true) (n + l₁.count false) (tally β p n w l₁) l₂ := by
  induction l₁ generalizing p n w with
  | nil => simp [tally]
  | cons vote l₁ ih =>
    cases vote <;>
      simp only [List.cons_append, tally, ih, List.count_cons_self, List.count_cons_of_ne,
        ne_eq, reduceCtorEq, not_false_eq_true, Nat.add_assoc, Nat.add_comm 1]

/-- **A count that decides**: the last vote of a list decides the tally if the count of all
votes does.

**Proof sketch.** Induction along the list; only the comparison after the last vote matters. -/
lemma tally_of_verdict {votes : List Bool} (hne : votes ≠ []) {p n : ℕ} {w : Option Bool}
    {b : Bool} (h : verdict β (p + votes.count true) (n + votes.count false) = some b) :
    tally β p n w votes = some b := by
  induction votes generalizing p n w with
  | nil => exact absurd rfl hne
  | cons vote votes ih =>
    by_cases hvotes : votes = []
    · subst hvotes
      cases vote
      · have h' : verdict β p (n + 1) = some b := by simpa using h
        rw [tally, h', Option.some_or, tally]
      · have h' : verdict β (p + 1) n = some b := by simpa using h
        rw [tally, h', Option.some_or, tally]
    · cases vote
      · rw [tally]
        refine ih hvotes ?_
        simpa [Nat.add_assoc, Nat.add_comm 1] using h
      · rw [tally]
        refine ih hvotes ?_
        simpa [Nat.add_assoc, Nat.add_comm 1] using h

/-- Nothing is decided on the way if no count on the way decides. -/
lemma tally_of_verdict_none {votes : List Bool} {p n : ℕ} {w : Option Bool}
    (h : ∀ p n, verdict β p n = none) : tally β p n w votes = w := by
  induction votes generalizing p n w with
  | nil => rfl
  | cons vote votes ih => cases vote <;> rw [tally, h, Option.none_or, ih]

/-- Negative votes do not overturn a positive verdict while the share stays above `1 - β`. -/
lemma tally_replicate_false {p n : ℕ} (hpos : 0 < p + n) (k : ℕ)
    (h : 1 - β < share p (n + k)) :
    tally β p n (some true) (List.replicate k false) = some true := by
  induction k generalizing n with
  | zero => rfl
  | succ k ih =>
    have hstep : share p (n + 1 + k) ≤ share p (n + 1) := share_add_right_le (by omega) k
    have hshare : 1 - β < share p (n + 1) := by
      rw [show n + 1 + k = n + (k + 1) by omega] at hstep
      exact lt_of_lt_of_le h hstep
    have hverdict : (verdict β p (n + 1)).or (some true) = some true := by
      unfold verdict
      rw [if_neg (not_le.mpr hshare)]
      split_ifs <;> rfl
    rw [List.replicate_succ, tally, hverdict]
    exact ih (by omega) (by rwa [show n + 1 + k = n + (k + 1) by omega])

/-- Positive votes do not overturn a negative verdict while the share stays below `β`. -/
lemma tally_replicate_true {p n : ℕ} (hpos : 0 < p + n) (k : ℕ) (h : share (p + k) n < β) :
    tally β p n (some false) (List.replicate k true) = some false := by
  induction k generalizing p with
  | zero => rfl
  | succ k ih =>
    have hstep : share (p + 1) n ≤ share (p + 1 + k) n := share_le_add_left (by omega) k
    have hshare : share (p + 1) n < β := by
      rw [show p + 1 + k = p + (k + 1) by omega] at hstep
      exact lt_of_le_of_lt hstep h
    have hverdict : (verdict β (p + 1) n).or (some false) = some false := by
      unfold verdict
      rw [if_neg (not_le.mpr hshare)]
      split_ifs <;> rfl
    rw [List.replicate_succ, tally, hverdict]
    exact ih (by omega) (by rwa [show p + 1 + k = p + (k + 1) by omega])

section Undecided

variable {p n : ℕ} (hβ : β ≤ 1) (hlow : 1 - β < share p n) (hhigh : share p n < β)

include hβ hlow in
/-- If the share lies between the thresholds, a positive vote comes first and decides for good
in the order that starts with the positive votes. -/
lemma tally_positive_first :
    tally β 0 0 none (List.replicate p true ++ List.replicate n false) = some true := by
  have hp : 0 < p := by
    refine Nat.pos_of_ne_zero fun hzero => ?_
    rw [hzero, share_zero_left] at hlow
    linarith
  have hfirst : tally β 0 0 none (List.replicate p true) = some true := by
    refine tally_of_verdict (by simpa using hp.ne') ?_
    have hcount : verdict β p 0 = some true := by
      unfold verdict
      rw [share_zero_right hp, if_pos hβ]
    simpa [List.count_replicate] using hcount
  rw [tally_append, hfirst]
  have hrest := tally_replicate_false (β := β) (p := p) (n := 0) (by omega) n
    (by rwa [Nat.zero_add])
  simpa [List.count_replicate] using hrest

include hβ hlow hhigh in
/-- If the share lies between the thresholds, a negative vote comes first and decides for good
in the order that starts with the negative votes. -/
lemma tally_negative_first :
    tally β 0 0 none (List.replicate n false ++ List.replicate p true) = some false := by
  have hn : 0 < n := by
    refine Nat.pos_of_ne_zero fun hzero => ?_
    have hp : 0 < p := by
      refine Nat.pos_of_ne_zero fun hzero => ?_
      rw [hzero, share_zero_left] at hlow
      linarith
    rw [hzero, share_zero_right hp] at hhigh
    linarith
  have hfirst : tally β 0 0 none (List.replicate n false) = some false := by
    refine tally_of_verdict (by simpa using hn.ne') ?_
    have hcount : verdict β 0 n = some false := by
      unfold verdict
      rw [share_zero_left, if_neg (by linarith), if_pos (by linarith)]
    simpa [List.count_replicate] using hcount
  rw [tally_append, hfirst]
  have hrest := tally_replicate_true (β := β) (p := 0) (n := n) (by omega) p
    (by rwa [Nat.zero_add])
  simpa [List.count_replicate] using hrest

end Undecided

/-! ## Independence of the order -/

/-- A threshold above one is out of reach. -/
lemma verdict_of_one_lt (hβ : 1 < β) (p n : ℕ) : verdict β p n = none := by
  obtain ⟨hnonneg, hle⟩ := share_mem p n
  unfold verdict
  rw [if_neg (by linarith), if_neg (by linarith)]

/-- A share that reaches one of the thresholds decides. -/
lemma exists_verdict {p n : ℕ} (h : β ≤ share p n ∨ share p n ≤ 1 - β) :
    ∃ b, verdict β p n = some b := by
  unfold verdict
  split_ifs with hhigh hlow
  · exact ⟨true, rfl⟩
  · exact ⟨false, rfl⟩
  · rcases h with h | h
    · exact absurd h hhigh
    · exact absurd h hlow

/-- If all votes together decide, so does every order of them. -/
lemma tally_of_total {p n : ℕ} {b : Bool} (hzero : p + n ≠ 0) (hb : verdict β p n = some b)
    {l : List Bool} (hp : l.count true = p) (hn : l.count false = n) :
    tally β 0 0 none l = some b := by
  have hverdict : verdict β (0 + l.count true) (0 + l.count false) = some b := by
    rw [Nat.zero_add, Nat.zero_add, hp, hn, hb]
  refine tally_of_verdict (fun hnil => hzero ?_) hverdict
  rw [← hp, ← hn, hnil]
  rfl

/-- **Independence of the order**: all orders of `p` positive and `n` negative votes have the
same tally iff there is no vote, the threshold is out of reach, or the share of all votes
reaches one of the thresholds. -/
theorem tally_independent_iff (β : ℚ) (p n : ℕ) :
    (∀ l₁ l₂ : List Bool, l₁.count true = p → l₁.count false = n → l₂.count true = p →
      l₂.count false = n → tally β 0 0 none l₁ = tally β 0 0 none l₂) ↔
    (p + n = 0 ∨ 1 < β ∨ β ≤ share p n ∨ share p n ≤ 1 - β) := by
  constructor
  · intro h
    by_contra hcond
    simp only [not_or, not_lt, not_le] at hcond
    obtain ⟨-, hβ, hhigh, hlow⟩ := hcond
    have hsame := h (List.replicate p true ++ List.replicate n false)
      (List.replicate n false ++ List.replicate p true) (by simp [List.count_replicate])
      (by simp [List.count_replicate]) (by simp [List.count_replicate])
      (by simp [List.count_replicate])
    rw [tally_positive_first hβ hlow, tally_negative_first hβ hlow hhigh] at hsame
    simp at hsame
  · intro hcond l₁ l₂ hp₁ hn₁ hp₂ hn₂
    by_cases hzero : p + n = 0
    · have hnil : ∀ l : List Bool, l.count true = p → l.count false = n → l = [] := by
        intro l hp hn
        have hlength := List.count_true_add_count_false l
        exact List.eq_nil_of_length_eq_zero (by omega)
      rw [hnil l₁ hp₁ hn₁, hnil l₂ hp₂ hn₂]
    by_cases hβ : 1 < β
    · rw [tally_of_verdict_none (verdict_of_one_lt hβ),
        tally_of_verdict_none (verdict_of_one_lt hβ)]
    obtain ⟨b, hb⟩ := exists_verdict ((hcond.resolve_left hzero).resolve_left hβ)
    rw [tally_of_total hzero hb hp₁ hn₁, tally_of_total hzero hb hp₂ hn₂]

end RunningShare
