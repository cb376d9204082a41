import Mathlib.Data.Nat.Init

/-!
# Loops with a decreasing measure

A `while` loop is given by its body, a function from the loop state to either the next state or
the value the loop ends with. With a measure that every continuing iteration lowers, the loop is
a total function, defined by recursion on that measure. A counted loop needs no measure.

## Main definitions

* `Loop.whileLoop` — run the body until it ends.
* `Loop.forLoop` — run the body a given number of times, or until it ends.

## Main results

* `Loop.whileLoop_of_inl`, `Loop.whileLoop_of_inr` — the loop is one iteration, followed by the loop
  if the body continues.
* `Loop.whileLoop_rule` — the invariant rule: what every iteration preserves and what every ending
  iteration establishes from it holds of the result.
* `Loop.forLoop_rule` — the invariant rule of counted loops.
-/

namespace Loop

variable {σ ρ : Type}

/-! ## While loops -/

section While

variable (body : σ → σ ⊕ ρ) (μ : σ → ℕ)

/-- Run at most `n` iterations, where the measure promises that `n` are enough. -/
def go (hμ : ∀ s s', body s = .inl s' → μ s' < μ s) : (n : ℕ) → (s : σ) → μ s < n → ρ
  | 0, _, h => absurd h (Nat.not_lt_zero _)
  | n + 1, s, h =>
    match hs : body s with
    | .inl s' => go hμ n s' (Nat.lt_of_lt_of_le (hμ s s' hs) (Nat.le_of_lt_succ h))
    | .inr r => r

/-- Run the body until it ends. -/
def whileLoop (hμ : ∀ s s', body s = .inl s' → μ s' < μ s) (s : σ) : ρ :=
  go body μ hμ (μ s + 1) s (Nat.lt_succ_self _)

variable {body μ} (hμ : ∀ s s', body s = .inl s' → μ s' < μ s)

/-- The number of iterations granted does not matter. -/
lemma go_eq_go {n : ℕ} : ∀ {m : ℕ} {s : σ} (hn : μ s < n) (hm : μ s < m),
    go body μ hμ n s hn = go body μ hμ m s hm := by
  induction n with
  | zero => exact fun hn => absurd hn (Nat.not_lt_zero _)
  | succ n ih =>
    intro m s hn hm
    cases m with
    | zero => exact absurd hm (Nat.not_lt_zero _)
    | succ m =>
      rw [go, go]
      split
      · exact ih _ _
      · rfl

/-- After a continuing iteration the loop goes on from the next state. -/
lemma whileLoop_of_inl {s s' : σ} (hs : body s = .inl s') :
    whileLoop body μ hμ s = whileLoop body μ hμ s' := by
  unfold whileLoop
  rw [go]
  split <;> rename_i h
  · obtain rfl := Sum.inl.inj (hs.symm.trans h)
    exact go_eq_go hμ _ _
  · exact absurd (hs.symm.trans h) (by simp)

/-- An ending iteration gives the loop's value. -/
lemma whileLoop_of_inr {s : σ} {r : ρ} (hs : body s = .inr r) : whileLoop body μ hμ s = r := by
  unfold whileLoop
  rw [go]
  split <;> rename_i h
  · exact absurd (hs.symm.trans h) (by simp)
  · exact (Sum.inr.inj (hs.symm.trans h)).symm

/-- **The invariant rule**: if every continuing iteration preserves `Inv` and every ending
iteration establishes `Post` from it, then `Post` holds of the result.

**Proof sketch.** Induction on the measure, one iteration at a time. -/
theorem whileLoop_rule (Inv : σ → Prop) (Post : ρ → Prop)
    (hinv : ∀ s s', Inv s → body s = .inl s' → Inv s')
    (hpost : ∀ s r, Inv s → body s = .inr r → Post r) (s : σ) (h : Inv s) :
    Post (whileLoop body μ hμ s) := by
  induction hn : μ s using Nat.strong_induction_on generalizing s with
  | _ n ih =>
    cases hs : body s with
    | inl s' =>
      rw [whileLoop_of_inl hμ hs]
      exact ih _ (hn ▸ hμ s s' hs) s' (hinv s s' h hs) rfl
    | inr r =>
      rw [whileLoop_of_inr hμ hs]
      exact hpost s r h hs

end While

/-! ## Counted loops -/

section For

variable (body : ℕ → σ → σ ⊕ ρ) (finish : σ → ρ)

/-- Run the body for `n` iterations counted from `i`; `finish` gives the value if none ends. -/
def forLoop : (n i : ℕ) → σ → ρ
  | 0, _, s => finish s
  | n + 1, i, s =>
    match body i s with
    | .inl s' => forLoop n (i + 1) s'
    | .inr r => r

/-- **The invariant rule of counted loops**: what every continuing iteration preserves, and what
every ending iteration and the end of the count establish from it, holds of the result. -/
theorem forLoop_rule (Inv : σ → Prop) (Post : ρ → Prop)
    (hinv : ∀ i s s', Inv s → body i s = .inl s' → Inv s')
    (hpost : ∀ i s r, Inv s → body i s = .inr r → Post r)
    (hfinish : ∀ s, Inv s → Post (finish s)) :
    ∀ n i s, Inv s → Post (forLoop body finish n i s) := by
  intro n
  induction n with
  | zero => exact fun _ s h => hfinish s h
  | succ n ih =>
    intro i s h
    rw [forLoop]
    cases hs : body i s with
    | inl s' => exact ih (i + 1) s' (hinv i s s' h hs)
    | inr r => exact hpost i s r h hs

end For

end Loop
