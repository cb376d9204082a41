import Mathlib.Data.List.Induction
import Mathlib.Order.Defs.PartialOrder

/-!
# Limiting by a log of recent events

A limiter keeps the times of what it has granted. At every request it forgets the times that no
longer count, and grants the request if fewer than its limit are left. It has forgotten nothing that
could count again, so it decides as one that keeps all times.

## Main definitions

* `SlidingLog.Closing` — the times that count at a time, fewer and fewer of the old ones.
* `SlidingLog.request` — one request.
* `SlidingLog.granted` — the requests that were granted.
* `SlidingLog.Exact` — a request is granted iff fewer than the limit count of those granted before.
* `SlidingLog.Tracks` — the log and what was granted agree on what counts from now on.

## Main results

* `SlidingLog.Tracks.request_fst`, `SlidingLog.Tracks.request` — a request decides by what was
  granted, and keeps the agreement.
* `SlidingLog.Exact.length_le` — the window rule: never more than the limit are granted in a window.
* `SlidingLog.Exact.unique` — the requests determine what is granted.
-/

namespace SlidingLog

variable {τ : Type} (counts : τ → τ → Bool) (limit : ℕ)

/-- What no longer counts at a time does not count later. -/
def Closing [Preorder τ] : Prop :=
  ∀ now now' time, now ≤ now' → counts now' time = true → counts now time = true

/-- A request, and the log after it. -/
def request (log : List τ) (now : τ) : Bool × List τ :=
  let log := log.filter (counts now)
  if limit ≤ log.length then (false, log) else (true, log ++ [now])

/-- The times of the requests that were granted. -/
def granted (answers : List (τ × Bool)) : List τ := (answers.filter Prod.snd).map Prod.fst

/-- A request is granted iff fewer than the limit count of those granted before. -/
def Exact (answers : List (τ × Bool)) : Prop :=
  ∀ before now ok after, answers = before ++ (now, ok) :: after →
    (ok = true ↔ ((granted before).filter (counts now)).length < limit)

/-- From the clock on, the log and what was granted agree on what counts. -/
def Tracks [Preorder τ] (given log : List τ) (clock : τ) : Prop :=
  ∀ now, clock ≤ now → log.filter (counts now) = given.filter (counts now)

variable {counts limit}

@[simp] lemma granted_nil : granted ([] : List (τ × Bool)) = [] := rfl

@[simp] lemma granted_append (answers answers' : List (τ × Bool)) :
    granted (answers ++ answers') = granted answers ++ granted answers' := by
  simp [granted]

@[simp] lemma granted_singleton (now : τ) (ok : Bool) :
    granted [(now, ok)] = if ok then [now] else [] := by
  cases ok <;> rfl

/-! ## The log -/

namespace Tracks

variable [Preorder τ] {given log : List τ} {clock now : τ}

/-- Later, the agreement is about less. -/
lemma mono (h : Tracks counts given log clock) (htime : clock ≤ now) :
    Tracks counts given log now :=
  fun _ hnow => h _ (le_trans htime hnow)

/-- What does not count may be forgotten. -/
lemma forget (hcounts : Closing counts) (h : Tracks counts given log clock) :
    Tracks counts given (log.filter (counts clock)) clock := by
  intro now hnow
  rw [List.filter_filter, ← h now hnow]
  refine List.filter_congr fun time _ => ?_
  rw [Bool.and_eq_left_iff_imp]
  exact hcounts _ _ _ hnow

/-- What is granted is logged. -/
lemma give (h : Tracks counts given log clock) (new : List τ) :
    Tracks counts (given ++ new) (log ++ new) clock := by
  intro now hnow
  rw [List.filter_append, List.filter_append, h now hnow]

/-- **A request is decided** by what was granted before. -/
theorem request_fst (h : Tracks counts given log clock) (htime : clock ≤ now) :
    (SlidingLog.request counts limit log now).1 = true ↔
      (given.filter (counts now)).length < limit := by
  rw [SlidingLog.request, h now htime]
  split_ifs with hfull
  · simp [hfull]
  · simpa using hfull

/-- **A request keeps the agreement.** -/
theorem request (hcounts : Closing counts) (h : Tracks counts given log clock)
    (htime : clock ≤ now) :
    Tracks counts (given ++ granted [(now, (SlidingLog.request counts limit log now).1)])
      (SlidingLog.request counts limit log now).2 now := by
  have hforget := (h.mono htime).forget hcounts
  rw [SlidingLog.request]
  split_ifs with hfull
  · simpa using hforget
  · simpa using hforget.give [now]

end Tracks

/-! ## Answers -/

namespace Exact

variable {answers answers' : List (τ × Bool)} {now : τ} {ok : Bool}

/-- Answers up to some request are exact. -/
lemma of_append (h : Exact counts limit (answers ++ answers')) : Exact counts limit answers := by
  intro before now ok after heq
  refine h before now ok (after ++ answers') ?_
  rw [heq, List.append_assoc, List.cons_append]

/-- Answers are exact one by one. -/
lemma append_singleton_iff : Exact counts limit (answers ++ [(now, ok)]) ↔
    Exact counts limit answers ∧
      (ok = true ↔ ((granted answers).filter (counts now)).length < limit) := by
  constructor
  · intro h
    exact ⟨h.of_append, h answers now ok [] rfl⟩
  · rintro ⟨h, hlast⟩ before now' ok' after heq
    rcases List.eq_nil_or_concat after with rfl | ⟨after, last, rfl⟩
    · obtain ⟨rfl, hpair⟩ := List.append_inj' heq rfl
      obtain ⟨rfl, rfl⟩ := Prod.mk.inj (List.cons.inj hpair).1
      exact hlast
    · rw [List.concat_eq_append, ← List.cons_append, ← List.append_assoc] at heq
      exact h before now' ok' after (List.append_inj' heq rfl).1

/-- **The window rule**: of what is granted until some time, never more than the limit counts then.

**Proof sketch.** The last request that is granted and counts was granted when fewer than the limit
counted. What counts at the later time counted then. -/
theorem length_le [Preorder τ] [DecidableLE τ] (hcounts : Closing counts)
    (h : Exact counts limit answers) (now : τ) :
    ((granted answers).filter fun time =>
      decide (time ≤ now) && counts now time).length ≤ limit := by
  induction answers using List.reverseRecOn with
  | nil => exact Nat.zero_le _
  | append_singleton answers answer ih =>
    obtain ⟨time, ok⟩ := answer
    obtain ⟨hbefore, hlast⟩ := append_singleton_iff.mp h
    rw [granted_append, List.filter_append, granted_singleton]
    cases ok with
    | false => simpa using ih hbefore
    | true =>
      by_cases hcount : time ≤ now ∧ counts now time = true
      · have hsub : ((granted answers).filter fun t => decide (t ≤ now) && counts now t).length ≤
            ((granted answers).filter (counts time)).length := by
          rw [← List.countP_eq_length_filter, ← List.countP_eq_length_filter]
          refine List.countP_mono_left fun t _ ht => hcounts _ _ _ hcount.1 ?_
          exact (Bool.and_eq_true_iff.mp ht).2
        have hless := hlast.mp rfl
        simp only [if_true, List.length_append]
        have hone : ([time].filter fun t => decide (t ≤ now) && counts now t).length ≤ 1 :=
          List.length_filter_le _ _
        omega
      · have hnone : ([time].filter fun t => decide (t ≤ now) && counts now t) = [] := by
          simpa [List.filter_cons] using hcount
        simpa only [if_true, hnone, List.append_nil] using ih hbefore

/-- **The requests determine** what is granted. -/
theorem unique (h : Exact counts limit answers) (h' : Exact counts limit answers')
    (hsame : answers.map Prod.fst = answers'.map Prod.fst) : answers = answers' := by
  induction answers using List.reverseRecOn generalizing answers' with
  | nil => exact (List.map_eq_nil_iff.mp hsame.symm).symm
  | append_singleton answers answer ih =>
    obtain ⟨now, ok⟩ := answer
    rcases List.eq_nil_or_concat answers' with rfl | ⟨answers', ⟨now', ok'⟩, rfl⟩
    · simp at hsame
    · rw [List.concat_eq_append] at h' hsame ⊢
      rw [List.map_append, List.map_append] at hsame
      obtain ⟨hbefore, hnow⟩ := List.append_inj' hsame rfl
      obtain ⟨hexact, hok⟩ := append_singleton_iff.mp h
      obtain ⟨hexact', hok'⟩ := append_singleton_iff.mp h'
      obtain rfl := ih hexact hexact' hbefore
      obtain rfl : now = now' := (List.cons.inj hnow).1
      rw [Bool.eq_iff_iff.mpr (hok.trans hok'.symm)]

end Exact

end SlidingLog
