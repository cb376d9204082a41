import Mathlib.Data.List.Nodup
import Mathlib.Data.List.Perm.Basic
import Mathlib.Data.List.Range

/-!
# Promises

Calls that are answered later. A call is refused at once, or waits under a key until it is settled;
all waiting calls can be settled together. What is kept for each call is every result it was given,
so that a call with two results would show.

## Main definitions

* `Promises` — the waiting calls with their keys, and the results given so far.
* `Promises.refuse`, `Promises.wait`, `Promises.settle`, `Promises.settleAll` — the operations.
* `Promises.Sound` — every call either waits or has one result.

## Main results

* `Promises.Sound.refuse`, `Promises.Sound.wait`, `Promises.Sound.settle`,
  `Promises.Sound.settleAll` — the operations keep this.
-/

/-- Calls that are answered later, numbered in the order in which they are made. -/
structure Promises (κ ρ : Type) where
  /-- The number of calls so far. -/
  calls : ℕ
  /-- The keys under which calls wait or waited. -/
  keys : List (ℕ × κ)
  /-- The waiting calls. -/
  waiting : List (κ × ℕ)
  /-- The results given. -/
  results : List (ℕ × ρ)

namespace Promises

variable {κ ρ : Type}

/-- No calls. -/
def empty : Promises κ ρ := ⟨0, [], [], []⟩

/-- A call that gets its result at once. -/
def refuse (result : ρ) (p : Promises κ ρ) : Promises κ ρ :=
  { p with calls := p.calls + 1, results := p.results ++ [(p.calls, result)] }

/-- A call that waits under a key. -/
def wait (key : κ) (p : Promises κ ρ) : Promises κ ρ :=
  { p with
    calls := p.calls + 1
    keys := p.keys ++ [(p.calls, key)]
    waiting := p.waiting ++ [(key, p.calls)] }

/-- A call waits under the key. -/
def Waits (key : κ) (p : Promises κ ρ) : Prop := key ∈ p.waiting.map Prod.fst

instance [DecidableEq κ] (key : κ) (p : Promises κ ρ) : Decidable (p.Waits key) :=
  inferInstanceAs (Decidable (key ∈ p.waiting.map Prod.fst))

/-- The calls that wait under the key get the result. -/
def settle [DecidableEq κ] (key : κ) (result : ρ) (p : Promises κ ρ) : Promises κ ρ :=
  { p with
    waiting := p.waiting.filter fun w => w.1 ≠ key
    results := p.results ++ (p.waiting.filter fun w => w.1 = key).map fun w => (w.2, result) }

/-- All waiting calls get the result. -/
def settleAll (result : ρ) (p : Promises κ ρ) : Promises κ ρ :=
  { p with waiting := [], results := p.results ++ p.waiting.map fun w => (w.2, result) }

/-- Every call either waits, under its own key, or has one result. -/
structure Sound (p : Promises κ ρ) : Prop where
  /-- No two calls wait under the same key. -/
  nodup : (p.waiting.map Prod.fst).Nodup
  /-- The calls are those that wait and those that have a result. -/
  perm : (p.waiting.map Prod.snd ++ p.results.map Prod.fst).Perm (List.range p.calls)
  /-- A call waits under its key. -/
  keyed : ∀ w ∈ p.waiting, (w.2, w.1) ∈ p.keys
  /-- A call has one key. -/
  keys_lt : ∀ k ∈ p.keys, k.1 < p.calls
  keys_nodup : (p.keys.map Prod.fst).Nodup

variable {p : Promises κ ρ} {key : κ} {result : ρ}

lemma sound_empty : (empty : Promises κ ρ).Sound :=
  ⟨List.nodup_nil, .refl _, by simp [empty], by simp [empty], List.nodup_nil⟩

/-- One more call that is among the waiting ones or among those with a result. -/
lemma range_succ_perm {waiting results : List ℕ} {n : ℕ}
    (h : (waiting ++ results).Perm (List.range n)) :
    (waiting ++ (results ++ [n])).Perm (List.range (n + 1)) := by
  rw [← List.append_assoc, List.range_succ]
  exact h.append_right [n]

/-- Refusing a call. -/
lemma Sound.refuse (h : p.Sound) (result : ρ) : (p.refuse result).Sound where
  nodup := h.nodup
  perm := by
    have hperm := range_succ_perm h.perm
    simpa [Promises.refuse] using hperm
  keyed := h.keyed
  keys_lt k hk := Nat.lt_succ_of_lt (h.keys_lt k hk)
  keys_nodup := h.keys_nodup

/-- A call that waits under a free key. -/
lemma Sound.wait (h : p.Sound) (hfree : ¬ p.Waits key) : (p.wait key).Sound where
  nodup := by
    rw [Promises.wait, List.map_append, List.map_singleton, ← List.concat_eq_append]
    exact h.nodup.concat hfree
  perm := by
    have hperm := range_succ_perm h.perm
    refine List.Perm.trans ?_ hperm
    simp only [Promises.wait, List.map_append, List.map_singleton, List.append_assoc]
    exact (List.perm_append_comm).append_left _
  keyed w hw := by
    rcases List.mem_append.mp hw with hw | hw
    · exact List.mem_append_left _ (h.keyed w hw)
    · rw [List.mem_singleton.mp hw]
      exact List.mem_append_right _ (List.mem_singleton_self _)
  keys_lt k hk := by
    rcases List.mem_append.mp hk with hk | hk
    · exact Nat.lt_succ_of_lt (h.keys_lt k hk)
    · rw [List.mem_singleton.mp hk]
      exact Nat.lt_succ_self _
  keys_nodup := by
    rw [Promises.wait, List.map_append, List.map_singleton, ← List.concat_eq_append]
    refine h.keys_nodup.concat fun hmem => ?_
    obtain ⟨k, hk, heq⟩ := List.mem_map.mp hmem
    have hlt := h.keys_lt k hk
    rw [heq] at hlt
    exact lt_irrefl _ hlt

/-- Settling the calls under a key. -/
lemma Sound.settle [DecidableEq κ] (h : p.Sound) (key : κ) (result : ρ) :
    (p.settle key result).Sound where
  nodup := h.nodup.sublist (List.filter_sublist.map _)
  perm := by
    refine List.Perm.trans ?_ h.perm
    simp only [Promises.settle, List.map_append, List.map_map]
    have hsplit : (p.waiting.filter (fun w => w.1 ≠ key) ++
        p.waiting.filter (fun w => w.1 = key)).Perm p.waiting := by
      have hnot := List.filter_append_perm (fun w : κ × ℕ => decide (w.1 = key)) p.waiting
      refine List.perm_append_comm.trans (List.Perm.trans (.of_eq ?_) hnot)
      simp
    have hmap := (hsplit.map Prod.snd).append_right (p.results.map Prod.fst)
    refine List.Perm.trans ?_ hmap
    rw [List.map_append, List.append_assoc]
    exact (List.perm_append_comm).append_left _
  keyed w hw := h.keyed w (List.mem_of_mem_filter hw)
  keys_lt := h.keys_lt
  keys_nodup := h.keys_nodup

/-- Settling all calls. -/
lemma Sound.settleAll (h : p.Sound) (result : ρ) : (p.settleAll result).Sound where
  nodup := List.nodup_nil
  perm := by
    refine List.Perm.trans ?_ h.perm
    simp only [Promises.settleAll, List.map_nil, List.nil_append, List.map_append, List.map_map]
    exact List.perm_append_comm
  keyed w hw := absurd hw (List.not_mem_nil)
  keys_lt := h.keys_lt
  keys_nodup := h.keys_nodup

/-- Only calls have results. -/
lemma Sound.lt_calls (h : p.Sound) {n : ℕ} {r : ρ} (hmem : (n, r) ∈ p.results) : n < p.calls :=
  List.mem_range.mp (h.perm.mem_iff.mp (List.mem_append_right _ (List.mem_map_of_mem hmem)))

/-- The results after settling the calls under a key. -/
lemma mem_results_settle [DecidableEq κ] {n : ℕ} {r : ρ} :
    (n, r) ∈ (p.settle key result).results ↔
    (n, r) ∈ p.results ∨ ((key, n) ∈ p.waiting ∧ r = result) := by
  simp only [settle, List.mem_append, List.mem_map, List.mem_filter, decide_eq_true_eq,
    Prod.mk.injEq, Prod.exists]
  refine or_congr_right ⟨?_, ?_⟩
  · rintro ⟨k, m, ⟨hw, rfl⟩, rfl, rfl⟩
    exact ⟨hw, rfl⟩
  · rintro ⟨hw, rfl⟩
    exact ⟨key, n, ⟨hw, rfl⟩, rfl, rfl⟩

/-- The results after settling all calls. -/
lemma mem_results_settleAll {n : ℕ} {r : ρ} : (n, r) ∈ (p.settleAll result).results ↔
    (n, r) ∈ p.results ∨ (n ∈ p.waiting.map Prod.snd ∧ r = result) := by
  simp only [settleAll, List.mem_append, List.mem_map, Prod.mk.injEq]
  refine or_congr_right ⟨?_, ?_⟩
  · rintro ⟨w, hw, rfl, rfl⟩
    exact ⟨⟨w, hw, rfl⟩, rfl⟩
  · rintro ⟨⟨w, hw, rfl⟩, rfl⟩
    exact ⟨w, hw, rfl, rfl⟩

/-- There are no calls to settle. -/
lemma settleAll_of_waiting_eq_nil (h : p.waiting = []) (result : ρ) : p.settleAll result = p := by
  rw [settleAll, h, List.map_nil, List.append_nil, ← h]

/-- The results after refusing a call. -/
lemma mem_results_refuse {n : ℕ} {r : ρ} : (n, r) ∈ (p.refuse result).results ↔
    (n, r) ∈ p.results ∨ (n = p.calls ∧ r = result) := by
  simp [refuse]

end Promises
