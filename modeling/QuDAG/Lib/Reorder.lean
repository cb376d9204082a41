import QuDAG.Lib.Runs

/-!
# Runs that may be reordered

A system takes operations from a pool, each at most once. When is the state after a run the same
for every order of its operations? Exactly when any two operations that are still to come agree:
one after the other they lead to the same state in either order.

## Main definitions

* `Runs.Batch` — the runs that take every operation from the pool, and at most once.
* `Runs.Agree` — two operations lead to the same state in either order.
* `Runs.Confluent` — after every batch any two of the other operations agree.

## Main results

* `Runs.confluent_iff` — the pool is confluent iff every batch leads to the same state in all
  orders.
* `Runs.confluent_of_pairwise` — operations that agree in every state are confluent.
-/

namespace Runs

variable {σ α : Type} (apply : σ → α → σ)

/-- The operations are different ones of the pool. -/
def Batch (pool : Set α) (ops : List α) : Prop := ops.Nodup ∧ ∀ op ∈ ops, op ∈ pool

/-- The two operations lead to the same state in either order. -/
def Agree (s : σ) (a b : α) : Prop := apply (apply s a) b = apply (apply s b) a

/-- After every batch any two of the other operations of the pool agree. -/
def Confluent (s : σ) (pool : Set α) : Prop :=
  ∀ pre a b, Batch pool (pre ++ [a, b]) → Agree apply (run apply s pre) a b

variable {apply} {s : σ} {pool : Set α} {a b : α} {ops ops' : List α}

/-- Reordering a batch gives a batch. -/
lemma Batch.perm (h : Batch pool ops) (hperm : ops.Perm ops') : Batch pool ops' :=
  ⟨hperm.nodup_iff.mp h.1, fun op hop => h.2 op (hperm.mem_iff.mpr hop)⟩

/-- A part of a batch is a batch. -/
lemma Batch.sublist (h : Batch pool ops) (hsub : ops'.Sublist ops) : Batch pool ops' :=
  ⟨h.1.sublist hsub, fun op hop => h.2 op (hsub.subset hop)⟩

/-- After a first part a confluent pool takes the rest of a batch in every order.

**Proof sketch.** Induction on the reordering, for every first part. A common first operation
joins the first part; a swap of the first two is an agreement after it. -/
lemma Confluent.run_perm (h : Confluent apply s pool) (hperm : ops.Perm ops') :
    ∀ pre, Batch pool (pre ++ ops) → run apply s (pre ++ ops) = run apply s (pre ++ ops') := by
  induction hperm with
  | nil => exact fun _ _ => rfl
  | cons op _ ih =>
    intro pre hbatch
    have hrun := ih (pre ++ [op]) (by simpa using hbatch)
    simpa using hrun
  | swap a b rest =>
    intro pre hbatch
    have hpair : (pre ++ [b, a]).Sublist (pre ++ b :: a :: rest) := by simp
    have hagree := h pre b a (hbatch.sublist hpair)
    simp only [run_append, run_cons]
    rw [hagree]
  | trans hperm _ ih ih' =>
    intro pre hbatch
    exact (ih pre hbatch).trans (ih' pre (hbatch.perm (hperm.append_left pre)))

/-- **Reordering**: a pool is confluent iff every batch leads to the same state in all orders. -/
theorem confluent_iff : Confluent apply s pool ↔
    ∀ ops ops', ops.Perm ops' → Batch pool ops → run apply s ops = run apply s ops' := by
  constructor
  · exact fun h ops ops' hperm hbatch => h.run_perm hperm [] hbatch
  · intro h pre a b hbatch
    have hswap : (pre ++ [a, b]).Perm (pre ++ [b, a]) := (List.Perm.swap b a []).append_left pre
    have hrun := h _ _ hswap hbatch
    rwa [run_append, run_append] at hrun

/-- Operations that agree in every state are confluent. -/
lemma confluent_of_pairwise
    (h : ∀ s, ∀ a ∈ pool, ∀ b ∈ pool, a ≠ b → Agree apply s a b) : Confluent apply s pool := by
  intro pre a b hbatch
  have hpair : Batch pool [a, b] := hbatch.sublist (List.sublist_append_right pre [a, b])
  have hne : a ≠ b := by simpa using hpair.1
  exact h _ a (hpair.2 a (by simp)) b (hpair.2 b (by simp)) hne

end Runs
