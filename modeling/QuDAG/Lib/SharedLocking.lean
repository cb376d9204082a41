import Mathlib.Data.Finset.Insert

/-!
# Computations that take shared and exclusive locks

A computation on a state that holds locks for the length of a scope, each for reading or for
writing. A request conflicts with a lock that the computation holds itself if one of the two is for
writing; it then waits for itself and never ends, here the outcome `none`.

## Main definitions

* `LockMode` — how a lock is held.
* `SharedLocking` — a computation that may get stuck on a lock of its own.
* `SharedLocking.Conflicts` — a request conflicts with a lock that is held.
* `SharedLocking.withLock` — a scope that holds a lock.
* `Sharding`, `Sharding.access`, `Sharding.visit` — concurrent maps that are split into shards.

## Main results

* `SharedLocking.run_withLock_of_conflicts`, `SharedLocking.run_withLock_of_free` — a scope is stuck
  iff its request conflicts, or its body gets stuck.
* `SharedLocking.conflicts_insert` — what conflicts below one more lock.
* `SharedLocking.run_forM_eq_self`, `SharedLocking.run_forM_eq_none` — loops that change nothing,
  and loops that get stuck.
-/

/-- How a lock is held: together with other readers, or alone. -/
inductive LockMode
  | read
  | write
  deriving DecidableEq, Repr

/-- A computation on a state `σ` that ends in a value, or gets stuck. Its first argument is the set
of locks that are held around it. -/
def SharedLocking (κ σ α : Type) : Type := Finset (κ × LockMode) → σ → Option (α × σ)

namespace SharedLocking

variable {κ σ α β : Type}

/-- What a computation does while some locks are held: nothing when it gets stuck. -/
def run (m : SharedLocking κ σ α) (held : Finset (κ × LockMode)) (s : σ) : Option (α × σ) :=
  m held s

/-- Sequencing: the second part runs under the locks of the first, whose own scopes have ended. -/
instance instMonadSharedLocking : Monad (SharedLocking κ σ) where
  pure a := fun _ s => some (a, s)
  bind m k := fun held s => (m held s).bind fun r => k r.1 held r.2

/-- A step that takes no lock. -/
def step (f : σ → α × σ) : SharedLocking κ σ α := fun _ s => some (f s)

/-- The current state. -/
def get : SharedLocking κ σ σ := step fun s => (s, s)

/-- Change the state. -/
def modify (f : σ → σ) : SharedLocking κ σ Unit := step fun s => ((), f s)

/-- A request for a lock conflicts with a lock that is held. -/
def Conflicts (held : Finset (κ × LockMode)) (k : κ) (mode : LockMode) : Prop :=
  ∃ mode', (k, mode') ∈ held ∧ (mode' = .write ∨ mode = .write)

@[simp] lemma run_pure (a : α) (held : Finset (κ × LockMode)) (s : σ) :
    (pure a : SharedLocking κ σ α).run held s = some (a, s) := rfl

@[simp] lemma run_step (f : σ → α × σ) (held : Finset (κ × LockMode)) (s : σ) :
    (step f : SharedLocking κ σ α).run held s = some (f s) := rfl

@[simp] lemma run_get (held : Finset (κ × LockMode)) (s : σ) :
    (get : SharedLocking κ σ σ).run held s = some (s, s) := rfl

@[simp] lemma run_modify (f : σ → σ) (held : Finset (κ × LockMode)) (s : σ) :
    (modify f : SharedLocking κ σ Unit).run held s = some ((), f s) := rfl

@[simp] lemma run_bind (m : SharedLocking κ σ α) (k : α → SharedLocking κ σ β)
    (held : Finset (κ × LockMode)) (s : σ) :
    (m >>= k).run held s = (m.run held s).bind fun r => (k r.1).run held r.2 := rfl

/-- Nothing conflicts while no lock is held. -/
@[simp] lemma not_conflicts_empty (k : κ) (mode : LockMode) : ¬Conflicts ∅ k mode := by
  rintro ⟨mode', h, -⟩
  cases h

variable [DecidableEq κ]

/-- One more lock adds the conflicts with itself. -/
@[simp] lemma conflicts_insert (held : Finset (κ × LockMode)) (k k' : κ) (mode mode' : LockMode) :
    Conflicts (insert (k', mode') held) k mode ↔
      k = k' ∧ (mode' = .write ∨ mode = .write) ∨ Conflicts held k mode := by
  constructor
  · rintro ⟨mode'', hmem, hwrite⟩
    rcases Finset.mem_insert.mp hmem with heq | hmem
    · obtain ⟨rfl, rfl⟩ := Prod.mk.inj heq
      exact .inl ⟨rfl, hwrite⟩
    · exact .inr ⟨mode'', hmem, hwrite⟩
  · rintro (⟨rfl, hwrite⟩ | ⟨mode'', hmem, hwrite⟩)
    · exact ⟨mode', Finset.mem_insert_self _ _, hwrite⟩
    · exact ⟨mode'', Finset.mem_insert_of_mem hmem, hwrite⟩

/-- Only two modes have to be looked for. -/
instance decidableConflicts (held : Finset (κ × LockMode)) (k : κ) (mode : LockMode) :
    Decidable (Conflicts held k mode) :=
  decidable_of_iff ((k, .write) ∈ held ∨ (k, .read) ∈ held ∧ mode = .write) <| by
    constructor
    · rintro (h | ⟨h, hmode⟩)
      · exact ⟨.write, h, .inl rfl⟩
      · exact ⟨.read, h, .inr hmode⟩
    · rintro ⟨mode', h, hwrite⟩
      cases mode' with
      | write => exact .inl h
      | read => exact .inr ⟨h, hwrite.resolve_left nofun⟩

/-- A scope that holds a lock. The lock is requested first, and given back at the end. -/
def withLock (k : κ) (mode : LockMode) (body : SharedLocking κ σ α) : SharedLocking κ σ α :=
  fun held s => if Conflicts held k mode then none else body.run (insert (k, mode) held) s

variable {k : κ} {mode : LockMode} {held : Finset (κ × LockMode)}

/-- A request that conflicts with a lock of the computation itself is never granted. -/
lemma run_withLock_of_conflicts (h : Conflicts held k mode) (body : SharedLocking κ σ α) (s : σ) :
    (withLock k mode body).run held s = none := if_pos h

/-- Any other lock is held for the scope. -/
lemma run_withLock_of_free (h : ¬Conflicts held k mode) (body : SharedLocking κ σ α) (s : σ) :
    (withLock k mode body).run held s = body.run (insert (k, mode) held) s := if_neg h

/-- With no lock held, every first lock is granted. -/
@[simp] lemma run_withLock_empty (k : κ) (mode : LockMode) (body : SharedLocking κ σ α) (s : σ) :
    (withLock k mode body).run ∅ s = body.run {(k, mode)} s :=
  run_withLock_of_free (not_conflicts_empty k mode) body s

omit [DecidableEq κ]

variable {ι : Type} {l : List ι} {body : ι → SharedLocking κ σ Unit}

/-- A loop whose rounds change nothing changes nothing. -/
lemma run_forM_eq_self {s : σ} (h : ∀ x ∈ l, (body x).run held s = some ((), s)) :
    (forM l body : SharedLocking κ σ Unit).run held s = some ((), s) := by
  induction l with
  | nil => rfl
  | cons x l ih =>
    rw [List.forM_cons, run_bind, h x List.mem_cons_self, Option.bind_some]
    exact ih fun y hy => h y (List.mem_cons_of_mem x hy)

/-- A loop whose rounds change nothing or get stuck gets stuck with one of them. -/
lemma run_forM_eq_none {s : σ} {x : ι} (hx : x ∈ l) (hnone : (body x).run held s = none)
    (h : ∀ y ∈ l, (body y).run held s = none ∨ (body y).run held s = some ((), s)) :
    (forM l body : SharedLocking κ σ Unit).run held s = none := by
  induction l with
  | nil => cases hx
  | cons y l ih =>
    rw [List.forM_cons, run_bind]
    rcases h y List.mem_cons_self with hy | hy
    · rw [hy, Option.bind_none]
    · rw [hy, Option.bind_some]
      rcases List.mem_cons.mp hx with rfl | hx
      · rw [hnone] at hy
        cases hy
      · exact ih hx fun z hz => h z (List.mem_cons_of_mem y hz)

end SharedLocking

/-! ## Sharded maps -/

/-- How the keys of concurrent maps are assigned to shards, each with a lock of its own. -/
structure Sharding (ι κ : Type) where
  /-- The shards. -/
  shards : List κ
  /-- The shard of a key. -/
  shard : ι → κ
  /-- It is one of the shards. -/
  shard_mem : ∀ i, shard i ∈ shards

namespace Sharding

open SharedLocking

variable {ι κ μ σ α : Type} [DecidableEq κ] [DecidableEq μ] (S : Sharding ι κ)

/-- Access a key of a map: the lock of its shard is held as long as the reference lives. -/
def access (m : μ) (i : ι) (mode : LockMode) (body : SharedLocking (μ × κ) σ α) :
    SharedLocking (μ × κ) σ α :=
  withLock (m, S.shard i) mode body

/-- Go through the shards of a map, one after the other, each under its lock for reading. -/
def visit (m : μ) (body : κ → SharedLocking (μ × κ) σ Unit) : SharedLocking (μ × κ) σ Unit :=
  forM S.shards fun k => withLock (m, k) .read (body k)

/-- With no lock held, every first access is granted. -/
@[simp] lemma run_access_empty (m : μ) (i : ι) (mode : LockMode)
    (body : SharedLocking (μ × κ) σ α) (s : σ) :
    (S.access m i mode body).run ∅ s = body.run {((m, S.shard i), mode)} s :=
  run_withLock_empty (m, S.shard i) mode body s

/-- While one key is accessed, an access to another map is granted. -/
lemma run_access_of_ne {m m' : μ} (h : m ≠ m') (i i' : ι) (mode mode' : LockMode)
    (body : SharedLocking (μ × κ) σ α) (s : σ) :
    (S.access m i mode body).run {((m', S.shard i'), mode')} s =
      body.run {((m, S.shard i), mode), ((m', S.shard i'), mode')} s := by
  refine run_withLock_of_free ?_ body s
  rw [← insert_empty_eq, conflicts_insert]
  rintro (⟨heq, -⟩ | hconflict)
  · exact h (Prod.mk.inj heq).1
  · exact not_conflicts_empty _ _ hconflict

/-- While a key is accessed, writing to its shard gets stuck. -/
lemma run_access_write (m : μ) (i i' : ι) (mode : LockMode) (h : S.shard i = S.shard i')
    (body : SharedLocking (μ × κ) σ α) (s : σ) :
    (S.access m i .write body).run {((m, S.shard i'), mode)} s = none := by
  refine run_withLock_of_conflicts ?_ body s
  rw [← insert_empty_eq, conflicts_insert, h]
  exact .inl ⟨rfl, .inr rfl⟩

/-- Going through the shards completes if nothing is done there. -/
lemma run_visit_eq_self {m : μ} {body : κ → SharedLocking (μ × κ) σ Unit} {s : σ}
    (h : ∀ k ∈ S.shards, (body k).run {((m, k), .read)} s = some ((), s)) :
    (S.visit m body).run ∅ s = some ((), s) := by
  refine run_forM_eq_self fun k hk => ?_
  rw [run_withLock_empty, h k hk]

/-- Going through the shards gets stuck if one round does and the others do nothing else. -/
lemma run_visit_eq_none {m : μ} {body : κ → SharedLocking (μ × κ) σ Unit} {s : σ} {k : κ}
    (hk : k ∈ S.shards) (hnone : (body k).run {((m, k), .read)} s = none)
    (h : ∀ k ∈ S.shards, (body k).run {((m, k), .read)} s = none ∨
      (body k).run {((m, k), .read)} s = some ((), s)) :
    (S.visit m body).run ∅ s = none := by
  refine run_forM_eq_none hk ?_ fun k' hk' => ?_
  · rw [run_withLock_empty, hnone]
  · rw [run_withLock_empty]
    exact h k' hk'

end Sharding
