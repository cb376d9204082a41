import Mathlib.Data.Finset.Insert
import QuDAG.Lib.Fallible

/-!
# Computations that take exclusive locks

A fallible computation on a state that holds exclusive locks for the length of a scope. A lock is
not reentrant: a computation that requests a lock which it holds itself waits for itself and never
ends, here the outcome `none`.

## Main definitions

* `Locking` — a fallible computation that may get stuck on a lock of its own.
* `Locking.withLock` — a scope that holds a lock.

## Main results

* `Locking.run_withLock_of_mem`, `Locking.run_withLock_of_notMem` — a scope is stuck iff its lock is
  held already, or its body gets stuck.
* `Locking.run_lift_bind` — a step that takes no lock.
-/

/-- A computation on a state `σ` that ends in a value or an error, or gets stuck. Its first
argument is the set of locks that are held around it. -/
def Locking (κ ε σ α : Type) : Type := Finset κ → σ → Option (Except ε α × σ)

namespace Locking

variable {κ ε σ α β : Type}

/-- What a computation does while some locks are held: nothing when it gets stuck. -/
def run (m : Locking κ ε σ α) (held : Finset κ) (s : σ) : Option (Except ε α × σ) := m held s

/-- A computation that takes no locks. -/
def lift (m : Fallible ε σ α) : Locking κ ε σ α := fun _ s => some (m.run s)

/-- Sequencing: the second part runs under the locks of the first, whose own scopes have ended. -/
instance instMonadLocking : Monad (Locking κ ε σ) where
  pure a := lift (pure a)
  bind m k := fun held s =>
    match m held s with
    | some (.ok a, s') => k a held s'
    | some (.error e, s') => some (.error e, s')
    | none => none

/-- A scope that holds a lock. The lock is requested first, and given back at the end of the
scope, also when that ends in an error. -/
def withLock [DecidableEq κ] (k : κ) (body : Locking κ ε σ α) : Locking κ ε σ α := fun held s =>
  if k ∈ held then none else body.run (insert k held) s

@[simp] lemma run_lift (m : Fallible ε σ α) (held : Finset κ) (s : σ) :
    (lift m : Locking κ ε σ α).run held s = some (m.run s) := rfl

/-- A step that takes no lock and succeeds. -/
lemma run_lift_bind_of_ok {m : Fallible ε σ α} {k : α → Locking κ ε σ β} {held : Finset κ}
    {s s' : σ} {a : α} (h : m.run s = (.ok a, s')) :
    (lift m >>= k).run held s = (k a).run held s' := by
  show (match some (m.run s) with
    | some (.ok a, s') => k a held s'
    | some (.error e, s') => some (.error e, s')
    | none => none) = k a held s'
  rw [h]

/-- A step that takes no lock and fails. -/
lemma run_lift_bind_of_error {m : Fallible ε σ α} {k : α → Locking κ ε σ β} {held : Finset κ}
    {s s' : σ} {e : ε} (h : m.run s = (.error e, s')) :
    (lift m >>= k).run held s = some (.error e, s') := by
  show (match some (m.run s) with
    | some (.ok a, s') => k a held s'
    | some (.error e, s') => some (.error e, s')
    | none => none) = some (.error e, s')
  rw [h]

/-- Steps that take no locks are one such step. -/
lemma run_lift_bind_lift (m : Fallible ε σ α) (k : α → Fallible ε σ β) (held : Finset κ) (s : σ) :
    (lift m >>= fun a => lift (k a) : Locking κ ε σ β).run held s = some ((m >>= k).run s) := by
  rcases Fallible.run_cases m s with ⟨a, t, h⟩ | ⟨e, t, h⟩
  · rw [run_lift_bind_of_ok h, run_lift, Fallible.run_bind_of_ok h]
  · rw [run_lift_bind_of_error h, Fallible.run_bind_of_error h]

variable [DecidableEq κ] {k : κ} {held : Finset κ}

/-- A lock that is held already is never granted. -/
lemma run_withLock_of_mem (h : k ∈ held) (body : Locking κ ε σ α) (s : σ) :
    (withLock k body).run held s = none := if_pos h

/-- A lock that is free is held for the scope. -/
lemma run_withLock_of_notMem (h : k ∉ held) (body : Locking κ ε σ α) (s : σ) :
    (withLock k body).run held s = body.run (insert k held) s := if_neg h

end Locking
