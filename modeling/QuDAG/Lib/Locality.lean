import Mathlib.Algebra.Group.End
import Mathlib.Algebra.Group.Submonoid.Basic
import QuDAG.Lib.Fallible

/-!
# Local computations

A state has locations that can be looked up. A fallible computation is local to some of them if
what it returns and what it writes depend on nothing else. What it writes is a function on
states, taken from a monoid of writers that the locations allow. Two local computations can
change places if their writers commute and neither writes where the other one looks.

## Main definitions

* `Fallible.AgreeAt` — two states look the same at some locations.
* `Fallible.Local` — the computation is local to some locations.

## Main results

* `Fallible.local_bind`, `Fallible.local_get_bind` — sequences of local computations are local.
* `Fallible.Local.run_comm` — local computations that do not touch each other can change places.
-/

namespace Fallible

variable {ε σ α β κ ν : Type} (look : σ → κ → ν)

/-- The two states look the same at the locations. -/
def AgreeAt (locations : Set κ) (s t : σ) : Prop := ∀ k ∈ locations, look s k = look t k

/-- What the computation returns and writes depends on nothing but the locations. -/
def Local (locations : Set κ) (writers : Submonoid (Function.End σ))
    (m : Fallible ε σ α) : Prop :=
  ∀ s, ∃ r, ∃ w ∈ writers, ∀ t, AgreeAt look locations s t → m.run t = (r, w t)

variable {look} {locations locations' : Set κ} {writers writers' : Submonoid (Function.End σ)}

/-- Stopping is local. -/
lemma local_fail (e : ε) : Local look locations writers (fail e : Fallible ε σ α) :=
  fun _ => ⟨.error e, 1, writers.one_mem, fun _ _ => rfl⟩

/-- So is computing a value. -/
lemma local_ofExcept (r : Except ε α) :
    Local look locations writers (ofExcept r : Fallible ε σ α) :=
  fun _ => ⟨r, 1, writers.one_mem, fun _ _ => rfl⟩

/-- So is returning one. -/
lemma local_pure (a : α) : Local look locations writers (pure a : Fallible ε σ α) :=
  fun _ => ⟨.ok a, 1, writers.one_mem, fun _ _ => rfl⟩

/-- A writer is local. -/
lemma local_modify {w : Function.End σ} (hw : w ∈ writers) :
    Local look locations writers (modify w : Fallible ε σ Unit) :=
  fun _ => ⟨.ok (), w, hw, fun _ _ => rfl⟩

/-- A sequence of local computations is local, if the writers write the same to states that look
the same. -/
lemma local_bind {m : Fallible ε σ α} {k : α → Fallible ε σ β}
    (hwriters : ∀ w ∈ writers, ∀ s t, AgreeAt look locations s t →
      AgreeAt look locations (w s) (w t))
    (hm : Local look locations writers m) (hk : ∀ a, Local look locations writers (k a)) :
    Local look locations writers (m >>= k) := by
  intro s
  obtain ⟨r, w, hw, hrun⟩ := hm s
  cases r with
  | error e => exact ⟨.error e, w, hw, fun t ht => run_bind_of_error (hrun t ht)⟩
  | ok a =>
    obtain ⟨r', w', hw', hrun'⟩ := hk a (w s)
    refine ⟨r', w' * w, writers.mul_mem hw' hw, fun t ht => ?_⟩
    rw [run_bind_of_ok (hrun t ht)]
    exact hrun' (w t) (hwriters w hw s t ht)

/-- Reading the state is local, if what follows looks at nothing but the locations. -/
lemma local_get_bind {k : σ → Fallible ε σ α}
    (hread : ∀ s t, AgreeAt look locations s t → k s = k t)
    (hk : ∀ s, Local look locations writers (k s)) :
    Local look locations writers (get >>= k) := by
  intro s
  obtain ⟨r, w, hw, hrun⟩ := hk s s
  refine ⟨r, w, hw, fun t ht => ?_⟩
  rw [run_bind_of_ok (run_get t), ← hread s t ht]
  exact hrun t ht

/-- **Local computations change places** if their writers commute and neither writes where the
other one looks. -/
theorem Local.run_comm {m : Fallible ε σ α} {m' : Fallible ε σ β}
    (hm : Local look locations writers m) (hm' : Local look locations' writers' m')
    (hcomm : ∀ w ∈ writers, ∀ w' ∈ writers', Commute w w')
    (hframe : ∀ w ∈ writers, ∀ s, AgreeAt look locations' s (w s))
    (hframe' : ∀ w ∈ writers', ∀ s, AgreeAt look locations s (w s)) (s : σ) :
    (m'.run (m.run s).2).2 = (m.run (m'.run s).2).2 := by
  obtain ⟨r, w, hw, hrun⟩ := hm s
  obtain ⟨r', w', hw', hrun'⟩ := hm' s
  rw [hrun s fun _ _ => rfl, hrun' s fun _ _ => rfl, hrun' _ (hframe w hw s),
    hrun _ (hframe' w' hw' s)]
  exact (congrFun (hcomm w hw w' hw') s).symm

end Fallible
