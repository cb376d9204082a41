import Mathlib.Data.List.Chain

/-!
# Fallible computations on a state

Code that works on a mutable state and may stop with an error on the way. An error ends the
computation but takes nothing back: the state is the one at the point of the error. Whether a
failed call left the state alone is therefore a property to be proved.

## Main definitions

* `Fallible` — a computation on a state that ends in a value or an error.
* `Fallible.Keeps` — the computation keeps an invariant, also when it fails.
* `Fallible.sequence`, `Fallible.visited` — computations one after the other, and the states that
  they go through.
* `Fallible.AtomicAt` — a failure leaves the state as it was.
* `Fallible.zoom` — a computation on a part of a state.

## Main results

* `Fallible.run_bind_ok`, `Fallible.run_bind_error` — how a sequence ends.
* `Fallible.keeps_bind` — a sequence keeps what its parts keep.
* `Fallible.atomicAt_bind_of_total` — a sequence whose second part cannot fail is atomic if its
  first part is.
-/

/-- A computation on a state `σ` that ends in a value or an error. -/
def Fallible (ε σ α : Type) : Type := σ → Except ε α × σ

namespace Fallible

variable {ε σ α β : Type}

/-- The outcome and the state after the computation. -/
def run (m : Fallible ε σ α) (s : σ) : Except ε α × σ := m s

/-- Stop with an error. -/
def fail (e : ε) : Fallible ε σ α := fun s => (.error e, s)

/-- The current state. -/
def get : Fallible ε σ σ := fun s => (.ok s, s)

/-- Change the state. -/
def modify (f : σ → σ) : Fallible ε σ Unit := fun s => (.ok (), f s)

/-- A value that the state does not matter for. -/
def ofExcept (r : Except ε α) : Fallible ε σ α := fun s => (r, s)

/-- Sequencing: an error of the first part ends the computation. -/
instance instMonadFallible : Monad (Fallible ε σ) where
  pure a := fun s => (.ok a, s)
  bind m k := fun s =>
    match m s with
    | (.ok a, s') => k a s'
    | (.error e, s') => (.error e, s')

@[simp] lemma run_pure (a : α) (s : σ) : (pure a : Fallible ε σ α).run s = (.ok a, s) := rfl

@[simp] lemma run_fail (e : ε) (s : σ) : (fail e : Fallible ε σ α).run s = (.error e, s) := rfl

@[simp] lemma run_get (s : σ) : (get : Fallible ε σ σ).run s = (.ok s, s) := rfl

@[simp] lemma run_modify (f : σ → σ) (s : σ) :
    (modify f : Fallible ε σ Unit).run s = (.ok (), f s) := rfl

@[simp] lemma run_ofExcept (r : Except ε α) (s : σ) :
    (ofExcept r : Fallible ε σ α).run s = (r, s) := rfl

/-- A value that the state does not matter for is reached without a change. -/
lemma run_ofExcept_ok {r : Except ε α} {s t : σ} {a : α} :
    (ofExcept r : Fallible ε σ α).run s = (.ok a, t) ↔ r = .ok a ∧ s = t := by
  rw [run_ofExcept, Prod.mk.injEq]

/-- The state that is read is the state. -/
lemma run_get_ok {s t u : σ} :
    (get : Fallible ε σ σ).run s = (.ok u, t) ↔ s = u ∧ s = t := by
  rw [run_get, Prod.mk.injEq, Except.ok.injEq]

/-- A change of the state succeeds. -/
lemma run_modify_ok {f : σ → σ} {s t : σ} {a : Unit} :
    (modify f : Fallible ε σ Unit).run s = (.ok a, t) ↔ f s = t := by
  rw [run_modify, Prod.mk.injEq, and_iff_right rfl]

/-- A value is reached without a change. -/
lemma run_pure_ok {s t : σ} {a b : α} :
    (pure a : Fallible ε σ α).run s = (.ok b, t) ↔ a = b ∧ s = t := by
  rw [run_pure, Prod.mk.injEq, Except.ok.injEq]

/-- A sequence whose first part succeeds goes on with the second. -/
lemma run_bind_of_ok {m : Fallible ε σ α} {k : α → Fallible ε σ β} {s s' : σ} {a : α}
    (h : m.run s = (.ok a, s')) : (m >>= k).run s = (k a).run s' := by
  show (match m s with
    | (.ok a, s') => k a s'
    | (.error e, s') => (.error e, s')) = k a s'
  rw [show m s = (.ok a, s') from h]

/-- A sequence whose first part fails fails. -/
lemma run_bind_of_error {m : Fallible ε σ α} {k : α → Fallible ε σ β} {s s' : σ} {e : ε}
    (h : m.run s = (.error e, s')) : (m >>= k).run s = (.error e, s') := by
  show (match m s with
    | (.ok a, s') => k a s'
    | (.error e, s') => (.error e, s')) = (.error e, s')
  rw [show m s = (.error e, s') from h]

/-- A sequence succeeds iff its parts do. -/
lemma run_bind_ok {m : Fallible ε σ α} {k : α → Fallible ε σ β} {s t : σ} {b : β} :
    (m >>= k).run s = (.ok b, t) ↔
      ∃ a s', m.run s = (.ok a, s') ∧ (k a).run s' = (.ok b, t) := by
  rcases hm : m.run s with ⟨r, s'⟩
  cases r with
  | ok a =>
    rw [run_bind_of_ok hm]
    constructor
    · exact fun h => ⟨a, s', rfl, h⟩
    · rintro ⟨a', u, heq, h⟩
      obtain ⟨rfl, rfl⟩ : a = a' ∧ s' = u := by simpa using heq
      exact h
  | error e =>
    rw [run_bind_of_error hm]
    simp

/-- A sequence fails in its first part, or in the second after the first succeeded. -/
lemma run_bind_error {m : Fallible ε σ α} {k : α → Fallible ε σ β} {s t : σ} {e : ε} :
    (m >>= k).run s = (.error e, t) ↔
      m.run s = (.error e, t) ∨ ∃ a s', m.run s = (.ok a, s') ∧ (k a).run s' = (.error e, t) := by
  rcases hm : m.run s with ⟨r, s'⟩
  cases r with
  | ok a =>
    rw [run_bind_of_ok hm]
    constructor
    · exact fun h => .inr ⟨a, s', rfl, h⟩
    · rintro (heq | ⟨a', u, heq, h⟩)
      · simp at heq
      obtain ⟨rfl, rfl⟩ : a = a' ∧ s' = u := by simpa using heq
      exact h
  | error e' =>
    rw [run_bind_of_error hm]
    simp

/-- Every computation ends, in a value or in an error. -/
lemma run_cases (m : Fallible ε σ α) (s : σ) :
    (∃ a t, m.run s = (.ok a, t)) ∨ ∃ e t, m.run s = (.error e, t) := by
  rcases hm : m.run s with ⟨r, t⟩
  cases r with
  | ok a => exact .inl ⟨a, t, rfl⟩
  | error e => exact .inr ⟨e, t, rfl⟩

/-! ## Invariants -/

/-- The computation keeps the invariant, whether it succeeds or fails. -/
def Keeps (Inv : σ → Prop) (m : Fallible ε σ α) : Prop := ∀ s, Inv s → Inv (m.run s).2

variable {Inv : σ → Prop}

/-- Stopping keeps every invariant. -/
lemma keeps_fail (e : ε) : Keeps Inv (fail e : Fallible ε σ α) := fun _ h => h

/-- So does computing a value. -/
lemma keeps_ofExcept (r : Except ε α) : Keeps Inv (ofExcept r : Fallible ε σ α) := fun _ h => h

/-- A sequence keeps what its parts keep. -/
lemma keeps_bind {m : Fallible ε σ α} {k : α → Fallible ε σ β} (hm : Keeps Inv m)
    (hk : ∀ a, Keeps Inv (k a)) : Keeps Inv (m >>= k) := by
  intro s hs
  have hinv := hm s hs
  rcases run_cases m s with ⟨a, t, h⟩ | ⟨e, t, h⟩
  · rw [run_bind_of_ok h]
    rw [h] at hinv
    exact hk a t hinv
  · rw [run_bind_of_error h]
    rwa [h] at hinv

/-- A change of the state keeps what the change keeps. -/
lemma keeps_modify {f : σ → σ} (h : ∀ s, Inv s → Inv (f s)) :
    Keeps Inv (modify f : Fallible ε σ Unit) := h

/-! ## Parts of a state -/

section Zoom

variable {τ : Type} {part : τ → σ} {update : σ → τ → τ}

/-- A computation on a part of a state, which is written back whatever the outcome. -/
def zoom (part : τ → σ) (update : σ → τ → τ) (m : Fallible ε σ α) : Fallible ε τ α := fun t =>
  ((m.run (part t)).1, update (m.run (part t)).2 t)

/-- It succeeds iff it does on the part. -/
lemma run_zoom_ok {m : Fallible ε σ α} {t u : τ} {a : α} :
    (zoom part update m).run t = (.ok a, u) ↔
      ∃ s, m.run (part t) = (.ok a, s) ∧ update s t = u := by
  rcases hm : m.run (part t) with ⟨r, s⟩
  show ((m.run (part t)).1, update (m.run (part t)).2 t) = (.ok a, u) ↔ _
  rw [hm]
  constructor
  · intro h
    obtain ⟨rfl, rfl⟩ := Prod.mk.inj h
    exact ⟨s, rfl, rfl⟩
  · rintro ⟨s', heq, rfl⟩
    obtain ⟨rfl, rfl⟩ := Prod.mk.inj heq
    rfl

end Zoom

/-! ## Other errors -/

section MapError

variable {ε' : Type} {m : Fallible ε σ α} {f : ε → ε'} {s t : σ}

/-- The computation with its error turned into another one. -/
def mapError (f : ε → ε') (m : Fallible ε σ α) : Fallible ε' σ α := fun s =>
  ((m.run s).1.mapError f, (m.run s).2)

/-- If it succeeds, it still does. -/
lemma run_mapError_of_ok {a : α} (h : m.run s = (.ok a, t)) :
    (m.mapError f).run s = (.ok a, t) := by
  show ((m.run s).1.mapError f, (m.run s).2) = _
  rw [h]
  rfl

/-- It succeeds only then. -/
lemma run_mapError_ok {a : α} (h : (m.mapError f).run s = (.ok a, t)) :
    m.run s = (.ok a, t) := by
  rcases hm : m.run s with ⟨r, u⟩
  change ((m.run s).1.mapError f, (m.run s).2) = _ at h
  rw [hm] at h
  obtain ⟨hr, rfl⟩ := Prod.mk.inj h
  cases r with
  | error e => cases hr
  | ok b =>
    cases hr
    rfl

end MapError

/-! ## Lists of computations -/

/-- Computations one after the other, until one fails. -/
def sequence : List (Fallible ε σ Unit) → Fallible ε σ Unit
  | [] => pure ()
  | m :: ms => do
    m
    sequence ms

/-- The states before, between and after the computations of a list. -/
def visited : List (Fallible ε σ Unit) → σ → List σ
  | [], s => [s]
  | m :: ms, s =>
    match m.run s with
    | (.ok _, t) => s :: visited ms t
    | (.error _, t) => [s, t]

/-- The computations keep what each of them keeps. -/
lemma keeps_sequence {ms : List (Fallible ε σ Unit)} (h : ∀ m ∈ ms, Keeps Inv m) :
    Keeps Inv (sequence ms) := by
  induction ms with
  | nil => exact fun _ hs => hs
  | cons m ms ih =>
    rw [List.forall_mem_cons] at h
    exact keeps_bind h.1 fun _ => ih h.2

/-- The first visited state is the one before. -/
lemma head?_visited (ms : List (Fallible ε σ Unit)) (s : σ) : (visited ms s).head? = some s := by
  cases ms with
  | nil => rfl
  | cons m ms =>
    unfold visited
    split <;> rfl

/-- Visited states that follow each other are related if each computation relates them. -/
lemma isChain_visited {R : σ → σ → Prop} {ms : List (Fallible ε σ Unit)} : ∀ {s : σ},
    (∀ m ∈ ms, ∀ s, R s (m.run s).2) → (visited ms s).IsChain R := by
  induction ms with
  | nil => exact fun _ => List.isChain_singleton _
  | cons m ms ih =>
    intro s h
    rw [List.forall_mem_cons] at h
    have hstep := h.1 s
    rcases run_cases m s with ⟨a, t, hm⟩ | ⟨e, t, hm⟩
    · rw [hm] at hstep
      rw [visited, hm]
      refine (ih h.2).cons fun t' ht' => ?_
      rw [head?_visited] at ht'
      obtain rfl := Option.some.inj ht'
      exact hstep
    · rw [hm] at hstep
      rw [visited, hm]
      exact List.isChain_pair.mpr hstep

/-! ## Atomicity -/

/-- From the state `s` a failure leaves the state as it was. -/
def AtomicAt (m : Fallible ε σ α) (s : σ) : Prop := ∀ e t, m.run s = (.error e, t) → t = s

/-- Stopping at once changes nothing. -/
lemma atomicAt_fail (e : ε) (s : σ) : AtomicAt (fail e : Fallible ε σ α) s := by
  intro e' t h
  exact (Prod.mk.inj h).2.symm

/-- What cannot fail is atomic. -/
lemma atomicAt_modify (f : σ → σ) (s : σ) : AtomicAt (modify f : Fallible ε σ Unit) s := by
  intro e t h
  rw [run_modify] at h
  simp at h

/-- Before a first part that changes nothing, atomicity is that of what follows. -/
lemma atomicAt_bind_of_run_eq {m : Fallible ε σ α} {k : α → Fallible ε σ β} {s : σ}
    (hm : (m.run s).2 = s) (hk : ∀ a, AtomicAt (k a) s) : AtomicAt (m >>= k) s := by
  intro e t h
  rcases run_bind_error.mp h with h | ⟨a, s', hok, herr⟩
  · rw [h] at hm
    exact hm
  · rw [hok] at hm
    obtain rfl : s' = s := hm
    exact hk a e t herr

/-- A sequence whose second part cannot fail is atomic if its first part is. -/
lemma atomicAt_bind_of_total {m : Fallible ε σ α} {k : α → Fallible ε σ β} {s : σ}
    (hm : AtomicAt m s)
    (hk : ∀ a s', m.run s = (.ok a, s') → ∃ b, ((k a).run s').1 = .ok b) :
    AtomicAt (m >>= k) s := by
  intro e t h
  rcases run_bind_error.mp h with h | ⟨a, s', hok, herr⟩
  · exact hm e t h
  · obtain ⟨b, hb⟩ := hk a s' hok
    rw [herr] at hb
    simp at hb

/-- An atomic computation keeps an invariant that its successes keep. -/
lemma keeps_of_atomicAt {m : Fallible ε σ α} (hatom : ∀ s, Inv s → AtomicAt m s)
    (hok : ∀ s a t, Inv s → m.run s = (.ok a, t) → Inv t) : Keeps Inv m := by
  intro s hs
  rcases run_cases m s with ⟨a, t, h⟩ | ⟨e, t, h⟩
  · rw [h]
    exact hok s a t hs h
  · rw [h, hatom s hs e t h]
    exact hs

end Fallible
