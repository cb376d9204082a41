import Mathlib.Data.List.Infix

/-!
# Runs of a deterministic system

A system with states `σ` and operations `α` makes a run for every list of operations. A property
of the steps of a run speaks about an operation and the state it is applied to; a property of
its states is asked of the first one and of every state reached.

## Main definitions

* `Runs.run` — the state after a list of operations.
* `Runs.Steps` — every step of a run has a property.
* `Runs.Always` — every state of a run has a property.
* `Runs.Happened` — an operation with a property is among those of a list.

## Main results

* `Runs.run_rule` — the invariant rule: what every step with a property preserves holds after a run
  all of whose steps have it.
* `Runs.always_rule` — such an invariant holds always.
* `Runs.history_rule` — the invariant rule for what speaks about the operations so far.
* `Runs.steps_rule` — such an invariant gives the steps another property.
* `Runs.always_iff` — a property holds always iff it holds after every initial part of the run.
* `Runs.always_iff_steps` — if exactly the steps with a property lead to good states, the states are
  good always iff every step has that property.
* `Runs.steps_iff_steps` — properties that agree on steps from states with an invariant agree on
  runs.
* `Runs.run_iff_steps` — if a property is kept by exactly the steps with another one, it holds after
  a run iff all its steps have that one.
* `Runs.run_eq_iff_steps` — if no step lowers a value, and exactly the steps with a property keep
  it, a run keeps the value iff every step has that property.
-/

namespace Runs

variable {σ α : Type} (apply : σ → α → σ)

/-- The state after the operations of a list. -/
def run (s : σ) (ops : List α) : σ := ops.foldl apply s

@[simp] lemma run_nil (s : σ) : run apply s [] = s := rfl

@[simp] lemma run_cons (s : σ) (op : α) (ops : List α) :
    run apply s (op :: ops) = run apply (apply s op) ops := rfl

/-- A run of two lists. -/
lemma run_append (s : σ) (ops ops' : List α) :
    run apply s (ops ++ ops') = run apply (run apply s ops) ops' := List.foldl_append

/-- Every operation has the property in the state it is applied to. -/
def Steps (P : σ → α → Prop) : σ → List α → Prop
  | _, [] => True
  | s, op :: ops => P s op ∧ Steps P (apply s op) ops

/-- Every state of the run has the property. -/
def Always (P : σ → Prop) : σ → List α → Prop
  | s, [] => P s
  | s, op :: ops => P s ∧ Always P (apply s op) ops

variable {apply}

instance instDecidableSteps (P : σ → α → Prop) [∀ s op, Decidable (P s op)] :
    ∀ (ops : List α) (s : σ), Decidable (Steps apply P s ops)
  | [], _ => instDecidableTrue
  | op :: ops, s =>
    have := instDecidableSteps P ops (apply s op)
    inferInstanceAs (Decidable (P s op ∧ Steps apply P (apply s op) ops))

/-- The steps of an initial part of a run are steps of the run. -/
lemma Steps.of_append {P : σ → α → Prop} {ops ops' : List α} :
    ∀ {s : σ}, Steps apply P s (ops ++ ops') →
      Steps apply P s ops ∧ Steps apply P (run apply s ops) ops' := by
  induction ops with
  | nil => exact fun h => ⟨trivial, h⟩
  | cons op ops ih => exact fun h => ⟨⟨h.1, (ih h.2).1⟩, (ih h.2).2⟩

/-- **The invariant rule**: what every step with the property preserves holds after the run. -/
theorem run_rule (Inv : σ → Prop) {P : σ → α → Prop}
    (hstep : ∀ s op, Inv s → P s op → Inv (apply s op)) :
    ∀ {ops : List α} {s : σ}, Steps apply P s ops → Inv s → Inv (run apply s ops) := by
  intro ops
  induction ops with
  | nil => exact fun _ h => h
  | cons op ops ih => exact fun hsteps h => ih hsteps.2 (hstep _ op h hsteps.1)

/-- What every step preserves holds after every run. -/
theorem run_invariant (Inv : σ → Prop) (hstep : ∀ s op, Inv s → Inv (apply s op)) :
    ∀ {ops : List α} {s : σ}, Inv s → Inv (run apply s ops) := by
  intro ops
  induction ops with
  | nil => exact fun h => h
  | cons op ops ih => exact fun h => ih (hstep _ op h)

/-- What every step with the property preserves holds always. -/
theorem always_rule (Inv : σ → Prop) {P : σ → α → Prop}
    (hstep : ∀ s op, Inv s → P s op → Inv (apply s op)) :
    ∀ {ops : List α} {s : σ}, Steps apply P s ops → Inv s → Always apply Inv s ops := by
  intro ops
  induction ops with
  | nil => exact fun _ h => h
  | cons op ops ih => exact fun hsteps h => ⟨h, ih hsteps.2 (hstep _ op h hsteps.1)⟩

/-- Steps from states with an invariant have what follows from it, if they keep it. -/
theorem steps_rule (Inv : σ → Prop) {P Q : σ → α → Prop}
    (hstep : ∀ s op, Inv s → P s op → Inv (apply s op) ∧ Q s op) :
    ∀ {ops : List α} {s : σ}, Steps apply P s ops → Inv s → Steps apply Q s ops := by
  intro ops
  induction ops with
  | nil => exact fun _ _ => trivial
  | cons op ops ih =>
    intro s hsteps h
    obtain ⟨hinv, hQ⟩ := hstep s op h hsteps.1
    exact ⟨hQ, ih hsteps.2 hinv⟩

/-- Steps that have two properties. -/
lemma Steps.and {P Q : σ → α → Prop} : ∀ {ops : List α} {s : σ},
    Steps apply P s ops → Steps apply Q s ops →
      Steps apply (fun s op => P s op ∧ Q s op) s ops := by
  intro ops
  induction ops with
  | nil => exact fun _ _ => trivial
  | cons op ops ih => exact fun hP hQ => ⟨⟨hP.1, hQ.1⟩, ih hP.2 hQ.2⟩

/-- Steps have what follows from what they have. -/
lemma Steps.imp {P Q : σ → α → Prop} (h : ∀ s op, P s op → Q s op) : ∀ {ops : List α} {s : σ},
    Steps apply P s ops → Steps apply Q s ops := by
  intro ops
  induction ops with
  | nil => exact fun _ => trivial
  | cons op ops ih => exact fun hP => ⟨h _ op hP.1, ih hP.2⟩

/-- What holds always implies what follows from it. -/
lemma Always.imp {P Q : σ → Prop} (h : ∀ s, P s → Q s) : ∀ {ops : List α} {s : σ},
    Always apply P s ops → Always apply Q s ops := by
  intro ops
  induction ops with
  | nil => exact fun hP => h _ hP
  | cons op ops ih => exact fun hP => ⟨h _ hP.1, ih hP.2⟩

/-- Two properties that agree on every step of a kind agree on every run of such steps. -/
lemma steps_congr_of {Q R V : σ → α → Prop} (hiff : ∀ s op, V s op → (Q s op ↔ R s op)) :
    ∀ {ops : List α} {s : σ}, Steps apply V s ops →
      (Steps apply Q s ops ↔ Steps apply R s ops) := by
  intro ops
  induction ops with
  | nil => exact fun _ => Iff.rfl
  | cons op ops ih => exact fun h => and_congr (hiff _ op h.1) (ih h.2)

/-- Two properties that agree on the steps from states with an invariant, which these steps keep,
agree on every run. -/
theorem steps_iff_steps (Inv : σ → Prop) {Q R : σ → α → Prop}
    (hiff : ∀ s op, Inv s → (Q s op ↔ R s op))
    (hstep : ∀ s op, Inv s → R s op → Inv (apply s op)) :
    ∀ {ops : List α} {s : σ}, Inv s → (Steps apply Q s ops ↔ Steps apply R s ops) := by
  intro ops
  induction ops with
  | nil => exact fun _ => Iff.rfl
  | cons op ops ih =>
    intro s h
    rw [Steps, Steps, hiff s op h]
    exact and_congr_right fun hR => ih (hstep s op h hR)

/-- What holds of every step holds of the steps of every run. -/
lemma steps_of_forall {P : σ → α → Prop} (h : ∀ s op, P s op) :
    ∀ {ops : List α} {s : σ}, Steps apply P s ops
  | [], _ => trivial
  | op :: _, s => ⟨h s op, steps_of_forall h⟩

/-- Two properties that agree on every step agree on every run. -/
lemma steps_congr {Q R : σ → α → Prop} (hiff : ∀ s op, Q s op ↔ R s op) {ops : List α} {s : σ} :
    Steps apply Q s ops ↔ Steps apply R s ops :=
  steps_congr_of (fun s op (_ : True) => hiff s op) (steps_of_forall fun _ _ => trivial)

/-- A property holds always iff it holds after every initial part of the run. -/
lemma always_iff {P : σ → Prop} : ∀ {ops : List α} {s : σ},
    Always apply P s ops ↔ ∀ pre, pre <+: ops → P (run apply s pre) := by
  intro ops
  induction ops with
  | nil => simp [Always]
  | cons op ops ih =>
    intro s
    rw [Always, ih]
    constructor
    · rintro ⟨h, hall⟩ pre hpre
      cases pre with
      | nil => exact h
      | cons op' pre =>
        obtain ⟨rfl, hpre'⟩ := List.cons_prefix_cons.mp hpre
        exact hall pre hpre'
    · intro hall
      refine ⟨hall [] List.nil_prefix, fun pre hpre => ?_⟩
      exact hall (op :: pre) (List.cons_prefix_cons.mpr ⟨rfl, hpre⟩)

/-- A property holds always iff it holds at the start and after every step. -/
lemma always_iff_steps_after {P : σ → Prop} : ∀ {ops : List α} {s : σ},
    Always apply P s ops ↔ P s ∧ Steps apply (fun s op => P (apply s op)) s ops := by
  intro ops
  induction ops with
  | nil => exact fun {s} => ⟨fun h => ⟨h, trivial⟩, fun h => h.1⟩
  | cons op ops ih =>
    intro s
    rw [Always, Steps, ih]

/-- Let `Inv` imply `P`. If the steps with the property `Q` keep `Inv`, and a step from `Inv` that
leads to `P` has `Q`, then `P` holds always iff every step has `Q`. -/
theorem always_iff_steps (Inv : σ → Prop) {P : σ → Prop} {Q V : σ → α → Prop}
    (hP : ∀ s, Inv s → P s) (hstep : ∀ s op, Inv s → V s op → Q s op → Inv (apply s op))
    (hnec : ∀ s op, Inv s → V s op → P (apply s op) → Q s op) :
    ∀ {ops : List α} {s : σ}, Steps apply V s ops → Inv s →
      (Always apply P s ops ↔ Steps apply Q s ops) := by
  intro ops
  induction ops with
  | nil => exact fun {s} _ h => ⟨fun _ => trivial, fun _ => hP s h⟩
  | cons op ops ih =>
    intro s hsteps h
    constructor
    · rintro ⟨-, hall⟩
      have hP' : P (apply s op) := always_iff.mp hall [] List.nil_prefix
      have hQ := hnec s op h hsteps.1 hP'
      exact ⟨hQ, (ih hsteps.2 (hstep s op h hsteps.1 hQ)).mp hall⟩
    · rintro ⟨hQ, hall⟩
      exact ⟨hP s h, (ih hsteps.2 (hstep s op h hsteps.1 hQ)).mpr hall⟩

/-- What holds of every operation of a list holds of the steps of its runs. -/
lemma steps_of_mem {P : α → Prop} : ∀ {ops : List α} {s : σ}, (∀ op ∈ ops, P op) →
    Steps apply (fun _ op => P op) s ops
  | [], _, _ => trivial
  | op :: _, _, h =>
    ⟨h op List.mem_cons_self, steps_of_mem fun op' hop' => h op' (List.mem_cons_of_mem _ hop')⟩

/-- The steps have a property of their operations iff the operations have it. -/
lemma steps_iff_forall_mem {P : α → Prop} : ∀ {ops : List α} {s : σ},
    Steps apply (fun _ op => P op) s ops ↔ ∀ op ∈ ops, P op := by
  intro ops
  induction ops with
  | nil => simp [Steps]
  | cons op ops ih =>
    intro s
    rw [Steps, ih, List.forall_mem_cons]

/-- If a property is kept by exactly the steps with the property `Q`, and never gained, then it
holds after a run iff it held before and every step has `Q`. -/
theorem run_iff_steps (Inv : σ → Prop) {P : σ → Prop} {Q V : σ → α → Prop}
    (hstep : ∀ s op, Inv s → V s op → Inv (apply s op) ∧ (P (apply s op) ↔ P s ∧ Q s op)) :
    ∀ {ops : List α} {s : σ}, Steps apply V s ops → Inv s →
      (P (run apply s ops) ↔ P s ∧ Steps apply Q s ops) := by
  intro ops
  induction ops with
  | nil => exact fun _ _ => ⟨fun h => ⟨h, trivial⟩, fun h => h.1⟩
  | cons op ops ih =>
    intro s hsteps h
    obtain ⟨hinv, hiff⟩ := hstep s op h hsteps.1
    rw [run_cons, ih hsteps.2 hinv, hiff, Steps, and_assoc]

/-- If no step lowers a value, and exactly the steps with a property keep it, then a run keeps the
value iff every step has the property. -/
theorem run_eq_iff_steps {β : Type} [PartialOrder β] (f : σ → β) (Inv : σ → Prop)
    {Q : σ → α → Prop}
    (hstep : ∀ s op, Inv s → Inv (apply s op) ∧ f s ≤ f (apply s op) ∧
      (f (apply s op) = f s ↔ Q s op)) :
    ∀ {ops : List α} {s : σ}, Inv s → (f (run apply s ops) = f s ↔ Steps apply Q s ops) := by
  have hle : ∀ {ops : List α} {s : σ}, Inv s → f s ≤ f (run apply s ops) := by
    intro ops
    induction ops with
    | nil => exact fun _ => le_refl _
    | cons op ops ih =>
      intro s h
      obtain ⟨hinv, hraise, -⟩ := hstep s op h
      exact le_trans hraise (ih hinv)
  intro ops
  induction ops with
  | nil => exact fun _ => ⟨fun _ => trivial, fun _ => rfl⟩
  | cons op ops ih =>
    intro s h
    obtain ⟨hinv, hraise, hiff⟩ := hstep s op h
    rw [run_cons, Steps, ← ih hinv, ← hiff]
    constructor
    · intro heq
      have hkeep : f (apply s op) = f s := le_antisymm (heq ▸ hle hinv) hraise
      exact ⟨hkeep, heq.trans hkeep.symm⟩
    · rintro ⟨hkeep, heq⟩
      exact heq.trans hkeep

/-! ### Histories -/

@[simp] lemma run_concat (s : σ) (ops : List α) (op : α) :
    run apply s (ops ++ [op]) = apply (run apply s ops) op := by
  rw [run, run, List.foldl_append, List.foldl_cons, List.foldl_nil]

/-- An operation that has the property, after those before it, is among the operations. -/
def Happened (P : List α → α → Prop) (ops : List α) : Prop :=
  ∃ past op future, ops = past ++ op :: future ∧ P past op

/-- At first nothing has happened. -/
lemma not_happened_nil {P : List α → α → Prop} : ¬ Happened P [] := by
  rintro ⟨past, op, future, h, -⟩
  exact List.append_ne_nil_of_right_ne_nil past (List.cons_ne_nil op future) h.symm

/-- What has happened after one more operation. -/
lemma happened_concat {P : List α → α → Prop} {ops : List α} {op : α} :
    Happened P (ops ++ [op]) ↔ Happened P ops ∨ P ops op := by
  constructor
  · rintro ⟨past, op', future, h, hP⟩
    rcases List.eq_nil_or_concat future with rfl | ⟨future', last, rfl⟩
    · obtain ⟨rfl, hop⟩ := List.append_inj' h rfl
      cases hop
      exact Or.inr hP
    · rw [List.concat_eq_append, ← List.cons_append, ← List.append_assoc] at h
      exact Or.inl ⟨past, op', future', (List.append_inj' h rfl).1, hP⟩
  · rintro (⟨past, op', future, rfl, hP⟩ | hP)
    · exact ⟨past, op', future ++ [op], by rw [List.append_assoc, List.cons_append], hP⟩
    · exact ⟨ops, op, [], rfl, hP⟩

/-- **The history rule**: let `V` be a property of lists of operations that initial parts inherit.
What holds at the start, and is kept by one more operation as long as `V` holds, holds after every
list of operations with `V`. -/
theorem history_rule (Inv : List α → σ → Prop) {V : List α → Prop} {s : σ}
    (hinit : ∀ past op, V (past ++ [op]) → V past) (hstart : Inv [] s)
    (hstep : ∀ past op, V (past ++ [op]) → Inv past (run apply s past) →
      Inv (past ++ [op]) (apply (run apply s past) op)) :
    ∀ {ops : List α}, V ops → Inv ops (run apply s ops) := by
  intro ops
  induction ops using List.reverseRecOn with
  | nil => exact fun _ => hstart
  | append_singleton past op ih =>
    intro hV
    rw [run_concat]
    exact hstep past op hV (ih (hinit past op hV))

end Runs
