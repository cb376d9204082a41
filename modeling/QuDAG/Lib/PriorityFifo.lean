import Mathlib.Data.List.MinMax
import Mathlib.Data.List.Perm.Basic

/-!
# Priority queues that are first in, first out

The items that wait are a list, the oldest first, and each has a rank. The next item to be served is
the oldest of the lowest rank. A program may keep a queue for every rank; then the next item is the
first one of the first queue that is not empty.

A ledger follows a queue over a run. It numbers the items as they arrive, and records which of them
wait, which were served and which were removed.

## Main definitions

* `PriorityFifo.serve` — the next item, and those that are left.
* `PriorityFifo.queue` — the items of a rank.
* `PriorityFifo.Ledger` — a ledger, with `arrive`, `serve` and `retain`.
* `PriorityFifo.Ledger.contents` — the items that wait.
* `PriorityFifo.Ledger.Balanced` — every item that arrived is waiting, served or removed, once.

## Main results

* `PriorityFifo.serve_cases` — what is served, and what is left.
* `PriorityFifo.serve_of_queue` — how to serve from a queue for every rank.
* `PriorityFifo.Ledger.balanced_arrive`, `PriorityFifo.Ledger.balanced_serve`,
  `PriorityFifo.Ledger.balanced_retain` — a ledger stays balanced.
-/

namespace PriorityFifo

variable {α : Type} (rank : α → ℕ)

/-- Whether no item of the list has a lower rank. -/
def foremost (l : List α) (a : α) : Bool := l.all fun b => rank a ≤ rank b

/-- The oldest item of the lowest rank, and the items that are left without it. -/
def serve (l : List α) : Option α × List α :=
  (l.find? (foremost rank l), l.eraseP (foremost rank l))

/-- The items of a rank, the oldest first. -/
def queue (r : ℕ) (l : List α) : List α := l.filter fun a => rank a = r

variable {rank} {l : List α}

@[simp] lemma queue_append (r : ℕ) (l₁ l₂ : List α) :
    queue rank r (l₁ ++ l₂) = queue rank r l₁ ++ queue rank r l₂ := List.filter_append ..

lemma foremost_iff {a : α} : foremost rank l a = true ↔ ∀ b ∈ l, rank a ≤ rank b := by
  simp [foremost]

/-- A list of items has one of the lowest rank. -/
lemma exists_foremost (rank : α → ℕ) (h : l ≠ []) : ∃ a ∈ l, foremost rank l a = true := by
  cases hmin : l.argmin rank with
  | none => exact absurd (List.argmin_eq_none.mp hmin) h
  | some a =>
    refine ⟨a, List.argmin_mem hmin, foremost_iff.mpr fun b hb => ?_⟩
    exact List.le_of_mem_argmin hb hmin

/-- Serving depends on the ranks alone. -/
lemma serve_map {β : Type} (f : β → α) (l : List β) :
    serve rank (l.map f) =
      ((serve (fun b => rank (f b)) l).1.map f, (serve (fun b => rank (f b)) l).2.map f) := by
  have hcomp : foremost rank (l.map f) ∘ f = foremost (fun b => rank (f b)) l := by
    funext b
    simp [foremost, List.all_map, Function.comp_def]
  simp only [serve, List.find?_map, List.eraseP_map, hcomp]

/-- **What is served**: nothing if no item waits, and else an item that is before all of the same
rank, and of no higher rank than the others. -/
theorem serve_cases (rank : α → ℕ) (l : List α) :
    l = [] ∧ serve rank l = (none, []) ∨
      ∃ a before after, l = before ++ a :: after ∧ serve rank l = (some a, before ++ after) ∧
        (∀ b ∈ before, rank a < rank b) ∧ ∀ b ∈ after, rank a ≤ rank b := by
  by_cases hl : l = []
  · subst hl
    exact .inl ⟨rfl, rfl⟩
  · obtain ⟨c, hc, hforemost⟩ := exists_foremost rank hl
    obtain ⟨a, ha⟩ : ∃ a, l.find? (foremost rank l) = some a :=
      Option.isSome_iff_exists.mp (List.find?_isSome.mpr ⟨c, hc, hforemost⟩)
    obtain ⟨hfirst, before, after, heq, hbefore⟩ := List.find?_eq_some_iff_append.mp ha
    have hmin := foremost_iff.mp hfirst
    have hrest : l.eraseP (foremost rank l) = before ++ after :=
      List.eraseP_eq_iff.mpr
        (.inr ⟨a, before, after, fun b hb => by simpa using hbefore b hb, hfirst, heq, rfl⟩)
    refine .inr ⟨a, before, after, heq, Prod.ext ha hrest, fun b hb => ?_, fun b hb => ?_⟩
    · -- an older item is not of the lowest rank
      have hmem : b ∈ l := heq ▸ List.mem_append_left _ hb
      refine lt_of_le_of_ne (hmin b hmem) fun hrank => ?_
      have hb' : foremost rank l b = true := foremost_iff.mpr fun d hd => hrank ▸ hmin d hd
      simpa [hb'] using hbefore b hb
    · exact hmin b (heq ▸ List.mem_append_right _ (List.mem_cons_of_mem _ hb))

/-- **Serving from a queue for every rank**: the next item is the first one of the first queue that
is not empty, and the other queues do not change. -/
theorem serve_of_queue {r : ℕ} {a : α} {q : List α} (hlower : ∀ s < r, queue rank s l = [])
    (hq : queue rank r l = a :: q) :
    (serve rank l).1 = some a ∧ queue rank r (serve rank l).2 = q ∧
      ∀ s ≠ r, queue rank s (serve rank l).2 = queue rank s l := by
  have ha : a ∈ l ∧ rank a = r := by
    have hmem : a ∈ queue rank r l := hq ▸ List.mem_cons_self
    simpa [queue] using hmem
  have hge : ∀ b ∈ l, r ≤ rank b := by
    intro b hb
    by_contra hlt
    have hmem : b ∈ queue rank (rank b) l := by simpa [queue] using hb
    rw [hlower _ (Nat.lt_of_not_le hlt)] at hmem
    cases hmem
  rcases serve_cases rank l with ⟨rfl, -⟩ | ⟨c, before, after, heq, hserve, hbefore, hafter⟩
  · cases ha.1
  have hc : rank c = r := by
    have hle : rank c ≤ rank a := by
      have hmem : a ∈ before ++ c :: after := heq ▸ ha.1
      rcases List.mem_append.mp hmem with hb | hb
      · exact (hbefore a hb).le
      · rcases List.mem_cons.mp hb with rfl | hb
        · exact le_refl _
        · exact hafter a hb
    exact le_antisymm (hle.trans_eq ha.2) (hge c (heq ▸ by simp))
  have hnone : queue rank r before = [] := by
    refine List.filter_eq_nil_iff.mpr fun b hb => ?_
    simpa using (hc ▸ hbefore b hb).ne'
  have hsplit : queue rank r l = c :: queue rank r after := by
    rw [heq, queue_append, hnone, List.nil_append]
    exact List.filter_cons_of_pos (by simpa using hc)
  obtain ⟨rfl, rfl⟩ := List.cons.inj (hsplit.symm.trans hq)
  rw [hserve]
  refine ⟨rfl, ?_, fun s hs => ?_⟩
  · rw [queue_append, hnone, List.nil_append]
  · have hs' : queue rank s (c :: after) = queue rank s after :=
      List.filter_cons_of_neg (by simpa [hc] using hs.symm)
    rw [heq, queue_append, queue_append, hs']

/-! ## The ledger -/

/-- The items that arrived, and what became of each of them. An item is listed with its number. -/
structure Ledger (α : Type) where
  /-- The items in the order of their arrival. -/
  arrivals : List α
  /-- Those that wait, the oldest first. -/
  waiting : List (α × ℕ)
  /-- Those that were served. -/
  served : List (α × ℕ)
  /-- Those that were removed. -/
  removed : List (α × ℕ)

namespace Ledger

/-- Nothing has arrived. -/
def empty : Ledger α := ⟨[], [], [], []⟩

/-- An item arrives. -/
def arrive (s : Ledger α) (a : α) : Ledger α :=
  { s with
    arrivals := s.arrivals ++ [a]
    waiting := s.waiting ++ [(a, s.arrivals.length)] }

/-- The next item is served. -/
def serve (rank : α → ℕ) (s : Ledger α) : Ledger α :=
  let result := PriorityFifo.serve (fun e : α × ℕ => rank e.1) s.waiting
  { s with
    waiting := result.2
    served := s.served ++ result.1.toList }

/-- The items that do not pass a test are removed. -/
def retain (keep : α → Bool) (s : Ledger α) : Ledger α :=
  { s with
    waiting := s.waiting.filter fun e => keep e.1
    removed := s.removed ++ s.waiting.filter fun e => !keep e.1 }

/-- The items that wait, without their numbers. -/
def contents (s : Ledger α) : List α := s.waiting.map Prod.fst

@[simp] lemma contents_arrive (s : Ledger α) (a : α) :
    (s.arrive a).contents = s.contents ++ [a] := by simp [contents, arrive]

@[simp] lemma contents_serve (rank : α → ℕ) (s : Ledger α) :
    (s.serve rank).contents = (PriorityFifo.serve rank s.contents).2 := by
  simp only [contents, serve, serve_map]

@[simp] lemma contents_retain (keep : α → Bool) (s : Ledger α) :
    (s.retain keep).contents = s.contents.filter keep := by
  simp only [contents, retain, List.filter_map, Function.comp_def]

/-- Every item that arrived is waiting, was served or was removed, exactly one of these and once.
Those that wait are in the order of their arrival. -/
structure Balanced (s : Ledger α) : Prop where
  account : (s.waiting ++ s.served ++ s.removed).Perm s.arrivals.zipIdx
  ordered : s.waiting.Pairwise fun e e' => e.2 < e'.2

variable {s : Ledger α}

lemma balanced_empty : (empty : Ledger α).Balanced := ⟨List.Perm.refl _, List.Pairwise.nil⟩

/-- The numbers of the items that wait have been given. -/
lemma Balanced.lt_length (h : s.Balanced) {e : α × ℕ} (he : e ∈ s.waiting) :
    e.2 < s.arrivals.length := by
  have hmem : e ∈ s.arrivals.zipIdx :=
    h.account.subset (List.mem_append_left _ (List.mem_append_left _ he))
  obtain ⟨-, hlt, -⟩ := List.mem_zipIdx (x := e.1) (i := e.2) hmem
  simpa using hlt

lemma balanced_arrive (h : s.Balanced) (a : α) : (s.arrive a).Balanced where
  account := by
    have hlast : (s.arrivals ++ [a]).zipIdx = s.arrivals.zipIdx ++ [(a, s.arrivals.length)] := by
      simp [List.zipIdx_append]
    show (s.waiting ++ [_] ++ s.served ++ s.removed).Perm (s.arrivals ++ [a]).zipIdx
    rw [hlast, List.append_assoc s.waiting, List.append_assoc s.waiting, ← List.append_assoc]
    refine List.Perm.trans ?_ (h.account.append_right _)
    have hmove : ([(a, s.arrivals.length)] ++ s.served ++ s.removed).Perm
        (s.served ++ s.removed ++ [(a, s.arrivals.length)]) := by
      rw [List.append_assoc]
      exact List.perm_append_comm
    simpa [List.append_assoc] using hmove.append_left s.waiting
  ordered := by
    refine List.pairwise_append.mpr ⟨h.ordered, List.pairwise_singleton _ _, fun e he e' he' => ?_⟩
    rw [List.mem_singleton.mp he']
    exact h.lt_length he

lemma balanced_serve (h : s.Balanced) (rank : α → ℕ) : (s.serve rank).Balanced := by
  rcases serve_cases (fun e : α × ℕ => rank e.1) s.waiting with
    ⟨hnil, hserve⟩ | ⟨e, before, after, heq, hserve, -, -⟩
  · have hwaiting : (s.serve rank).waiting = s.waiting := by rw [serve, hserve, hnil]
    have hserved : (s.serve rank).served = s.served := by simp [serve, hserve]
    exact ⟨hwaiting.symm ▸ hserved.symm ▸ h.account, hwaiting.symm ▸ h.ordered⟩
  · have hwaiting : (s.serve rank).waiting = before ++ after := by simp only [serve, hserve]
    have hserved : (s.serve rank).served = s.served ++ [e] := by
      simp only [serve, hserve, Option.toList_some]
    constructor
    · refine List.Perm.trans ?_ h.account
      rw [hwaiting, hserved, heq]
      refine List.Perm.append_right _ ?_
      have hmiddle : (before ++ after ++ (s.served ++ [e])).Perm
          (e :: (before ++ after ++ s.served)) := by
        rw [← List.append_assoc]
        exact List.perm_append_singleton _ _
      refine hmiddle.trans ?_
      simpa using (@List.perm_middle _ e before (after ++ s.served)).symm
    · rw [hwaiting]
      refine h.ordered.sublist ?_
      rw [heq]
      exact (List.Sublist.refl before).append (List.sublist_cons_self e after)

lemma balanced_retain (h : s.Balanced) (keep : α → Bool) : (s.retain keep).Balanced where
  account := by
    refine List.Perm.trans ?_ h.account
    show (s.waiting.filter _ ++ s.served ++ (s.removed ++ s.waiting.filter _)).Perm _
    have hsplit : (s.waiting.filter (fun e => keep e.1) ++
        s.waiting.filter fun e => !keep e.1).Perm s.waiting :=
      List.filter_append_perm (fun e : α × ℕ => keep e.1) s.waiting
    rw [List.append_assoc, List.append_assoc]
    refine List.Perm.trans (List.Perm.append_left _ ?_)
      ((List.append_assoc _ _ _ ▸ hsplit.append_right (s.served ++ s.removed)))
    rw [← List.append_assoc]
    exact List.perm_append_comm
  ordered := h.ordered.filter _

end Ledger

end PriorityFifo
