import Mathlib.Data.List.NodupEquivFin

/-!
# Ranking by a key

Elements are ranked by a key in a linear order. A stable sort whose comparison is the one of the
keys puts an element with the least key first.

## Main results

* `Ranking.isStrictWeakOrder_of_iff` — a relation that compares keys is a strict weak order.
* `Ranking.head?_mergeSort` — the first element of a sorted list has the least key.
-/

namespace Ranking

variable {α β : Type} [LinearOrder β]

/-- Comparing keys is a strict weak order. -/
lemma isStrictWeakOrder_of_iff {r : α → α → Prop} (key : α → β)
    (h : ∀ a b, r a b ↔ key a < key b) : IsStrictWeakOrder α r where
  irrefl a ha := lt_irrefl _ ((h a a).mp ha)
  trans a b c hab hbc := (h a c).mpr (((h a b).mp hab).trans ((h b c).mp hbc))
  incomp_trans a b c hab hbc := by
    simp only [h, not_lt] at hab hbc ⊢
    exact ⟨hbc.1.trans hab.1, hab.2.trans hbc.2⟩

variable {le : α → α → Bool} {key : α → β} {l : List α}

/-- The first element of a sorted list is one of the list, with the least key. -/
lemma head?_mergeSort (hle : ∀ a b, le a b = true ↔ key a ≤ key b) {a : α}
    (h : (l.mergeSort le).head? = some a) : a ∈ l ∧ ∀ b ∈ l, key a ≤ key b := by
  have hsorted : (l.mergeSort le).Pairwise fun a b => le a b = true :=
    List.pairwise_mergeSort
      (fun a b c hab hbc => (hle a c).mpr (((hle a b).mp hab).trans ((hle b c).mp hbc)))
      (fun a b => by
        rw [Bool.or_eq_true, hle, hle]
        exact le_total _ _) l
  have hmem : ∀ b, b ∈ l.mergeSort le ↔ b ∈ l := fun b => (List.mergeSort_perm l le).mem_iff
  cases hl : l.mergeSort le with
  | nil =>
    rw [hl] at h
    cases h
  | cons a' rest =>
    rw [hl] at h hsorted
    obtain rfl : a' = a := Option.some.inj h
    refine ⟨(hmem a').mp (hl ▸ List.mem_cons_self), fun b hb => ?_⟩
    rcases List.mem_cons.mp (hl ▸ (hmem b).mpr hb) with rfl | hrest
    · exact le_rfl
    · exact (hle a' b).mp (List.rel_of_pairwise_cons hsorted hrest)

/-- Sorting loses nothing. -/
lemma head?_mergeSort_eq_none_iff : (l.mergeSort le).head? = none ↔ l = [] := by
  rw [List.head?_eq_none_iff, ← List.length_eq_zero_iff, (List.mergeSort_perm l le).length_eq,
    List.length_eq_zero_iff]

end Ranking
