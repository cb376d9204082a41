import Mathlib.Data.List.Basic

/-!
# Lines

A list is cut into the lines that a separator completes, and an unfinished line. A reader that
keeps the unfinished line gets the same lines for all ways of cutting the list into chunks.

## Main definitions

* `Lines.split` — the complete lines, and the unfinished one.

## Main results

* `Lines.split_append` — the lines of two chunks.
-/

namespace Lines

variable {α : Type} [DecidableEq α] (sep : α)

/-- The complete lines of a list, and what comes after the last separator. -/
def split : List α → List (List α) × List α
  | [] => ([], [])
  | a :: l =>
    if a = sep then ([] :: (split l).1, (split l).2)
    else
      match (split l).1 with
      | [] => ([], a :: (split l).2)
      | line :: lines => ((a :: line) :: lines, (split l).2)

variable {sep}

/-- An element that completes a line. -/
lemma split_cons_self (l : List α) :
    split sep (sep :: l) = ([] :: (split sep l).1, (split sep l).2) := by
  rw [split, if_pos rfl]

/-- An element of the unfinished line. -/
lemma split_cons_of_nil {a : α} {l : List α} (ha : a ≠ sep) (h : (split sep l).1 = []) :
    split sep (a :: l) = ([], a :: (split sep l).2) := by
  rw [split, if_neg ha, h]

/-- An element of the first line. -/
lemma split_cons_of_cons {a : α} {l line : List α} {lines : List (List α)} (ha : a ≠ sep)
    (h : (split sep l).1 = line :: lines) :
    split sep (a :: l) = ((a :: line) :: lines, (split sep l).2) := by
  rw [split, if_neg ha, h]

/-- A list without separators is an unfinished line. -/
lemma split_of_notMem {l : List α} (h : sep ∉ l) : split sep l = ([], l) := by
  induction l with
  | nil => rfl
  | cons a l ih =>
    have hl := ih fun hmem => h (List.mem_cons_of_mem _ hmem)
    have ha : a ≠ sep := fun heq => h (heq ▸ List.mem_cons_self)
    rw [split_cons_of_nil ha (by rw [hl]), hl]

/-- The unfinished line has no separator. -/
lemma notMem_snd_split (l : List α) : sep ∉ (split sep l).2 := by
  induction l with
  | nil => exact List.not_mem_nil
  | cons a l ih =>
    by_cases ha : a = sep
    · rw [ha, split_cons_self]
      exact ih
    · cases hlines : (split sep l).1 with
      | nil =>
        rw [split_cons_of_nil ha hlines, List.mem_cons, not_or]
        exact ⟨Ne.symm ha, ih⟩
      | cons line lines =>
        rw [split_cons_of_cons ha hlines]
        exact ih

/-- The unfinished line is not longer than the list. -/
lemma length_snd_split_le (l : List α) : (split sep l).2.length ≤ l.length := by
  induction l with
  | nil => exact Nat.le_refl 0
  | cons a l ih =>
    by_cases ha : a = sep
    · rw [ha, split_cons_self]
      exact Nat.le_succ_of_le ih
    · cases hlines : (split sep l).1 with
      | nil =>
        rw [split_cons_of_nil ha hlines]
        exact Nat.succ_le_succ ih
      | cons line lines =>
        rw [split_cons_of_cons ha hlines]
        exact Nat.le_succ_of_le ih

/-- **The lines of two chunks**: the unfinished line of the first one is put before the second. -/
theorem split_append (l l' : List α) : split sep (l ++ l') =
    ((split sep l).1 ++ (split sep ((split sep l).2 ++ l')).1,
      (split sep ((split sep l).2 ++ l')).2) := by
  induction l with
  | nil => rfl
  | cons a l ih =>
    by_cases ha : a = sep
    · rw [ha, List.cons_append, split_cons_self, split_cons_self, ih, List.cons_append]
    · cases hlines : (split sep l).1 with
      | nil =>
        rw [hlines, List.nil_append] at ih
        rw [split_cons_of_nil ha hlines]
        simp only [List.nil_append, List.cons_append]
        cases hrest : (split sep ((split sep l).2 ++ l')).1 with
        | nil =>
          rw [split_cons_of_nil ha (by rw [ih, hrest]), split_cons_of_nil ha hrest, ih]
        | cons line lines =>
          have hwhole : (split sep (l ++ l')).1 = line :: lines := by rw [ih, hrest]
          rw [split_cons_of_cons ha hwhole, split_cons_of_cons ha hrest, ih]
      | cons line lines =>
        rw [hlines, List.cons_append] at ih
        rw [split_cons_of_cons ha hlines, List.cons_append, List.cons_append,
          split_cons_of_cons ha (congrArg Prod.fst ih), ih]

/-- Lines stay lines when more comes. -/
lemma mem_fst_split_append {l line : List α} (h : line ∈ (split sep l).1) (l' : List α) :
    line ∈ (split sep (l ++ l')).1 := by
  rw [split_append]
  exact List.mem_append_left _ h

end Lines
