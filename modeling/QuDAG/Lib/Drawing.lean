import Mathlib.Algebra.GroupWithZero.Nat
import Mathlib.Data.List.Perm.Basic

/-!
# Drawing without replacement

Elements of a list are drawn one after the other, each by a random number: in proportion to their
weights, and uniformly if nothing that is left has a weight. Some elements are marked. How many
draws take away all marked elements in the worst case depends on whether one of them has no weight:
such an element is drawn only after all elements with a weight are.

## Main definitions

* `Drawing.draw`, `Drawing.draws` — draw an element, and one for each of a list of numbers.
* `Drawing.cost` — the least number of draws after which there may be no marked element.

## Main results

* `Drawing.draw_perm`, `Drawing.draws_perm` — what is drawn and what is left.
* `Drawing.exists_marked_of_lt_cost`, `Drawing.exists_draws_of_cost_le` — a marked element is left
  after all draws of some number iff that number is below the cost.
-/

namespace Drawing

open List

variable {α : Type} (weight : α → ℕ)

/-- The element at which the weights pass the target, and what is left. -/
def pick : ℕ → List α → Option (α × List α)
  | _, [] => none
  | target, x :: l =>
    if target < weight x then some (x, l)
    else (pick (target - weight x) l).map fun r => (r.1, x :: r.2)

/-- Draw an element by a random number: one with a weight, or any one if none has a weight. -/
def draw (n : ℕ) (l : List α) : Option (α × List α) :=
  if (l.map weight).sum = 0 then
    l[n % l.length]?.map fun x => (x, l.eraseIdx (n % l.length))
  else pick weight (n % (l.map weight).sum) l

/-- Draw an element for each random number: what is drawn, and what is left. -/
def draws : List ℕ → List α → Option (List α × List α)
  | [], l => some ([], l)
  | n :: ns, l =>
    (draw weight n l).bind fun r => (draws ns r.2).map fun s => (r.1 :: s.1, s.2)

variable {weight}

/-! ## One draw -/

section Draw

variable {x : α} {l rest : List α} {n target : ℕ}

/-- What is picked has a weight, and the others are left. -/
lemma pick_perm (h : pick weight target l = some (x, rest)) : l ~ x :: rest ∧ 0 < weight x := by
  induction l generalizing target rest with
  | nil => cases h
  | cons y l ih =>
    rw [pick] at h
    split_ifs at h with hy
    · cases h
      exact ⟨Perm.refl _, Nat.zero_lt_of_lt hy⟩
    · obtain ⟨⟨x', rest'⟩, hpick, heq⟩ := Option.map_eq_some_iff.mp h
      cases heq
      obtain ⟨hperm, hpos⟩ := ih hpick
      exact ⟨(hperm.cons y).trans (Perm.swap _ _ _), hpos⟩

/-- A target below the sum of the weights picks. -/
lemma exists_pick (h : target < (l.map weight).sum) : ∃ r, pick weight target l = some r := by
  induction l generalizing target with
  | nil => cases h
  | cons y l ih =>
    rw [pick]
    split_ifs with hy
    · exact ⟨_, rfl⟩
    · rw [List.map_cons, List.sum_cons] at h
      have hlt : target - weight y < (l.map weight).sum := by omega
      obtain ⟨r, hr⟩ := ih hlt
      exact ⟨(r.1, y :: r.2), by rw [hr, Option.map_some]⟩

/-- Every element with a weight is picked by some target below the sum. -/
lemma exists_pick_eq (hx : x ∈ l) (hpos : 0 < weight x) :
    ∃ target rest, target < (l.map weight).sum ∧ pick weight target l = some (x, rest) := by
  induction l with
  | nil => cases hx
  | cons y l ih =>
    rw [List.map_cons, List.sum_cons]
    rcases List.mem_cons.mp hx with rfl | hx
    · exact ⟨0, l, Nat.lt_add_right _ hpos, by rw [pick, if_pos hpos]⟩
    · obtain ⟨target, rest, hlt, hpick⟩ := ih hx
      refine ⟨weight y + target, y :: rest, Nat.add_lt_add_left hlt _, ?_⟩
      rw [pick, if_neg (Nat.not_lt.mpr (Nat.le_add_right _ _)), Nat.add_sub_cancel_left, hpick,
        Option.map_some]

/-- What is drawn has a weight if anything has, and the others are left. -/
lemma draw_perm (h : draw weight n l = some (x, rest)) :
    l ~ x :: rest ∧ (0 < weight x ∨ ∀ y ∈ l, weight y = 0) := by
  rw [draw] at h
  split_ifs at h with hzero
  · obtain ⟨x', hx', heq⟩ := Option.map_eq_some_iff.mp h
    cases heq
    obtain ⟨hlt, rfl⟩ := List.getElem?_eq_some_iff.mp hx'
    refine ⟨(List.getElem_cons_eraseIdx_perm hlt).symm, .inr fun y hy => ?_⟩
    exact List.sum_eq_zero_iff_forall_eq_nat.mp hzero _ (List.mem_map_of_mem hy)
  · obtain ⟨hperm, hpos⟩ := pick_perm h
    exact ⟨hperm, .inl hpos⟩

/-- Something is drawn unless nothing is there. -/
lemma exists_draw (h : l ≠ []) : ∃ r, draw weight n l = some r := by
  rw [draw]
  split_ifs with hzero
  · have hlt : n % l.length < l.length := Nat.mod_lt _ (List.length_pos_iff.mpr h)
    exact ⟨_, by rw [List.getElem?_eq_getElem hlt, Option.map_some]⟩
  · exact exists_pick (Nat.mod_lt _ (Nat.pos_of_ne_zero hzero))

/-- An element with a weight may be drawn. -/
lemma exists_draw_eq_of_pos (hx : x ∈ l) (hpos : 0 < weight x) :
    ∃ n rest, draw weight n l = some (x, rest) := by
  obtain ⟨target, rest, hlt, hpick⟩ := exists_pick_eq hx hpos
  refine ⟨target, rest, ?_⟩
  rw [draw, if_neg (Nat.ne_of_gt (Nat.zero_lt_of_lt hlt)), Nat.mod_eq_of_lt hlt, hpick]

/-- Every element may be drawn if nothing has a weight. -/
lemma exists_draw_eq_of_zero (hx : x ∈ l) (hzero : ∀ y ∈ l, weight y = 0) :
    ∃ n rest, draw weight n l = some (x, rest) := by
  obtain ⟨i, hi, rfl⟩ := List.getElem_of_mem hx
  have hsum : (l.map weight).sum = 0 := List.sum_eq_zero_iff_forall_eq_nat.mpr fun w hw => by
    obtain ⟨y, hy, rfl⟩ := List.mem_map.mp hw
    exact hzero y hy
  refine ⟨i, l.eraseIdx i, ?_⟩
  rw [draw, if_pos hsum, Nat.mod_eq_of_lt hi, List.getElem?_eq_getElem hi, Option.map_some]

end Draw

/-! ## Many draws -/

section Draws

variable {l taken rest : List α} {ns : List ℕ}

/-- What is drawn and what is left is what was there, and one element is drawn by each number. -/
lemma draws_perm (h : draws weight ns l = some (taken, rest)) :
    l ~ taken ++ rest ∧ taken.length = ns.length := by
  induction ns generalizing l taken with
  | nil =>
    cases h
    exact ⟨Perm.refl _, rfl⟩
  | cons n ns ih =>
    rw [draws] at h
    obtain ⟨⟨x, left⟩, hdraw, h⟩ := Option.bind_eq_some_iff.mp h
    obtain ⟨⟨taken', rest'⟩, hdraws, heq⟩ := Option.map_eq_some_iff.mp h
    cases heq
    obtain ⟨hperm, hlength⟩ := ih hdraws
    exact ⟨(draw_perm hdraw).1.trans (hperm.cons x), congrArg Nat.succ hlength⟩

/-- The draws succeed as long as there is something left. -/
lemma exists_draws (h : ns.length ≤ l.length) : ∃ r, draws weight ns l = some r := by
  induction ns generalizing l with
  | nil => exact ⟨_, rfl⟩
  | cons n ns ih =>
    have hne : l ≠ [] := List.ne_nil_of_length_pos (Nat.zero_lt_of_lt h)
    obtain ⟨⟨x, left⟩, hdraw⟩ := exists_draw hne
    have hlength : l.length = left.length + 1 := (draw_perm hdraw).1.length_eq
    obtain ⟨r, hr⟩ := ih (l := left) (by rw [List.length_cons] at h; omega)
    exact ⟨(x :: r.1, r.2), by rw [draws, hdraw, Option.bind_some, hr, Option.map_some]⟩

end Draws

/-! ## Marked elements -/

section Marked

variable (weight) (marked : α → Bool)

/-- An element is marked and has no weight. -/
def light (x : α) : Bool := marked x && decide (weight x = 0)

/-- The least number of draws after which there may be no marked element. One without a weight
waits until all elements with a weight are drawn. -/
def cost (l : List α) : ℕ :=
  if l.countP (light weight marked) = 0 then l.countP marked
  else l.countP (fun x => decide (0 < weight x)) + l.countP (light weight marked)

variable {weight marked} {l rest : List α} {x : α} {n : ℕ}

/-- The cost does not depend on the order. -/
lemma cost_perm {l' : List α} (h : l ~ l') : cost weight marked l = cost weight marked l' := by
  rw [cost, cost, h.countP_eq, h.countP_eq, h.countP_eq]

/-- There is no cost iff there is no marked element. -/
lemma cost_eq_zero_iff : cost weight marked l = 0 ↔ ∀ x ∈ l, marked x = false := by
  rw [cost]
  split_ifs with hlight
  · simp [List.countP_eq_zero]
  · have hexists : ∃ x ∈ l, light weight marked x = true :=
      List.countP_pos_iff.mp (Nat.pos_of_ne_zero hlight)
    obtain ⟨x, hx, hlightx⟩ := hexists
    refine ⟨fun h => absurd (Nat.eq_zero_of_add_eq_zero_left h) hlight, fun h => ?_⟩
    rw [light, h x hx, Bool.false_and] at hlightx
    cases hlightx

/-- The cost with one more element that has a weight. -/
lemma cost_cons_of_pos (hx : 0 < weight x) :
    cost weight marked (x :: l) =
      if l.countP (light weight marked) = 0 then l.countP marked + (marked x).toNat
      else cost weight marked l + 1 := by
  have hlight : light weight marked x = false := by
    rw [light, decide_eq_false (Nat.ne_of_gt hx), Bool.and_false]
  rw [cost, cost, List.countP_cons_of_neg (by rw [hlight]; exact Bool.false_ne_true)]
  split_ifs with hzero
  · cases hmarked : marked x <;> simp [hmarked]
  · rw [List.countP_cons, if_pos (decide_eq_true hx)]
    omega

/-- Without weights, the cost is the number of marked elements. -/
lemma cost_of_zero (hzero : ∀ y ∈ l, weight y = 0) : cost weight marked l = l.countP marked := by
  have hlight : l.countP (light weight marked) = l.countP marked :=
    List.countP_congr fun x hx => by rw [light, decide_eq_true (hzero x hx), Bool.and_true]
  have hweight : l.countP (fun x => decide (0 < weight x)) = 0 :=
    List.countP_eq_zero.mpr fun x hx => by simp [hzero x hx]
  rw [cost, hlight, hweight, Nat.zero_add, ite_self]

/-- **A draw lowers the cost by at most one.** -/
lemma cost_le_of_draw (h : draw weight n l = some (x, rest)) :
    cost weight marked l ≤ cost weight marked rest + 1 := by
  obtain ⟨hperm, hweight⟩ := draw_perm h
  rw [cost_perm hperm]
  rcases hweight with hpos | hzero
  · rw [cost_cons_of_pos hpos]
    split_ifs with hlight
    · have hmarked := (marked x).toNat_le
      rw [cost, if_pos hlight]
      omega
    · exact Nat.le_refl _
  · have hall : ∀ y ∈ x :: rest, weight y = 0 := fun y hy => hzero y (hperm.mem_iff.mpr hy)
    rw [cost_of_zero hall, cost_of_zero fun y hy => hall y (List.mem_cons_of_mem _ hy),
      List.countP_cons]
    split_ifs <;> omega

/-- **Some draw lowers the cost** if there is one. -/
lemma exists_draw_cost (h : cost weight marked l ≠ 0) :
    ∃ n x rest, draw weight n l = some (x, rest) ∧
      cost weight marked rest + 1 = cost weight marked l := by
  by_cases hzero : ∀ y ∈ l, weight y = 0
  · -- no weights: a marked element may be drawn
    rw [cost_of_zero hzero] at h
    obtain ⟨x, hx, hmarked⟩ := List.countP_pos_iff.mp (Nat.pos_of_ne_zero h)
    obtain ⟨n, rest, hdraw⟩ := exists_draw_eq_of_zero hx hzero
    have hperm := (draw_perm hdraw).1
    refine ⟨n, x, rest, hdraw, ?_⟩
    rw [cost_of_zero hzero, hperm.countP_eq, List.countP_cons_of_pos hmarked,
      cost_of_zero fun y hy => hzero y (hperm.mem_iff.mpr (List.mem_cons_of_mem _ hy))]
  · by_cases hlight : l.countP (light weight marked) = 0
    · -- every marked element has a weight: one of them may be drawn
      rw [cost, if_pos hlight] at h
      obtain ⟨x, hx, hmarked⟩ := List.countP_pos_iff.mp (Nat.pos_of_ne_zero h)
      have hpos : 0 < weight x := Nat.pos_of_ne_zero fun hx0 => by
        refine List.countP_eq_zero.mp hlight x hx ?_
        rw [light, hmarked, decide_eq_true hx0, Bool.and_true]
      obtain ⟨n, rest, hdraw⟩ := exists_draw_eq_of_pos hx hpos
      have hperm := (draw_perm hdraw).1
      have hrest : rest.countP (light weight marked) = 0 := by
        rw [hperm.countP_eq, List.countP_cons] at hlight
        exact Nat.eq_zero_of_add_eq_zero_right hlight
      refine ⟨n, x, rest, hdraw, ?_⟩
      rw [cost_perm hperm, cost_cons_of_pos hpos, if_pos hrest, cost, if_pos hrest, hmarked,
        Bool.toNat_true]
    · -- a marked element has no weight: first one with a weight has to be drawn
      obtain ⟨x, hx, hxne⟩ : ∃ x ∈ l, weight x ≠ 0 := by
        by_contra hall
        exact hzero fun y hy => by_contra fun hne => hall ⟨y, hy, hne⟩
      have hpos : 0 < weight x := Nat.pos_of_ne_zero hxne
      obtain ⟨n, rest, hdraw⟩ := exists_draw_eq_of_pos hx hpos
      have hperm := (draw_perm hdraw).1
      have hrest : rest.countP (light weight marked) ≠ 0 := by
        rw [hperm.countP_eq, List.countP_cons_of_neg (by simp [light, hxne])] at hlight
        exact hlight
      refine ⟨n, x, rest, hdraw, ?_⟩
      rw [cost_perm hperm, cost_cons_of_pos hpos, if_neg hrest]

variable {ns : List ℕ} {taken : List α}

/-- Draws lower the cost by at most their number. -/
lemma cost_le_of_draws (h : draws weight ns l = some (taken, rest)) :
    cost weight marked l ≤ cost weight marked rest + ns.length := by
  induction ns generalizing l taken with
  | nil =>
    cases h
    exact Nat.le_refl _
  | cons n ns ih =>
    rw [draws] at h
    obtain ⟨⟨x, left⟩, hdraw, h⟩ := Option.bind_eq_some_iff.mp h
    obtain ⟨⟨taken', rest'⟩, hdraws, heq⟩ := Option.map_eq_some_iff.mp h
    cases heq
    rw [List.length_cons]
    calc cost weight marked l
      _ ≤ cost weight marked left + 1 := cost_le_of_draw hdraw
      _ ≤ cost weight marked rest' + ns.length + 1 := Nat.succ_le_succ (ih hdraws)

/-- **A marked element is left** after fewer draws than the cost. -/
lemma exists_marked_of_lt_cost (h : draws weight ns l = some (taken, rest))
    (hlt : ns.length < cost weight marked l) : ∃ x ∈ rest, marked x = true := by
  have hcost : cost weight marked l ≤ cost weight marked rest + ns.length := cost_le_of_draws h
  by_contra hnone
  have hzero : cost weight marked rest = 0 :=
    cost_eq_zero_iff.mpr fun x hx => Bool.eq_false_iff.mpr fun hm => hnone ⟨x, hx, hm⟩
  omega

/-- **No marked element is left** after some draws, as many as the cost or more. -/
lemma exists_draws_of_cost_le {k : ℕ} (hcost : cost weight marked l ≤ k) (hk : k ≤ l.length) :
    ∃ ns taken rest, ns.length = k ∧ draws weight ns l = some (taken, rest) ∧
      ∀ x ∈ rest, marked x = false := by
  induction k generalizing l with
  | zero => exact ⟨[], [], l, rfl, rfl, cost_eq_zero_iff.mp (Nat.le_zero.mp hcost)⟩
  | succ k ih =>
    -- a draw after which the cost is at most the number of draws that are left
    obtain ⟨n, x, left, hdraw, hleft⟩ : ∃ n x left, draw weight n l = some (x, left) ∧
        cost weight marked left ≤ k := by
      by_cases hzero : cost weight marked l = 0
      · obtain ⟨⟨x, left⟩, hdraw⟩ : ∃ r, draw weight 0 l = some r :=
          exists_draw (List.ne_nil_of_length_pos (Nat.zero_lt_of_lt hk))
        have hnone : cost weight marked left = 0 := cost_eq_zero_iff.mpr fun y hy =>
          cost_eq_zero_iff.mp hzero y
            ((draw_perm hdraw).1.mem_iff.mpr (List.mem_cons_of_mem _ hy))
        exact ⟨0, x, left, hdraw, hnone ▸ Nat.zero_le k⟩
      · obtain ⟨n, x, left, hdraw, hcosts⟩ := exists_draw_cost hzero
        exact ⟨n, x, left, hdraw, by omega⟩
    have hlength : l.length = left.length + 1 := (draw_perm hdraw).1.length_eq
    obtain ⟨ns, taken, rest, hns, hdraws, hrest⟩ := ih hleft (by omega)
    refine ⟨n :: ns, x :: taken, rest, congrArg Nat.succ hns, ?_, hrest⟩
    rw [draws, hdraw, Option.bind_some, hdraws, Option.map_some]

end Marked

end Drawing
