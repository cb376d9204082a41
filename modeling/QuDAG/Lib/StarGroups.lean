import QuDAG.Lib.Collections

/-!
# Greedy star groups

Elements are visited in some order. An element not yet in a group becomes the center of a new
group and takes along all related elements that are in no group yet; the heaviest element of a
group, the first one among equals, survives. The survivors may depend on the order. This module
says exactly when they do not.

## Main definitions

* `StarGroups.gathered`, `StarGroups.best`, `StarGroups.groups`, `StarGroups.survivors`.
* `StarGroups.Leader` — an element that survives in every order: it outweighs everything within two
  steps, and its neighbours are neighbours of each other.

## Main results

* `StarGroups.mem_losers_iff` — every element either survives or loses in its group.
* `StarGroups.leader_of_independent` — if the order does not matter, every survivor is a leader.
* `StarGroups.mem_survivors_of_leaders` — where every element has a leader in its neighbourhood, the
  survivors are the leaders, in every order.
* `StarGroups.survivors_independent_iff` — the survivors are the same in all orders iff every
  element has a leader in its neighbourhood.
-/

namespace StarGroups

open RustStd

variable {ι K : Type} [LinearOrder K]

/-! ## Leaders -/

section Leaders

variable (R : ι → ι → Bool) (weight : ι → K)

/-- The elements of `P` that are related to `v`. -/
def neighbours (P : Finset ι) (v : ι) : Finset ι := P.filter fun u => R v u

/-- An element whose neighbours are related to all its neighbours, and which outweighs all their
other neighbours. -/
def Leader (P : Finset ι) (t : ι) : Prop :=
  t ∈ P ∧ ∀ x ∈ neighbours R P t, neighbours R P t ⊆ neighbours R P x ∧
    ∀ y ∈ neighbours R P x, y ≠ t → weight y < weight t

variable {R} in
lemma mem_neighbours {P : Finset ι} {v u : ι} : u ∈ neighbours R P v ↔ u ∈ P ∧ R v u :=
  Finset.mem_filter

variable {R} in
/-- Being neighbours is mutual. -/
lemma mem_neighbours_comm {P : Finset ι} {u v : ι} (hsymm : ∀ u v, R u v = R v u) (hu : u ∈ P)
    (hv : v ∈ neighbours R P u) : u ∈ neighbours R P v :=
  mem_neighbours.mpr ⟨hu, by rw [hsymm]; exact (mem_neighbours.mp hv).2⟩

end Leaders

/-! ## The heaviest element -/

/-- The heaviest element of a list, the first one among equals. -/
def best (weight : ι → K) : ι → List ι → ι
  | first, [] => first
  | first, u :: rest =>
    if weight first < weight u then best weight u rest else best weight first rest

variable {weight : ι → K}

/-- The heaviest element is in the list and nothing is heavier. -/
lemma best_spec (weight : ι → K) (first : ι) (rest : List ι) :
    best weight first rest ∈ first :: rest ∧
      ∀ u ∈ first :: rest, weight u ≤ weight (best weight first rest) := by
  induction rest generalizing first with
  | nil => simp [best]
  | cons u rest ih =>
    rw [best]
    split_ifs with h
    · obtain ⟨hmem, hmax⟩ := ih u
      refine ⟨List.mem_cons_of_mem _ hmem, fun w hw => ?_⟩
      rcases List.mem_cons.mp hw with rfl | hw
      · exact h.le.trans (hmax u List.mem_cons_self)
      · exact hmax w hw
    · obtain ⟨hmem, hmax⟩ := ih first
      refine ⟨List.cons_subset_cons _ (List.subset_cons_self u rest) hmem, fun w hw => ?_⟩
      rcases List.mem_cons.mp hw with rfl | hw
      · exact hmax w List.mem_cons_self
      · rcases List.mem_cons.mp hw with rfl | hw
        · exact (not_lt.mp h).trans (hmax first List.mem_cons_self)
        · exact hmax w (List.mem_cons_of_mem _ hw)

/-- An element that outweighs all others is the heaviest one. -/
lemma best_eq {first t : ι} {rest : List ι} (ht : t ∈ first :: rest)
    (hlt : ∀ u ∈ first :: rest, u ≠ t → weight u < weight t) : best weight first rest = t := by
  obtain ⟨hmem, hmax⟩ := best_spec weight first rest
  by_contra hne
  exact absurd (hmax t ht) (not_le.mpr (hlt _ hmem hne))

/-- The first element is taken if nothing is heavier. -/
lemma best_eq_first {first : ι} {rest : List ι} (h : ∀ u ∈ rest, weight u ≤ weight first) :
    best weight first rest = first := by
  induction rest with
  | nil => rfl
  | cons u rest ih =>
    rw [best, if_neg (not_lt.mpr (h u List.mem_cons_self))]
    exact ih fun w hw => h w (List.mem_cons_of_mem _ hw)

/-! ## The groups -/

variable [DecidableEq ι]

section Groups

variable (R : ι → ι → Bool) (weight : ι → K)

/-- The elements that the center `v` takes along. -/
def gathered (pending : List ι) (v : ι) (visited : Finset ι) : List ι :=
  pending.filter fun u => u ≠ v ∧ u ∉ visited ∧ R v u

/-- The groups that are formed when the elements `todo` are still to be visited. -/
def groups (pending : List ι) : (todo : List ι) → (visited : Finset ι) → List (ι × List ι)
  | [], _ => []
  | v :: todo, visited =>
    if v ∈ visited then groups pending todo visited
    else
      let rest := gathered R pending v (insert v visited)
      (v, rest) :: groups pending todo (insert v visited ∪ rest.toFinset)

/-- The heaviest elements of the groups. -/
def survivors (pending todo : List ι) (visited : Finset ι) : List ι :=
  (groups R pending todo visited).map fun g => best weight g.1 g.2

/-- The survivors when the elements `v :: todo` are still to be visited. -/
lemma survivors_cons (pending : List ι) (v : ι) (todo : List ι) (visited : Finset ι) :
    survivors R weight pending (v :: todo) visited =
      if v ∈ visited then survivors R weight pending todo visited
      else best weight v (gathered R pending v (insert v visited)) ::
        survivors R weight pending todo
          (insert v visited ∪ (gathered R pending v (insert v visited)).toFinset) := by
  unfold survivors
  rw [groups]
  split_ifs <;> rfl

end Groups

variable {R : ι → ι → Bool} {P : Finset ι} {pending : List ι}

/-- Two leaders that are neighbours of the same element are equal, as each would outweigh the
other. -/
lemma Leader.unique (hsymm : ∀ u v, R u v = R v u) {v t u : ι} (hv : v ∈ P)
    (ht : Leader R weight P t) (htv : t ∈ neighbours R P v)
    (hu : Leader R weight P u) (huv : u ∈ neighbours R P v) : u = t := by
  by_contra hne
  have hlt := (ht.2 v (mem_neighbours_comm hsymm hv htv)).2 u huv hne
  have hgt := (hu.2 v (mem_neighbours_comm hsymm hv huv)).2 t htv (Ne.symm hne)
  exact lt_asymm hlt hgt

/-- A center that is not visited takes along its neighbours that are not visited. -/
lemma mem_group (hpending : HashSet.Enumerates P pending) (hrefl : ∀ v, R v v) {v u : ι}
    {visited : Finset ι} (hv : v ∈ P) (hvis : v ∉ visited) :
    u ∈ v :: gathered R pending v (insert v visited) ↔ u ∈ neighbours R P v ∧ u ∉ visited := by
  unfold gathered
  rw [List.mem_cons, List.mem_filter, hpending.2, mem_neighbours]
  by_cases huv : u = v
  · subst huv
    simp [hv, hvis, hrefl u]
  · simp [huv]
    tauto

/-- After the group of a center all neighbours of the center are visited, and nothing else is
new. -/
lemma mem_visited_next (hpending : HashSet.Enumerates P pending) (hrefl : ∀ v, R v v) {v u : ι}
    {visited : Finset ι} (hv : v ∈ P) (hvis : v ∉ visited) :
    u ∈ insert v visited ∪ (gathered R pending v (insert v visited)).toFinset ↔
      u ∈ visited ∨ u ∈ neighbours R P v := by
  have := mem_group (u := u) hpending hrefl hv hvis
  rw [List.mem_cons] at this
  simp only [Finset.mem_union, Finset.mem_insert, List.mem_toFinset]
  tauto

/-- A survivor was not visited before. -/
lemma survivors_not_visited {todo : List ι} {visited : Finset ι} {w : ι}
    (hw : w ∈ survivors R weight pending todo visited) : w ∉ visited := by
  induction todo generalizing visited with
  | nil => simp [survivors, groups] at hw
  | cons v todo ih =>
    rw [survivors_cons] at hw
    split_ifs at hw with hv
    · exact ih hw
    · rcases List.mem_cons.mp hw with rfl | hw
      · have hmem := (best_spec weight v
          (gathered R pending v (insert v visited))).1
        rcases List.mem_cons.mp hmem with heq | hmem
        · rwa [heq]
        · have := (List.mem_filter.mp hmem).2
          simp only [Finset.mem_insert, not_or, decide_eq_true_eq] at this
          exact this.2.1.2
      · exact fun hmem => ih hw (by simp [hmem])

/-- Only elements survive. -/
lemma mem_of_mem_survivors (hpending : HashSet.Enumerates P pending) {todo : List ι}
    {visited : Finset ι} (htodo : ∀ u ∈ todo, u ∈ P) {w : ι}
    (hw : w ∈ survivors R weight pending todo visited) : w ∈ P := by
  induction todo generalizing visited with
  | nil => simp [survivors, groups] at hw
  | cons v todo ih =>
    have htodo' : ∀ u ∈ todo, u ∈ P := fun u hu => htodo u (List.mem_cons_of_mem _ hu)
    rw [survivors_cons] at hw
    split_ifs at hw with hv
    · exact ih htodo' hw
    · rcases List.mem_cons.mp hw with rfl | hw
      · have hbest := (best_spec weight v (gathered R pending v (insert v visited))).1
        rcases List.mem_cons.mp hbest with heq | hmem
        · rw [heq]
          exact htodo v List.mem_cons_self
        · exact (hpending.2 _).mp (List.mem_filter.mp hmem).1
      · exact ih htodo' hw

/-- Once the groups of the elements `todo` are formed, the elements that lost in their group are
those that were not visited and did not survive. -/
lemma mem_losers_iff (hpending : HashSet.Enumerates P pending) (hrefl : ∀ v, R v v)
    {todo : List ι} {visited : Finset ι} (htodo : ∀ u ∈ todo, u ∈ P)
    (hcover : ∀ u ∈ P, u ∉ visited → u ∈ todo) (u : ι) :
    (∃ g ∈ groups R pending todo visited, u ∈ g.1 :: g.2 ∧ u ≠ best weight g.1 g.2) ↔
      u ∈ P ∧ u ∉ visited ∧ u ∉ survivors R weight pending todo visited := by
  induction todo generalizing visited with
  | nil =>
    simp only [groups, List.not_mem_nil, false_and, exists_false, false_iff, not_and]
    exact fun hu huv => absurd (hcover u hu huv) List.not_mem_nil
  | cons v todo ih =>
    have htodo' : ∀ u ∈ todo, u ∈ P := fun u hu => htodo u (List.mem_cons_of_mem _ hu)
    rw [survivors_cons, groups]
    by_cases hv : v ∈ visited
    · rw [if_pos hv, if_pos hv]
      refine ih htodo' fun u hu huv => ?_
      exact (List.mem_cons.mp (hcover u hu huv)).resolve_left fun heq => huv (heq ▸ hv)
    · rw [if_neg hv, if_neg hv]
      set rest := gathered R pending v (insert v visited) with hrest
      have hgroup : ∀ u, u ∈ v :: rest ↔ u ∈ neighbours R P v ∧ u ∉ visited :=
        fun u => mem_group hpending hrefl (htodo v List.mem_cons_self) hv
      have hvisited : ∀ u, u ∈ insert v visited ∪ rest.toFinset ↔
          u ∈ visited ∨ u ∈ v :: rest := by
        intro u
        simp only [Finset.mem_union, Finset.mem_insert, List.mem_toFinset, List.mem_cons]
        tauto
      have hbest : best weight v rest ∈ v :: rest := (best_spec weight v rest).1
      have hcover' : ∀ u ∈ P, u ∉ insert v visited ∪ rest.toFinset → u ∈ todo := by
        intro u hu huv
        have huv' := not_or.mp (mt (hvisited u).mpr huv)
        have hne : u ≠ v := fun heq => huv'.2 (heq ▸ List.mem_cons_self)
        exact (List.mem_cons.mp (hcover u hu huv'.1)).resolve_left hne
      have hih := ih htodo' hcover'
      have hlater : u ∈ v :: rest →
          u ∉ survivors R weight pending todo (insert v visited ∪ rest.toFinset) :=
        fun hu hsurv => survivors_not_visited hsurv ((hvisited u).mpr (.inr hu))
      have hsplit : u ∈ best weight v rest ::
            survivors R weight pending todo (insert v visited ∪ rest.toFinset) ↔
          u = best weight v rest ∨
            u ∈ survivors R weight pending todo (insert v visited ∪ rest.toFinset) :=
        List.mem_cons
      rw [List.exists_mem_cons_iff, hih, hvisited, hsplit]
      constructor
      · rintro (⟨hu, hne⟩ | ⟨hu, huv, hsurv⟩)
        · obtain ⟨hnbr, huv⟩ := (hgroup u).mp hu
          exact ⟨(mem_neighbours.mp hnbr).1, huv, not_or.mpr ⟨hne, hlater hu⟩⟩
        · obtain ⟨huv, hu'⟩ := not_or.mp huv
          exact ⟨hu, huv, not_or.mpr ⟨fun heq => hu' (heq ▸ hbest), hsurv⟩⟩
      · rintro ⟨hu, huv, hsurv⟩
        obtain ⟨hne, hsurv⟩ := not_or.mp hsurv
        by_cases hmem : u ∈ v :: rest
        · exact .inl ⟨hmem, hne⟩
        · exact .inr ⟨hu, not_or.mpr ⟨huv, hmem⟩, hsurv⟩

/-- **Sufficiency**: where every element has a leader in its neighbourhood, the survivors still
to come are the leaders not visited yet.

**Proof sketch.** Induction on the elements still to be visited; the invariant is that a visited
leader has all its neighbours visited. An unvisited center `v` therefore has an unvisited leader
`t` in its neighbourhood, which outweighs the group. Two leaders are not both neighbours of
`v`, as each would outweigh the other, and the neighbours of `t` are neighbours of `v`. -/
lemma mem_survivors_of_leaders (hrefl : ∀ v, R v v) (hsymm : ∀ u v, R u v = R v u)
    (hpending : HashSet.Enumerates P pending)
    (hleader : ∀ v ∈ P, ∃ t ∈ neighbours R P v, Leader R weight P t) {todo : List ι}
    {visited : Finset ι} (htodo : ∀ u ∈ todo, u ∈ P)
    (hcover : ∀ u ∈ P, u ∉ visited → u ∈ todo)
    (hvisited : ∀ t, Leader R weight P t → t ∈ visited → neighbours R P t ⊆ visited) (w : ι) :
    w ∈ survivors R weight pending todo visited ↔ Leader R weight P w ∧ w ∉ visited := by
  induction todo generalizing visited with
  | nil =>
    have hall : ∀ u ∈ P, u ∈ visited := fun u hu => by
      by_contra h
      exact absurd (hcover u hu h) List.not_mem_nil
    simp only [survivors, groups, List.map_nil, List.not_mem_nil, false_iff, not_and, not_not]
    exact fun hw => hall w hw.1
  | cons v todo ih =>
    have htodo' : ∀ u ∈ todo, u ∈ P := fun u hu => htodo u (List.mem_cons_of_mem _ hu)
    rw [survivors_cons]
    by_cases hv : v ∈ visited
    · rw [if_pos hv]
      refine ih htodo' (fun u hu huv => ?_) hvisited
      exact (List.mem_cons.mp (hcover u hu huv)).resolve_left fun heq => huv (heq ▸ hv)
    · rw [if_neg hv]
      have hvP : v ∈ P := htodo v List.mem_cons_self
      have hgroup : ∀ u, u ∈ v :: gathered R pending v (insert v visited) ↔
          u ∈ neighbours R P v ∧ u ∉ visited := fun u => mem_group hpending hrefl hvP hv
      have hvisited' : ∀ u, u ∈ insert v visited ∪
          (gathered R pending v (insert v visited)).toFinset ↔
          u ∈ visited ∨ u ∈ neighbours R P v := fun u => mem_visited_next hpending hrefl hvP hv
      obtain ⟨t, htv, ht⟩ := hleader v hvP
      have hvt : v ∈ neighbours R P t := mem_neighbours_comm hsymm hvP htv
      have htvis : t ∉ visited := fun h => hv (hvisited t ht h hvt)
      obtain ⟨hsub, hlt⟩ := ht.2 v hvt
      have hbest : best weight v (gathered R pending v (insert v visited)) = t :=
        best_eq ((hgroup t).mpr ⟨htv, htvis⟩) fun u hu => hlt u ((hgroup u).mp hu).1
      have honly : ∀ u, Leader R weight P u → u ∈ neighbours R P v → u = t :=
        fun u hu huv => ht.unique hsymm hvP htv hu huv
      rw [List.mem_cons, hbest, ih htodo']
      · simp only [hvisited', not_or]
        constructor
        · rintro (rfl | ⟨hw, hwvis, -⟩)
          · exact ⟨ht, htvis⟩
          · exact ⟨hw, hwvis⟩
        · rintro ⟨hw, hwvis⟩
          by_cases hwv : w ∈ neighbours R P v
          · exact .inl (honly w hw hwv)
          · exact .inr ⟨hw, hwvis, hwv⟩
      · intro u hu huvis
        have hne : u ≠ v := by
          rintro rfl
          exact huvis ((hvisited' u).mpr (.inr (mem_neighbours.mpr ⟨hu, hrefl u⟩)))
        have huvis' : u ∉ visited := fun h => huvis ((hvisited' u).mpr (.inl h))
        exact (List.mem_cons.mp (hcover u hu huvis')).resolve_left hne
      · intro u hu huvis x hx
        rcases (hvisited' u).mp huvis with huvis | huv
        · exact (hvisited' x).mpr (.inl (hvisited u hu huvis hx))
        · obtain rfl := honly u hu huv
          exact (hvisited' x).mpr (.inr (hsub hx))

/-! ## Orders -/

/-- An order that starts with a given element. -/
lemma exists_enumerates_cons {x : ι} (hx : x ∈ P) :
    ∃ todo, HashSet.Enumerates P (x :: todo) := by
  refine ⟨(P.erase x).toList, ?_, fun u => ?_⟩
  · rw [List.nodup_cons, Finset.mem_toList]
    exact ⟨Finset.notMem_erase x P, Finset.nodup_toList _⟩
  · rw [List.mem_cons, Finset.mem_toList, Finset.mem_erase]
    by_cases hux : u = x
    · simp [hux, hx]
    · simp [hux]

/-- An order that starts with two given elements. -/
lemma exists_enumerates_cons_cons {x y : ι} (hx : x ∈ P) (hy : y ∈ P) (hxy : y ≠ x) :
    ∃ todo, HashSet.Enumerates P (x :: y :: todo) := by
  obtain ⟨todo, hnodup, hmem⟩ := exists_enumerates_cons (P := P.erase x)
    (Finset.mem_erase.mpr ⟨hxy, hy⟩)
  refine ⟨todo, List.nodup_cons.mpr ⟨fun h => ?_, hnodup⟩, fun u => ?_⟩
  · exact Finset.notMem_erase x P ((hmem x).mp h)
  · rw [List.mem_cons, hmem, Finset.mem_erase]
    by_cases hux : u = x
    · simp [hux, hx]
    · simp [hux]

/-- In an order that starts with `x`, one neighbour of `x` survives, the heaviest one. -/
lemma survivors_of_first (hrefl : ∀ v, R v v) {x : ι} {todo : List ι}
    (horder : HashSet.Enumerates P (x :: todo)) (w : ι) :
    w ∈ neighbours R P x → w ∈ survivors R weight (x :: todo) (x :: todo) ∅ →
      w = best weight x (gathered R (x :: todo) x {x}) := by
  intro hw hsurv
  have hx : x ∈ P := (horder.2 x).mp List.mem_cons_self
  rw [survivors_cons, if_neg (Finset.notMem_empty x), insert_empty_eq] at hsurv
  rcases List.mem_cons.mp hsurv with heq | hsurv
  · exact heq
  · have hgroup := (mem_group horder hrefl hx (Finset.notMem_empty x)).mpr
      ⟨hw, Finset.notMem_empty w⟩
    rw [insert_empty_eq] at hgroup
    refine absurd ?_ (survivors_not_visited hsurv)
    rw [Finset.mem_union, Finset.mem_singleton, List.mem_toFinset]
    exact List.mem_cons.mp hgroup

/-! ## Independence of the order -/

section Independence

variable (hrefl : ∀ v, R v v) (hsymm : ∀ u v, R u v = R v u)
  (hsame : ∀ l₁ l₂, HashSet.Enumerates P l₁ → HashSet.Enumerates P l₂ → ∀ w,
    w ∈ survivors R weight l₁ l₁ ∅ ↔ w ∈ survivors R weight l₂ l₂ ∅)

include hrefl hsame in
/-- If the survivors do not depend on the order, a survivor is the heaviest neighbour of each of
its neighbours `x`, in every order that starts with `x`. -/
lemma best_eq_survivor {t x : ι} (htx : t ∈ neighbours R P x) {l : List ι}
    (hl : HashSet.Enumerates P l) (ht : t ∈ survivors R weight l l ∅) {todo : List ι}
    (horder : HashSet.Enumerates P (x :: todo)) :
    best weight x (gathered R (x :: todo) x {x}) = t :=
  (survivors_of_first hrefl horder t htx ((hsame _ _ hl horder t).mp ht)).symm

include hrefl in
/-- The first group of an order that starts with `x` is the neighbourhood of `x`. -/
lemma mem_first_group {x : ι} {todo : List ι} (horder : HashSet.Enumerates P (x :: todo)) (u : ι) :
    u ∈ x :: gathered R (x :: todo) x {x} ↔ u ∈ neighbours R P x := by
  have hgroup := mem_group (u := u) horder hrefl ((horder.2 x).mp List.mem_cons_self)
    (Finset.notMem_empty x)
  rw [insert_empty_eq] at hgroup
  simpa using hgroup

variable {t : ι} {l : List ι} (hl : HashSet.Enumerates P l)
  (ht : t ∈ survivors R weight l l ∅) (htP : t ∈ P)

include hrefl hsymm hsame hl ht htP

/-- No neighbour of a neighbour of a survivor is heavier than the survivor. -/
lemma weight_le_survivor {x y : ι} (hx : x ∈ neighbours R P t) (hy : y ∈ neighbours R P x) :
    weight y ≤ weight t := by
  obtain ⟨todo, horder⟩ := exists_enumerates_cons (mem_neighbours.mp hx).1
  rw [← best_eq_survivor hrefl hsame (mem_neighbours_comm hsymm htP hx) hl ht horder]
  exact (best_spec weight x _).2 y ((mem_first_group hrefl horder y).mpr hy)

/-- The neighbours of a survivor are lighter: in an order that starts with one that is as heavy,
that one would survive. -/
lemma weight_lt_survivor {y : ι} (hy : y ∈ neighbours R P t) (hne : y ≠ t) :
    weight y < weight t := by
  have hself : t ∈ neighbours R P t := mem_neighbours.mpr ⟨htP, hrefl t⟩
  have hle := weight_le_survivor hrefl hsymm hsame hl ht htP hself hy
  refine lt_of_le_of_ne hle fun heq => hne ?_
  obtain ⟨todo, horder⟩ := exists_enumerates_cons (mem_neighbours.mp hy).1
  rw [← best_eq_survivor hrefl hsame (mem_neighbours_comm hsymm htP hy) hl ht horder]
  refine (best_eq_first fun u hu => ?_).symm
  rw [heq]
  exact weight_le_survivor hrefl hsymm hsame hl ht htP hy
    ((mem_first_group hrefl horder u).mp (List.mem_cons_of_mem _ hu))

/-- The other neighbours of a neighbour `x` of a survivor are lighter: in an order that starts
with `x` and one that is as heavy, that one would survive. -/
lemma weight_lt_survivor_of_neighbour {x y : ι} (hx : x ∈ neighbours R P t)
    (hy : y ∈ neighbours R P x) (hne : y ≠ t) : weight y < weight t := by
  have hstrict := fun {z : ι} => weight_lt_survivor (y := z) hrefl hsymm hsame hl ht htP
  by_cases hyx : y = x
  · exact hyx ▸ hstrict hx (hyx ▸ hne)
  by_cases hxt : x = t
  · exact hstrict (hxt ▸ hy) hne
  have hle := weight_le_survivor hrefl hsymm hsame hl ht htP hx hy
  refine lt_of_le_of_ne hle fun heq => hne ?_
  have hyP := (mem_neighbours.mp hy).1
  obtain ⟨todo, horder⟩ := exists_enumerates_cons_cons (mem_neighbours.mp hx).1 hyP hyx
  rw [← best_eq_survivor hrefl hsame (mem_neighbours_comm hsymm htP hx) hl ht horder]
  have hhead : gathered R (x :: y :: todo) x {x} = y :: gathered R todo x {x} := by
    unfold gathered
    rw [List.filter_cons_of_neg (by simp), List.filter_cons_of_pos]
    simpa [hyx] using (mem_neighbours.mp hy).2
  have hlt : weight x < weight y := heq ▸ hstrict hx hxt
  rw [hhead, best, if_pos hlt]
  refine (best_eq_first fun u hu => ?_).symm
  rw [heq]
  refine weight_le_survivor hrefl hsymm hsame hl ht htP hx
    ((mem_first_group hrefl horder u).mp ?_)
  rw [hhead]
  exact List.mem_cons_of_mem _ (List.mem_cons_of_mem _ hu)

/-- The neighbours of a survivor are neighbours of each of its neighbours `x`: in an order that
starts with `x` and a neighbour `z` of the survivor that is none of `x`, the second group is in
the neighbourhood of `z` and has another survivor. -/
lemma neighbours_survivor_subset {x : ι} (hx : x ∈ neighbours R P t) :
    ∀ z ∈ neighbours R P t, z ∈ neighbours R P x := by
  intro z hz
  by_contra hzx
  have hzP := (mem_neighbours.mp hz).1
  have hzx' : z ≠ x := by
    rintro rfl
    exact hzx (mem_neighbours.mpr ⟨hzP, hrefl z⟩)
  obtain ⟨todo, horder⟩ := exists_enumerates_cons_cons (mem_neighbours.mp hx).1 hzP hzx'
  set visited := insert x ∅ ∪ (gathered R (x :: z :: todo) x (insert x ∅)).toFinset with hvis
  have hvisited : ∀ u, u ∈ visited ↔ u ∈ neighbours R P x := by
    intro u
    rw [← mem_first_group hrefl horder u, hvis, insert_empty_eq, Finset.mem_union,
      Finset.mem_singleton, List.mem_toFinset, List.mem_cons]
  have hz' : z ∉ visited := fun h => hzx ((hvisited z).mp h)
  -- the survivor of the second group is a neighbour of `z`, so it must be `t`
  set w := best weight z (gathered R (x :: z :: todo) z (insert z visited)) with hw
  have hwsurv : w ∈ survivors R weight (x :: z :: todo) (x :: z :: todo) ∅ := by
    rw [survivors_cons, if_neg (Finset.notMem_empty x), ← hvis, survivors_cons, if_neg hz']
    exact List.mem_cons_of_mem _ List.mem_cons_self
  obtain ⟨hwz, hwvis⟩ := (mem_group horder hrefl hzP hz').mp (best_spec weight z _).1
  rw [← hw] at hwz hwvis
  obtain ⟨todo', horder'⟩ := exists_enumerates_cons hzP
  have hwt : w = t := by
    rw [← best_eq_survivor hrefl hsame (mem_neighbours_comm hsymm htP hz) hl ht horder',
      ← best_eq_survivor hrefl hsame hwz horder hwsurv horder']
  exact hwvis ((hvisited _).mpr (hwt ▸ mem_neighbours_comm hsymm htP hx))

/-- **Necessity**: if the survivors do not depend on the order, every survivor is a leader.

**Proof sketch.** Let `t` survive and let `x` be a neighbour of `t`. In every order that starts
with `x` the heaviest neighbour of `x` must be `t`. This excludes other neighbours of `x` that
are as heavy as `t`, and neighbours of `t` that are none of `x`. -/
lemma leader_of_independent : Leader R weight P t := by
  refine ⟨htP, fun x hx => ⟨fun z hz => ?_, fun y hy hne => ?_⟩⟩
  · exact neighbours_survivor_subset hrefl hsymm hsame hl ht htP hx z hz
  · exact weight_lt_survivor_of_neighbour hrefl hsymm hsame hl ht htP hx hy hne

end Independence

/-- **Independence of the order**: the survivors are the same in all orders iff every element
has a leader in its neighbourhood. -/
theorem survivors_independent_iff (hrefl : ∀ v, R v v) (hsymm : ∀ u v, R u v = R v u)
    (weight : ι → K) (P : Finset ι) :
    (∀ l₁ l₂, HashSet.Enumerates P l₁ → HashSet.Enumerates P l₂ → ∀ w,
      w ∈ survivors R weight l₁ l₁ ∅ ↔ w ∈ survivors R weight l₂ l₂ ∅) ↔
    ∀ v ∈ P, ∃ t ∈ neighbours R P v, Leader R weight P t := by
  constructor
  · intro hsame v hv
    obtain ⟨todo, horder⟩ := exists_enumerates_cons hv
    refine ⟨best weight v (gathered R (v :: todo) v {v}), ?_, ?_⟩
    all_goals
      have hmem := (mem_group horder hrefl hv (Finset.notMem_empty v)).mp
        (best_spec weight v _).1
      rw [insert_empty_eq] at hmem
    · exact hmem.1
    · refine leader_of_independent hrefl hsymm hsame horder ?_ (mem_neighbours.mp hmem.1).1
      rw [survivors_cons, if_neg (Finset.notMem_empty v), insert_empty_eq]
      exact List.mem_cons_self
  · intro hleader l₁ l₂ hl₁ hl₂ w
    have hsurv : ∀ l, HashSet.Enumerates P l →
        (w ∈ survivors R weight l l ∅ ↔ Leader R weight P w ∧ w ∉ (∅ : Finset ι)) :=
      fun l hl => mem_survivors_of_leaders hrefl hsymm hl hleader (fun u hu => (hl.2 u).mp hu)
        (fun u hu _ => (hl.2 u).mpr hu) (fun t _ ht => absurd ht (Finset.notMem_empty t)) w
    rw [hsurv l₁ hl₁, hsurv l₂ hl₂]

end StarGroups
