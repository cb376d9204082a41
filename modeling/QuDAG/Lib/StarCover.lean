import QuDAG.Lib.StarGroups

/-!
# Survivors that cover a relation

The survivors of greedy star groups (`Lib.StarGroups`) cover a relation if no two of them are
related and every other element is related to one of them. The centers always do: they are a
maximal independent set. A survivor that takes the place of its center may be related to elements
outside its group, and unrelated to members of it, as the relation need not be transitive. This
module gives a condition on the elements and their weights under which the survivors cover the
relation in every order.

## Main definitions

* `StarGroups.Dominant` — an element that outweighs everything else within two steps.
* `StarGroups.Heaviest` — the elements that may take the place of a center.
* `StarGroups.FaithfullyReplaced` — a center whose replacements are related to the same elements,
  but for those that have a dominant neighbour.

## Main results

* `StarGroups.mem_survivors_of_dominant` — dominant elements survive in every order.
* `StarGroups.survivors_pairwise` — no two survivors are related.
* `StarGroups.exists_survivor` — every element is related to a survivor.
-/

namespace StarGroups

open RustStd

variable {ι K : Type} [LinearOrder K] (R : ι → ι → Bool) (weight : ι → K)

/-- An element that outweighs all other neighbours of its neighbours. -/
def Dominant (P : Finset ι) (t : ι) : Prop :=
  t ∈ P ∧ ∀ x ∈ neighbours R P t, ∀ y ∈ neighbours R P x, y ≠ t → weight y < weight t

/-- No neighbour of `v` outweighs its neighbour `t`. -/
def Heaviest (P : Finset ι) (v t : ι) : Prop :=
  t ∈ neighbours R P v ∧ ∀ u ∈ neighbours R P v, weight u ≤ weight t

/-- A heaviest neighbour of `v` that is heavier than `v` has no neighbours but those of `v`, and
has them all, but for those with a dominant neighbour. -/
def FaithfullyReplaced (P : Finset ι) (v : ι) : Prop :=
  ∀ t, Heaviest R weight P v t → weight v < weight t →
    neighbours R P t ⊆ neighbours R P v ∧
      ∀ u ∈ neighbours R P v, u ∈ neighbours R P t ∨ ∃ d ∈ neighbours R P u, Dominant R weight P d

variable {R weight} {P : Finset ι} {pending : List ι}

/-- The heaviest element of a list is the first one, or heavier than that. -/
lemma best_eq_or_lt (weight : ι → K) (first : ι) (rest : List ι) :
    best weight first rest = first ∨ weight first < weight (best weight first rest) := by
  by_cases h : weight first < weight (best weight first rest)
  · exact .inr h
  · refine .inl (best_eq_first fun u hu => ?_)
    exact ((best_spec weight first rest).2 u (List.mem_cons_of_mem _ hu)).trans (not_lt.mp h)

variable [DecidableEq ι]

/-- **Dominant elements survive**, whatever the order: they win the group that they are in. -/
lemma mem_survivors_of_dominant (hrefl : ∀ v, R v v) (hsymm : ∀ u v, R u v = R v u)
    (hpending : HashSet.Enumerates P pending) {t : ι} (ht : Dominant R weight P t)
    {todo : List ι} {visited : Finset ι} (htodo : ∀ u ∈ todo, u ∈ P) (hmem : t ∈ todo)
    (htvis : t ∉ visited) : t ∈ survivors R weight pending todo visited := by
  induction todo generalizing visited with
  | nil => exact absurd hmem List.not_mem_nil
  | cons v todo ih =>
    have htodo' : ∀ u ∈ todo, u ∈ P := fun u hu => htodo u (List.mem_cons_of_mem _ hu)
    have hvP : v ∈ P := htodo v List.mem_cons_self
    rw [survivors_cons]
    by_cases hv : v ∈ visited
    · have hne : t ≠ v := fun heq => htvis (heq ▸ hv)
      rw [if_pos hv]
      exact ih htodo' ((List.mem_cons.mp hmem).resolve_left hne) htvis
    rw [if_neg hv, List.mem_cons]
    by_cases htv : t ∈ neighbours R P v
    · -- the group of `v` has `t` in it
      have hvt := mem_neighbours_comm hsymm hvP htv
      refine .inl (best_eq ((mem_group hpending hrefl hvP hv).mpr ⟨htv, htvis⟩) ?_).symm
      exact fun u hu => ht.2 v hvt u ((mem_group hpending hrefl hvP hv).mp hu).1
    · have hne : t ≠ v := by
        rintro rfl
        exact htv (mem_neighbours.mpr ⟨hvP, hrefl t⟩)
      refine .inr (ih htodo' ((List.mem_cons.mp hmem).resolve_left hne) ?_)
      rw [mem_visited_next hpending hrefl hvP hv]
      exact not_or.mpr ⟨htvis, htv⟩

/-- The visited elements are those with a center in their neighbourhood: a visited element has a
neighbour all of whose neighbours are visited. -/
def Closed (R : ι → ι → Bool) (P visited : Finset ι) : Prop :=
  ∀ u ∈ visited, ∃ c ∈ neighbours R P u, neighbours R P c ⊆ visited

/-- The group of a center keeps the visited elements closed. -/
lemma Closed.next (hrefl : ∀ v, R v v) (hsymm : ∀ u v, R u v = R v u)
    (hpending : HashSet.Enumerates P pending) {v : ι} {visited : Finset ι}
    (h : Closed R P visited) (hv : v ∈ P) (hvis : v ∉ visited) :
    Closed R P (insert v visited ∪ (gathered R pending v (insert v visited)).toFinset) := by
  have hnext : ∀ u, _ ↔ _ := fun u => mem_visited_next (u := u) hpending hrefl hv hvis
  intro u hu
  rcases (hnext u).mp hu with hu | hu
  · obtain ⟨c, hc, hsub⟩ := h u hu
    exact ⟨c, hc, fun x hx => (hnext x).mpr (.inl (hsub hx))⟩
  · exact ⟨v, mem_neighbours_comm hsymm hv hu, fun x hx => (hnext x).mpr (.inr hx)⟩

section Covers

variable (hrefl : ∀ v, R v v) (hsymm : ∀ u v, R u v = R v u)
  (hpending : HashSet.Enumerates P pending)
  (hfaithful : ∀ v ∈ P, FaithfullyReplaced R weight P v)

include hrefl hsymm hpending hfaithful

/-- The winner of a group has no neighbours but those of its center, and has them all, but for
those with a dominant neighbour.

**Proof sketch.** Let `t` be a heaviest neighbour of the center `v`. If `t` is not heavier than
`v`, then `v` wins. Otherwise `t` is still there: an earlier center next to `t` would be next to
`v`, which is not visited. So the winner is as heavy as `t`. -/
lemma best_faithful {v : ι} {visited : Finset ι} (hclosed : Closed R P visited) (hv : v ∈ P)
    (hvis : v ∉ visited) :
    neighbours R P (best weight v (gathered R pending v (insert v visited))) ⊆ neighbours R P v ∧
      ∀ u ∈ neighbours R P v,
        u ∈ neighbours R P (best weight v (gathered R pending v (insert v visited))) ∨
          ∃ d ∈ neighbours R P u, Dominant R weight P d := by
  have hgroup : ∀ u, _ ↔ _ := fun u => mem_group (u := u) hpending hrefl hv hvis
  obtain ⟨hmem, hmax⟩ := best_spec weight v (gathered R pending v (insert v visited))
  rcases best_eq_or_lt weight v (gathered R pending v (insert v visited)) with heq | hlt
  · rw [heq]
    exact ⟨subset_rfl, fun u hu => .inl hu⟩
  have hwv := ((hgroup _).mp hmem).1
  obtain ⟨t, ht, hheavy⟩ := (neighbours R P v).exists_max_image weight ⟨_, hwv⟩
  have hvt : weight v < weight t := hlt.trans_le (hheavy _ hwv)
  have htvis : t ∉ visited := by
    intro hmem'
    obtain ⟨c, hc, hsub⟩ := hclosed t hmem'
    have hcv := (hfaithful v hv t ⟨ht, hheavy⟩ hvt).1 hc
    exact hvis (hsub (mem_neighbours_comm hsymm hv hcv))
  refine hfaithful v hv _ ⟨hwv, fun u hu => ?_⟩ hlt
  exact (hheavy u hu).trans (hmax t ((hgroup t).mpr ⟨ht, htvis⟩))

/-- **No two survivors are related.** -/
lemma survivors_pairwise {todo : List ι} {visited : Finset ι} (htodo : ∀ u ∈ todo, u ∈ P)
    (hclosed : Closed R P visited) :
    (survivors R weight pending todo visited).Pairwise fun s t => R s t = false := by
  induction todo generalizing visited with
  | nil => exact List.Pairwise.nil
  | cons v todo ih =>
    have htodo' : ∀ u ∈ todo, u ∈ P := fun u hu => htodo u (List.mem_cons_of_mem _ hu)
    have hvP : v ∈ P := htodo v List.mem_cons_self
    rw [survivors_cons]
    split_ifs with hv
    · exact ih htodo' hclosed
    refine List.Pairwise.cons (fun t ht => ?_)
      (ih htodo' (hclosed.next hrefl hsymm hpending hvP hv))
    -- the neighbours of the winner are visited, and a later survivor is not
    rw [Bool.eq_false_iff]
    intro hst
    have hsub := (best_faithful hrefl hsymm hpending hfaithful hclosed hvP hv).1
    have htP := mem_of_mem_survivors hpending htodo' ht
    refine survivors_not_visited ht ((mem_visited_next hpending hrefl hvP hv).mpr (.inr ?_))
    exact hsub (mem_neighbours.mpr ⟨htP, hst⟩)

/-- An element that is still to be visited will be related to a survivor, or it has a dominant
neighbour. -/
lemma exists_survivor_or_dominant {todo : List ι} {visited : Finset ι}
    (htodo : ∀ u ∈ todo, u ∈ P) (hcover : ∀ u ∈ P, u ∉ visited → u ∈ todo)
    (hclosed : Closed R P visited) {u : ι} (hu : u ∈ P) (huvis : u ∉ visited) :
    (∃ s ∈ survivors R weight pending todo visited, R u s = true) ∨
      ∃ d ∈ neighbours R P u, Dominant R weight P d := by
  induction todo generalizing visited with
  | nil => exact absurd (hcover u hu huvis) List.not_mem_nil
  | cons v todo ih =>
    have htodo' : ∀ u ∈ todo, u ∈ P := fun u hu => htodo u (List.mem_cons_of_mem _ hu)
    have hvP : v ∈ P := htodo v List.mem_cons_self
    rw [survivors_cons]
    by_cases hv : v ∈ visited
    · rw [if_pos hv]
      refine ih htodo' (fun x hx hxvis => ?_) hclosed huvis
      exact (List.mem_cons.mp (hcover x hx hxvis)).resolve_left fun heq => hxvis (heq ▸ hv)
    rw [if_neg hv]
    have hnext : ∀ x, _ ↔ _ := fun x => mem_visited_next (u := x) hpending hrefl hvP hv
    by_cases huv : u ∈ neighbours R P v
    · -- the center takes `u` along
      rcases (best_faithful hrefl hsymm hpending hfaithful hclosed hvP hv).2 u huv with hus | hd
      · rw [mem_neighbours, hsymm] at hus
        exact .inl ⟨_, List.mem_cons_self, hus.2⟩
      · exact .inr hd
    · have hcover' : ∀ x ∈ P, x ∉ insert v visited ∪
          (gathered R pending v (insert v visited)).toFinset → x ∈ todo := by
        intro x hx hxvis
        obtain ⟨hxvis, hxv⟩ := not_or.mp (mt (hnext x).mpr hxvis)
        refine (List.mem_cons.mp (hcover x hx hxvis)).resolve_left ?_
        rintro rfl
        exact hxv (mem_neighbours.mpr ⟨hx, hrefl x⟩)
      rcases ih htodo' hcover' (hclosed.next hrefl hsymm hpending hvP hv)
        (mt (hnext u).mp (not_or.mpr ⟨huvis, huv⟩)) with ⟨s, hs, hus⟩ | hd
      · exact .inl ⟨s, List.mem_cons_of_mem _ hs, hus⟩
      · exact .inr hd

/-- **Every element is related to a survivor.** -/
lemma exists_survivor {u : ι} (hu : u ∈ P) :
    ∃ s ∈ survivors R weight pending pending ∅, R u s = true := by
  have htodo : ∀ x ∈ pending, x ∈ P := fun x hx => (hpending.2 x).mp hx
  rcases exists_survivor_or_dominant hrefl hsymm hpending hfaithful htodo
    (fun x hx _ => (hpending.2 x).mpr hx) (fun x hx => absurd hx (Finset.notMem_empty x)) hu
    (Finset.notMem_empty u) with hs | ⟨d, hd, hdom⟩
  · exact hs
  · exact ⟨d, mem_survivors_of_dominant hrefl hsymm hpending hdom htodo
      ((hpending.2 d).mpr hdom.1) (Finset.notMem_empty d), (mem_neighbours.mp hd).2⟩

end Covers

end StarGroups
