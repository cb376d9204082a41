import QuDAG.Lib.Collections

/-!
# Merging maps that agree where they overlap

Maps whose values are compared up to an equivalence `R`. Two maps are compatible if the values of
every common key are related; their merge is the left-biased union. Up to `R` on the values it
is the join of compatible maps, so it is commutative, associative and idempotent. A map that
collects the contents of some members of a compatible family is called a patchwork of them.

## Main definitions

* `MapMerge.Compatible`, `MapMerge.Le`, `MapMerge.Same` — comparing maps up to `R`.
* `MapMerge.Patchwork` — the map has the keys of some members of a family, and every entry is that
  of one of them.

## Main results

* `MapMerge.union_comm`, `MapMerge.le_union_left`, `MapMerge.le_union_right`, `MapMerge.union_le` —
  the union is the join of compatible maps.
* `MapMerge.Patchwork.union` — the union of patchworks is the patchwork of the members of both.
* `MapMerge.Patchwork.same` — patchworks of the same members are the same up to `R`.
-/

namespace MapMerge

open RustStd

variable {κ α : Type} [DecidableEq κ]

/-- A lookup in a union. -/
lemma lookup_union (m m' : HashMap κ α) (k : κ) :
    (m ∪ m').lookup k = (m.lookup k).or (m'.lookup k) := by
  by_cases hk : k ∈ m
  · obtain ⟨v, hv⟩ := HashMap.mem_iff_exists.mp hk
    rw [Finmap.lookup_union_left hk, hv, Option.some_or]
  · rw [Finmap.lookup_union_right hk, Finmap.lookup_eq_none.mpr hk, Option.none_or]

section Comparisons

variable (R : α → α → Prop)

/-- The values of common keys are related. -/
def Compatible (m m' : HashMap κ α) : Prop :=
  ∀ k v w, m.lookup k = some v → m'.lookup k = some w → R v w

/-- Every entry of `m` is in `m'`, up to `R`. -/
def Le (m m' : HashMap κ α) : Prop :=
  ∀ k v, m.lookup k = some v → ∃ w, m'.lookup k = some w ∧ R v w

/-- The maps have the same entries, up to `R`. -/
def Same (m m' : HashMap κ α) : Prop := Le R m m' ∧ Le R m' m

end Comparisons

variable {R : α → α → Prop} {m m' : HashMap κ α}

/-- Compatibility is mutual. -/
lemma Compatible.symm (hR : Equivalence R) (h : Compatible R m m') : Compatible R m' m :=
  fun k v w hv hw => hR.symm (h k w v hw hv)

/-! ## The join -/

/-- The left map is below the union. -/
lemma le_union_left (hR : Equivalence R) (m m' : HashMap κ α) : Le R m (m ∪ m') := by
  intro k v hv
  exact ⟨v, by rw [lookup_union, hv, Option.some_or], hR.refl v⟩

/-- The right map is below the union of compatible maps. -/
lemma le_union_right (hR : Equivalence R) (h : Compatible R m m') : Le R m' (m ∪ m') := by
  intro k w hw
  rw [lookup_union]
  cases hv : m.lookup k with
  | none => exact ⟨w, by rw [Option.none_or, hw], hR.refl w⟩
  | some v => exact ⟨v, Option.some_or, hR.symm (h k v w hv hw)⟩

/-- The union is below every map that both maps are below. -/
lemma union_le {n : HashMap κ α} (h : Le R m n) (h' : Le R m' n) : Le R (m ∪ m') n := by
  intro k v hv
  rw [lookup_union] at hv
  cases hm : m.lookup k with
  | none =>
    rw [hm, Option.none_or] at hv
    exact h' k v hv
  | some u =>
    rw [hm, Option.some_or] at hv
    exact h k v (hm.trans hv)

/-- The union is commutative on compatible maps, up to `R`. -/
lemma union_comm (hR : Equivalence R) (h : Compatible R m m') : Same R (m ∪ m') (m' ∪ m) :=
  ⟨union_le (le_union_right hR (h.symm hR)) (le_union_left hR m' m),
    union_le (le_union_right hR h) (le_union_left hR m m')⟩

/-- The union with itself is the map. -/
lemma union_self (m : HashMap κ α) : m ∪ m = m := by
  refine Finmap.ext_lookup fun k => ?_
  rw [lookup_union]
  cases m.lookup k <;> rfl

/-- A union with a map that brings no key is the map. -/
lemma union_eq_left (h : ∀ k, k ∈ m' → k ∈ m) : m ∪ m' = m := by
  refine Finmap.ext_lookup fun k => ?_
  by_cases hk : k ∈ m
  · rw [Finmap.lookup_union_left hk]
  · rw [Finmap.lookup_union_right hk, Finmap.lookup_eq_none.mpr hk,
      Finmap.lookup_eq_none.mpr fun hk' => hk (h k hk')]

/-! ## Patchworks -/

section Patchwork

variable {ι : Type} {maps : ι → HashMap κ α} {S T : Set ι}

/-- Every entry is that of a member in `S`, and every key of a member in `S` is present. -/
structure Patchwork (maps : ι → HashMap κ α) (S : Set ι) (m : HashMap κ α) : Prop where
  entry : ∀ k v, m.lookup k = some v → ∃ i ∈ S, (maps i).lookup k = some v
  key : ∀ i ∈ S, ∀ k ∈ maps i, k ∈ m

/-- A member is a patchwork of itself. -/
lemma Patchwork.single (maps : ι → HashMap κ α) (i : ι) : Patchwork maps {i} (maps i) where
  entry _ _ hv := ⟨i, rfl, hv⟩
  key _ hj _ hk := (Set.mem_singleton_iff.mp hj) ▸ hk

/-- The union of patchworks is the patchwork of the members of both. -/
lemma Patchwork.union (h : Patchwork maps S m) (h' : Patchwork maps T m') :
    Patchwork maps (S ∪ T) (m ∪ m') where
  entry k v hv := by
    rw [lookup_union] at hv
    cases hm : m.lookup k with
    | none =>
      rw [hm, Option.none_or] at hv
      obtain ⟨i, hi, hiv⟩ := h'.entry k v hv
      exact ⟨i, .inr hi, hiv⟩
    | some u =>
      rw [hm, Option.some_or] at hv
      obtain ⟨i, hi, hiv⟩ := h.entry k u hm
      exact ⟨i, .inl hi, hv ▸ hiv⟩
  key i hi k hk := by
    rw [Finmap.mem_union]
    rcases hi with hi | hi
    · exact .inl (h.key i hi k hk)
    · exact .inr (h'.key i hi k hk)

/-- A patchwork is below every map that its members are below. -/
lemma Patchwork.le_of_members {n : HashMap κ α} (h : Patchwork maps S m)
    (hn : ∀ i ∈ S, Le R (maps i) n) : Le R m n := by
  intro k v hv
  obtain ⟨i, hi, hiv⟩ := h.entry k v hv
  exact hn i hi k v hiv

variable (hmaps : ∀ i j, Compatible R (maps i) (maps j))

include hmaps

/-- Patchworks of a compatible family are compatible. -/
lemma Patchwork.compatible (h : Patchwork maps S m) (h' : Patchwork maps T m') :
    Compatible R m m' := by
  intro k v w hv hw
  obtain ⟨i, -, hiv⟩ := h.entry k v hv
  obtain ⟨j, -, hjw⟩ := h'.entry k w hw
  exact hmaps i j k v w hiv hjw

/-- A member in `S` is below every patchwork of `S`. -/
lemma Patchwork.le (h : Patchwork maps S m) {i : ι} (hi : i ∈ S) : Le R (maps i) m := by
  intro k v hv
  obtain ⟨w, hw⟩ := HashMap.mem_iff_exists.mp (h.key i hi k (HashMap.mem_of_lookup hv))
  obtain ⟨j, -, hjw⟩ := h.entry k w hw
  exact ⟨w, hw, hmaps i j k v w hv hjw⟩

/-- Patchworks of the same members are the same. -/
lemma Patchwork.same (h : Patchwork maps S m) (h' : Patchwork maps S m') : Same R m m' :=
  ⟨h.le_of_members fun _ hi => h'.le hmaps hi, h'.le_of_members fun _ hi => h.le hmaps hi⟩

end Patchwork

end MapMerge
