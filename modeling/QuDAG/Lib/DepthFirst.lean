import Mathlib.Algebra.BigOperators.Group.Finset.Basic

/-!
# Depth-first search

A search that follows the successors of a node, skips the nodes visited before and adds up the
weights of the others. The recursion is bounded by a number of nodes; a bound that no path of new
nodes exceeds changes nothing.

## Main definitions

* `DepthFirst.weigh` — the weight of the nodes that a search visits, and the nodes visited.

## Main results

* `DepthFirst.mem_weigh_iff` — a search from scratch visits the nodes that can be reached.
* `DepthFirst.weigh_fst` — it adds up their weights.
-/

namespace DepthFirst

variable {ι : Type} [DecidableEq ι] (next : ι → List ι) (weight : ι → ℕ)

/-- The total weight of the nodes that a search from `v` visits, and all nodes visited after it. -/
def weigh : (fuel : ℕ) → (v : ι) → (visited : Finset ι) → ℕ × Finset ι
  | 0, _, visited => (0, visited)
  | fuel + 1, v, visited =>
    if v ∈ visited then (0, visited)
    else (next v).foldl (fun r c =>
      let below := weigh fuel c r.2
      (r.1 + below.1, below.2)) (weight v, insert v visited)

/-- One node can be reached from another. -/
def Reaches (a b : ι) : Prop := Relation.ReflTransGen (fun a b => b ∈ next a) a b

/-- The nodes `U` include all successors of their nodes. -/
def Closed (U : Finset ι) : Prop := ∀ a ∈ U, ∀ b ∈ next a, b ∈ U

/-- What searches from the nodes `roots` do, one after the other, if `visited` were visited before
and `r` is the result. -/
structure Explored (roots : List ι) (visited : Finset ι) (r : ℕ × Finset ι) : Prop where
  subset : visited ⊆ r.2
  total : r.1 = ∑ u ∈ r.2 \ visited, weight u
  found : ∀ v ∈ roots, v ∈ r.2
  sound : ∀ u ∈ r.2, u ∈ visited ∨ ∃ v ∈ roots, Reaches next v u
  closed : ∀ u ∈ r.2, u ∉ visited → ∀ c ∈ next u, c ∈ r.2

variable {next weight} {roots : List ι} {visited U : Finset ι} {r r' : ℕ × Finset ι}

/-- Nothing is explored without a root. -/
lemma explored_nil : Explored next weight [] visited (0, visited) where
  subset := Finset.Subset.refl _
  total := by simp
  found := by simp
  sound u hu := .inl hu
  closed u hu hnot := absurd hu hnot

/-- Two explorations, one after the other. -/
lemma Explored.append {roots' : List ι} (h : Explored next weight roots visited r)
    (h' : Explored next weight roots' r.2 r') :
    Explored next weight (roots ++ roots') visited (r.1 + r'.1, r'.2) where
  subset := h.subset.trans h'.subset
  total := by
    have hsplit : r'.2 \ visited = (r.2 \ visited) ∪ (r'.2 \ r.2) := by
      ext u
      have hsub := @h.subset u
      have hsub' := @h'.subset u
      simp only [Finset.mem_sdiff, Finset.mem_union]
      tauto
    have hdisjoint : Disjoint (r.2 \ visited) (r'.2 \ r.2) := by
      rw [Finset.disjoint_left]
      intro u hu hu'
      exact (Finset.mem_sdiff.mp hu').2 (Finset.mem_sdiff.mp hu).1
    dsimp only
    rw [hsplit, Finset.sum_union hdisjoint, ← h.total, ← h'.total]
  found v hv := by
    rcases List.mem_append.mp hv with hv | hv
    · exact h'.subset (h.found v hv)
    · exact h'.found v hv
  sound u hu := by
    rcases h'.sound u hu with hu' | ⟨v, hv, hreach⟩
    · rcases h.sound u hu' with hu' | ⟨v, hv, hreach⟩
      · exact .inl hu'
      · exact .inr ⟨v, List.mem_append_left _ hv, hreach⟩
    · exact .inr ⟨v, List.mem_append_right _ hv, hreach⟩
  closed u hu hnot c hc := by
    by_cases hu' : u ∈ r.2
    · exact h'.subset (h.closed u hu' hnot c hc)
    · exact h'.closed u hu hu' c hc

/-- Searching from the roots of a list, one after the other. -/
lemma explored_foldl {fuel : ℕ}
    (hstep : ∀ {v visited}, v ∈ U → (U \ visited).card < fuel →
      Explored next weight [v] visited (weigh next weight fuel v visited)) :
    ∀ {roots : List ι} {visited : Finset ι} (t : ℕ), (∀ v ∈ roots, v ∈ U) →
      (U \ visited).card < fuel →
      ∃ total, roots.foldl (fun r c =>
          let below := weigh next weight fuel c r.2
          (r.1 + below.1, below.2)) (t, visited) =
        (t + total.1, total.2) ∧ Explored next weight roots visited total := by
  intro roots
  induction roots with
  | nil => exact fun {visited} t _ _ => ⟨(0, visited), rfl, explored_nil⟩
  | cons v roots ih =>
    intro visited t hroots hfuel
    have hv := hstep (hroots v List.mem_cons_self) hfuel
    have hcard : (U \ (weigh next weight fuel v visited).2).card < fuel :=
      lt_of_le_of_lt (Finset.card_le_card (Finset.sdiff_subset_sdiff le_rfl hv.subset)) hfuel
    obtain ⟨total, heq, htotal⟩ := ih (t + (weigh next weight fuel v visited).1)
      (fun u hu => hroots u (List.mem_cons_of_mem v hu)) hcard
    refine ⟨_, ?_, hv.append htotal⟩
    rw [List.foldl_cons, heq]
    dsimp only
    rw [Nat.add_assoc]

/-- **A search** with enough fuel.

**Proof sketch.** Induction on the fuel. Visiting `v` leaves fewer nodes of `U` that are not
visited, so the searches from its successors have enough fuel as well. -/
lemma explored_weigh (hclosed : Closed next U) :
    ∀ {fuel : ℕ} {v : ι} {visited : Finset ι}, v ∈ U → (U \ visited).card < fuel →
      Explored next weight [v] visited (weigh next weight fuel v visited) := by
  intro fuel
  induction fuel with
  | zero => exact fun _ hfuel => absurd hfuel (Nat.not_lt_zero _)
  | succ fuel ih =>
    intro v visited hv hfuel
    rw [weigh]
    split_ifs with hmem
    · exact ⟨Finset.Subset.refl _, by simp, by simpa using hmem, fun u hu => .inl hu,
        fun u hu hnot => absurd hu hnot⟩
    · have hlt : (U \ insert v visited).card < (U \ visited).card := by
        refine Finset.card_lt_card ⟨Finset.sdiff_subset_sdiff le_rfl (Finset.subset_insert _ _),
          fun hsub => ?_⟩
        have hv' := Finset.mem_sdiff.mp (hsub (Finset.mem_sdiff.mpr ⟨hv, hmem⟩))
        exact hv'.2 (Finset.mem_insert_self _ _)
      obtain ⟨total, heq, hbelow⟩ := explored_foldl ih (weight v) (hclosed v hv)
        (show (U \ insert v visited).card < fuel by omega)
      rw [heq]
      have hnot : v ∉ total.2 \ insert v visited := by simp
      have hin : v ∈ total.2 := hbelow.subset (Finset.mem_insert_self _ _)
      refine ⟨(Finset.subset_insert _ _).trans hbelow.subset, ?_, by simpa using hin, ?_, ?_⟩
      · have hsplit : total.2 \ visited = insert v (total.2 \ insert v visited) := by
          ext u
          rw [Finset.mem_insert, Finset.mem_sdiff, Finset.mem_sdiff, Finset.mem_insert]
          by_cases hu : u = v
          · subst hu
            simp [hin, hmem]
          · simp [hu]
        dsimp only
        rw [hsplit, Finset.sum_insert hnot, hbelow.total]
      · intro u hu
        rcases hbelow.sound u hu with hu' | ⟨c, hc, hreach⟩
        · rcases Finset.mem_insert.mp hu' with rfl | hu'
          · exact .inr ⟨u, by simp, .refl⟩
          · exact .inl hu'
        · exact .inr ⟨v, by simp, .head hc hreach⟩
      · intro u hu hnot' c hc
        by_cases huv : u = v
        · exact hbelow.found c (huv ▸ hc)
        · refine hbelow.closed u hu (fun hu' => ?_) c hc
          rcases Finset.mem_insert.mp hu' with heq' | hu'
          · exact huv heq'
          · exact hnot' hu'

section Scratch

variable {v : ι} {fuel : ℕ} (hclosed : Closed next U) (hv : v ∈ U) (hfuel : U.card < fuel)

include hclosed hv hfuel

/-- **A search from scratch** visits exactly what can be reached. -/
theorem mem_weigh_iff {u : ι} : u ∈ (weigh next weight fuel v ∅).2 ↔ Reaches next v u := by
  have h : Explored next weight [v] ∅ (weigh next weight fuel v ∅) :=
    explored_weigh hclosed hv (by rwa [Finset.sdiff_empty])
  constructor
  · intro hu
    rcases h.sound u hu with hu' | ⟨v', hv', hreach⟩
    · exact absurd hu' (Finset.notMem_empty u)
    · rwa [List.mem_singleton.mp hv'] at hreach
  · intro hreach
    induction hreach with
    | refl => exact h.found v (List.mem_singleton_self v)
    | tail _ hc ih => exact h.closed _ ih (Finset.notMem_empty _) _ hc

/-- It adds up the weights of what it visits. -/
theorem weigh_fst : (weigh next weight fuel v ∅).1 =
    ∑ u ∈ (weigh next weight fuel v ∅).2, weight u := by
  have h : Explored next weight [v] ∅ (weigh next weight fuel v ∅) :=
    explored_weigh hclosed hv (by rwa [Finset.sdiff_empty])
  rw [h.total, Finset.sdiff_empty]

end Scratch

end DepthFirst
