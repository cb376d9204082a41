import QuDAG.Lib.ParentGraph

/-!
# Graphs that hang from a root

A closed acyclic graph whose root has no parents while every other node has some. Unlike a history,
such a graph may lose nodes: the children of a node that goes lose it as a parent, and those that
are left without a parent are attached to the root.

## Main definitions

* `ParentGraph.Rooted` — the graph hangs from a root.

## Main results

* `ParentGraph.Rooted.reachable` — every node is reachable from the root.
* `ParentGraph.Rooted.insert` — a new node whose parents are present keeps the graph rooted.
* `ParentGraph.Rooted.splice` — so does the removal of a node.
-/

namespace ParentGraph

variable {ι : Type} {G H : ParentGraph ι} {root : ι}

/-- The graph hangs from the root. -/
structure Rooted (G : ParentGraph ι) (root : ι) : Prop where
  /-- The root is a node. -/
  root_mem : root ∈ G.nodes
  /-- It has no parents. -/
  root_parents : G.parents root = ∅
  /-- Every other node has some. -/
  nonempty : ∀ c ∈ G.nodes, c ≠ root → (G.parents c).Nonempty
  /-- The parents are nodes. -/
  closed : G.Closed
  /-- No node is its own ancestor. -/
  acyclic : G.Acyclic

/-- **Every node is reachable from the root.**

**Proof sketch.** Induction along the ancestor relation, which is well founded: a node that is not
the root has a parent, which is reachable. -/
theorem Rooted.reachable (h : G.Rooted root) {c : ι} (hc : c ∈ G.nodes) :
    Relation.ReflTransGen G.Edge root c := by
  have hall : ∀ v : {v // v ∈ G.nodes}, Relation.ReflTransGen G.Edge root v := by
    intro v
    induction v using h.acyclic.wellFounded.induction with
    | _ v ih =>
      obtain ⟨v, hv⟩ := v
      by_cases hroot : v = root
      · subst hroot
        exact .refl
      · obtain ⟨p, hp⟩ := h.nonempty v hv hroot
        exact (ih ⟨p, h.closed v hv hp⟩ (.single ⟨hv, hp⟩)).tail ⟨hv, hp⟩
  exact hall ⟨c, hc⟩

variable [DecidableEq ι] {v : ι}

/-- A new node with parents among the nodes keeps the graph rooted. -/
theorem Rooted.insert (h : G.Rooted root) (hnodes : H.nodes = insert v G.nodes)
    (hold : ∀ u ∈ G.nodes, H.parents u = G.parents u) (hnew : H.parents v ⊆ G.nodes)
    (hsome : (H.parents v).Nonempty) (hv : v ∉ G.nodes) : H.Rooted root where
  root_mem := hnodes ▸ Finset.mem_insert_of_mem h.root_mem
  root_parents := (hold root h.root_mem).trans h.root_parents
  nonempty c hc hroot := by
    rw [hnodes] at hc
    rcases Finset.mem_insert.mp hc with rfl | hc
    · exact hsome
    · exact hold c hc ▸ h.nonempty c hc hroot
  closed := closed_insert hnodes hold hnew h.closed
  acyclic := acyclic_insert hnodes hold hnew h.closed hv h.acyclic

/-- **A node is removed**: its children lose it as a parent, and those that are left without one are
attached to the root.

**Proof sketch.** The new edges start at the root, which no edge enters, so a cycle has none of
them. -/
theorem Rooted.splice (h : G.Rooted root) (hv : v ≠ root) (hnodes : H.nodes = G.nodes.erase v)
    (hroot : H.parents root = ∅)
    (hparents : ∀ c ∈ H.nodes, c ≠ root → H.parents c =
      if (G.parents c).erase v = ∅ then {root} else (G.parents c).erase v) : H.Rooted root := by
  have hmem : root ∈ H.nodes := hnodes ▸ Finset.mem_erase.mpr ⟨hv.symm, h.root_mem⟩
  have hold : ∀ c ∈ H.nodes, c ∈ G.nodes := fun c hc =>
    Finset.mem_of_mem_erase (hnodes ▸ hc)
  have hinto : ∀ p, ¬ H.Edge p root := fun p hedge => by
    have hp := hedge.2
    rw [hroot] at hp
    exact Finset.notMem_empty p hp
  have hedge : ∀ a b, a ≠ root → H.Edge a b → G.Edge a b := by
    rintro a b ha ⟨hb, hab⟩
    have hbroot : b ≠ root := fun heq => hinto a (heq ▸ ⟨hb, hab⟩)
    rw [hparents b hb hbroot] at hab
    split_ifs at hab
    · exact absurd (Finset.mem_singleton.mp hab) ha
    · exact ⟨hold b hb, Finset.mem_of_mem_erase hab⟩
  have hpath : ∀ a b, Relation.TransGen H.Edge a b → a ≠ root → Relation.TransGen G.Edge a b := by
    intro a b hab
    induction hab with
    | single he => exact fun ha => .single (hedge _ _ ha he)
    | @tail b c hab he ih =>
      intro ha
      have hb : b ≠ root := by
        rintro rfl
        obtain ⟨p, -, hp⟩ := Relation.TransGen.tail'_iff.mp hab
        exact hinto p hp
      exact (ih ha).tail (hedge _ _ hb he)
  refine ⟨hmem, hroot, fun c hc hne => ?_, fun c hc p hp => ?_, fun x hx => ?_⟩
  · rw [hparents c hc hne]
    split_ifs with hempty
    · exact Finset.singleton_nonempty root
    · exact Finset.nonempty_iff_ne_empty.mpr hempty
  · by_cases hne : c = root
    · rw [hne, hroot] at hp
      exact absurd hp (Finset.notMem_empty p)
    · rw [hparents c hc hne] at hp
      split_ifs at hp
      · exact Finset.mem_singleton.mp hp ▸ hmem
      · obtain ⟨hpv, hp⟩ := Finset.mem_erase.mp hp
        exact hnodes ▸ Finset.mem_erase.mpr ⟨hpv, h.closed c (hold c hc) hp⟩
  · obtain ⟨p, -, hp⟩ := Relation.TransGen.tail'_iff.mp hx
    have hne : x ≠ root := by
      rintro rfl
      exact hinto p hp
    exact h.acyclic x (hpath x x hx hne)

end ParentGraph
