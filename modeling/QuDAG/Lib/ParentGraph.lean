import Mathlib.Data.Fintype.EquivFin
import Mathlib.Order.WellFounded

/-!
# Graphs given by parent sets

A finite directed graph in which every node lists its parents, the shape of an append-only
history: a node is added after its parents and never changes. Such a graph is *closed* when the
parents of its nodes are nodes, and *acyclic* when no node is its own ancestor.

## Main definitions

* `ParentGraph` — nodes with their parent sets; `ParentGraph.Edge` — the parent relation.
* `ParentGraph.Closed`, `ParentGraph.Acyclic` — the two invariants of a history.
* `ParentGraph.Ready` — a node outside a set whose parents all lie inside it.
* `ParentGraph.Sub` — a graph that holds some of the nodes of another, with the same parents.

## Main results

* `ParentGraph.Ready.insert_iff` — how the ready nodes change.
* `ParentGraph.acyclic_iff_no_chain` — acyclic graphs have no endless path from parent to parent.
* `ParentGraph.Acyclic.exists_ready` — some node is ready while any node is missing.
* `ParentGraph.acyclic_insert`, `ParentGraph.closed_insert` — a fresh node keeps the invariants.
* `ParentGraph.acyclic_of_cover`, `ParentGraph.closed_of_cover` — a graph covered by closed acyclic
  subgraphs is closed and acyclic: a cycle cannot cross from one to another.
* `ParentGraph.Built.closed`, `ParentGraph.Built.acyclic` — a graph that can be built node by node,
  parents first, is closed and acyclic.
-/

/-- A finite graph in which every node lists its parents. What `parents` says of an id that is
not a node means nothing. -/
structure ParentGraph (ι : Type) where
  nodes : Finset ι
  parents : ι → Finset ι

namespace ParentGraph

variable {ι : Type}

/-- `p` is a parent of the node `c`. -/
def Edge (G : ParentGraph ι) (p c : ι) : Prop := c ∈ G.nodes ∧ p ∈ G.parents c

/-- The parents of every node are nodes. -/
def Closed (G : ParentGraph ι) : Prop := ∀ c ∈ G.nodes, G.parents c ⊆ G.nodes

/-- No node is its own ancestor. -/
def Acyclic (G : ParentGraph ι) : Prop := ∀ v, ¬ Relation.TransGen G.Edge v v

/-- A node outside `E` whose parents all lie in `E`. -/
def Ready (G : ParentGraph ι) (E : Finset ι) (v : ι) : Prop :=
  v ∈ G.nodes ∧ v ∉ E ∧ G.parents v ⊆ E

/-- `G` holds some of the nodes of `H`, with the same parents. -/
def Sub (G H : ParentGraph ι) : Prop :=
  G.nodes ⊆ H.nodes ∧ ∀ v ∈ G.nodes, H.parents v = G.parents v

/-- Two graphs with the same nodes and the same parents at each of them. -/
def Same (G H : ParentGraph ι) : Prop :=
  G.nodes = H.nodes ∧ ∀ v ∈ G.nodes, G.parents v = H.parents v

/-- The same nodes are ready in graphs that are the same. -/
lemma Same.ready_iff {G H : ParentGraph ι} (h : G.Same H) {E : Finset ι} {v : ι} :
    G.Ready E v ↔ H.Ready E v := by
  unfold Ready
  constructor
  · rintro ⟨hv, hE, hp⟩
    exact ⟨h.1 ▸ hv, hE, h.2 v hv ▸ hp⟩
  · rintro ⟨hv, hE, hp⟩
    have hv' : v ∈ G.nodes := h.1 ▸ hv
    exact ⟨hv', hE, (h.2 v hv').symm ▸ hp⟩

/-- The ready nodes after a ready node `p` is added to a set that holds the parents of its
members: those that were ready, without `p`, and the children of `p` that waited for it only. -/
lemma Ready.insert_iff [DecidableEq ι] {G : ParentGraph ι} {E : Finset ι} {p v : ι}
    (hp : G.Ready E p) (hE : ∀ u ∈ E, G.parents u ⊆ E) :
    G.Ready (insert p E) v ↔
      (v ≠ p ∧ G.Ready E v) ∨ (G.Edge p v ∧ G.parents v ⊆ insert p E) := by
  obtain ⟨-, hpE, hpsub⟩ := hp
  constructor
  · rintro ⟨hv, hvE, hsub⟩
    obtain ⟨hvp, hvE⟩ := not_or.mp (fun h => hvE (Finset.mem_insert.mpr h))
    by_cases hpv : p ∈ G.parents v
    · exact .inr ⟨⟨hv, hpv⟩, hsub⟩
    · refine .inl ⟨hvp, hv, hvE, fun q hq => ?_⟩
      exact (Finset.mem_insert.mp (hsub hq)).resolve_left fun heq => hpv (heq ▸ hq)
  · rintro (⟨hvp, hv, hvE, hsub⟩ | ⟨⟨hv, hpv⟩, hsub⟩)
    · refine ⟨hv, fun h => ?_, hsub.trans (Finset.subset_insert _ _)⟩
      exact (Finset.mem_insert.mp h).elim hvp hvE
    · refine ⟨hv, fun h => ?_, hsub⟩
      rcases Finset.mem_insert.mp h with rfl | hvE
      · exact hpE (hpsub hpv)
      · exact hpE (hE v hvE hpv)

/-! ## Progress -/

/-- The ancestor relation of an acyclic graph is well founded: it relates finitely many nodes. -/
lemma Acyclic.wellFounded {G : ParentGraph ι} (h : G.Acyclic) :
    WellFounded (fun a b : {v // v ∈ G.nodes} => Relation.TransGen G.Edge a b) := by
  have : IsTrans {v // v ∈ G.nodes} (fun a b => Relation.TransGen G.Edge a b) :=
    ⟨fun _ _ _ hab hbc => hab.trans hbc⟩
  have : Std.Irrefl (fun a b : {v // v ∈ G.nodes} => Relation.TransGen G.Edge a b) :=
    ⟨fun v => h v⟩
  exact Finite.wellFounded_of_trans_of_irrefl _

/-- A finite graph is acyclic iff no path leads from parent to parent without an end. -/
lemma acyclic_iff_no_chain {G : ParentGraph ι} :
    G.Acyclic ↔ ∀ chain : ℕ → ι, ¬ ∀ n, G.Edge (chain (n + 1)) (chain n) := by
  constructor
  · intro h chain hchain
    obtain ⟨hempty⟩ := wellFounded_iff_isEmpty_descending_chain.mp h.wellFounded
    exact hempty ⟨fun n => ⟨chain n, (hchain n).1⟩, fun n => .single (hchain n)⟩
  · intro h v hv
    have hwell : WellFounded G.Edge :=
      wellFounded_iff_isEmpty_descending_chain.mpr ⟨fun chain => h chain.1 chain.2⟩
    exact hwell.transGen.irrefl.irrefl v hv

/-- **Progress**: while a closed acyclic graph has a node outside `E`, some node is ready.

**Proof sketch.** Take a node outside `E` that is minimal in the ancestor relation. A parent of
it outside `E` would be a smaller one. -/
lemma Acyclic.exists_ready {G : ParentGraph ι} (h : G.Acyclic) (hc : G.Closed) {E : Finset ι}
    (hE : ∃ v ∈ G.nodes, v ∉ E) : ∃ v, G.Ready E v := by
  obtain ⟨v, hv, hvE⟩ := hE
  obtain ⟨⟨m, hm⟩, hmE, hmin⟩ := h.wellFounded.has_min {x | x.1 ∉ E} ⟨⟨v, hv⟩, hvE⟩
  refine ⟨m, hm, hmE, fun p hp => ?_⟩
  by_contra hpE
  exact hmin ⟨p, hc m hm hp⟩ hpE (Relation.TransGen.single ⟨hm, hp⟩)

/-! ## Adding a node -/

section Insert

variable [DecidableEq ι] {G H : ParentGraph ι} {v : ι}
  (hnodes : H.nodes = insert v G.nodes) (hold : ∀ u ∈ G.nodes, H.parents u = G.parents u)
  (hnew : H.parents v ⊆ G.nodes)

include hnodes hold hnew in
/-- A node whose parents are present keeps the graph closed. -/
lemma closed_insert (hc : G.Closed) : H.Closed := by
  intro c hcH p hp
  rw [hnodes] at hcH ⊢
  rcases Finset.mem_insert.mp hcH with rfl | hcG
  · exact Finset.mem_insert_of_mem (hnew hp)
  · exact Finset.mem_insert_of_mem (hc c hcG (hold c hcG ▸ hp))

include hnodes hold hnew in
/-- A fresh node is nobody's parent, so it keeps the graph acyclic.

**Proof sketch.** A cycle through the new node would leave it by an edge that makes it a parent,
and a cycle that avoids it is one of the old graph. -/
lemma acyclic_insert (hc : G.Closed) (hv : v ∉ G.nodes) (h : G.Acyclic) : H.Acyclic := by
  have hleaf : ∀ c, ¬ H.Edge v c := by
    rintro c ⟨hcH, hp⟩
    rw [hnodes] at hcH
    rcases Finset.mem_insert.mp hcH with rfl | hcG
    · exact hv (hnew hp)
    · exact hv (hc c hcG (hold c hcG ▸ hp))
  have hedge : ∀ a b, b ≠ v → H.Edge a b → G.Edge a b := by
    rintro a b hb ⟨hbH, hp⟩
    rw [hnodes] at hbH
    have hbG := (Finset.mem_insert.mp hbH).resolve_left hb
    exact ⟨hbG, hold b hbG ▸ hp⟩
  have hpath : ∀ a b, Relation.TransGen H.Edge a b → b ≠ v → Relation.TransGen G.Edge a b := by
    intro a b hab
    induction hab with
    | single he => exact fun hb => .single (hedge _ _ hb he)
    | @tail b c _ he ih =>
      have hbv : b ≠ v := fun hbv => hleaf c (hbv ▸ he)
      exact fun hcv => (ih hbv).tail (hedge _ _ hcv he)
  intro x hx
  by_cases hxv : x = v
  · obtain ⟨c, he, -⟩ := (Relation.TransGen.head'_iff).mp hx
    exact hleaf c (hxv ▸ he)
  · exact h x (hpath x x hx hxv)

end Insert

/-! ## Joining graphs -/

/-- The ancestors of a node of a closed subgraph are found in the subgraph. -/
lemma Sub.transGen {G H : ParentGraph ι} (hs : G.Sub H) (hc : G.Closed) {a b : ι}
    (hab : Relation.TransGen H.Edge a b) (hb : b ∈ G.nodes) : Relation.TransGen G.Edge a b := by
  have hedge : ∀ {x y}, y ∈ G.nodes → H.Edge x y → G.Edge x y := by
    rintro x y hy ⟨-, hp⟩
    exact ⟨hy, hs.2 y hy ▸ hp⟩
  induction hab with
  | single he => exact .single (hedge hb he)
  | tail _ he ih =>
    have he' := hedge hb he
    exact (ih (hc _ hb he'.2)).tail he'

/-- A graph covered by closed subgraphs is closed. -/
lemma closed_of_cover {H : ParentGraph ι}
    (h : ∀ v ∈ H.nodes, ∃ G : ParentGraph ι, v ∈ G.nodes ∧ G.Sub H ∧ G.Closed) : H.Closed := by
  intro c hc p hp
  obtain ⟨G, hcG, hs, hG⟩ := h c hc
  exact hs.1 (hG c hcG (hs.2 c hcG ▸ hp))

/-- **No cycle crosses subgraphs**: a graph covered by closed acyclic subgraphs is acyclic. -/
lemma acyclic_of_cover {H : ParentGraph ι}
    (h : ∀ v ∈ H.nodes, ∃ G : ParentGraph ι, v ∈ G.nodes ∧ G.Sub H ∧ G.Closed ∧ G.Acyclic) :
    H.Acyclic := by
  intro v hv
  obtain ⟨b, -, hbv⟩ := (Relation.TransGen.tail'_iff).mp hv
  obtain ⟨G, hvG, hs, hc, ha⟩ := h v hbv.1
  exact ha v (hs.transGen hc hv hvG)

/-! ## Building node by node -/

/-- The sets of nodes that can be collected one ready node at a time. -/
inductive Built [DecidableEq ι] (G : ParentGraph ι) : Finset ι → Prop
  | empty : G.Built ∅
  | insert {E : Finset ι} {v : ι} : G.Built E → v ∈ G.nodes → G.parents v ⊆ E →
      G.Built (insert v E)

section Built

variable [DecidableEq ι] {G : ParentGraph ι} {E : Finset ι}

/-- Only nodes are collected. -/
lemma Built.subset (h : G.Built E) : E ⊆ G.nodes := by
  induction h with
  | empty => exact Finset.empty_subset _
  | insert _ hv _ ih => exact Finset.insert_subset hv ih

/-- The parents of a collected node are collected. -/
lemma Built.parents_subset (h : G.Built E) : ∀ v ∈ E, G.parents v ⊆ E := by
  induction h with
  | empty => simp
  | @insert E v _ _ hp ih =>
    intro u hu
    rcases Finset.mem_insert.mp hu with rfl | hu
    · exact hp.trans (Finset.subset_insert _ _)
    · exact (ih u hu).trans (Finset.subset_insert _ _)

/-- A graph all of whose nodes can be collected is closed. -/
lemma Built.closed (h : G.Built G.nodes) : G.Closed := h.parents_subset

/-- No collected node is its own ancestor.

**Proof sketch.** Induction on the collection. A cycle through the last node collected enters it
from one of its parents, collected before it; the ancestors of that parent were collected before
it as well, so the last node was collected twice or is an earlier node on a cycle. -/
lemma Built.not_transGen (h : G.Built E) : ∀ v ∈ E, ¬ Relation.TransGen G.Edge v v := by
  induction h with
  | empty => simp
  | @insert E v hE hv hp ih =>
    have hanc : ∀ {a b}, Relation.TransGen G.Edge a b → b ∈ E → a ∈ E := by
      intro a b hab
      induction hab with
      | single he => exact fun hb => hE.parents_subset _ hb he.2
      | tail _ he ih => exact fun hc => ih (hE.parents_subset _ hc he.2)
    intro u hu hcyc
    rcases Finset.mem_insert.mp hu with rfl | hu
    · obtain ⟨p, hpath, he⟩ := (Relation.TransGen.tail'_iff).mp hcyc
      have hpE : p ∈ E := hp he.2
      rcases Relation.reflTransGen_iff_eq_or_transGen.mp hpath with heq | hpath
      · exact ih u (heq ▸ hpE) hcyc
      · exact ih u (hanc hpath hpE) hcyc
    · exact ih u hu hcyc

/-- A graph all of whose nodes can be collected is acyclic. -/
lemma Built.acyclic (h : G.Built G.nodes) : G.Acyclic := by
  intro v hv
  obtain ⟨b, -, hbv⟩ := (Relation.TransGen.tail'_iff).mp hv
  exact h.not_transGen v hbv.1 hv

end Built

end ParentGraph
