import QuDAG.Lib.ParentGraph

/-!
# Least-first topological orders

A topological order of a parent graph over ordered ids that lists, at every position, the least
node whose parents have all been listed. There is at most one such order, whatever algorithm
produces it, and a closed acyclic graph has one that lists every node.

## Main definitions

* `ParentGraph.LeastReady` — the least node that is ready.
* `ParentGraph.GreedyFrom` — a list that starts from a set of listed nodes and takes the least ready
  node at every position until none is left.
* `ParentGraph.IsLeastFirst` — the specification of the whole order, position by position.

## Main results

* `ParentGraph.GreedyFrom.unique` — two least-first continuations of the same set are equal.
* `ParentGraph.GreedyFrom.isLeastFirst` — a least-first continuation of the empty set is the
  least-first topological order of a closed acyclic graph.
-/

namespace ParentGraph

variable {ι : Type} [LinearOrder ι]

/-- The least node that is ready once `E` is listed. -/
def LeastReady (G : ParentGraph ι) (E : Finset ι) (v : ι) : Prop :=
  G.Ready E v ∧ ∀ w, G.Ready E w → v ≤ w

/-- The list goes on from the listed nodes `E`, always with the least ready node, and stops when
no node is ready. -/
def GreedyFrom (G : ParentGraph ι) : Finset ι → List ι → Prop
  | E, [] => ∀ v, ¬ G.Ready E v
  | E, v :: l => G.LeastReady E v ∧ G.GreedyFrom (insert v E) l

/-- The least-first topological order of a graph: every node once, parents first, and at every
position the least node whose parents have all been listed. -/
structure IsLeastFirst (G : ParentGraph ι) (l : List ι) : Prop where
  nodup : l.Nodup
  mem_iff : ∀ v, v ∈ l ↔ v ∈ G.nodes
  parents_before : ∀ i j (hi : i < l.length) (hj : j < l.length), l[i] ∈ G.parents l[j] → i < j
  least : ∀ i (hi : i < l.length), G.LeastReady (l.take i).toFinset l[i]

/-- Least-first continuations exist in graphs that are the same at the same time. -/
lemma Same.leastReady {G H : ParentGraph ι} (h : G.Same H) {E : Finset ι} {v : ι}
    (hv : G.LeastReady E v) : H.LeastReady E v :=
  ⟨h.ready_iff.mp hv.1, fun w hw => hv.2 w (h.ready_iff.mpr hw)⟩

namespace GreedyFrom

variable {G H : ParentGraph ι} {E : Finset ι} {l l' : List ι}

/-- **Uniqueness**: the least-first continuation of a set is determined by the nodes and their
parent sets.

**Proof sketch.** Induction along the first list. The least ready node is unique, so the lists
agree at the head, and they stop together because a list stops only when nothing is ready. -/
lemma unique (hGH : G.Same H) : ∀ {E : Finset ι} {l l' : List ι},
    G.GreedyFrom E l → H.GreedyFrom E l' → l = l' := by
  intro E l
  induction l generalizing E with
  | nil =>
    intro l' hl hl'
    cases l' with
    | nil => rfl
    | cons w l' => exact absurd (hGH.ready_iff.mpr hl'.1.1) (hl w)
  | cons v l ih =>
    intro l' hl hl'
    cases l' with
    | nil => exact absurd (hGH.ready_iff.mp hl.1.1) (hl' v)
    | cons w l' =>
      have hv : H.LeastReady E v := hGH.leastReady hl.1
      obtain rfl : v = w := le_antisymm (hv.2 w hl'.1.1) (hl'.1.2 v hv.1)
      rw [ih hl.2 hl'.2]

/-- At every position stands the least node that is ready after the positions before it. -/
lemma leastReady_getElem : ∀ {l : List ι} {E : Finset ι}, G.GreedyFrom E l →
    ∀ i (hi : i < l.length), G.LeastReady (E ∪ (l.take i).toFinset) l[i] := by
  intro l
  induction l with
  | nil => exact fun _ i hi => absurd hi (Nat.not_lt_zero i)
  | cons v l ih =>
    intro E h i hi
    cases i with
    | zero => simpa using h.1
    | succ i =>
      have := ih h.2 i (by simpa using hi)
      simpa [Finset.insert_union, Finset.union_insert] using this

/-- Nothing listed before is listed again. -/
lemma disjoint_nodup : ∀ {l : List ι} {E : Finset ι}, G.GreedyFrom E l →
    l.Nodup ∧ ∀ v ∈ l, v ∉ E := by
  intro l
  induction l with
  | nil => simp
  | cons v l ih =>
    intro E h
    obtain ⟨hnodup, hdisj⟩ := ih h.2
    refine ⟨List.nodup_cons.mpr ⟨fun hv => ?_, hnodup⟩, fun w hw => ?_⟩
    · exact hdisj v hv (Finset.mem_insert_self v E)
    · rcases List.mem_cons.mp hw with rfl | hw
      · exact h.1.1.2.1
      · exact fun hwE => hdisj w hw (Finset.mem_insert_of_mem hwE)

/-- Only nodes are listed. -/
lemma mem_nodes : ∀ {l : List ι} {E : Finset ι}, G.GreedyFrom E l → ∀ v ∈ l, v ∈ G.nodes := by
  intro l
  induction l with
  | nil => simp
  | cons v l ih =>
    intro E h w hw
    rcases List.mem_cons.mp hw with rfl | hw
    · exact h.1.1.1
    · exact ih h.2 w hw

/-- When the list ends, nothing is ready. -/
lemma not_ready_end : ∀ {l : List ι} {E : Finset ι}, G.GreedyFrom E l →
    ∀ v, ¬ G.Ready (E ∪ l.toFinset) v := by
  intro l
  induction l with
  | nil => simp [GreedyFrom]
  | cons v l ih =>
    intro E h
    simpa [Finset.insert_union, Finset.union_insert] using ih h.2

/-- **The least-first topological order**: taking the least ready node until none is left lists
a closed acyclic graph as specified.

**Proof sketch.** Nothing is ready at the end, so by progress every node has been listed. A
parent of the node at position `j` is among the first `j` listed, and the list has no
repetitions, so it stands at no other position. -/
lemma isLeastFirst (hc : G.Closed) (ha : G.Acyclic) (h : G.GreedyFrom ∅ l) :
    G.IsLeastFirst l where
  nodup := h.disjoint_nodup.1
  mem_iff v := by
    refine ⟨h.mem_nodes v, fun hv => ?_⟩
    by_contra hvl
    obtain ⟨w, hw⟩ := ha.exists_ready hc (E := ∅ ∪ l.toFinset) ⟨v, hv, by simpa using hvl⟩
    exact h.not_ready_end w hw
  parents_before i j hi hj hp := by
    have hmem : l[i] ∈ l.take j := by
      have := (h.leastReady_getElem j hj).1.2.2 hp
      simpa using this
    obtain ⟨k, hk, hkeq⟩ := List.mem_iff_getElem.mp hmem
    rw [List.length_take] at hk
    rw [List.getElem_take] at hkeq
    have hik := (List.Nodup.getElem_inj_iff h.disjoint_nodup.1).mp hkeq
    omega
  least i hi := by simpa using h.leastReady_getElem i hi

end GreedyFrom

end ParentGraph
