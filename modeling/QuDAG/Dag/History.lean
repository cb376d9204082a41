import QuDAG.Dag.Vertex
import QuDAG.Lib.ParentGraph

/-!
# Vertex maps as histories

Both admission paths, the synchronous facade and the asynchronous `Dag`, keep their vertices in
a map from ids to vertices. `VertexMap.graph` is the parent graph such a map stands for, and
`VertexMap.WellFormed` is what an admission path has to keep of it.

## Main definitions

* `VertexMap`, `VertexMap.graph`, `VertexMap.WellFormed`.
* `VertexMap.Childless` — the admitted ids that no admitted vertex lists as a parent.

## Main results

* `VertexMap.WellFormed.insert` — admitting a fresh vertex whose parents are present keeps the map
  well formed.
* `VertexMap.childless_insert` — how it changes the childless ids.
-/

namespace QuDAG

open RustStd

/-- A map from ids to vertices. -/
abbrev VertexMap : Type := HashMap VertexId Vertex

namespace VertexMap

/-- The parent graph of a vertex map. -/
def graph (m : VertexMap) : ParentGraph VertexId where
  nodes := m.keys
  parents id := ((m.lookup id).map Vertex.parentSet).getD ∅

@[simp] lemma mem_graph_nodes {m : VertexMap} {id : VertexId} : id ∈ m.graph.nodes ↔ id ∈ m :=
  Finmap.mem_keys

/-- The parents of an admitted vertex. -/
lemma graph_parents {m : VertexMap} {id : VertexId} {v : Vertex} (h : m.lookup id = some v) :
    m.graph.parents id = v.parentSet := by
  simp [graph, h]

/-- A well-formed history: every vertex is stored under its own id, every parent of a vertex is
present, and no vertex is its own ancestor. -/
structure WellFormed (m : VertexMap) : Prop where
  id_eq : ∀ id v, m.lookup id = some v → v.id = id
  closed : m.graph.Closed
  acyclic : m.graph.Acyclic

/-- The ids that are present and that no vertex lists as a parent. -/
def Childless (m : VertexMap) (id : VertexId) : Prop :=
  id ∈ m ∧ ∀ child v, m.lookup child = some v → id ∉ v.parents

/-- The empty map is well formed. -/
lemma wellFormed_empty : WellFormed (∅ : VertexMap) where
  id_eq id v h := by simp at h
  closed _ hc := absurd (mem_graph_nodes.mp hc) Finmap.notMem_empty
  acyclic v hv := by
    obtain ⟨_, -, hv, -⟩ := (Relation.TransGen.tail'_iff).mp hv
    exact absurd (mem_graph_nodes.mp hv) Finmap.notMem_empty

/-- The parents of a vertex of a well-formed history are present. -/
lemma WellFormed.parent_mem {m : VertexMap} (h : m.WellFormed) {id p : VertexId} {v : Vertex}
    (hv : m.lookup id = some v) (hp : p ∈ v.parents) : p ∈ m := by
  have hid : id ∈ m.graph.nodes := mem_graph_nodes.mpr (HashMap.mem_of_lookup hv)
  have := h.closed id hid (by rw [graph_parents hv]; exact Vertex.mem_parentSet.mpr hp)
  exact mem_graph_nodes.mp this

section Insert

variable {m : VertexMap} {v : Vertex} (hfresh : v.id ∉ m)

lemma graph_nodes_insert (m : VertexMap) (v : Vertex) :
    (graph (m.insert v.id v)).nodes = insert v.id m.graph.nodes := by
  ext x
  simp

include hfresh in
lemma graph_parents_insert : ∀ u ∈ m.graph.nodes,
    (graph (m.insert v.id v)).parents u = m.graph.parents u := by
  intro u hu
  have hne : u ≠ v.id := fun h => hfresh (h ▸ mem_graph_nodes.mp hu)
  simp [graph, Finmap.lookup_insert_of_ne m hne]

lemma graph_parents_insert_self (m : VertexMap) (v : Vertex) :
    (graph (m.insert v.id v)).parents v.id = v.parentSet :=
  graph_parents (Finmap.lookup_insert m)

include hfresh in
/-- Admitting a fresh vertex whose parents are present keeps the history well formed. -/
lemma WellFormed.insert (h : m.WellFormed) (hp : ∀ p ∈ v.parents, p ∈ m) :
    WellFormed (m.insert v.id v) := by
  have hnew : (graph (m.insert v.id v)).parents v.id ⊆ m.graph.nodes := by
    rw [graph_parents_insert_self]
    exact fun p hpv => mem_graph_nodes.mpr (hp p (Vertex.mem_parentSet.mp hpv))
  have hnodes := graph_nodes_insert m v
  have hold := graph_parents_insert hfresh
  refine ⟨fun id w hw => ?_, ?_, ?_⟩
  · rw [HashMap.lookup_insert_ite] at hw
    split_ifs at hw with hid
    · obtain rfl := Option.some.inj hw
      exact hid.symm
    · exact h.id_eq id w hw
  · exact ParentGraph.closed_insert hnodes hold hnew h.closed
  · exact ParentGraph.acyclic_insert hnodes hold hnew h.closed
      (fun hv => hfresh (mem_graph_nodes.mp hv)) h.acyclic

include hfresh in
/-- The childless ids after admitting a fresh vertex: the new one, and the old ones that it does
not list as a parent. -/
lemma childless_insert (h : m.WellFormed) (hp : ∀ p ∈ v.parents, p ∈ m) (id : VertexId) :
    Childless (m.insert v.id v) id ↔ id = v.id ∨ Childless m id ∧ id ∉ v.parents := by
  have hself : v.id ∉ v.parents := fun hv => hfresh (hp _ hv)
  constructor
  · rintro ⟨hid, hchild⟩
    by_cases hidv : id = v.id
    · exact .inl hidv
    · refine .inr ⟨⟨?_, fun child w hw => ?_⟩, hchild v.id v (Finmap.lookup_insert m)⟩
      · exact (Finmap.mem_insert.mp hid).resolve_left hidv
      · have hne : child ≠ v.id := fun hc => hfresh (hc ▸ HashMap.mem_of_lookup hw)
        exact hchild child w (by rw [Finmap.lookup_insert_of_ne m hne, hw])
  · rintro (rfl | ⟨⟨hid, hchild⟩, hidv⟩)
    · refine ⟨Finmap.mem_insert.mpr (.inl rfl), fun child w hw => ?_⟩
      rw [HashMap.lookup_insert_ite] at hw
      split_ifs at hw with hc
      · exact Option.some.inj hw ▸ hself
      · exact fun hmem => hfresh (h.parent_mem hw hmem)
    · refine ⟨Finmap.mem_insert.mpr (.inr hid), fun child w hw => ?_⟩
      rw [HashMap.lookup_insert_ite] at hw
      split_ifs at hw with hc
      · exact Option.some.inj hw ▸ hidv
      · exact hchild child w hw

end Insert

end VertexMap

end QuDAG
