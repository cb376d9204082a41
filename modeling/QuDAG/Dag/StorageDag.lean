import QuDAG.Dag.StorageInvariant

/-!
# The storage graph below its capacity

As long as no pruning runs, the stored nodes form a directed acyclic graph, the edges recorded for
a node are exactly those to its children, the states of the nodes only move forward, and a call that
fails leaves nothing behind but its lookups.

## Main definitions

* `QuDAG.parentGraph` — the parent graph of the stored nodes.
* `Graph.WellFormed` — the invariant.
* `Graph.Advances` — the stored nodes stay and make valid transitions only.

## Main results

* `Graph.WellFormed.change` — every change keeps the invariant.
* `Graph.wellFormed_of_calls` — the invariant holds always.
-/

namespace QuDAG

open RustStd

/-- The parent graph of stored nodes. -/
def parentGraph (vertices : HashMap SerializableHash Node) : ParentGraph SerializableHash where
  nodes := vertices.keys
  parents hash := ((vertices.lookup hash).map fun n => n.parents.toFinset).getD ∅

/-- The parents of a stored node. -/
lemma parentGraph_parents {vertices : HashMap SerializableHash Node} {hash : SerializableHash}
    {n : Node} (h : vertices.lookup hash = some n) :
    (parentGraph vertices).parents hash = n.parents.toFinset := by
  simp [parentGraph, h]

namespace Graph

open VertexStorage

/-- The stored nodes form a directed acyclic graph, and the edges are those to the children. -/
structure WellFormed (g : Graph) : Prop where
  /-- A node is stored under its own hash. -/
  hash_eq : ∀ hash n, g.storage.vertices.lookup hash = some n → n.hash = hash
  /-- Its parents are stored. -/
  closed : ∀ hash n, g.storage.vertices.lookup hash = some n →
    ∀ p ∈ n.parents, p ∈ g.storage.vertices
  /-- No node is its own ancestor. -/
  acyclic : (parentGraph g.storage.vertices).Acyclic
  /-- The stored nodes have edge sets. -/
  mem_edges : ∀ p, p ∈ g.edges ↔ p ∈ g.storage.vertices
  /-- The edges of a node are the edges to the stored nodes that list it as a parent. -/
  edges_eq : ∀ p l, g.edges.lookup p = some l → ∀ e, e ∈ l ↔
    ∃ child n, g.storage.vertices.lookup child = some n ∧ p ∈ n.parents ∧ e = Edge.new p child

/-- The stored nodes stay, and all that changes of one is its state, by a valid transition. -/
def Advances (g g' : Graph) : Prop :=
  ∀ hash n, g.storage.vertices.lookup hash = some n →
    ∃ n', g'.storage.vertices.lookup hash = some n' ∧
      (n' = n ∨ ∃ newState, Node.validTransition n.state newState = true ∧
        n' = { n with state := newState })

variable {g g' : Graph}

/-- An empty graph is well formed. -/
lemma wellFormed_withConfig (config : StorageConfig) : (withConfig config).WellFormed where
  hash_eq hash n h := by cases h
  closed hash n h := by cases h
  acyclic v hv := by
    obtain ⟨_, -, hv, -⟩ := Relation.TransGen.tail'_iff.mp hv
    exact absurd (Finmap.mem_keys.mp hv) Finmap.notMem_empty
  mem_edges p := Iff.rfl
  edges_eq p l h := by cases h

/-- Lookups keep the invariant. -/
lemma WellFormed.read (h : g.WellFormed) (hs : SameData g g') : g'.WellFormed := by
  have hv := hs.storage.vertices_eq
  have he := hs.edges_eq
  refine ⟨?_, ?_, ?_, ?_, ?_⟩
  · rw [hv]
    exact h.hash_eq
  · rw [hv]
    exact h.closed
  · rw [hv]
    exact h.acyclic
  · rw [hv, he]
    exact h.mem_edges
  · rw [hv, he]
    exact h.edges_eq

section Added

variable {node : Node} (fresh : node.hash ∉ g.storage.vertices)
  (stored : ∀ p ∈ node.parents, p ∈ g.storage.vertices)
  (vertices_eq : g'.storage.vertices = g.storage.vertices.insert node.hash node)
  (edges_eq : g'.edges = addEdges g.edges node.hash (some node))

include fresh stored vertices_eq in
/-- A new node is nobody's parent, so the stored nodes stay acyclic. -/
lemma WellFormed.acyclic_added (h : g.WellFormed) :
    (parentGraph g'.storage.vertices).Acyclic := by
  have hself : g'.storage.vertices.lookup node.hash = some node := by
    rw [vertices_eq, Finmap.lookup_insert]
  have hnodes : (parentGraph g'.storage.vertices).nodes =
      insert node.hash (parentGraph g.storage.vertices).nodes := by
    rw [vertices_eq]
    exact HashMap.keys_insert _ _ _
  have hold : ∀ u ∈ (parentGraph g.storage.vertices).nodes,
      (parentGraph g'.storage.vertices).parents u =
        (parentGraph g.storage.vertices).parents u := by
    intro u hu
    have hne : u ≠ node.hash := fun heq => fresh (heq ▸ Finmap.mem_keys.mp hu)
    rw [vertices_eq]
    simp [parentGraph, Finmap.lookup_insert_of_ne _ hne]
  have hnew : (parentGraph g'.storage.vertices).parents node.hash ⊆
      (parentGraph g.storage.vertices).nodes := by
    rw [parentGraph_parents hself]
    exact fun p hp => Finmap.mem_keys.mpr (stored p (List.mem_toFinset.mp hp))
  have hclosed : (parentGraph g.storage.vertices).Closed := by
    intro u hu p hp
    obtain ⟨n, hn⟩ := HashMap.mem_iff_exists.mp (Finmap.mem_keys.mp hu)
    rw [parentGraph_parents hn] at hp
    exact Finmap.mem_keys.mpr (h.closed u n hn p (List.mem_toFinset.mp hp))
  exact ParentGraph.acyclic_insert hnodes hold hnew hclosed
    (fun hmem => fresh (Finmap.mem_keys.mp hmem)) h.acyclic

include fresh stored vertices_eq edges_eq in
/-- **A new node keeps the invariant.** -/
lemma WellFormed.added (h : g.WellFormed) : g'.WellFormed := by
  have hlookup : ∀ hash n, g'.storage.vertices.lookup hash = some n →
      hash = node.hash ∧ n = node ∨
        hash ≠ node.hash ∧ g.storage.vertices.lookup hash = some n := by
    intro hash n hn
    rw [vertices_eq, HashMap.lookup_insert_ite] at hn
    split_ifs at hn with heq
    · exact .inl ⟨heq, (Option.some.inj hn).symm⟩
    · exact .inr ⟨heq, hn⟩
  have hmem : ∀ p, p ∈ g'.storage.vertices ↔ p = node.hash ∨ p ∈ g.storage.vertices := by
    intro p
    rw [vertices_eq, Finmap.mem_insert]
  have hnew : node.hash ∉ g.edges := fun he => fresh ((h.mem_edges _).mp he)
  have hself : node.hash ∉ node.parents := fun hp => fresh (stored _ hp)
  have hedges := lookup_addEdges hnew
  rw [← edges_eq] at hedges
  refine ⟨?_, ?_, h.acyclic_added fresh stored vertices_eq, ?_, ?_⟩
  · intro hash n hn
    rcases hlookup hash n hn with ⟨rfl, rfl⟩ | ⟨-, hn⟩
    · rfl
    · exact h.hash_eq hash n hn
  · intro hash n hn p hp
    rw [hmem]
    rcases hlookup hash n hn with ⟨rfl, rfl⟩ | ⟨-, hn⟩
    · exact .inr (stored p hp)
    · exact .inr (h.closed hash n hn p hp)
  · intro p
    rw [hmem, ← h.mem_edges, HashMap.mem_iff_exists, HashMap.mem_iff_exists, hedges]
    by_cases hp : p = node.hash
    · simp [hp]
    · simp [hp]
  · intro p l hl e
    rw [hedges] at hl
    by_cases hp : p = node.hash
    · -- the new node has no children
      rw [if_pos hp, hp, if_neg hself] at hl
      obtain rfl := Option.some.inj hl
      refine ⟨fun he => absurd he (Finset.notMem_empty e), ?_⟩
      rintro ⟨child, n, hn, hpn, -⟩
      rcases hlookup child n hn with ⟨-, rfl⟩ | ⟨-, hn⟩
      · exact absurd (hp ▸ hpn) hself
      · exact absurd (hp ▸ h.closed child n hn p hpn) fresh
    · rw [if_neg hp] at hl
      obtain ⟨l', hl', rfl⟩ := Option.map_eq_some_iff.mp hl
      have hold := h.edges_eq p l' hl' e
      have hchild : ∀ child n, g.storage.vertices.lookup child = some n →
          g'.storage.vertices.lookup child = some n := fun child n hn => by
        have hne : child ≠ node.hash := fun heq => fresh (heq ▸ HashMap.mem_of_lookup hn)
        rw [vertices_eq, Finmap.lookup_insert_of_ne _ hne, hn]
      have hiff : e ∈ (if p ∈ node.parents then insert (Edge.new p node.hash) l' else l') ↔
          p ∈ node.parents ∧ e = Edge.new p node.hash ∨ e ∈ l' := by
        by_cases hmemp : p ∈ node.parents
        · simp [hmemp]
        · simp [hmemp]
      rw [hiff, hold]
      constructor
      · rintro (⟨hpn, rfl⟩ | ⟨child, n, hn, hpn, rfl⟩)
        · exact ⟨node.hash, node, by rw [vertices_eq, Finmap.lookup_insert], hpn, rfl⟩
        · exact ⟨child, n, hchild child n hn, hpn, rfl⟩
      · rintro ⟨child, n, hn, hpn, rfl⟩
        rcases hlookup child n hn with ⟨rfl, rfl⟩ | ⟨-, hn⟩
        · exact .inl ⟨hpn, rfl⟩
        · exact .inr ⟨child, n, hn, hpn, rfl⟩

end Added

/-- A transition of a stored node changes no parent. -/
lemma WellFormed.updated (h : g.WellFormed) {hash : SerializableHash} {n : Node}
    {newState : NodeState} (lookup_eq : g.storage.vertices.lookup hash = some n)
    (vertices_eq : g'.storage.vertices =
      g.storage.vertices.insert hash { n with state := newState })
    (edges_eq : g'.edges = g.edges) : g'.WellFormed := by
  have hmem : ∀ p, p ∈ g'.storage.vertices ↔ p ∈ g.storage.vertices := by
    intro p
    rw [vertices_eq, Finmap.mem_insert]
    exact ⟨fun hp => hp.elim (fun heq => heq ▸ HashMap.mem_of_lookup lookup_eq) id, .inr⟩
  have hlookup : ∀ child m, g'.storage.vertices.lookup child = some m →
      ∃ m', g.storage.vertices.lookup child = some m' ∧ m'.hash = m.hash ∧
        m'.parents = m.parents := by
    intro child m hm
    rw [vertices_eq, HashMap.lookup_insert_ite] at hm
    split_ifs at hm with heq
    · obtain rfl := Option.some.inj hm
      exact ⟨n, heq ▸ lookup_eq, rfl, rfl⟩
    · exact ⟨m, hm, rfl, rfl⟩
  have hback : ∀ child m', g.storage.vertices.lookup child = some m' →
      ∃ m, g'.storage.vertices.lookup child = some m ∧ m.parents = m'.parents := by
    intro child m' hm'
    rw [vertices_eq, HashMap.lookup_insert_ite]
    split_ifs with heq
    · rw [heq, lookup_eq] at hm'
      obtain rfl := Option.some.inj hm'
      exact ⟨_, rfl, rfl⟩
    · exact ⟨m', hm', rfl⟩
  have hgraph : parentGraph g'.storage.vertices = parentGraph g.storage.vertices := by
    have hnodes : g'.storage.vertices.keys = g.storage.vertices.keys := by
      ext p
      rw [Finmap.mem_keys, Finmap.mem_keys, hmem]
    have hparents : (parentGraph g'.storage.vertices).parents =
        (parentGraph g.storage.vertices).parents := by
      funext child
      cases hchild : g.storage.vertices.lookup child with
      | some m' =>
        obtain ⟨m, hm, hp⟩ := hback child m' hchild
        rw [parentGraph_parents hm, parentGraph_parents hchild, hp]
      | none =>
        have hnone : g'.storage.vertices.lookup child = none := by
          rw [Finmap.lookup_eq_none, hmem, ← Finmap.lookup_eq_none]
          exact hchild
        simp [parentGraph, hchild, hnone]
    exact congrArg₂ ParentGraph.mk hnodes hparents
  refine ⟨?_, ?_, ?_, ?_, ?_⟩
  · intro child m hm
    obtain ⟨m', hm', hhash, -⟩ := hlookup child m hm
    exact hhash ▸ h.hash_eq child m' hm'
  · intro child m hm p hp
    obtain ⟨m', hm', -, hparents⟩ := hlookup child m hm
    exact (hmem p).mpr (h.closed child m' hm' p (hparents ▸ hp))
  · rw [hgraph]
    exact h.acyclic
  · intro p
    rw [hmem, edges_eq, h.mem_edges]
  · intro p l hl e
    rw [edges_eq] at hl
    rw [h.edges_eq p l hl e]
    constructor
    · rintro ⟨child, m', hm', hp, rfl⟩
      obtain ⟨m, hm, hparents⟩ := hback child m' hm'
      exact ⟨child, m, hm, hparents ▸ hp, rfl⟩
    · rintro ⟨child, m, hm, hp, rfl⟩
      obtain ⟨m', hm', -, hparents⟩ := hlookup child m hm
      exact ⟨child, m', hm', hparents ▸ hp, rfl⟩

/-- **Every change keeps the invariant.** -/
lemma WellFormed.change (h : g.WellFormed) (hc : Change g g') : g'.WellFormed := by
  cases hc with
  | read same => exact h.read same
  | added node fresh stored vertices_eq edges_eq =>
    exact h.added fresh stored vertices_eq edges_eq
  | updated hash n newState lookup_eq valid vertices_eq edges_eq =>
    exact h.updated lookup_eq vertices_eq edges_eq

/-- **Every change advances the stored nodes.** -/
lemma advances_of_change (hc : Change g g') : Advances g g' := by
  intro hash n hn
  cases hc with
  | read same => exact ⟨n, by rw [same.storage.vertices_eq, hn], .inl rfl⟩
  | added node fresh stored vertices_eq edges_eq =>
    have hne : hash ≠ node.hash := fun heq => fresh (heq ▸ HashMap.mem_of_lookup hn)
    exact ⟨n, by rw [vertices_eq, Finmap.lookup_insert_of_ne _ hne, hn], .inl rfl⟩
  | updated hash' n' newState lookup_eq valid vertices_eq edges_eq =>
    rw [vertices_eq, HashMap.lookup_insert_ite]
    split_ifs with heq
    · rw [heq, lookup_eq] at hn
      obtain rfl := Option.some.inj hn
      exact ⟨_, rfl, .inr ⟨newState, valid, rfl⟩⟩
    · exact ⟨n, hn, .inl rfl⟩

/-! ## Runs -/

variable (d : HeldRemoval)

/-- The call returns, the stored nodes advance, and a failure changes no data. -/
def Proper (g : Graph) (c : GraphCall) : Prop :=
  ∃ r g', g.call d c = some (r, g') ∧ Advances g g' ∧
    ∀ e, r = .result (.error e) → SameData g g'

variable {d}

/-- A call that does not prune keeps the cache in agreement and the invariant. -/
lemma after_spec {c : GraphCall} (hagree : g.storage.Agrees) (h : g.WellFormed)
    (hp : ¬ g.Prunes c) :
    (g.after d c).storage.Agrees ∧ (g.after d c).WellFormed ∧ Proper d g c := by
  obtain ⟨g', hcall, hagree', hchange, herr⟩ := call_spec (d := d) hagree hp
  have hafter : g.after d c = g' := by
    rw [after, hcall]
    rfl
  rw [hafter]
  exact ⟨hagree', h.change hchange, _, g', hcall, advances_of_change hchange, herr⟩

/-- **Below its capacity the storage graph stays a well-formed directed acyclic graph**, in every
run of calls that do not prune. -/
theorem wellFormed_of_calls (d : HeldRemoval) (config : StorageConfig) (calls : List GraphCall)
    (hp : Runs.Steps (after d) (fun g c => ¬ g.Prunes c) (withConfig config) calls) :
    Runs.Always (after d) WellFormed (withConfig config) calls ∧
      Runs.Steps (after d) (Proper d) (withConfig config) calls := by
  have hinit : (withConfig config).storage.Agrees ∧ (withConfig config).WellFormed :=
    ⟨agrees_new config, wellFormed_withConfig config⟩
  constructor
  · have halways : Runs.Always (after d) (fun g => g.storage.Agrees ∧ g.WellFormed)
        (withConfig config) calls := by
      refine Runs.always_rule _ (fun g c h hc => ?_) hp hinit
      obtain ⟨hagree, hwf, -⟩ := after_spec (d := d) h.1 h.2 hc
      exact ⟨hagree, hwf⟩
    exact halways.imp fun _ h => h.2
  · refine Runs.steps_rule (fun g : Graph => g.storage.Agrees ∧ g.WellFormed) ?_ hp hinit
    intro g c h hc
    obtain ⟨hagree, hwf, hproper⟩ := after_spec (d := d) h.1 h.2 hc
    exact ⟨⟨hagree, hwf⟩, hproper⟩

/-! ### Runs with one node -/

/-- A node without parents. -/
def sampleNode : Node := ⟨⟨List.replicate 32 0x4, rfl⟩, [0x2a], .pending, 0, []⟩

/-- The node is added, added again and verified. -/
def sampleCalls : List GraphCall :=
  [.addNode sampleNode [] 7, .addNode sampleNode [] 9, .updateNodeState sampleNode.hash .verified]

theorem wellFormed_of_sampleCalls :
    Runs.Always (after .returns) WellFormed (withConfig {}) sampleCalls ∧
      Runs.Steps (after .returns) (Proper .returns) (withConfig {}) sampleCalls :=
  wellFormed_of_calls .returns {} sampleCalls (by decide)

/-- The second addition fails, but it is counted as a hit of the cache. -/
theorem failure_counts_lookup :
    ¬ ∀ (d : HeldRemoval) (config : StorageConfig) (calls : List GraphCall),
      Runs.Steps (after d) (fun g c => ¬ g.Prunes c) (withConfig config) calls →
      Runs.Steps (after d)
        (fun g c => ∀ e g', g.call d c = some (.result (.error e), g') → g' = g)
        (withConfig config) calls := by
  intro h
  have hsteps := h .returns {} sampleCalls (by decide)
  have hsecond := hsteps.2.1 (.nodeExists sampleNode.hash.debug) _ rfl
  have hhits := congrArg (fun g : Graph => g.storage.cacheHits) hsecond
  exact absurd hhits (by decide)

end Graph

end QuDAG
