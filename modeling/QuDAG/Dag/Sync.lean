import QuDAG.Dag.AsyncDag

/-!
# What a synchronization does

The first loop of `sync_state` computes the union of the local and the remote map if they agree
where they overlap, and the second loop succeeds iff the union is closed and acyclic. The union
of well-formed maps that agree always is, so only a conflict makes their synchronization fail. The
map is a public field, and other maps may have cycles and parents that are missing.

## Main results

* `Dag.stage_spec` — staging computes the union of compatible maps.
* `Dag.resolve_spec` — a map resolves iff it is closed and acyclic.
* `VertexMap.WellFormed.patchwork` — what is put together from well-formed maps that agree is well
  formed.
* `Dag.mergeMaps_spec` — what a synchronization of well-formed maps commits.
* `Dag.syncState_eq` — what comes of a synchronization of any two maps.
-/

namespace QuDAG

open RustStd

/-- Two maps have the same payload, parent set, timestamp and signature at every common id. -/
abbrev VertexMap.Compatible (m m' : VertexMap) : Prop := MapMerge.Compatible Vertex.Agrees m m'

namespace Dag

/-! ## Staging -/

/-- The comparison of the source finds a difference iff the vertices do not agree. -/
lemma differs_iff (existing vertex : Vertex) :
    (existing.payload ≠ vertex.payload ∨ existing.parentSet ≠ vertex.parentSet ∨
      existing.timestamp ≠ vertex.timestamp ∨ existing.signature ≠ vertex.signature) ↔
      ¬ existing.Agrees vertex := by
  constructor
  · rintro (h | h | h | h) hagrees
    · exact h hagrees.payload
    · exact h hagrees.parents
    · exact h hagrees.timestamp
    · exact h hagrees.signature
  · intro h
    by_contra hsame
    simp only [not_or, not_not] at hsame
    exact h ⟨hsame.1, hsame.2.1, hsame.2.2.1, hsame.2.2.2⟩

section Stage

variable {others : List (VertexId × Vertex)} {staged : VertexMap} {id : VertexId} {v e : Vertex}

/-- A remote vertex that agrees with the staged one of its id is skipped. -/
lemma stage_cons_of_agrees (he : staged.lookup id = some e) (h : e.Agrees v) :
    stage ((id, v) :: others) staged = stage others staged := by
  rw [stage]
  simp only [he, differs_iff]
  rw [if_neg (not_not.mpr h)]

/-- A remote vertex that does not agree with the staged one of its id is a conflict. -/
lemma stage_cons_of_conflict (he : staged.lookup id = some e) (h : ¬ e.Agrees v) :
    stage ((id, v) :: others) staged = .error .conflictDetected := by
  rw [stage]
  simp only [he, differs_iff]
  rw [if_pos h]

/-- A remote vertex with a fresh id is staged. -/
lemma stage_cons_of_fresh (h : staged.lookup id = none) :
    stage ((id, v) :: others) staged = stage others (staged.insert id v) := by
  rw [stage]
  simp only [h]

/-- Staging the first remote vertex changes nothing for the others, whose ids are different. -/
lemma lookup_insert_of_mem_others (hfresh : id ∉ others.map Prod.fst) (staged : VertexMap)
    (v : Vertex) {id' : VertexId} {v' : Vertex} (hmem : (id', v') ∈ others) :
    (staged.insert id v).lookup id' = staged.lookup id' := by
  refine Finmap.lookup_insert_of_ne _ ?_
  rintro rfl
  exact hfresh (List.mem_map.mpr ⟨(id', v'), hmem, rfl⟩)

end Stage

/-- **Staging**: if every remote vertex agrees with the staged one of its id, the remote vertices
with fresh ids are added.

**Proof sketch.** Induction on the remote vertices. Their ids are distinct, so that adding one
changes nothing for the others. -/
lemma stage_ok {others : List (VertexId × Vertex)} (hnodup : (others.map Prod.fst).Nodup) :
    ∀ staged : VertexMap,
      (∀ id v e, (id, v) ∈ others → staged.lookup id = some e → e.Agrees v) →
      ∃ staged', stage others staged = .ok staged' ∧ ∀ id v, staged'.lookup id = some v ↔
        staged.lookup id = some v ∨ id ∉ staged ∧ (id, v) ∈ others := by
  induction others with
  | nil => exact fun staged _ => ⟨staged, rfl, by simp⟩
  | cons entry others ih =>
    obtain ⟨id₀, v₀⟩ := entry
    intro staged hagree
    rw [List.map_cons, List.nodup_cons] at hnodup
    obtain ⟨hfresh, hnodup⟩ := hnodup
    cases h₀ : staged.lookup id₀ with
    | some e₀ =>
      obtain ⟨staged', heq, hlookup⟩ := ih hnodup staged fun id v e hmem =>
        hagree id v e (List.mem_cons_of_mem _ hmem)
      rw [stage_cons_of_agrees h₀ (hagree id₀ v₀ e₀ List.mem_cons_self h₀)]
      refine ⟨staged', heq, fun id v => ?_⟩
      have hmem₀ : id ∉ staged → (id, v) ≠ (id₀, v₀) := by
        rintro hid heq
        obtain ⟨rfl, -⟩ := Prod.mk.inj heq
        exact hid (HashMap.mem_of_lookup h₀)
      rw [hlookup, List.mem_cons]
      tauto
    | none =>
      obtain ⟨staged', heq, hlookup⟩ := ih hnodup (staged.insert id₀ v₀) fun id v e hmem he =>
        hagree id v e (List.mem_cons_of_mem _ hmem)
          (lookup_insert_of_mem_others hfresh staged v₀ hmem ▸ he)
      rw [stage_cons_of_fresh h₀]
      refine ⟨staged', heq, fun id v => ?_⟩
      rw [hlookup, HashMap.lookup_insert_ite, Finmap.mem_insert, List.mem_cons, Prod.mk.injEq]
      by_cases hid : id = id₀
      · subst hid
        have hnotMem : id ∉ staged := Finmap.lookup_eq_none.mp h₀
        have hothers : (id, v) ∉ others :=
          fun hmem => hfresh (List.mem_map.mpr ⟨(id, v), hmem, rfl⟩)
        simp [h₀, hnotMem, hothers, eq_comm]
      · simp [hid]

/-- **Conflicts**: a remote vertex that does not agree with the staged one of its id makes staging
fail, wherever it comes in the iteration. -/
lemma stage_conflict {others : List (VertexId × Vertex)} (hnodup : (others.map Prod.fst).Nodup) :
    ∀ staged : VertexMap,
      (∃ id v e, (id, v) ∈ others ∧ staged.lookup id = some e ∧ ¬ e.Agrees v) →
      stage others staged = .error .conflictDetected := by
  induction others with
  | nil => simp
  | cons entry others ih =>
    obtain ⟨id₀, v₀⟩ := entry
    rintro staged ⟨id, v, e, hmem, he, hconflict⟩
    rw [List.map_cons, List.nodup_cons] at hnodup
    obtain ⟨hfresh, hnodup⟩ := hnodup
    cases h₀ : staged.lookup id₀ with
    | some e₀ =>
      by_cases hagrees : e₀.Agrees v₀
      · rw [stage_cons_of_agrees h₀ hagrees]
        rcases List.mem_cons.mp hmem with heq | hmem
        · obtain ⟨rfl, rfl⟩ := Prod.mk.inj heq
          obtain rfl := Option.some.inj (h₀.symm.trans he)
          exact absurd hagrees hconflict
        · exact ih hnodup staged ⟨id, v, e, hmem, he, hconflict⟩
      · exact stage_cons_of_conflict h₀ hagrees
    | none =>
      rw [stage_cons_of_fresh h₀]
      rcases List.mem_cons.mp hmem with heq | hmem
      · obtain ⟨rfl, rfl⟩ := Prod.mk.inj heq
        simp [h₀] at he
      · have hlookup := lookup_insert_of_mem_others hfresh staged v₀ hmem
        exact ih hnodup _ ⟨id, v, e, hmem, hlookup.trans he, hconflict⟩

/-- **Staging maps**: compatible maps are staged as their union, others are a conflict. -/
lemma stage_spec (vertices : VertexMap) {other : VertexMap} {others : List (VertexId × Vertex)}
    (hothers : other.Enumerates others) :
    (vertices.Compatible other → stage others vertices = .ok (vertices ∪ other)) ∧
    (¬ vertices.Compatible other → stage others vertices = .error .conflictDetected) := by
  refine ⟨fun h => ?_, fun h => stage_conflict hothers.1 vertices ?_⟩
  · obtain ⟨staged, heq, hlookup⟩ := stage_ok hothers.1 vertices fun id v e hmem he =>
      h id e v he ((hothers.2 id v).mp hmem)
    rw [heq]
    refine congrArg Except.ok (Finmap.ext_lookup fun id => Option.ext fun v => ?_)
    rw [hlookup, hothers.2, MapMerge.lookup_union]
    by_cases hid : id ∈ vertices
    · obtain ⟨w, hw⟩ := HashMap.mem_iff_exists.mp hid
      simp [hid, hw]
    · simp [hid, Finmap.lookup_eq_none.mpr hid]
  · simp only [VertexMap.Compatible, MapMerge.Compatible, not_forall] at h
    obtain ⟨id, e, v, he, hv, hconflict⟩ := h
    exact ⟨id, v, e, (hothers.2 id v).mpr hv, he, hconflict⟩

/-! ## Resolving -/

section Resolve

variable {m : VertexMap} {staged : List (VertexId × Vertex)}

/-- A pass resolves vertices whose parents were resolved before them. -/
lemma built_resolvePass (hstaged : ∀ id v, (id, v) ∈ staged → m.lookup id = some v)
    {resolved : HashSet VertexId} (h : m.graph.Built resolved) :
    m.graph.Built (resolvePass staged resolved) := by
  unfold resolvePass
  induction staged generalizing resolved with
  | nil => exact h
  | cons entry staged ih =>
    obtain ⟨id, v⟩ := entry
    have hv := hstaged id v List.mem_cons_self
    rw [List.foldl_cons]
    refine ih (fun id v hmem => hstaged id v (List.mem_cons_of_mem _ hmem)) ?_
    simp only
    split_ifs with hparents
    · refine .insert h (VertexMap.mem_graph_nodes.mpr (HashMap.mem_of_lookup hv)) ?_
      rw [VertexMap.graph_parents hv]
      exact fun p hp => hparents p (Vertex.mem_parentSet.mp hp)
    · exact h

/-- A pass resolves every vertex whose parents are resolved. -/
lemma mem_resolvePass {id : VertexId} {v : Vertex} (hmem : (id, v) ∈ staged)
    {resolved : HashSet VertexId} (hparents : ∀ parent ∈ v.parents, parent ∈ resolved) :
    id ∈ resolvePass staged resolved := by
  induction staged generalizing resolved with
  | nil => exact absurd hmem List.not_mem_nil
  | cons entry staged ih =>
    obtain ⟨id₀, v₀⟩ := entry
    have hcons : resolvePass ((id₀, v₀) :: staged) resolved = resolvePass staged
        (if ∀ parent ∈ v₀.parents, parent ∈ resolved then insert id₀ resolved else resolved) := rfl
    rw [hcons]
    rcases List.mem_cons.mp hmem with heq | hmem
    · obtain ⟨rfl, rfl⟩ := Prod.mk.inj heq
      rw [if_pos hparents]
      exact subset_resolvePass _ _ (Finset.mem_insert_self _ _)
    · refine ih hmem fun parent hp => ?_
      split_ifs
      · exact Finset.mem_insert_of_mem (hparents parent hp)
      · exact hparents parent hp

/-- **Resolving**: the loop ends with success iff the map is closed and acyclic, and else with an
invalid parent.

**Proof sketch.** The resolved ids are collected parents first, so if all are resolved the map
is closed and acyclic. A pass without progress has resolved every id whose parents are resolved;
in a closed acyclic map there is one more as long as an id is missing. -/
lemma resolve_spec (hstaged : m.Enumerates staged) :
    (m.graph.Closed ∧ m.graph.Acyclic → resolve staged = .ok ()) ∧
    (resolve staged = .ok () → m.graph.Closed ∧ m.graph.Acyclic) ∧
    (resolve staged = .ok () ∨ resolve staged = .error (.vertexError .invalidParent)) := by
  have hlookup : ∀ id v, (id, v) ∈ staged → m.lookup id = some v :=
    fun id v => (hstaged.2 id v).mp
  have hpost : (resolve staged = .ok () ∧ m.graph.Closed ∧ m.graph.Acyclic) ∨
      (resolve staged = .error (.vertexError .invalidParent) ∧
        ¬ (m.graph.Closed ∧ m.graph.Acyclic)) := by
    refine Loop.whileLoop_rule (measure_resolveStep staged) (m.graph.Built)
      (fun r => (r = .ok () ∧ m.graph.Closed ∧ m.graph.Acyclic) ∨
        (r = .error (.vertexError .invalidParent) ∧ ¬ (m.graph.Closed ∧ m.graph.Acyclic)))
      ?_ ?_ ∅ .empty
    · intro resolved resolved' hbuilt hstep
      unfold resolveStep at hstep
      simp only at hstep
      split_ifs at hstep
      exact Sum.inl.inj hstep ▸ built_resolvePass hlookup hbuilt
    · intro resolved r hbuilt hstep
      unfold resolveStep at hstep
      simp only at hstep
      split_ifs at hstep with hlt hsame
      · refine .inr ⟨(Sum.inr.inj hstep).symm, fun ⟨hclosed, hacyclic⟩ => ?_⟩
        have hfixed : resolved = resolvePass staged resolved :=
          Finset.eq_of_subset_of_card_le (subset_resolvePass staged resolved) hsame.le
        have hmissing : ∃ id ∈ m.graph.nodes, id ∉ resolved := by
          by_contra hall
          have hsub : m.graph.nodes ⊆ resolved := fun id hid => by
            by_contra hnot
            exact hall ⟨id, hid, hnot⟩
          have hcard := Finset.card_le_card hsub
          rw [hstaged.length_eq] at hlt
          exact absurd hlt (not_lt.mpr hcard)
        obtain ⟨id, hid, hidr, hparents⟩ := hacyclic.exists_ready hclosed hmissing
        obtain ⟨v, hv⟩ := HashMap.mem_iff_exists.mp (VertexMap.mem_graph_nodes.mp hid)
        rw [VertexMap.graph_parents hv] at hparents
        refine hidr (hfixed ▸ mem_resolvePass ((hstaged.2 id v).mpr hv) fun parent hp => ?_)
        exact hparents (Vertex.mem_parentSet.mpr hp)
      · have hall : resolved = m.graph.nodes := by
          refine Finset.eq_of_subset_of_card_le hbuilt.subset ?_
          rw [hstaged.length_eq] at hlt
          exact not_lt.mp hlt
        exact .inl ⟨(Sum.inr.inj hstep).symm, (hall ▸ hbuilt).closed, (hall ▸ hbuilt).acyclic⟩
  rcases hpost with ⟨hres, hgood⟩ | ⟨hres, hbad⟩
  · exact ⟨fun _ => hres, fun _ => hgood, .inl hres⟩
  · refine ⟨fun hgood => absurd hgood hbad, fun hok => ?_, .inr hres⟩
    rw [hres] at hok
    simp at hok

end Resolve

end Dag

/-! ## Putting well-formed maps together -/

/-- **Patchworks of well-formed maps that agree are well formed**: a cycle cannot cross from one
map to another. -/
lemma VertexMap.WellFormed.patchwork {ι : Type} {maps : ι → VertexMap} {S : Set ι} {m : VertexMap}
    (hwell : ∀ i, (maps i).WellFormed) (hmaps : ∀ i j, (maps i).Compatible (maps j))
    (h : MapMerge.Patchwork maps S m) : m.WellFormed := by
  have hcover : ∀ id ∈ m.graph.nodes, ∃ G : ParentGraph VertexId, id ∈ G.nodes ∧ G.Sub m.graph ∧
      G.Closed ∧ G.Acyclic := by
    intro id hid
    obtain ⟨v, hv⟩ := HashMap.mem_iff_exists.mp (mem_graph_nodes.mp hid)
    obtain ⟨i, hi, hiv⟩ := h.entry id v hv
    refine ⟨(maps i).graph, mem_graph_nodes.mpr (HashMap.mem_of_lookup hiv), ⟨?_, ?_⟩,
      (hwell i).closed, (hwell i).acyclic⟩
    · exact fun u hu => mem_graph_nodes.mpr (h.key i hi u (mem_graph_nodes.mp hu))
    · intro u hu
      obtain ⟨w, hw⟩ := HashMap.mem_iff_exists.mp (mem_graph_nodes.mp hu)
      obtain ⟨x, hx, hagrees⟩ := h.le hmaps hi u w hw
      rw [graph_parents hx, graph_parents hw, hagrees.parents]
  refine ⟨fun id v hv => ?_, ?_, ParentGraph.acyclic_of_cover hcover⟩
  · obtain ⟨i, -, hiv⟩ := h.entry id v hv
    exact (hwell i).id_eq id v hiv
  · refine ParentGraph.closed_of_cover fun id hid => ?_
    obtain ⟨G, hG, hsub, hclosed, -⟩ := hcover id hid
    exact ⟨G, hG, hsub, hclosed⟩

/-- The union of two well-formed maps that agree is well formed. -/
lemma VertexMap.WellFormed.union {m m' : VertexMap} (h : m.WellFormed) (h' : m'.WellFormed)
    (hagree : m.Compatible m') : WellFormed (m ∪ m') := by
  have hrefl : ∀ n : VertexMap, n.Compatible n := by
    intro n id v w hv hw
    exact Option.some.inj (hv.symm.trans hw) ▸ Vertex.agrees_equivalence.refl v
  let maps : Bool → VertexMap := fun b => if b then m else m'
  have hunion : MapMerge.Patchwork maps ({true} ∪ {false}) (m ∪ m') :=
    (MapMerge.Patchwork.single maps true).union (MapMerge.Patchwork.single maps false)
  refine WellFormed.patchwork ?_ ?_ hunion
  · intro b
    cases b
    · exact h'
    · exact h
  · intro b b'
    cases b <;> cases b'
    · exact hrefl m'
    · exact hagree.symm Vertex.agrees_equivalence
    · exact hagree
    · exact hrefl m

namespace Dag

/-- **What a synchronization commits**: the union of well-formed maps that agree, which is well
formed again; maps that do not agree are a conflict. -/
lemma mergeMaps_spec {vertices other : VertexMap} (h : vertices.WellFormed)
    (h' : other.WellFormed) {others : List (VertexId × Vertex)} (hothers : other.Enumerates others)
    {stagedOrder : VertexMap → List (VertexId × Vertex)}
    (hstaged : ∀ m : VertexMap, m.Enumerates (stagedOrder m)) :
    (vertices.Compatible other →
      mergeMaps vertices others stagedOrder = .ok (vertices ∪ other) ∧
        VertexMap.WellFormed (vertices ∪ other)) ∧
    (¬ vertices.Compatible other →
      mergeMaps vertices others stagedOrder = .error .conflictDetected) := by
  obtain ⟨hok, herr⟩ := stage_spec vertices hothers
  refine ⟨fun hagree => ?_, fun hagree => ?_⟩
  · have hwell := h.union h' hagree
    have hresolve := (resolve_spec (hstaged (vertices ∪ other))).1 ⟨hwell.closed, hwell.acyclic⟩
    exact ⟨by simp only [mergeMaps, hok hagree, hresolve], hwell⟩
  · simp only [mergeMaps, herr hagree]

end Dag

/-! ## Any maps -/

/-- The parents of a vertex are present, and no chain from a vertex to a parent, from there to one
of its parents and so on goes on without an end. -/
structure VertexMap.Grounded (m : VertexMap) (id : VertexId) : Prop where
  parents_mem : ∀ v, m.lookup id = some v → ∀ parent ∈ v.parents, parent ∈ m
  no_chain : ¬ ∃ chain : ℕ → VertexId, chain 0 = id ∧
    ∀ n, ∃ v, m.lookup (chain n) = some v ∧ chain (n + 1) ∈ v.parents

/-- A map is closed and acyclic iff its vertices are grounded. -/
lemma VertexMap.forall_grounded_iff {m : VertexMap} :
    (∀ id ∈ m, m.Grounded id) ↔ m.graph.Closed ∧ m.graph.Acyclic := by
  have hedge : ∀ p c, m.graph.Edge p c ↔ ∃ v, m.lookup c = some v ∧ p ∈ v.parents := by
    intro p c
    constructor
    · rintro ⟨hc, hp⟩
      obtain ⟨v, hv⟩ := HashMap.mem_iff_exists.mp (mem_graph_nodes.mp hc)
      rw [graph_parents hv] at hp
      exact ⟨v, hv, Vertex.mem_parentSet.mp hp⟩
    · rintro ⟨v, hv, hp⟩
      refine ⟨mem_graph_nodes.mpr (HashMap.mem_of_lookup hv), ?_⟩
      rw [graph_parents hv]
      exact Vertex.mem_parentSet.mpr hp
  rw [ParentGraph.acyclic_iff_no_chain]
  constructor
  · intro h
    refine ⟨fun c hc p hp => ?_, fun chain hchain => ?_⟩
    · obtain ⟨v, hv, hparent⟩ := (hedge p c).mp ⟨hc, hp⟩
      exact mem_graph_nodes.mpr ((h c (HashMap.mem_of_lookup hv)).parents_mem v hv p hparent)
    · have hroot := mem_graph_nodes.mp (hchain 0).1
      exact (h _ hroot).no_chain ⟨chain, rfl, fun n => (hedge _ _).mp (hchain n)⟩
  · rintro ⟨hclosed, hacyclic⟩ id -
    refine ⟨fun v hv parent hparent => ?_, ?_⟩
    · obtain ⟨hid, hp⟩ := (hedge parent id).mpr ⟨v, hv, hparent⟩
      exact mem_graph_nodes.mp (hclosed id hid hp)
    · rintro ⟨chain, -, hchain⟩
      exact hacyclic chain fun n => (hedge _ _).mpr (hchain n)

namespace Dag

open Classical in
/-- What comes of a synchronization, whatever the order of the iterations: the union of the maps, if
no shared id has different vertices and every vertex of the union is grounded, and else an error,
which leaves everything as it was. -/
noncomputable def syncOutcome (self : Dag) (other : VertexMap) : Except DagError Unit × Dag :=
  if self.vertices.Compatible other then
    if ∀ id ∈ self.vertices ∪ other, (self.vertices ∪ other).Grounded id then
      (.ok (), { self with vertices := self.vertices ∪ other })
    else (.error (.vertexError .invalidParent), self)
  else (.error .conflictDetected, self)

/-- **Synchronization of any maps**: for every two maps, and every order of the iterations. -/
theorem syncState_eq (self : Dag) {other : VertexMap} {others : List (VertexId × Vertex)}
    (hothers : other.Enumerates others) {stagedOrder : VertexMap → List (VertexId × Vertex)}
    (hstaged : ∀ m : VertexMap, m.Enumerates (stagedOrder m)) :
    self.syncState others stagedOrder = self.syncOutcome other := by
  obtain ⟨hok, herr⟩ := stage_spec self.vertices hothers
  rw [syncOutcome]
  split_ifs with hcompatible hgrounded
  · have hresolve := (resolve_spec (hstaged (self.vertices ∪ other))).1
      (VertexMap.forall_grounded_iff.mp hgrounded)
    have hmerge : mergeMaps self.vertices others stagedOrder = .ok (self.vertices ∪ other) := by
      simp only [mergeMaps, hok hcompatible, hresolve]
    exact syncState_of_merge hmerge
  · obtain ⟨-, hsound, hresult⟩ := resolve_spec (hstaged (self.vertices ∪ other))
    have hfail := hresult.resolve_left fun hresolve =>
      hgrounded (VertexMap.forall_grounded_iff.mpr (hsound hresolve))
    simp only [syncState, mergeMaps, hok hcompatible, hfail]
  · simp only [syncState, mergeMaps, herr hcompatible]

/-- The theorem at a map with a vertex whose parent comes from the other one. -/
theorem syncState_eq_child :
    let child : Vertex := ⟨⟨[2]⟩, [⟨[1]⟩], [], 0, []⟩
    let genesis : Vertex := ⟨⟨[1]⟩, [], [], 0, []⟩
    let self : Dag := { Dag.new 1 0 with vertices := (∅ : VertexMap).insert ⟨[2]⟩ child }
    self.syncState [(⟨[1]⟩, genesis)] HashMap.sorted =
      self.syncOutcome ((∅ : VertexMap).insert ⟨[1]⟩ genesis) := by
  intro child genesis self
  exact syncState_eq self (HashMap.Enumerates.empty.insert Finmap.notMem_empty genesis)
    HashMap.sorted_enumerates

end Dag

end QuDAG
