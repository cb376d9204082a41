import QuDAG.Dag.Facade
import QuDAG.Lib.GreedyOrder
import QuDAG.Lib.Loop
import QuDAG.Lib.MapSum
import QuDAG.Lib.Outcome

/-!
# The total order of the facade (`get_total_order`)

Kahn's algorithm with an ordered ready set: count the parents of every vertex, emit the least
ready id and release its children, until nothing is ready.

## Main definitions

* `DAGConsensus.KahnState`, `DAGConsensus.kahnSetup`, `DAGConsensus.kahnStep`,
  `DAGConsensus.getTotalOrder`.
* `DAGConsensus.Iteration` — orders in which the hashed collections may be iterated.
* `DAGConsensus.KahnInv` — the loop invariant.

## Main results

* `DAGConsensus.kahnSetup_inv` — the setup establishes the invariant.
* `DAGConsensus.KahnInv.step` — an iteration keeps it, and the decrement never underflows.
* `DAGConsensus.getTotalOrder_spec` — the order returned is the least-first topological order of the
  admitted vertices.

## Implementation notes

The map of vertices is iterated in the order `entries`, and the parent set of a vertex in the
order `parentOrder` gives for its id. A decrement of zero would stop the program, so it is the
outcome `panic`.
-/

namespace QuDAG

open RustStd

namespace DAGConsensus

/-! ## The algorithm -/

/-- The local variables of `get_total_order`. -/
structure KahnState where
  indegree : HashMap VertexId ℕ
  children : HashMap VertexId (List VertexId)
  ready : BTreeSet (List UInt8)
  order : List String

namespace KahnState

/-- Nothing counted yet. -/
def empty : KahnState := ⟨∅, ∅, ∅, []⟩

/-- The children recorded for an id. -/
def childrenOf (s : KahnState) (id : VertexId) : List VertexId := (s.children.lookup id).getD []

/-- What every continuing iteration lowers. -/
def measure (s : KahnState) : ℕ := s.ready.card + s.indegree.total

end KahnState

/-- Record `id` as a child of each of the parents listed. -/
def recordChild (id : VertexId) (parents : List VertexId)
    (children : HashMap VertexId (List VertexId)) : HashMap VertexId (List VertexId) :=
  parents.foldl (fun children parent =>
    children.insert parent ((children.lookup parent).getD [] ++ [id])) children

/-- Count the parents of a vertex, and record it as their child. -/
def registerVertex (parentOrder : VertexId → List VertexId) (s : KahnState)
    (entry : VertexId × Vertex) : KahnState :=
  let (id, vertex) := entry
  let parents := vertex.parentSet
  { s with
    indegree := s.indegree.insert id parents.card
    ready := if parents = ∅ then insert id.asBytes s.ready else s.ready
    children := recordChild id (parentOrder id) s.children }

/-- The first loop. -/
def kahnSetup (parentOrder : VertexId → List VertexId) (entries : List (VertexId × Vertex)) :
    KahnState :=
  entries.foldl (registerVertex parentOrder) .empty

/-- Lower the count of each child, and make ready those that reach zero. -/
def releaseChildren : List VertexId → KahnState → Outcome DagError KahnState
  | [], s => .ok s
  | child :: children, s =>
    match s.indegree.lookup child with
    | none => .err (.consensusError "Missing child")
    | some 0 => .panic
    | some (count + 1) =>
      releaseChildren children
        { s with
          indegree := s.indegree.insert child count
          ready := if count = 0 then insert child.asBytes s.ready else s.ready }

/-- The error for an id that is not a string. -/
def notUtf8 : DagError := .consensusError "String order API requires UTF-8 IDs"

/-- One iteration of the second loop: emit the least ready id and release its children. -/
def kahnStep (s : KahnState) : KahnState ⊕ Outcome DagError (List String) :=
  match s.ready.popFirst with
  | none => .inr (.ok s.order)
  | some (bytes, ready) =>
    match Bytes.fromUtf8 bytes with
    | none => .inr (.err notUtf8)
    | some text =>
      match releaseChildren (s.childrenOf (.fromBytes bytes))
          { s with ready := ready, order := s.order ++ [text] } with
      | .ok s => .inl s
      | .err e => .inr (.err e)
      | .panic => .inr .panic

/-- Releasing children moves at most one unit of the measure from a count to the ready set. -/
lemma measure_releaseChildren {children : List VertexId} {s s' : KahnState}
    (h : releaseChildren children s = .ok s') : s'.measure ≤ s.measure := by
  induction children generalizing s with
  | nil =>
    obtain rfl : s = s' := by simpa [releaseChildren] using h
    exact le_refl _
  | cons child children ih =>
    rw [releaseChildren] at h
    split at h
    · exact absurd h (by simp)
    · exact absurd h (by simp)
    · rename_i count hcount
      refine (ih h).trans ?_
      have htotal := HashMap.total_insert_of_lookup hcount count
      unfold KahnState.measure
      by_cases hzero : count = 0
      · have := Finset.card_insert_le child.asBytes s.ready
        simp only [hzero, if_true] at htotal ⊢
        omega
      · simp only [if_neg hzero]
        omega

/-- A continuing iteration lowers the measure. -/
lemma measure_kahnStep (s s' : KahnState) (h : kahnStep s = .inl s') :
    s'.measure < s.measure := by
  unfold kahnStep at h
  split at h
  · exact absurd h (by simp)
  · rename_i bytes ready hpop
    split at h
    · exact absurd h (by simp)
    · split at h
      · rename_i hrel
        obtain rfl := Sum.inl.inj h
        refine lt_of_le_of_lt (measure_releaseChildren hrel) ?_
        exact Nat.add_lt_add_right (BTreeSet.card_lt_of_popFirst hpop) _
      · exact absurd h (by simp)
      · exact absurd h (by simp)

/-- The deterministic local topological order, with raw ids to break ties. -/
def getTotalOrder (self : DAGConsensus) (entries : List (VertexId × Vertex))
    (parentOrder : VertexId → List VertexId) : Outcome DagError (List String) :=
  match Loop.whileLoop kahnStep KahnState.measure measure_kahnStep
      (kahnSetup parentOrder entries) with
  | .ok order =>
    if order.length ≠ self.vertices.keys.card then
      .err (.consensusError "Cycle or missing parent")
    else .ok order
  | r => r

/-- Orders in which the vertex map and the parent sets may be iterated. -/
structure Iteration (dag : DAGConsensus) (entries : List (VertexId × Vertex))
    (parentOrder : VertexId → List VertexId) : Prop where
  entries : dag.vertices.Enumerates entries
  parents : ∀ id v, dag.vertices.lookup id = some v → v.parentSet.Enumerates (parentOrder id)

/-! ## The setup -/

/-- A child is appended to the children of the parents listed, once if they are distinct. -/
lemma lookup_recordChild (id p : VertexId) {parents : List VertexId} (hnodup : parents.Nodup)
    (children : HashMap VertexId (List VertexId)) :
    ((recordChild id parents children).lookup p).getD [] =
      (children.lookup p).getD [] ++ if p ∈ parents then [id] else [] := by
  induction parents generalizing children with
  | nil => simp [recordChild]
  | cons parent parents ih =>
    obtain ⟨hnotMem, hnodup⟩ := List.nodup_cons.mp hnodup
    have hstep : recordChild id (parent :: parents) children = recordChild id parents
        (children.insert parent ((children.lookup parent).getD [] ++ [id])) := rfl
    rw [hstep, ih hnodup, HashMap.lookup_insert_ite]
    by_cases hp : p = parent
    · subst hp
      simp [hnotMem]
    · simp [hp]

section Setup

variable {parentOrder : VertexId → List VertexId} {entries : List (VertexId × Vertex)}

/-- What the setup has computed after the entries it has seen. -/
structure SetupSpec (entries : List (VertexId × Vertex)) (s : KahnState) : Prop where
  indegree : ∀ id v, (id, v) ∈ entries → s.indegree.lookup id = some v.parentSet.card
  children : ∀ p, s.childrenOf p = (entries.filter fun e => p ∈ e.2.parents).map Prod.fst
  ready : ∀ bytes, bytes ∈ s.ready ↔
    ∃ id v, (id, v) ∈ entries ∧ id.asBytes = bytes ∧ v.parentSet = ∅
  order : s.order = []

/-- Registering one more vertex. -/
lemma SetupSpec.register {s : KahnState} (h : SetupSpec entries s) {id : VertexId} {v : Vertex}
    (hfresh : id ∉ entries.map Prod.fst) (hparents : v.parentSet.Enumerates (parentOrder id)) :
    SetupSpec (entries ++ [(id, v)]) (registerVertex parentOrder s (id, v)) where
  indegree id' v' hmem := by
    simp only [registerVertex, HashMap.lookup_insert_ite]
    rcases List.mem_append.mp hmem with hmem | hmem
    · have hne : id' ≠ id := fun heq => hfresh (heq ▸ List.mem_map_of_mem hmem)
      rw [if_neg hne, h.indegree id' v' hmem]
    · obtain ⟨rfl, rfl⟩ := Prod.mk.inj (List.mem_singleton.mp hmem)
      simp
  children p := by
    have hold := h.children p
    unfold KahnState.childrenOf at hold ⊢
    have hp : p ∈ parentOrder id ↔ p ∈ v.parents := by rw [hparents.2, Vertex.mem_parentSet]
    simp only [registerVertex, lookup_recordChild id p hparents.1, hold, hp,
      List.filter_append, List.map_append]
    by_cases hpv : p ∈ v.parents <;> simp [hpv]
  ready bytes := by
    have hold := h.ready bytes
    by_cases hempty : v.parentSet = ∅
    · simp only [registerVertex, hempty, if_true, Finset.mem_insert, hold, List.mem_append,
        List.mem_singleton]
      grind
    · simp only [registerVertex, hempty, if_false, hold, List.mem_append, List.mem_singleton]
      grind
  order := h.order

/-- **The setup**: counts, children and the ready set of all the entries.

**Proof sketch.** Induction on the entries from the last one, in the order of the loop. -/
lemma setupSpec_kahnSetup (hnodup : (entries.map Prod.fst).Nodup)
    (hparents : ∀ id v, (id, v) ∈ entries → v.parentSet.Enumerates (parentOrder id)) :
    SetupSpec entries (kahnSetup parentOrder entries) := by
  induction entries using List.reverseRecOn with
  | nil =>
    refine ⟨by simp, fun p => ?_, by simp [kahnSetup, KahnState.empty], rfl⟩
    simp [kahnSetup, KahnState.empty, KahnState.childrenOf]
  | append_singleton entries entry ih =>
    obtain ⟨id, v⟩ := entry
    rw [List.map_append, List.map_singleton, List.nodup_append] at hnodup
    obtain ⟨hnodup, -, hdisj⟩ := hnodup
    have hfresh : id ∉ entries.map Prod.fst :=
      fun hid => hdisj id hid id (List.mem_singleton_self id) rfl
    have hih := ih hnodup fun id v hmem => hparents id v (List.mem_append_left _ hmem)
    rw [kahnSetup, List.foldl_append, List.foldl_cons, List.foldl_nil]
    exact hih.register hfresh (hparents id v (by simp))

end Setup

/-! ## Releasing children -/

/-- **Releasing children**: if every child listed, each once, still has a positive count, then
no count underflows, the counts of these children go down by one, and those that were one become
ready. -/
lemma releaseChildren_spec {children : List VertexId} (hnodup : children.Nodup) {s : KahnState}
    (hcount : ∀ c ∈ children, ∃ n, s.indegree.lookup c = some (n + 1)) :
    ∃ s', releaseChildren children s = .ok s' ∧ s'.children = s.children ∧ s'.order = s.order ∧
      (∀ c ∈ children, ∀ n, s.indegree.lookup c = some (n + 1) →
        s'.indegree.lookup c = some n) ∧
      (∀ c, c ∉ children → s'.indegree.lookup c = s.indegree.lookup c) ∧
      ∀ bytes, bytes ∈ s'.ready ↔ bytes ∈ s.ready ∨
        ∃ c ∈ children, c.asBytes = bytes ∧ s.indegree.lookup c = some 1 := by
  induction children generalizing s with
  | nil => exact ⟨s, rfl, rfl, rfl, by simp, by simp, by simp⟩
  | cons child children ih =>
    obtain ⟨hnotMem, hnodup⟩ := List.nodup_cons.mp hnodup
    obtain ⟨count, hchild⟩ := hcount child List.mem_cons_self
    have hne : ∀ c ∈ children, c ≠ child := fun c hc heq => hnotMem (heq ▸ hc)
    obtain ⟨s', hrel, hch, hord, hin, hout, hready⟩ := ih hnodup
      (s := { s with
        indegree := s.indegree.insert child count
        ready := if count = 0 then insert child.asBytes s.ready else s.ready })
      (fun c hc => by
        obtain ⟨n, hn⟩ := hcount c (List.mem_cons_of_mem _ hc)
        exact ⟨n, by rw [Finmap.lookup_insert_of_ne _ (hne c hc), hn]⟩)
    refine ⟨s', by simp only [releaseChildren, hchild, hrel], hch, hord, ?_, ?_, ?_⟩
    · intro c hc n hn
      rcases List.mem_cons.mp hc with rfl | hc
      · obtain rfl : count = n := by simpa [hchild] using hn
        rw [hout c hnotMem, Finmap.lookup_insert]
      · exact hin c hc n (by rw [Finmap.lookup_insert_of_ne _ (hne c hc), hn])
    · intro c hc
      obtain ⟨hc, hc'⟩ := not_or.mp (fun h => hc (List.mem_cons.mpr h))
      rw [hout c hc', Finmap.lookup_insert_of_ne _ hc]
    · intro bytes
      rw [hready]
      have hothers : (∃ c ∈ children, c.asBytes = bytes ∧
          (s.indegree.insert child count).lookup c = some 1) ↔
          ∃ c ∈ children, c.asBytes = bytes ∧ s.indegree.lookup c = some 1 := by
        refine exists_congr fun c => and_congr_right fun hc => ?_
        rw [Finmap.lookup_insert_of_ne _ (hne c hc)]
      rw [hothers]
      by_cases hzero : count = 0
      · subst hzero
        simp only [if_true, Finset.mem_insert, List.mem_cons, exists_eq_or_imp, hchild]
        grind
      · simp only [if_neg hzero, List.mem_cons, exists_eq_or_imp, hchild]
        grind

/-! ## The loop -/

/-- The id a text was decoded from. -/
def idOf (text : String) : VertexId := .fromBytes (Bytes.ofString text)

/-- Texts with the same id are the same. -/
lemma idOf_injective : Function.Injective idOf :=
  fun _ _ h => Bytes.ofString_injective (congrArg VertexId.asBytes h)

/-- **The loop invariant**: after emitting the ids `l`, the count of a vertex is the number of
its parents still to come, the ready ids are those whose parents have all been emitted, the
parents of an emitted id are emitted, and any least-first continuation of `l` completes it to a
least-first order. -/
structure KahnInv (G : ParentGraph VertexId) (l : List VertexId) (s : KahnState) : Prop where
  emitted : s.order.map idOf = l
  parents : ∀ v ∈ l, G.parents v ⊆ l.toFinset
  indegree : ∀ v ∈ G.nodes, s.indegree.lookup v = some (G.parents v \ l.toFinset).card
  children : ∀ p, (s.childrenOf p).Nodup ∧ ∀ c, c ∈ s.childrenOf p ↔ G.Edge p c
  ready : ∀ v : VertexId, v.asBytes ∈ s.ready ↔ G.Ready l.toFinset v
  greedy : ∀ rest, G.GreedyFrom l.toFinset rest → G.GreedyFrom ∅ (l ++ rest)

section Loop

variable {self : DAGConsensus} {entries : List (VertexId × Vertex)}
  {parentOrder : VertexId → List VertexId}

/-- **The setup establishes the invariant**, with nothing emitted. -/
lemma kahnSetup_inv (h : self.Iteration entries parentOrder) :
    KahnInv self.vertices.graph [] (kahnSetup parentOrder entries) := by
  have hspec : SetupSpec entries (kahnSetup parentOrder entries) :=
    setupSpec_kahnSetup h.entries.1 fun id v hmem => h.parents id v ((h.entries.2 id v).mp hmem)
  have hnode : ∀ v ∈ self.vertices.graph.nodes, ∃ w, self.vertices.lookup v = some w :=
    fun v hv => HashMap.mem_iff_exists.mp (VertexMap.mem_graph_nodes.mp hv)
  refine ⟨by simp [hspec.order], by simp, fun v hv => ?_, fun p => ⟨?_, fun c => ?_⟩,
    fun v => ?_, ?_⟩
  · obtain ⟨w, hw⟩ := hnode v hv
    rw [hspec.indegree v w ((h.entries.2 v w).mpr hw), VertexMap.graph_parents hw]
    simp
  · rw [hspec.children]
    exact h.entries.1.sublist (List.filter_sublist.map _)
  · rw [hspec.children, List.mem_map]
    constructor
    · rintro ⟨⟨c, w⟩, hmem, rfl⟩
      obtain ⟨hmem, hp⟩ := List.mem_filter.mp hmem
      have hw := (h.entries.2 c w).mp hmem
      refine ⟨VertexMap.mem_graph_nodes.mpr (HashMap.mem_of_lookup hw), ?_⟩
      rw [VertexMap.graph_parents hw]
      simpa using hp
    · rintro ⟨hc, hp⟩
      obtain ⟨w, hw⟩ := hnode c hc
      rw [VertexMap.graph_parents hw] at hp
      exact ⟨(c, w), List.mem_filter.mpr ⟨(h.entries.2 c w).mpr hw, by simpa using hp⟩, rfl⟩
  · rw [hspec.ready]
    constructor
    · rintro ⟨id, w, hmem, hid, hempty⟩
      obtain rfl := VertexId.asBytes_injective hid
      have hw := (h.entries.2 id w).mp hmem
      refine ⟨VertexMap.mem_graph_nodes.mpr (HashMap.mem_of_lookup hw), by simp, ?_⟩
      rw [VertexMap.graph_parents hw, hempty]
      exact Finset.empty_subset _
    · rintro ⟨hv, -, hsub⟩
      obtain ⟨w, hw⟩ := hnode v hv
      rw [VertexMap.graph_parents hw] at hsub
      exact ⟨v, w, (h.entries.2 v w).mpr hw, rfl, Finset.subset_empty.mp (by simpa using hsub)⟩
  · intro rest hrest
    simpa using hrest

/-- The least ready id of a state is the least ready node. -/
lemma KahnInv.leastReady {G : ParentGraph VertexId} {l : List VertexId} {s : KahnState}
    (h : KahnInv G l s) {bytes : List UInt8} {ready : BTreeSet (List UInt8)}
    (hpop : s.ready.popFirst = some (bytes, ready)) :
    G.LeastReady l.toFinset (.fromBytes bytes) := by
  obtain ⟨hmem, hleast, -⟩ := BTreeSet.popFirst_eq_some hpop
  exact ⟨(h.ready (.fromBytes bytes)).mp hmem, fun w hw => hleast w.asBytes ((h.ready w).mpr hw)⟩

/-- Emitting `p` removes it from the parents still to come of its children, and of no other. -/
lemma card_sdiff_insert {G : ParentGraph VertexId} {E : Finset VertexId} {p v : VertexId}
    (hp : p ∉ E) : (G.parents v \ E).card =
      (G.parents v \ insert p E).card + if p ∈ G.parents v then 1 else 0 := by
  have hsdiff : G.parents v \ insert p E = (G.parents v \ E).erase p := by
    ext x
    simp only [Finset.mem_sdiff, Finset.mem_insert, Finset.mem_erase]
    tauto
  rw [hsdiff]
  by_cases hpv : p ∈ G.parents v
  · rw [if_pos hpv, Finset.card_erase_add_one (Finset.mem_sdiff.mpr ⟨hpv, hp⟩)]
  · rw [if_neg hpv, Finset.erase_eq_of_notMem (fun h => hpv (Finset.mem_sdiff.mp h).1)]
    rfl

/-- The count of a node is that of its parents other than `p` still to come, and one if `p` is
among its parents. -/
lemma KahnInv.indegree_insert {G : ParentGraph VertexId} {l : List VertexId} {s : KahnState}
    (h : KahnInv G l s) {p v : VertexId} (hp : p ∉ l.toFinset) (hv : v ∈ G.nodes) :
    s.indegree.lookup v =
      some ((G.parents v \ insert p l.toFinset).card + if p ∈ G.parents v then 1 else 0) := by
  rw [h.indegree v hv, card_sdiff_insert hp]

/-- The children of `p` whose count is one are those whose other parents are emitted. -/
lemma KahnInv.released_iff {G : ParentGraph VertexId} {l : List VertexId} {s : KahnState}
    (h : KahnInv G l s) {p : VertexId} (hp : p ∉ l.toFinset) (v : VertexId) :
    (∃ c ∈ s.childrenOf p, c.asBytes = v.asBytes ∧ s.indegree.lookup c = some 1) ↔
      G.Edge p v ∧ G.parents v ⊆ insert p l.toFinset := by
  obtain ⟨-, hchild⟩ := h.children p
  constructor
  · rintro ⟨c, hc, hcv, hone⟩
    obtain rfl := VertexId.asBytes_injective hcv
    obtain ⟨hcG, hpc⟩ := (hchild c).mp hc
    rw [h.indegree_insert hp hcG, if_pos hpc] at hone
    have hzero : (G.parents c \ insert p l.toFinset).card = 0 := by simpa using hone
    exact ⟨⟨hcG, hpc⟩, Finset.sdiff_eq_empty_iff_subset.mp (Finset.card_eq_zero.mp hzero)⟩
  · rintro ⟨⟨hvG, hpv⟩, hsub⟩
    refine ⟨v, (hchild v).mpr ⟨hvG, hpv⟩, rfl, ?_⟩
    have hzero := Finset.card_eq_zero.mpr (Finset.sdiff_eq_empty_iff_subset.mpr hsub)
    rw [h.indegree_insert hp hvG, if_pos hpv, hzero]

/-- Emitting the ready id `p` and releasing its children keeps the invariant.

**Proof sketch.** A child of `p` has `p` among its parents still to come, so its count is
positive and goes down to the number of its other parents still to come. It becomes ready iff
`p` was the last of them. -/
lemma KahnInv.emit {G : ParentGraph VertexId} {l : List VertexId} {s : KahnState}
    (h : KahnInv G l s) {text : String} {ready : BTreeSet (List UInt8)}
    (hleast : G.LeastReady l.toFinset (idOf text))
    (hready : ∀ b, b ∈ ready ↔ b ≠ (idOf text).asBytes ∧ b ∈ s.ready) :
    ∃ s', releaseChildren (s.childrenOf (idOf text))
        { s with ready := ready, order := s.order ++ [text] } = .ok s' ∧
      KahnInv G (l ++ [idOf text]) s' := by
  set p := idOf text with hp
  have hpl : p ∉ l.toFinset := hleast.1.2.1
  have htoFinset : (l ++ [p]).toFinset = insert p l.toFinset := by
    ext x
    simp [or_comm]
  have hcount := fun {v : VertexId} => h.indegree_insert (v := v) hpl
  obtain ⟨hnodup, hchild⟩ := h.children p
  obtain ⟨s', hrel, hch, hord, hin, hout, hready'⟩ := releaseChildren_spec hnodup
    (s := { s with ready := ready, order := s.order ++ [text] })
    (fun c hc => by
      obtain ⟨hcG, hpc⟩ := (hchild c).mp hc
      exact ⟨_, by rw [hcount hcG, if_pos hpc]⟩)
  refine ⟨s', hrel, ?_, ?_, ?_, ?_, ?_, ?_⟩
  · rw [hord, List.map_append, h.emitted, List.map_singleton]
  · intro v hv
    rw [htoFinset]
    rcases List.mem_append.mp hv with hv | hv
    · exact (h.parents v hv).trans (Finset.subset_insert _ _)
    · obtain rfl := List.mem_singleton.mp hv
      exact hleast.1.2.2.trans (Finset.subset_insert _ _)
  · intro v hv
    rw [htoFinset]
    by_cases hpv : p ∈ G.parents v
    · exact hin v ((hchild v).mpr ⟨hv, hpv⟩) _ (by rw [hcount hv, if_pos hpv])
    · have hv' : v ∉ s.childrenOf p := fun hc => hpv ((hchild v).mp hc).2
      rw [hout v hv', hcount hv, if_neg hpv, Nat.add_zero]
  · intro q
    have hsame : s'.childrenOf q = s.childrenOf q := by rw [KahnState.childrenOf, hch]; rfl
    rw [hsame]
    exact h.children q
  · intro v
    have hE : ∀ u ∈ l.toFinset, G.parents u ⊆ l.toFinset :=
      fun u hu => h.parents u (List.mem_toFinset.mp hu)
    rw [htoFinset, hleast.1.insert_iff hE, hready', hready, h.released_iff hpl, h.ready,
      VertexId.asBytes_injective.ne_iff]
  · intro rest hrest
    rw [htoFinset] at hrest
    rw [List.append_assoc]
    exact h.greedy (p :: rest) ⟨hleast, hrest⟩

/-- **One iteration**: it ends with the order when nothing is ready, it ends with an error when
the least ready id is not a string, and else it emits that id and keeps the invariant. In
particular no count underflows. -/
lemma KahnInv.step {G : ParentGraph VertexId} {l : List VertexId} {s : KahnState}
    (h : KahnInv G l s) :
    (kahnStep s = .inr (.ok s.order) ∧ G.GreedyFrom ∅ l) ∨
    (kahnStep s = .inr (.err notUtf8) ∧ ∃ v ∈ G.nodes, ¬ Bytes.IsUtf8 v.asBytes) ∨
    ∃ s' p, kahnStep s = .inl s' ∧ KahnInv G (l ++ [p]) s' := by
  cases hpop : s.ready.popFirst with
  | none =>
    refine .inl ⟨by simp only [kahnStep, hpop], ?_⟩
    have hempty := BTreeSet.popFirst_eq_none.mp hpop
    have hgreedy := h.greedy [] fun v hv => by simpa [hempty] using (h.ready v).mpr hv
    rwa [List.append_nil] at hgreedy
  | some popped =>
    obtain ⟨bytes, ready⟩ := popped
    have hleast := h.leastReady hpop
    obtain ⟨-, -, hready⟩ := BTreeSet.popFirst_eq_some hpop
    by_cases hutf8 : Bytes.IsUtf8 bytes
    · obtain ⟨text, htext, rfl⟩ := Bytes.fromUtf8_of_isUtf8 hutf8
      obtain ⟨s', hrel, hinv⟩ := h.emit hleast hready
      refine .inr (.inr ⟨s', idOf text, ?_, hinv⟩)
      simp only [kahnStep, hpop, htext]
      rw [show VertexId.fromBytes (Bytes.ofString text) = idOf text from rfl, hrel]
    · refine .inr (.inl ⟨?_, _, hleast.1.1, hutf8⟩)
      simp only [kahnStep, hpop, Bytes.fromUtf8_of_not_isUtf8 hutf8]

/-- **The loop**: it ends with a least-first order of the graph, or with an error that names an
id that is not a string. -/
lemma KahnInv.whileLoop {G : ParentGraph VertexId} {l : List VertexId} {s : KahnState}
    (h : KahnInv G l s) :
    (∃ order, Loop.whileLoop kahnStep KahnState.measure measure_kahnStep s = .ok order ∧
      G.GreedyFrom ∅ (order.map idOf)) ∨
    (Loop.whileLoop kahnStep KahnState.measure measure_kahnStep s = .err notUtf8 ∧
      ∃ v ∈ G.nodes, ¬ Bytes.IsUtf8 v.asBytes) := by
  refine Loop.whileLoop_rule measure_kahnStep (fun s => ∃ l, KahnInv G l s)
    (fun r => (∃ order, r = .ok order ∧ G.GreedyFrom ∅ (order.map idOf)) ∨
      (r = .err notUtf8 ∧ ∃ v ∈ G.nodes, ¬ Bytes.IsUtf8 v.asBytes)) ?_ ?_ s ⟨l, h⟩
  · rintro s s' ⟨l, h⟩ hs
    rcases h.step with ⟨hend, -⟩ | ⟨hend, -⟩ | ⟨s'', p, hstep, h'⟩
    · rw [hs] at hend
      simp at hend
    · rw [hs] at hend
      simp at hend
    · obtain rfl : s' = s'' := Sum.inl.inj (hs.symm.trans hstep)
      exact ⟨_, h'⟩
  · rintro s r ⟨l, h⟩ hs
    rcases h.step with ⟨hend, hgreedy⟩ | ⟨hend, hbad⟩ | ⟨s'', p, hstep, -⟩
    · obtain rfl := Sum.inr.inj (hs.symm.trans hend)
      exact .inl ⟨s.order, rfl, h.emitted ▸ hgreedy⟩
    · exact .inr ⟨Sum.inr.inj (hs.symm.trans hend), hbad⟩
    · rw [hs] at hstep
      simp at hstep

/-! ## The order returned -/

/-- **What `get_total_order` returns**: if every id is a string, the least-first topological
order of the vertices, and else an error. -/
lemma getTotalOrder_spec (hdag : self.vertices.WellFormed)
    (h : self.Iteration entries parentOrder) :
    ((∀ id ∈ self.vertices, Bytes.IsUtf8 id.asBytes) →
      ∃ order, self.getTotalOrder entries parentOrder = .ok order ∧
        self.vertices.graph.GreedyFrom ∅ (order.map idOf)) ∧
    ((∃ id ∈ self.vertices, ¬ Bytes.IsUtf8 id.asBytes) →
      self.getTotalOrder entries parentOrder = .err notUtf8) := by
  have hnodes : ∀ id, id ∈ self.vertices.graph.nodes ↔ id ∈ self.vertices :=
    fun id => VertexMap.mem_graph_nodes
  rcases (kahnSetup_inv h).whileLoop with ⟨order, hloop, hgreedy⟩ | ⟨hloop, v, hv, hbad⟩
  · have horder := hgreedy.isLeastFirst hdag.closed hdag.acyclic
    have hlength : order.length = self.vertices.keys.card := by
      have hset : (order.map idOf).toFinset = self.vertices.keys := by
        ext id
        rw [List.mem_toFinset, horder.mem_iff]
        rfl
      rw [← hset, List.toFinset_card_of_nodup horder.nodup, List.length_map]
    refine ⟨fun _ => ⟨order, ?_, hgreedy⟩, ?_⟩
    · simp only [getTotalOrder, hloop, hlength, ne_eq, not_true_eq_false, if_false]
    · rintro ⟨id, hid, hbad⟩
      obtain ⟨text, -, rfl⟩ := List.mem_map.mp ((horder.mem_iff id).mpr ((hnodes id).mpr hid))
      exact absurd (Bytes.isUtf8_ofString text) hbad
  · refine ⟨fun hall => absurd (hall v ((hnodes v).mp hv)) hbad, fun _ => ?_⟩
    simp only [getTotalOrder, hloop]

end Loop

/-- **The total order of any admitted history**: after any sequence of calls and whatever order
the hashed collections are iterated in, `get_total_order` returns the least-first topological
order of the admitted vertices if every admitted id is a string, and an error otherwise. It
never underflows, and it depends only on the admitted ids with their parent sets. -/
theorem getTotalOrder_run (now : Instant) (calls : List Call)
    (entries : List (VertexId × Vertex)) (parentOrder : VertexId → List VertexId)
    (h : (run now calls).Iteration entries parentOrder) :
    ((∀ v ∈ admitted now calls, Bytes.IsUtf8 v.id.asBytes) →
      ∃ order, (run now calls).getTotalOrder entries parentOrder = .ok order ∧
        (∀ id, id ∈ order.map idOf ↔ ∃ v ∈ admitted now calls, v.id = id) ∧
        (run now calls).vertices.graph.IsLeastFirst (order.map idOf)) ∧
    ((∃ v ∈ admitted now calls, ¬ Bytes.IsUtf8 v.id.asBytes) →
      ∃ e, (run now calls).getTotalOrder entries parentOrder = .err e) ∧
    (run now calls).getTotalOrder entries parentOrder ≠ .panic ∧
    ∀ (now' : Instant) (calls' : List Call) (entries' : List (VertexId × Vertex))
      (parentOrder' : VertexId → List VertexId),
      (run now' calls').Iteration entries' parentOrder' →
      (∀ id parents, (∃ v ∈ admitted now calls, v.id = id ∧ v.parentSet = parents) ↔
        ∃ v ∈ admitted now' calls', v.id = id ∧ v.parentSet = parents) →
      (run now' calls').getTotalOrder entries' parentOrder' =
        (run now calls).getTotalOrder entries parentOrder := by
  have hwell := (consistent_run now calls).wellFormed
  obtain ⟨hok, herr⟩ := getTotalOrder_spec hwell h
  have hadmitted : ∀ id, id ∈ (run now calls).vertices ↔ ∃ v ∈ admitted now calls, v.id = id :=
    mem_run now calls
  have hall : (∀ v ∈ admitted now calls, Bytes.IsUtf8 v.id.asBytes) →
      ∀ id ∈ (run now calls).vertices, Bytes.IsUtf8 id.asBytes := by
    intro hutf8 id hid
    obtain ⟨v, hv, rfl⟩ := (hadmitted id).mp hid
    exact hutf8 v hv
  have hbad : (∃ v ∈ admitted now calls, ¬ Bytes.IsUtf8 v.id.asBytes) →
      ∃ id ∈ (run now calls).vertices, ¬ Bytes.IsUtf8 id.asBytes := by
    rintro ⟨v, hv, hutf8⟩
    exact ⟨v.id, (hadmitted v.id).mpr ⟨v, hv, rfl⟩, hutf8⟩
  refine ⟨fun hutf8 => ?_, fun hutf8 => ⟨notUtf8, herr (hbad hutf8)⟩, ?_, ?_⟩
  · obtain ⟨order, horder, hgreedy⟩ := hok (hall hutf8)
    have hleast := hgreedy.isLeastFirst hwell.closed hwell.acyclic
    refine ⟨order, horder, fun id => ?_, hleast⟩
    rw [hleast.mem_iff, VertexMap.mem_graph_nodes, hadmitted]
  · by_cases hutf8 : ∀ v ∈ admitted now calls, Bytes.IsUtf8 v.id.asBytes
    · obtain ⟨order, horder, -⟩ := hok (hall hutf8)
      simp [horder]
    · rw [herr (hbad (by simpa using hutf8))]
      simp
  · intro now' calls' entries' parentOrder' h' hpairs
    have hsame := same_run hpairs
    obtain ⟨hok', herr'⟩ := getTotalOrder_spec (consistent_run now' calls').wellFormed h'
    have hkeys : ∀ id, id ∈ (run now calls).vertices ↔ id ∈ (run now' calls').vertices := by
      intro id
      rw [← VertexMap.mem_graph_nodes, hsame.1, VertexMap.mem_graph_nodes]
    by_cases hutf8 : ∀ id ∈ (run now calls).vertices, Bytes.IsUtf8 id.asBytes
    · obtain ⟨order, horder, hgreedy⟩ := hok hutf8
      obtain ⟨order', horder', hgreedy'⟩ := hok' fun id hid => hutf8 id ((hkeys id).mpr hid)
      have hids := ParentGraph.GreedyFrom.unique hsame hgreedy hgreedy'
      rw [horder, horder', idOf_injective.list_map hids]
    · have hutf8 : ∃ id ∈ (run now calls).vertices, ¬ Bytes.IsUtf8 id.asBytes := by
        simpa using hutf8
      obtain ⟨id, hid, hid'⟩ := hutf8
      rw [herr ⟨id, hid, hid'⟩, herr' ⟨id, (hkeys id).mp hid, hid'⟩]

/-- A run with a refused call, and with a vertex that lists its parent twice. -/
def repeatedParent : List Call :=
  [.addVertex ⟨.fromBytes [98], [.fromBytes [97]], [], 0, []⟩,
    .addVertex ⟨.fromBytes [97], [], [], 0, []⟩,
    .addVertex ⟨.fromBytes [98], [.fromBytes [97], .fromBytes [97]], [], 0, []⟩]

/-- The order of `repeatedParent`, with the child iterated over first. -/
theorem getTotalOrder_run_repeatedParent :
    let entries : List (VertexId × Vertex) :=
      [(.fromBytes [98], ⟨.fromBytes [98], [.fromBytes [97], .fromBytes [97]], [], 0, []⟩),
        (.fromBytes [97], ⟨.fromBytes [97], [], [], 0, []⟩)]
    let parentOrder : VertexId → List VertexId :=
      fun id => if id = .fromBytes [98] then [.fromBytes [97]] else []
    (run 0 repeatedParent).Iteration entries parentOrder ∧
      ∃ order, (run 0 repeatedParent).getTotalOrder entries parentOrder = .ok order ∧
        (run 0 repeatedParent).vertices.graph.IsLeastFirst (order.map idOf) := by
  intro entries parentOrder
  have h : (run 0 repeatedParent).Iteration entries parentOrder := by
    have hentries : (run 0 repeatedParent).vertices.Enumerates entries :=
      (HashMap.Enumerates.empty.insert (by decide) _).insert (by decide) _
    refine ⟨hentries, fun id v hv => ?_⟩
    have hmem := (hentries.2 id v).mpr hv
    simp only [entries, List.mem_cons, Prod.mk.injEq, List.not_mem_nil, or_false] at hmem
    rcases hmem with ⟨rfl, rfl⟩ | ⟨rfl, rfl⟩
    · exact ⟨by decide, fun p => by simp [parentOrder, Vertex.mem_parentSet]⟩
    · exact ⟨by decide, fun p => by simp [parentOrder, VertexId.fromBytes, Vertex.mem_parentSet]⟩
  obtain ⟨order, horder, -, hleast⟩ :=
    (getTotalOrder_run 0 repeatedParent entries parentOrder h).1 (by decide)
  exact ⟨h, order, horder, hleast⟩

end DAGConsensus

end QuDAG
