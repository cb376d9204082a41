import QuDAG.Dag.StorageGraph
import QuDAG.Lib.ParentGraph

/-!
# What the calls of a storage graph do

As long as every entry of the cache is an entry of the main store, a lookup answers as the main
store would, and so do the checks of the calls, in whatever order the parents are looked up. What a
call can do to the graph is then told in terms of the main store: nothing but lookups, a new node,
or a valid transition of a stored one.

## Main definitions

* `VertexStorage.Agrees` — the entries of the cache are entries of the main store.
* `VertexStorage.ReadOf` — a storage differs from another by lookups only.
* `Graph.Prunes` — the call prunes.
* `Graph.Change` — what a call that does not prune can do.
* `Graph.storeReply` — what the main store would reply.

## Main results

* `Graph.checkNode_spec`, `Graph.readAndUpdate_spec` — the checks of a call are those of the main
  store.
* `Graph.call_spec` — a call that does not prune replies as the main store and makes one of the
  changes.
-/

namespace QuDAG

open RustStd

/-! ## Lookups -/

namespace VertexStorage

/-- The entries of the cache are entries of the main store. -/
def Agrees (s : VertexStorage) : Prop :=
  s.cache.Within fun hash node => s.vertices.lookup hash = some node

/-- `t` is `s` after some lookups. -/
structure ReadOf (s t : VertexStorage) : Prop where
  vertices_eq : t.vertices = s.vertices
  queue_eq : t.pruningQueue = s.pruningQueue
  config_eq : t.config = s.config

namespace ReadOf

variable {s t u : VertexStorage}

/-- No lookup. -/
lemma refl (s : VertexStorage) : ReadOf s s := ⟨rfl, rfl, rfl⟩

/-- Lookups after lookups. -/
lemma trans (h : ReadOf s t) (h' : ReadOf t u) : ReadOf s u where
  vertices_eq := h'.vertices_eq.trans h.vertices_eq
  queue_eq := h'.queue_eq.trans h.queue_eq
  config_eq := h'.config_eq.trans h.config_eq

/-- Lookups do not change the number of vertices. -/
lemma len_eq (h : ReadOf s t) : t.len = s.len := by rw [len, h.vertices_eq, len]

end ReadOf

/-- Nothing is cached in an empty storage. -/
lemma agrees_new (config : StorageConfig) : (new config).Agrees := LruCache.within_new _ _

variable {s : VertexStorage}

/-- A lookup reads only. -/
lemma readOf_get (s : VertexStorage) (hash : SerializableHash) : ReadOf s (s.get hash).2 := by
  unfold get
  split
  · exact ⟨rfl, rfl, rfl⟩
  · split <;> exact ⟨rfl, rfl, rfl⟩

/-- **A lookup answers as the main store does**, and the cache goes on agreeing with it. -/
lemma Agrees.get (h : s.Agrees) (hash : SerializableHash) :
    (s.get hash).1 = s.vertices.lookup hash ∧ (s.get hash).2.Agrees := by
  have hfst : (s.cache.get hash).1 = s.cache.peek hash := LruCache.get_fst
  have hkeep : (s.cache.get hash).2.Within fun k n => s.vertices.lookup k = some n :=
    LruCache.Within.get h
  unfold VertexStorage.get
  split
  · next node cache heq =>
    rw [heq] at hfst hkeep
    exact ⟨(h hash node hfst.symm).symm, hkeep⟩
  · next cache heq =>
    rw [heq] at hkeep
    split
    · next node hnode => exact ⟨hnode.symm, hkeep.put hnode⟩
    · next hnone => exact ⟨hnone.symm, hkeep⟩

end VertexStorage

namespace Graph

open VertexStorage

variable {s : VertexStorage}

/-- Looking parents up ahead finds those that are stored. -/
lemma lookupAhead_spec {parents : List SerializableHash} : ∀ {ahead : List ℕ} {s : VertexStorage},
    s.Agrees →
      (∀ i b, (i, b) ∈ (lookupAhead parents ahead s).1 →
        ∃ p, parents[i]? = some p ∧ (b = true ↔ p ∈ s.vertices)) ∧
      (lookupAhead parents ahead s).2.Agrees ∧ ReadOf s (lookupAhead parents ahead s).2 := by
  intro ahead
  induction ahead with
  | nil => exact fun h => ⟨fun _ _ hmem => absurd hmem List.not_mem_nil, h, .refl _⟩
  | cons i ahead ih =>
    intro s h
    rw [lookupAhead]
    cases hp : parents[i]? with
    | none => exact ih h
    | some p =>
      obtain ⟨hget, hagree⟩ := h.get p
      have hread := readOf_get s p
      obtain ⟨hfound, hagree', hread'⟩ := ih hagree
      refine ⟨fun j b hmem => ?_, hagree', hread.trans hread'⟩
      rcases List.mem_cons.mp hmem with heq | hmem
      · obtain ⟨rfl, rfl⟩ := Prod.mk.inj heq
        exact ⟨p, hp, by rw [hget, Finmap.lookup_isSome]⟩
      · rw [← hread.vertices_eq]
        exact hfound j b hmem

/-- The scan of the parents ends at the first one that is not stored. -/
lemma findMissing_spec {parents : List SerializableHash} {found : List (ℕ × Bool)} :
    ∀ {rest : List SerializableHash} {i : ℕ} {s : VertexStorage}, s.Agrees →
      (∀ j p, rest[j]? = some p → parents[i + j]? = some p) →
      (∀ j b, (j, b) ∈ found → ∃ p, parents[j]? = some p ∧ (b = true ↔ p ∈ s.vertices)) →
      (findMissing found i rest s).1 = rest.find? (fun p => p ∉ s.vertices) ∧
      (findMissing found i rest s).2.Agrees ∧ ReadOf s (findMissing found i rest s).2 := by
  intro rest
  induction rest with
  | nil => exact fun h _ _ => ⟨rfl, h, .refl _⟩
  | cons p rest ih =>
    intro i s h hrest hfound
    have hp : parents[i]? = some p := hrest 0 p rfl
    have htail : ∀ j q, rest[j]? = some q → parents[i + 1 + j]? = some q := fun j q hq => by
      have := hrest (j + 1) q hq
      rwa [Nat.add_comm j 1, ← Nat.add_assoc] at this
    have hahead : ∀ b, found.lookup i = some b → (b = true ↔ p ∈ s.vertices) := fun b hb => by
      obtain ⟨l, l', rfl, -⟩ := List.lookup_eq_some_iff.mp hb
      obtain ⟨q, hq, hiff⟩ := hfound i b (List.mem_append_right _ List.mem_cons_self)
      obtain rfl := Option.some.inj (hq.symm.trans hp)
      exact hiff
    rw [findMissing, List.find?_cons]
    split
    · next hb =>
      have hmem : p ∈ s.vertices := (hahead _ hb).mp rfl
      rw [decide_eq_false (not_not.mpr hmem)]
      exact ih h htail hfound
    · next hb =>
      have hmem : p ∉ s.vertices := fun hmem => Bool.noConfusion ((hahead _ hb).mpr hmem)
      rw [decide_eq_true hmem]
      exact ⟨rfl, h, .refl _⟩
    · obtain ⟨hget, hagree⟩ := h.get p
      have hread := readOf_get s p
      split
      · next node t heq =>
        rw [heq] at hget hagree hread
        rw [decide_eq_false (not_not.mpr (HashMap.mem_of_lookup hget.symm))]
        obtain ⟨hfind, hagree', hread'⟩ := ih hagree htail (by rwa [hread.vertices_eq])
        rw [hread.vertices_eq] at hfind
        exact ⟨hfind, hagree', hread.trans hread'⟩
      · next t heq =>
        rw [heq] at hget hagree hread
        rw [decide_eq_true (Finmap.lookup_eq_none.mp hget.symm)]
        exact ⟨rfl, hagree, hread⟩

/-- **The parallel lookup finds the first parent that is not stored**, whichever lookups
run ahead. -/
lemma missingParent_spec (h : s.Agrees) (parents : List SerializableHash) (ahead : List ℕ) :
    (missingParent parents ahead s).1 = parents.find? (fun p => p ∉ s.vertices) ∧
      (missingParent parents ahead s).2.Agrees ∧ ReadOf s (missingParent parents ahead s).2 := by
  obtain ⟨hfound, hagree, hread⟩ := @lookupAhead_spec parents ahead s h
  obtain ⟨hfind, hagree', hread'⟩ := @findMissing_spec parents _ parents 0 _ hagree
    (fun j p hp => by rwa [Nat.zero_add]) (by rwa [hread.vertices_eq])
  rw [hread.vertices_eq] at hfind
  exact ⟨hfind, hagree', hread.trans hread'⟩

/-- What the main store says of a new node. -/
def storeCheck (vertices : HashMap SerializableHash Node) (node : Node) : Except DagError Unit :=
  if node.hash ∈ vertices then .error (.nodeExists node.hash.debug)
  else match node.parents.find? fun p => p ∉ vertices with
    | some p => .error (.missingParent p.debug)
    | none => .ok ()

/-- The main store admits a node iff it is new and its parents are stored. -/
lemma storeCheck_eq_ok {vertices : HashMap SerializableHash Node} {node : Node} :
    storeCheck vertices node = .ok () ↔
      node.hash ∉ vertices ∧ ∀ p ∈ node.parents, p ∈ vertices := by
  unfold storeCheck
  split_ifs with hmem
  · simp [hmem]
  · split
    · next p hp =>
      have hp' := List.find?_some hp
      have hin := List.mem_of_find?_eq_some hp
      simp only [decide_eq_true_eq] at hp'
      simp only [reduceCtorEq, hmem, not_false_eq_true, true_and, false_iff, not_forall]
      exact ⟨p, hin, hp'⟩
    · next hnone => simpa [hmem] using hnone

/-- **The checks of `add_node` are those of the main store.** -/
lemma checkNode_spec (h : s.Agrees) (node : Node) (ahead : List ℕ) :
    (checkNode s node ahead).1 = storeCheck s.vertices node ∧ (checkNode s node ahead).2.Agrees ∧
      ReadOf s (checkNode s node ahead).2 := by
  obtain ⟨hget, hagree⟩ := h.get node.hash
  have hread := readOf_get s node.hash
  unfold checkNode storeCheck
  split
  · next stored t heq =>
    rw [heq] at hget hagree hread
    rw [if_pos (HashMap.mem_of_lookup hget.symm)]
    exact ⟨rfl, hagree, hread⟩
  · next t heq =>
    rw [heq] at hget hagree hread
    rw [if_neg (Finmap.lookup_eq_none.mp hget.symm)]
    obtain ⟨hfind, hagree', hread'⟩ := missingParent_spec hagree node.parents ahead
    rw [hread.vertices_eq] at hfind
    split
    · next p u hmissing =>
      rw [hmissing] at hfind hagree' hread'
      rw [← hfind]
      exact ⟨rfl, hagree', hread.trans hread'⟩
    · next u hmissing =>
      rw [hmissing] at hfind hagree' hread'
      rw [← hfind]
      exact ⟨rfl, hagree', hread.trans hread'⟩

/-- What the main store says of a state update. -/
def storeUpdate (vertices : HashMap SerializableHash Node) (hash : SerializableHash)
    (newState : NodeState) : Except DagError Node :=
  match vertices.lookup hash with
  | none => .error (.nodeNotFound hash.debug)
  | some node => node.updateState newState

/-- **The checks of `update_node_state` are those of the main store.** -/
lemma readAndUpdate_spec (h : s.Agrees) (hash : SerializableHash) (newState : NodeState) :
    (readAndUpdate s hash newState).1 = storeUpdate s.vertices hash newState ∧
      (readAndUpdate s hash newState).2.Agrees ∧ ReadOf s (readAndUpdate s hash newState).2 := by
  obtain ⟨hget, hagree⟩ := h.get hash
  have hread := readOf_get s hash
  unfold readAndUpdate storeUpdate
  split
  · next t heq =>
    rw [heq] at hget hagree hread
    rw [← hget]
    exact ⟨rfl, hagree, hread⟩
  · next node t heq =>
    rw [heq] at hget hagree hread
    rw [← hget]
    exact ⟨rfl, hagree, hread⟩

/-- The main store lets an update pass iff the node is stored and the transition is valid. -/
lemma storeUpdate_eq_ok {vertices : HashMap SerializableHash Node} {hash : SerializableHash}
    {newState : NodeState} {n' : Node} :
    storeUpdate vertices hash newState = .ok n' ↔
      ∃ n, vertices.lookup hash = some n ∧ Node.validTransition n.state newState = true ∧
        n' = { n with state := newState } := by
  unfold storeUpdate
  cases hlookup : vertices.lookup hash with
  | none => simp
  | some n => simp [Node.updateState_eq_ok]

end Graph

/-! ## Insertions -/

namespace VertexStorage

variable {s t : VertexStorage} {d : HeldRemoval} {hash : SerializableHash} {node : Node}

/-- The storage is full: an insertion prunes first. -/
def Full (s : VertexStorage) : Prop := s.config.maxVertices ≤ s.len

instance (s : VertexStorage) : Decidable s.Full := inferInstanceAs (Decidable (_ ≤ _))

/-- An insertion into a storage that is not full returns, and it writes only. -/
lemma insert_of_not_full (h : ¬ s.Full) : s.insert d hash node = some (s.write hash node) :=
  if_neg h

/-- An insertion into a full storage prunes and writes. -/
lemma insert_of_full (h : s.Full) :
    s.insert d hash node = (s.pruneOldVertices d).map fun pruned => pruned.write hash node :=
  if_pos h

/-- A write keeps the cache in agreement with the main store. -/
lemma Agrees.write (h : s.Agrees) (hash : SerializableHash) (node : Node) :
    (s.write hash node).Agrees := by
  intro k n hk
  show Finmap.lookup k (s.vertices.insert hash node) = some n
  rcases LruCache.peek_of_put hk with ⟨rfl, rfl⟩ | ⟨hne, hpeek⟩
  · exact Finmap.lookup_insert _
  · rw [Finmap.lookup_insert_of_ne _ hne]
    exact h k n hpeek

end VertexStorage

/-! ## Edges -/

namespace Graph

open VertexStorage

/-- The edges at each hash after an edge was recorded. -/
lemma lookup_addEdge (edges : HashMap SerializableHash (HashSet Edge))
    (parent child p : SerializableHash) :
    (addEdge edges parent child).lookup p =
      (edges.lookup p).map fun l =>
        if p = parent then Insert.insert (Edge.new p child) l else l := by
  unfold addEdge
  split
  · next l hl =>
    rw [HashMap.lookup_insert_ite]
    split_ifs with hp
    · rw [hp, hl]
      rfl
    · simp
  · next hnone =>
    by_cases hp : p = parent
    · rw [hp, hnone]
      rfl
    · simp [hp]

/-- The edges at each hash after a child was recorded at its parents. -/
lemma lookup_foldl_addEdge {child p : SerializableHash} {parents : List SerializableHash} :
    ∀ {edges : HashMap SerializableHash (HashSet Edge)},
      (parents.foldl (fun edges parent => addEdge edges parent child) edges).lookup p =
        (edges.lookup p).map fun l =>
          if p ∈ parents then Insert.insert (Edge.new p child) l else l := by
  induction parents with
  | nil => simp
  | cons q parents ih =>
    intro edges
    rw [List.foldl_cons, ih, lookup_addEdge, Option.map_map]
    congr 1
    funext l
    by_cases hq : p = q
    · simp [hq]
    · simp [hq]

/-- The edges at each hash after a node was added that is new and has an edge set at each of its
parents. -/
lemma lookup_addEdges {edges : HashMap SerializableHash (HashSet Edge)} {node : Node}
    (hnew : node.hash ∉ edges) (p : SerializableHash) :
    (addEdges edges node.hash (some node)).lookup p =
      if p = node.hash then some (if p ∈ node.parents then {Edge.new p p} else ∅)
      else (edges.lookup p).map fun l =>
        if p ∈ node.parents then Insert.insert (Edge.new p node.hash) l else l := by
  unfold addEdges
  rw [if_neg hnew, lookup_foldl_addEdge, HashMap.lookup_insert_ite]
  by_cases hp : p = node.hash
  · rw [if_pos hp, if_pos hp, hp]
    rfl
  · rw [if_neg hp, if_neg hp]

/-! ## What a call can do -/

/-- The call prunes: it reaches an insertion while the storage is full, or it is `prune`. -/
def Prunes (g : Graph) : GraphCall → Prop
  | .addNode node ahead _ => (checkNode g.storage node ahead).1.isOk = true ∧ g.storage.Full
  | .updateNodeState hash newState =>
    (readAndUpdate g.storage hash newState).1.isOk = true ∧ g.storage.Full
  | .prune => True
  | _ => False

instance (g : Graph) : ∀ c, Decidable (g.Prunes c)
  | .addNode _ _ _ => inferInstanceAs (Decidable (_ ∧ _))
  | .updateNodeState _ _ => inferInstanceAs (Decidable (_ ∧ _))
  | .prune => instDecidableTrue
  | .getNode _ => instDecidableFalse
  | .getEdges _ => instDecidableFalse
  | .isEmpty => instDecidableFalse
  | .len => instDecidableFalse
  | .metrics => instDecidableFalse

/-- The nodes, the edges, the pruning queue, the configuration and the metrics are the same. -/
structure SameData (g g' : Graph) : Prop where
  storage : ReadOf g.storage g'.storage
  edges_eq : g'.edges = g.edges
  metrics_eq : g'.metrics = g.metrics

/-- What a call that does not prune can do. -/
inductive Change (g g' : Graph) : Prop
  /-- Nothing but lookups. -/
  | read (same : SameData g g')
  /-- A new node is added, with an edge from each of its parents. -/
  | added (node : Node) (fresh : node.hash ∉ g.storage.vertices)
      (stored : ∀ p ∈ node.parents, p ∈ g.storage.vertices)
      (vertices_eq : g'.storage.vertices = g.storage.vertices.insert node.hash node)
      (edges_eq : g'.edges = addEdges g.edges node.hash (some node))
  /-- A stored node makes a valid transition. -/
  | updated (hash : SerializableHash) (n : Node) (newState : NodeState)
      (lookup_eq : g.storage.vertices.lookup hash = some n)
      (valid : Node.validTransition n.state newState = true)
      (vertices_eq : g'.storage.vertices =
        g.storage.vertices.insert hash { n with state := newState })
      (edges_eq : g'.edges = g.edges)

variable {d : HeldRemoval} {g : Graph}

/-- A lookup changes no data. -/
lemma sameData_of_readOf {t : VertexStorage} (h : ReadOf g.storage t) :
    SameData g { g with storage := t } := ⟨h, rfl, rfl⟩

/-- What `add_node` does in a storage that is not full. -/
lemma addNode_spec (hagree : g.storage.Agrees) {node : Node} {ahead : List ℕ} (elapsed : ℕ)
    (hp : ¬ ((checkNode g.storage node ahead).1.isOk = true ∧ g.storage.Full)) :
    ∃ g', g.addNode d node ahead elapsed = some (storeCheck g.storage.vertices node, g') ∧
      g'.storage.Agrees ∧ Change g g' ∧
      (∀ e, storeCheck g.storage.vertices node = .error e → SameData g g') := by
  obtain ⟨hspec, hagree', hread⟩ := checkNode_spec hagree node ahead
  unfold addNode
  split
  · next e t heq =>
    rw [heq] at hspec hagree' hread
    rw [← hspec]
    have hsame : SameData g { g with storage := t } := sameData_of_readOf hread
    exact ⟨_, rfl, hagree', .read hsame, fun _ _ => hsame⟩
  · next t heq =>
    rw [heq] at hp hspec hagree' hread
    rw [← hspec]
    have hfull : ¬ t.Full := fun hfull => hp ⟨rfl, by
      unfold VertexStorage.Full at hfull ⊢
      rwa [hread.config_eq, hread.len_eq] at hfull⟩
    obtain ⟨hfresh, hstored⟩ := storeCheck_eq_ok.mp hspec.symm
    have hwrite := hagree'.write node.hash node
    obtain ⟨hget, hagree''⟩ := hwrite.get node.hash
    have hread' := readOf_get (t.write node.hash node) node.hash
    have hself : (t.write node.hash node).vertices.lookup node.hash = some node :=
      Finmap.lookup_insert _
    rw [hself] at hget
    rw [insert_of_not_full hfull]
    refine ⟨_, rfl, hagree'', .added node hfresh hstored ?_ ?_, fun e he => by cases he⟩
    · show ((t.write node.hash node).get node.hash).2.vertices = _
      rw [hread'.vertices_eq]
      show Finmap.insert node.hash node t.vertices = _
      rw [hread.vertices_eq]
    · show addEdges g.edges node.hash ((t.write node.hash node).get node.hash).1 = _
      rw [hget]

/-- What `update_node_state` does in a storage that is not full. -/
lemma updateNodeState_spec (hagree : g.storage.Agrees) {hash : SerializableHash}
    {newState : NodeState}
    (hp : ¬ ((readAndUpdate g.storage hash newState).1.isOk = true ∧ g.storage.Full)) :
    ∃ g', g.updateNodeState d hash newState =
        some ((storeUpdate g.storage.vertices hash newState).map fun _ => (), g') ∧
      g'.storage.Agrees ∧ Change g g' ∧
      (∀ e, storeUpdate g.storage.vertices hash newState = .error e → SameData g g') := by
  obtain ⟨hupdate, hagree', hread⟩ := readAndUpdate_spec hagree hash newState
  unfold updateNodeState
  split
  · next e t heq =>
    rw [heq] at hupdate hagree' hread
    rw [← hupdate]
    have hsame : SameData g { g with storage := t } := sameData_of_readOf hread
    exact ⟨_, rfl, hagree', .read hsame, fun _ _ => hsame⟩
  · next n' t heq =>
    rw [heq] at hp hupdate hagree' hread
    rw [← hupdate]
    have hfull : ¬ t.Full := fun hfull => hp ⟨rfl, by
      unfold VertexStorage.Full at hfull ⊢
      rwa [hread.config_eq, hread.len_eq] at hfull⟩
    obtain ⟨n, hlookup, hvalid, rfl⟩ := storeUpdate_eq_ok.mp hupdate.symm
    rw [insert_of_not_full hfull]
    refine ⟨_, rfl, hagree'.write hash _, .updated hash n newState hlookup hvalid ?_ rfl,
      fun e he => by cases he⟩
    show Finmap.insert hash _ t.vertices = _
    rw [hread.vertices_eq]

/-- The reply that the main store would give. -/
def storeReply (g : Graph) : GraphCall → GraphReply
  | .addNode node _ _ => .result (storeCheck g.storage.vertices node)
  | .updateNodeState hash newState =>
    .result ((storeUpdate g.storage.vertices hash newState).map fun _ => ())
  | .getNode hash => .node (g.storage.vertices.lookup hash)
  | .getEdges hash => .edges (g.getEdges hash)
  | .isEmpty => .bool g.isEmpty
  | .len => .count g.len
  | .metrics => .metrics g.currentMetrics
  | .prune => .result (.ok ())

/-- **A call that does not prune** returns what the main store says, makes one of the changes, and
changes no data if it fails. -/
lemma call_spec (hagree : g.storage.Agrees) {c : GraphCall} (hp : ¬ g.Prunes c) :
    ∃ g', g.call d c = some (g.storeReply c, g') ∧ g'.storage.Agrees ∧ Change g g' ∧
      (∀ e, g.storeReply c = .result (.error e) → SameData g g') := by
  have hrefl : SameData g g := sameData_of_readOf (.refl g.storage)
  cases c with
  | addNode node ahead elapsed =>
    obtain ⟨g', heq, hagree', hchange, herr⟩ := addNode_spec (d := d) hagree elapsed hp
    refine ⟨g', ?_, hagree', hchange, fun e he => herr e (GraphReply.result.inj he)⟩
    rw [call, heq]
    rfl
  | updateNodeState hash newState =>
    obtain ⟨g', heq, hagree', hchange, herr⟩ := updateNodeState_spec (d := d) hagree hp
    refine ⟨g', ?_, hagree', hchange, fun e he => ?_⟩
    · rw [call, heq]
      rfl
    · have hmap := GraphReply.result.inj he
      cases hupdate : storeUpdate g.storage.vertices hash newState with
      | error e' => exact herr e' hupdate
      | ok n =>
        rw [hupdate] at hmap
        cases hmap
  | getNode hash =>
    obtain ⟨hget, hagree'⟩ := hagree.get hash
    have hsame : SameData g (g.getNode hash).2 := sameData_of_readOf (readOf_get g.storage hash)
    refine ⟨(g.getNode hash).2, ?_, hagree', .read hsame, fun _ _ => hsame⟩
    rw [call, storeReply, ← hget]
    rfl
  | getEdges hash => exact ⟨g, rfl, hagree, .read hrefl, fun _ _ => hrefl⟩
  | isEmpty => exact ⟨g, rfl, hagree, .read hrefl, fun _ _ => hrefl⟩
  | len => exact ⟨g, rfl, hagree, .read hrefl, fun _ _ => hrefl⟩
  | metrics => exact ⟨g, rfl, hagree, .read hrefl, fun _ _ => hrefl⟩
  | prune => exact absurd trivial hp

end Graph

end QuDAG
