import QuDAG.Dag.CacheTransparency
import QuDAG.Lib.MapSum

/-!
# The capacity of the storage graph

Additions to a graph (`graph.rs`), where a removal from the concurrent map waits for the reference
that the pruning itself holds. The first pruning that meets a final node never returns. Those that
meet none drop all hashes from the queue, and a pruning only starts above both the capacity and the
threshold, so up to there final nodes pile up.

## Main definitions

* `Graph.addNodes` — additions, one after the other.
* `Graph.RespectsCapacity` — all additions return, and the nodes that are not final account for what
  is stored above the capacity.

## Main results

* `Graph.addNodes_spec` — which additions return, and what is stored then.
* `Graph.respectsCapacity_iff` — when the capacity is respected.
-/

namespace QuDAG

open RustStd

/-! ## Prunings that wait for themselves -/

namespace VertexStorage

variable {s : VertexStorage}

/-- A stored node is final. -/
def HoldsFinal (vertices : HashMap SerializableHash Node) (hash : SerializableHash) : Prop :=
  ∃ n, vertices.lookup hash = some n ∧ n.state = .final

/-- **A loop with something to remove** never returns if a queued node is final, and drops the whole
queue otherwise. -/
lemma pruneLoop_deadlocks {vertices : HashMap SerializableHash Node} {toRemove : ℕ} :
    ∀ {queue : List SerializableHash},
      ((∃ hash ∈ queue, HoldsFinal vertices hash) ∧
        pruneLoop .deadlocks queue (toRemove + 1) vertices = none) ∨
      ((∀ hash ∈ queue, ¬ HoldsFinal vertices hash) ∧
        pruneLoop .deadlocks queue (toRemove + 1) vertices = some ([], vertices)) := by
  intro queue
  induction queue with
  | nil => exact .inr ⟨by simp, rfl⟩
  | cons k queue ih =>
    rw [pruneLoop, List.forall_mem_cons]
    have hskip : ¬ HoldsFinal vertices k →
        ((∃ hash ∈ k :: queue, HoldsFinal vertices hash) ∧
          pruneLoop .deadlocks queue (toRemove + 1) vertices = none) ∨
        ((¬ HoldsFinal vertices k ∧ ∀ hash ∈ queue, ¬ HoldsFinal vertices hash) ∧
          pruneLoop .deadlocks queue (toRemove + 1) vertices = some ([], vertices)) := by
      intro hk
      refine ih.imp ?_ fun h => ⟨⟨hk, h.1⟩, h.2⟩
      rintro ⟨⟨hash, hmem, hfinal⟩, hnone⟩
      exact ⟨⟨hash, .tail _ hmem, hfinal⟩, hnone⟩
    cases hlookup : vertices.lookup k with
    | none =>
      refine hskip ?_
      rintro ⟨n, hn, -⟩
      rw [hlookup] at hn
      cases hn
    | some n =>
      dsimp only
      by_cases hfinal : n.state = .final
      · rw [if_pos hfinal, if_pos rfl]
        exact .inl ⟨⟨k, .head _, n, hlookup, hfinal⟩, rfl⟩
      · rw [if_neg hfinal]
        refine hskip ?_
        rintro ⟨n', hn', hfinal'⟩
        rw [hlookup] at hn'
        exact hfinal (Option.some.inj hn' ▸ hfinal')

/-- The storage is so full that an insertion looks for nodes to remove. -/
def Overfull (s : VertexStorage) : Prop :=
  s.config.maxVertices ≤ s.len ∧ s.config.pruningThreshold < s.len

/-- **An insertion** never returns if the storage is overfull and a queued node is final. Otherwise
it writes, with some queue that has lost no hash of a final node. -/
lemma insert_deadlocks (s : VertexStorage) (hash : SerializableHash) (node : Node) :
    ((s.Overfull ∧ ∃ k ∈ s.pruningQueue, HoldsFinal s.vertices k) ∧
      s.insert .deadlocks hash node = none) ∨
    ((s.Overfull → ∀ k ∈ s.pruningQueue, ¬ HoldsFinal s.vertices k) ∧
      ∃ queue, (∀ k ∈ queue, k ∈ s.pruningQueue) ∧
        (∀ k ∈ s.pruningQueue, HoldsFinal s.vertices k → k ∈ queue) ∧
        s.insert .deadlocks hash node =
          some ({ s with pruningQueue := queue }.write hash node)) := by
  by_cases hfull : s.Full
  · rw [insert_of_full hfull]
    by_cases hthreshold : s.config.pruningThreshold < s.len
    · obtain ⟨n, hn⟩ := Nat.exists_eq_add_of_lt hthreshold
      have hsucc : s.len - s.config.pruningThreshold = n + 1 := by omega
      rw [pruneOldVertices_of_lt _ hthreshold, hsucc]
      rcases @pruneLoop_deadlocks s.vertices n s.pruningQueue with ⟨hsome, hloop⟩ | ⟨hnone, hloop⟩
      · rw [hloop]
        exact .inl ⟨⟨⟨hfull, hthreshold⟩, hsome⟩, rfl⟩
      · rw [hloop]
        refine .inr ⟨fun _ => hnone, [], by simp, fun k hk hfinal => ?_, rfl⟩
        exact absurd hfinal (hnone k hk)
    · have hprune : s.pruneOldVertices .deadlocks = some s := if_pos (Nat.not_lt.mp hthreshold)
      rw [hprune]
      exact .inr ⟨fun hover => absurd hover.2 hthreshold, s.pruningQueue, fun _ hk => hk,
        fun _ hk _ => hk, rfl⟩
  · rw [insert_of_not_full hfull]
    exact .inr ⟨fun hover => absurd hover.1 hfull, s.pruningQueue, fun _ hk => hk,
      fun _ hk _ => hk, rfl⟩

/-- The number of stored nodes that are not final. -/
def notFinal (s : VertexStorage) : ℕ :=
  HashMap.sumBy (fun n : Node => if n.state = .final then 0 else 1) s.vertices

end VertexStorage

/-! ## Additions -/

namespace Graph

open VertexStorage

/-- A call of `add_node`. -/
structure Addition where
  /-- The node. -/
  node : Node
  /-- The lookups of parents that run ahead. -/
  ahead : List ℕ
  /-- The time that the call takes. -/
  elapsed : ℕ

/-- Additions, one after the other, if all of them return. -/
def addNodes (d : HeldRemoval) (self : Graph) (additions : List Addition) : Option Graph :=
  additions.foldlM (fun g a => (g.addNode d a.node a.ahead a.elapsed).map Prod.snd) self

/-- Every node is new, and its parents are added before it: no addition is refused. -/
def ParentsFirst (additions : List Addition) : Prop :=
  ∀ before a after, additions = before ++ a :: after →
    a.node.hash ∉ before.map (fun b => b.node.hash) ∧
      ∀ p ∈ a.node.parents, p ∈ before.map fun b => b.node.hash

/-- The number of final nodes that are added. -/
def finalCount (additions : List Addition) : ℕ :=
  additions.countP fun a => a.node.state = .final

/-- All additions return, and at most as many nodes are stored as the capacity and the stored nodes
that are not final. -/
def RespectsCapacity (config : StorageConfig) (additions : List Addition) : Prop :=
  ∃ g, addNodes .deadlocks (withConfig config) additions = some g ∧
    g.len ≤ config.maxVertices + g.storage.notFinal

/-- No addition looks for nodes to remove, or none but the last adds a final node. -/
def NeverStuck (config : StorageConfig) (additions : List Addition) : Prop :=
  additions.length ≤ max config.maxVertices (config.pruningThreshold + 1) ∨
    ∀ a ∈ additions.dropLast, a.node.state ≠ .final

/-- What is stored after some additions. -/
structure Stores (config : StorageConfig) (additions : List Addition) (g : Graph) : Prop where
  /-- The configuration. -/
  config_eq : g.storage.config = config
  /-- The cache agrees with the main store. -/
  agrees : g.storage.Agrees
  /-- Exactly the added nodes are stored. -/
  lookup : ∀ hash n, g.storage.vertices.lookup hash = some n ↔
    ∃ a ∈ additions, a.node = n ∧ n.hash = hash
  /-- There are as many as were added. -/
  len_eq : g.storage.len = additions.length
  /-- The others are final. -/
  notFinal_eq : g.storage.notFinal + finalCount additions = additions.length
  /-- Only added nodes are queued. -/
  queued : ∀ k ∈ g.storage.pruningQueue, ∃ a ∈ additions, a.node.hash = k
  /-- Every final node is still queued. -/
  queue : ∀ a ∈ additions, a.node.state = .final → a.node.hash ∈ g.storage.pruningQueue

variable {config : StorageConfig} {additions : List Addition} {g : Graph} {a : Addition}

/-- Nothing is stored at first. -/
lemma stores_nil (config : StorageConfig) : Stores config [] (withConfig config) where
  config_eq := rfl
  agrees := agrees_new config
  lookup hash n := by simp [withConfig, VertexStorage.new]
  len_eq := rfl
  notFinal_eq := by
    show HashMap.sumBy _ (∅ : HashMap SerializableHash Node) + 0 = 0
    rw [HashMap.sumBy_empty]
  queued k hk := absurd hk List.not_mem_nil
  queue a ha := absurd ha List.not_mem_nil

/-- A hash is stored iff it was added. -/
lemma Stores.mem_iff (h : Stores config additions g) {hash : SerializableHash} :
    hash ∈ g.storage.vertices ↔ hash ∈ additions.map fun b => b.node.hash := by
  rw [HashMap.mem_iff_exists, List.mem_map]
  constructor
  · rintro ⟨n, hn⟩
    obtain ⟨b, hb, rfl, rfl⟩ := (h.lookup hash n).mp hn
    exact ⟨b, hb, rfl⟩
  · rintro ⟨b, hb, rfl⟩
    exact ⟨b.node, (h.lookup _ _).mpr ⟨b, hb, rfl, rfl⟩⟩

/-- A queued node is final iff some node was added as a final one. -/
lemma Stores.exists_final_iff (h : Stores config additions g) :
    (∃ k ∈ g.storage.pruningQueue, HoldsFinal g.storage.vertices k) ↔
      ∃ b ∈ additions, b.node.state = .final := by
  constructor
  · rintro ⟨k, hk, n, hn, hfinal⟩
    obtain ⟨b, hb, rfl, -⟩ := (h.lookup k n).mp hn
    exact ⟨b, hb, hfinal⟩
  · rintro ⟨b, hb, hfinal⟩
    exact ⟨b.node.hash, h.queue b hb hfinal, b.node, (h.lookup _ _).mpr ⟨b, hb, rfl, rfl⟩, hfinal⟩

/-- What is stored after one more write, if the queue has lost no hash of a final node. -/
lemma Stores.write (h : Stores config additions g) {g' : Graph} {queue : List SerializableHash}
    (hnew : a.node.hash ∉ additions.map fun b => b.node.hash)
    (hconfig : g'.storage.config = g.storage.config) (hagree : g'.storage.Agrees)
    (hvertices : g'.storage.vertices = g.storage.vertices.insert a.node.hash a.node)
    (hqueue : g'.storage.pruningQueue = queue ++ [a.node.hash])
    (hqueued : ∀ k ∈ queue, k ∈ g.storage.pruningQueue)
    (hfinal : ∀ k ∈ g.storage.pruningQueue, HoldsFinal g.storage.vertices k → k ∈ queue) :
    Stores config (additions ++ [a]) g' := by
  have hfresh : a.node.hash ∉ g.storage.vertices := fun hmem => hnew (h.mem_iff.mp hmem)
  refine ⟨hconfig.trans h.config_eq, hagree, fun hash n => ?_, ?_, ?_, fun k hk => ?_,
    fun b hb hbfinal => ?_⟩
  · rw [hvertices, HashMap.lookup_insert_ite]
    simp only [List.mem_append, List.mem_singleton]
    split_ifs with heq
    · subst heq
      constructor
      · exact fun hn => ⟨a, .inr rfl, Option.some.inj hn, by rw [← Option.some.inj hn]⟩
      · rintro ⟨b, hb | rfl, rfl, hbhash⟩
        · exact absurd (List.mem_map.mpr ⟨b, hb, hbhash⟩) hnew
        · rfl
    · rw [h.lookup]
      constructor
      · rintro ⟨b, hb, hbn⟩
        exact ⟨b, .inl hb, hbn⟩
      · rintro ⟨b, hb | rfl, rfl, hbhash⟩
        · exact ⟨b, hb, rfl, hbhash⟩
        · exact absurd hbhash.symm heq
  · have hlen := h.len_eq
    rw [VertexStorage.len] at hlen ⊢
    rw [hvertices, HashMap.keys_insert,
      Finset.card_insert_of_notMem fun hmem => hfresh (Finmap.mem_keys.mp hmem), hlen,
      List.length_append, List.length_singleton]
  · have hsum := h.notFinal_eq
    rw [VertexStorage.notFinal] at hsum ⊢
    rw [hvertices, HashMap.sumBy_insert_of_not_mem hfresh, finalCount, List.countP_append,
      List.countP_singleton, List.length_append, List.length_singleton]
    rw [finalCount] at hsum
    by_cases hstate : a.node.state = .final
    · rw [if_pos hstate, if_pos (decide_eq_true hstate)]
      omega
    · rw [if_neg hstate, if_neg (by simpa using hstate)]
      omega
  · rw [hqueue, List.mem_append, List.mem_singleton] at hk
    rcases hk with hk | rfl
    · obtain ⟨b, hb, hbk⟩ := h.queued k (hqueued k hk)
      exact ⟨b, List.mem_append_left _ hb, hbk⟩
    · exact ⟨a, List.mem_append_right _ (.head _), rfl⟩
  · rw [hqueue, List.mem_append, List.mem_singleton]
    rw [List.mem_append, List.mem_singleton] at hb
    rcases hb with hb | rfl
    · refine .inl (hfinal _ (h.queue b hb hbfinal) ⟨b.node, ?_, hbfinal⟩)
      exact (h.lookup _ _).mpr ⟨b, hb, rfl, rfl⟩
    · exact .inr rfl

/-- **One more addition** that is not refused never returns if the storage is overfull and a final
node was added before; otherwise its node is stored. -/
lemma Stores.addNode (h : Stores config additions g)
    (hnew : a.node.hash ∉ additions.map fun b => b.node.hash)
    (hparents : ∀ p ∈ a.node.parents, p ∈ additions.map fun b => b.node.hash) :
    ((g.storage.Overfull ∧ ∃ b ∈ additions, b.node.state = .final) ∧
      g.addNode .deadlocks a.node a.ahead a.elapsed = none) ∨
    ((g.storage.Overfull → ∀ b ∈ additions, b.node.state ≠ .final) ∧
      ∃ g', g.addNode .deadlocks a.node a.ahead a.elapsed = some (.ok (), g') ∧
        Stores config (additions ++ [a]) g') := by
  obtain ⟨hspec, hagree, hread⟩ := checkNode_spec h.agrees a.node a.ahead
  have hok : storeCheck g.storage.vertices a.node = .ok () :=
    storeCheck_eq_ok.mpr ⟨fun hmem => hnew (h.mem_iff.mp hmem), fun p hp =>
      h.mem_iff.mpr (hparents p hp)⟩
  rw [hok] at hspec
  unfold Graph.addNode
  split
  · next e t heq =>
    rw [heq] at hspec
    cases hspec
  · next t heq =>
    rw [heq] at hagree hread
    have hoverfull : t.Overfull ↔ g.storage.Overfull := by
      rw [VertexStorage.Overfull, VertexStorage.Overfull, hread.config_eq, hread.len_eq]
    have hexists := h.exists_final_iff
    rw [← hread.queue_eq, ← hread.vertices_eq] at hexists
    rcases t.insert_deadlocks a.node.hash a.node with
      ⟨⟨hover, hsome⟩, hinsert⟩ | ⟨hnone, queue, hqueued, hfinal, hinsert⟩
    · rw [hinsert]
      exact .inl ⟨⟨hoverfull.mp hover, hexists.mp hsome⟩, rfl⟩
    · rw [hinsert]
      refine .inr ⟨fun hover b hb hbfinal => ?_, _, rfl, ?_⟩
      · obtain ⟨k, hk, hkfinal⟩ := hexists.mpr ⟨b, hb, hbfinal⟩
        exact hnone (hoverfull.mpr hover) k hk hkfinal
      · have hpruned : VertexStorage.Agrees { t with pruningQueue := queue } := hagree
        have hwrite := hpruned.write a.node.hash a.node
        have hread' := readOf_get
          ({ t with pruningQueue := queue }.write a.node.hash a.node) a.node.hash
        rw [hread.queue_eq] at hqueued hfinal
        rw [hread.vertices_eq] at hfinal
        refine h.write hnew ?_ (hwrite.get a.node.hash).2 ?_ hread'.queue_eq hqueued hfinal
        · exact hread'.config_eq.trans hread.config_eq
        · refine hread'.vertices_eq.trans ?_
          show Finmap.insert a.node.hash a.node t.vertices = _
          rw [hread.vertices_eq]

/-! ## Runs of additions -/

/-- One more addition. -/
lemma addNodes_concat (d : HeldRemoval) (g : Graph) (additions : List Addition) (a : Addition) :
    addNodes d g (additions ++ [a]) = (addNodes d g additions).bind fun g =>
      (g.addNode d a.node a.ahead a.elapsed).map Prod.snd := by
  rw [addNodes, List.foldlM_append]
  simp only [List.foldlM_cons, List.foldlM_nil, bind_pure]
  rfl

/-- The first additions of additions that are not refused are not refused. -/
lemma ParentsFirst.of_concat (h : ParentsFirst (additions ++ [a])) :
    ParentsFirst additions ∧ a.node.hash ∉ additions.map (fun b => b.node.hash) ∧
      ∀ p ∈ a.node.parents, p ∈ additions.map fun b => b.node.hash := by
  refine ⟨fun before b after heq => ?_, h additions a [] rfl⟩
  refine h before b (after ++ [a]) ?_
  rw [heq, List.append_assoc, List.cons_append]

/-- Additions after which one more never returns, or does. -/
lemma neverStuck_concat : NeverStuck config (additions ++ [a]) ↔
    NeverStuck config additions ∧
      (max config.maxVertices (config.pruningThreshold + 1) ≤ additions.length →
        ∀ b ∈ additions, b.node.state ≠ .final) := by
  rw [NeverStuck, NeverStuck, List.dropLast_concat, List.length_append, List.length_singleton]
  constructor
  · rintro (hshort | hall)
    · exact ⟨.inl (by omega), fun hlong => absurd hshort (by omega)⟩
    · exact ⟨.inr fun b hb => hall b (List.mem_of_mem_dropLast hb), fun _ => hall⟩
  · rintro ⟨-, hlast⟩
    by_cases hlong : max config.maxVertices (config.pruningThreshold + 1) ≤ additions.length
    · exact .inr (hlast hlong)
    · exact .inl (by omega)

/-- **Which additions return**: those without an addition to an overfull store after a final node
was added. If they return, exactly their nodes are stored.

**Proof sketch.** Induction on the additions. Nothing is ever removed, so the number of stored nodes
is that of the additions so far, and a final node never leaves the queue. -/
theorem addNodes_spec (hfirst : ParentsFirst additions) :
    (NeverStuck config additions ∧
      ∃ g, addNodes .deadlocks (withConfig config) additions = some g ∧
        Stores config additions g) ∨
    (¬ NeverStuck config additions ∧
      addNodes .deadlocks (withConfig config) additions = none) := by
  induction additions using List.reverseRecOn with
  | nil => exact .inl ⟨.inl (Nat.zero_le _), _, rfl, stores_nil config⟩
  | append_singleton additions a ih =>
    obtain ⟨hbefore, hnew, hparents⟩ := hfirst.of_concat
    rw [neverStuck_concat, addNodes_concat]
    rcases ih hbefore with ⟨hnever, g, hg, hstores⟩ | ⟨hstuck, hnone⟩
    · have hoverfull : g.storage.Overfull ↔
          max config.maxVertices (config.pruningThreshold + 1) ≤ additions.length := by
        rw [VertexStorage.Overfull, hstores.config_eq, hstores.len_eq, max_le_iff, Nat.succ_le_iff]
      rw [hg, Option.bind_some, ← hoverfull]
      rcases hstores.addNode hnew hparents with ⟨⟨hover, b, hb, hfinal⟩, hrun⟩ | ⟨hall, g', hrun, h⟩
      · rw [hrun]
        exact .inr ⟨fun hboth => hboth.2 hover b hb hfinal, rfl⟩
      · rw [hrun]
        exact .inl ⟨⟨hnever, hall⟩, g', rfl, h⟩
    · rw [hnone]
      exact .inr ⟨fun hboth => hstuck hboth.1, rfl⟩

/-- **When the capacity is respected.** Additions that are not refused all return and leave at most
as many nodes as the capacity and those that are not final iff no more final nodes are added than
the capacity, and no addition follows a final node once the store is overfull. -/
theorem respectsCapacity_iff (config : StorageConfig) (hfirst : ParentsFirst additions) :
    RespectsCapacity config additions ↔
      NeverStuck config additions ∧ finalCount additions ≤ config.maxVertices := by
  rcases @addNodes_spec config additions hfirst with ⟨hnever, g, hg, hstores⟩ | ⟨hstuck, hnone⟩
  · have hcount := hstores.notFinal_eq
    have hlen : g.len = additions.length := hstores.len_eq
    rw [and_iff_right hnever, RespectsCapacity, hg]
    constructor
    · rintro ⟨g', hg', hle⟩
      obtain rfl := Option.some.inj hg'
      omega
    · exact fun hle => ⟨g, rfl, by omega⟩
  · refine iff_of_false ?_ fun hboth => hstuck hboth.1
    rintro ⟨g, hg, -⟩
    rw [hnone] at hg
    cases hg

/-- Additions of different nodes without parents are not refused. -/
lemma parentsFirst_of_nodup (hnodup : (additions.map fun b => b.node.hash).Nodup)
    (hparents : ∀ b ∈ additions, b.node.parents = []) : ParentsFirst additions := by
  rintro before a after rfl
  rw [List.map_append, List.map_cons, List.nodup_append] at hnodup
  refine ⟨fun hmem => hnodup.2.2 _ hmem _ (.head _) rfl, fun p hp => ?_⟩
  rw [hparents a (List.mem_append_right _ (.head _))] at hp
  exact absurd hp List.not_mem_nil

/-- The addition of a node without parents, in a state. -/
def additionOf (n : UInt8) (state : NodeState) : Addition :=
  ⟨⟨⟨n :: List.replicate 31 0, rfl⟩, [n], state, 0, []⟩, [], 0⟩

/-- A graph with the capacity 1 takes two nodes one of which is final. -/
theorem respectsCapacity_iff_pending :
    RespectsCapacity { maxVertices := 1, maxEdges := 5 }
      [additionOf 1 .final, additionOf 2 .pending] :=
  (respectsCapacity_iff _ (parentsFirst_of_nodup (by decide) (by decide))).mpr
    ⟨.inl (by decide), by decide⟩

/-- A graph with the capacity 1 stores two final nodes, and one that prunes down to none never
returns from the second addition. -/
theorem not_respectsCapacity_final :
    ParentsFirst [additionOf 1 .final, additionOf 2 .final] ∧
      (∃ g, addNodes .deadlocks (withCapacity 1) [additionOf 1 .final, additionOf 2 .final] =
        some g ∧ g.len = 2 ∧ g.storage.notFinal = 0) ∧
      ¬ RespectsCapacity { maxVertices := 1, maxEdges := 5 }
        [additionOf 1 .final, additionOf 2 .final] ∧
      addNodes .deadlocks (withConfig { maxVertices := 1, pruningThreshold := 0 })
        [additionOf 1 .final, additionOf 2 .final] = none := by
  have hfirst : ParentsFirst [additionOf 1 .final, additionOf 2 .final] :=
    parentsFirst_of_nodup (by decide) (by decide)
  have hfills : ∃ g, addNodes .deadlocks (withCapacity 1)
      [additionOf 1 .final, additionOf 2 .final] = some g ∧ g.len = 2 ∧
        g.storage.notFinal = 0 := by
    rcases @addNodes_spec { maxVertices := 1, maxEdges := 5 } _ hfirst with
      ⟨-, g, hg, hstores⟩ | ⟨hstuck, -⟩
    · have hcount := hstores.notFinal_eq
      have hall : finalCount [additionOf 1 .final, additionOf 2 .final] = 2 := by decide
      rw [hall] at hcount
      exact ⟨g, hg, hstores.len_eq, by simpa using hcount⟩
    · exact absurd (.inl (by decide)) hstuck
  refine ⟨hfirst, hfills, ?_, ?_⟩
  · obtain ⟨g, hg, hlen, hnone⟩ := hfills
    rintro ⟨g', hg', hle⟩
    obtain rfl : g = g' := Option.some.inj (hg.symm.trans hg')
    rw [hlen, hnone] at hle
    exact absurd hle (by decide)
  · rcases @addNodes_spec { maxVertices := 1, pruningThreshold := 0 } _ hfirst with
      ⟨hnever, -⟩ | ⟨-, hnone⟩
    · exact absurd hnever (by unfold NeverStuck; decide)
    · exact hnone

end Graph

end QuDAG
