import Mathlib.Algebra.Order.Field.Rat
import QuDAG.Dag.Vertex
import QuDAG.Lib.Hex
import QuDAG.Lib.Lru
import QuDAG.Lib.Runs

/-!
# The storage graph (`node.rs`, `edge.rs`, `graph.rs`)

A graph keeps its nodes in a main store and the ones used last in a cache as well. A new node enters
with the edges from its parents; when the store is full, room is made by removing final nodes, the
oldest first.

The parents of a new node are looked up in parallel. Which of the lookups run ahead of the others
is an argument of the model, a list of positions among the parents; the rest follow from left to
right until a parent is missing.

The pruning removes a node from the concurrent map while it still holds a reference to its entry.
The documentation of the map says of such a removal that it may deadlock, so `HeldRemoval` leaves
open whether it returns. A call that never returns has no outcome.

## Main definitions

* `Node`, `Node.updateState`, `Edge`.
* `VertexStorage` — the main store, the cache and the pruning queue.
* `Graph`, `Graph.addNode`, `Graph.updateNodeState`, `Graph.prune`.
* `Graph.call` — one call of a run of a graph.

## Implementation notes

The counters of the metrics wrap around at `2 ^ 64`, as in a build without overflow checks. The hit
rate is the exact quotient, before it is rounded to a float.
-/

namespace QuDAG

open RustStd

/-! ## Nodes and edges -/

/-- A hash of 32 bytes. -/
structure SerializableHash where
  /-- The bytes. -/
  bytes : List UInt8
  /-- There are 32 of them. -/
  length_eq : bytes.length = 32

namespace SerializableHash

/-- Hashes are compared by their bytes. -/
lemma ext_iff_bytes {a b : SerializableHash} : a = b ↔ a.bytes = b.bytes := by
  obtain ⟨a, ha⟩ := a
  obtain ⟨b, hb⟩ := b
  simp

instance : DecidableEq SerializableHash := fun _ _ => decidable_of_iff _ ext_iff_bytes.symm

/-- The text that the `Debug` implementation of a hash prints. -/
def debug (self : SerializableHash) : String := "Hash(\"" ++ Hex.encode self.bytes ++ "\")"

end SerializableHash

/-- The state of a node in the graph. -/
inductive NodeState
  /-- The node has been created but not yet verified. -/
  | pending
  /-- The node has been verified and is part of the graph. -/
  | verified
  /-- The node has achieved finality through consensus. -/
  | final
  /-- The node has been rejected by consensus. -/
  | rejected
  deriving DecidableEq, Repr

/-- The text that the derived `Debug` implementation prints. -/
def NodeState.debug : NodeState → String
  | pending => "Pending"
  | verified => "Verified"
  | final => "Final"
  | rejected => "Rejected"

/-- A node containing a transaction or a consensus message. -/
structure Node where
  /-- The unique identifier. -/
  hash : SerializableHash
  /-- The payload. -/
  payload : List UInt8
  /-- The current state. -/
  state : NodeState
  /-- When the node was created. -/
  timestamp : ℕ
  /-- The hashes of the parents. -/
  parents : List SerializableHash
  deriving DecidableEq

namespace Node

/-- Create a node at time `now`; its hash is that of the payload and the parents. -/
def new (blake3 : List UInt8 → SerializableHash) (payload : List UInt8)
    (parents : List SerializableHash) (now : ℕ) : Node where
  hash := blake3 (payload ++ parents.flatMap SerializableHash.bytes)
  payload := payload
  state := .pending
  timestamp := now
  parents := parents

/-- The transitions that `update_state` allows. -/
def validTransition : NodeState → NodeState → Bool
  | .pending, .verified => true
  | .verified, .final => true
  | .pending, .rejected => true
  | .verified, .rejected => true
  | _, _ => false

/-- Update the state if the transition is valid. -/
def updateState (self : Node) (newState : NodeState) : Except DagError Node :=
  if validTransition self.state newState then .ok { self with state := newState }
  else .error (.invalidStateTransition (self.state.debug ++ " -> " ++ newState.debug))

/-- An update succeeds exactly on a valid transition, and it changes the state only. -/
lemma updateState_eq_ok {n n' : Node} {st : NodeState} :
    n.updateState st = .ok n' ↔
      validTransition n.state st = true ∧ n' = { n with state := st } := by
  unfold updateState
  split_ifs with h
  · simp [h, eq_comm]
  · simp [h]

end Node

/-- A directed edge between two nodes. -/
structure Edge where
  /-- The hash of the parent. -/
  source : SerializableHash
  /-- The hash of the child. -/
  target : SerializableHash
  /-- The weight for consensus. -/
  weight : UInt32
  deriving DecidableEq

/-- Create an edge between a parent and a child. -/
def Edge.new (source target : SerializableHash) : Edge := ⟨source, target, 0x1⟩

/-! ## The storage -/

/-- The storage configuration. -/
structure StorageConfig where
  /-- Maximum number of vertices to keep in memory. -/
  maxVertices : ℕ := 100000
  /-- Maximum number of edges to cache. -/
  maxEdges : ℕ := 500000
  /-- Vertices to keep after pruning. -/
  pruningThreshold : ℕ := 10000
  /-- Maximum depth to keep in the fast access cache. -/
  cacheDepth : ℕ := 1000
  deriving DecidableEq, Repr

/-- What a removal from a concurrent map does while the caller holds a reference into the map. -/
inductive HeldRemoval
  /-- It removes the entry and returns. -/
  | returns
  /-- It waits for the reference to be dropped and never returns. -/
  | deadlocks
  deriving DecidableEq, Repr

/-- The storage of the vertices. -/
structure VertexStorage where
  /-- The primary storage. -/
  vertices : HashMap SerializableHash Node
  /-- The fast access cache. -/
  cache : LruCache SerializableHash Node
  /-- The hashes in the order of their insertions. -/
  pruningQueue : List SerializableHash
  /-- The configuration. -/
  config : StorageConfig
  /-- Lookups that the cache answered. -/
  cacheHits : ℕ
  /-- Lookups that the primary storage answered. -/
  cacheMisses : ℕ

namespace VertexStorage

/-- An empty storage; a cache depth of zero is read as one. -/
def new (config : StorageConfig) : VertexStorage where
  vertices := ∅
  cache := LruCache.new (max config.cacheDepth 1)
    (Nat.lt_of_lt_of_le Nat.one_pos (le_max_right _ _))
  pruningQueue := []
  config := config
  cacheHits := 0
  cacheMisses := 0

/-- The number of stored vertices. -/
def len (self : VertexStorage) : ℕ := self.vertices.keys.card

/-- Look a vertex up, in the cache first. -/
def get (self : VertexStorage) (hash : SerializableHash) : Option Node × VertexStorage :=
  match self.cache.get hash with
  | (some node, cache) =>
    (some node, { self with cache := cache, cacheHits := (self.cacheHits + 1) % 2 ^ 64 })
  | (none, cache) =>
    match self.vertices.lookup hash with
    | some node =>
      (some node, { self with
        cache := cache.put hash node
        cacheMisses := (self.cacheMisses + 1) % 2 ^ 64 })
    | none => (none, { self with cache := cache })

/-- The loop of a pruning: take hashes from the queue until it is empty or `toRemove` vertices are
removed. Only final vertices are. -/
def pruneLoop (d : HeldRemoval) : List SerializableHash → ℕ → HashMap SerializableHash Node →
    Option (List SerializableHash × HashMap SerializableHash Node)
  | [], _, vertices => some ([], vertices)
  | hash :: queue, 0, vertices => some (hash :: queue, vertices)
  | hash :: queue, toRemove + 1, vertices =>
    match vertices.lookup hash with
    | some node =>
      if node.state = .final then
        if d = .deadlocks then none else pruneLoop d queue toRemove (vertices.erase hash)
      else pruneLoop d queue (toRemove + 1) vertices
    | none => pruneLoop d queue (toRemove + 1) vertices

/-- Remove old vertices. No error is ever returned. -/
def pruneOldVertices (d : HeldRemoval) (self : VertexStorage) : Option VertexStorage :=
  if self.len ≤ self.config.pruningThreshold then some self
  else do
    let (queue, vertices) ←
      pruneLoop d self.pruningQueue (self.len - self.config.pruningThreshold) self.vertices
    return { self with pruningQueue := queue, vertices := vertices }

/-- The writes of an insertion: to the primary storage, the cache and the pruning queue. -/
def write (self : VertexStorage) (hash : SerializableHash) (node : Node) : VertexStorage :=
  { self with
    vertices := self.vertices.insert hash node
    cache := self.cache.put hash node
    pruningQueue := self.pruningQueue ++ [hash] }

/-- Insert a vertex; a storage at its capacity is pruned before. -/
def insert (d : HeldRemoval) (self : VertexStorage) (hash : SerializableHash) (node : Node) :
    Option VertexStorage :=
  if self.config.maxVertices ≤ self.len then
    (self.pruneOldVertices d).map fun pruned => pruned.write hash node
  else some (self.write hash node)

/-- The share of the lookups that the cache answered. -/
def cacheHitRate (self : VertexStorage) : ℚ :=
  if self.cacheHits + self.cacheMisses = 0 then 0
  else self.cacheHits / (self.cacheHits + self.cacheMisses : ℕ)

/-- A rough estimate of the memory used. -/
def memoryUsage (self : VertexStorage) : ℕ := self.len * 256

end VertexStorage

/-! ## The graph -/

/-- Performance metrics. -/
structure GraphMetrics where
  /-- Average vertex processing time in nanoseconds. -/
  avgVertexTimeNs : ℕ
  /-- Number of vertices processed. -/
  verticesProcessed : ℕ
  /-- Cache hit rate for vertex lookups. -/
  cacheHitRate : ℚ
  /-- Memory usage in bytes. -/
  memoryUsageBytes : ℕ
  /-- Number of prunings. -/
  prunedVertices : ℕ
  deriving DecidableEq

/-- The graph. -/
structure Graph where
  /-- The storage of the vertices. -/
  storage : VertexStorage
  /-- The edges by the parent that they leave. -/
  edges : HashMap SerializableHash (HashSet Edge)
  /-- The metrics. -/
  metrics : GraphMetrics

namespace Graph

/-- An empty graph. -/
def withConfig (config : StorageConfig) : Graph where
  storage := .new config
  edges := ∅
  metrics := ⟨0, 0, 0, 0, 0⟩

/-- An empty graph with an initial capacity. -/
def withCapacity (capacity : ℕ) : Graph :=
  withConfig { maxVertices := capacity, maxEdges := capacity * 5 }

/-- Whether there are no nodes. -/
def isEmpty (self : Graph) : Bool := self.storage.len == 0

/-- The number of nodes. -/
def len (self : Graph) : ℕ := self.storage.len

/-- The lookups of parents at some positions, one after the other: the positions with whether
something was found. -/
def lookupAhead (parents : List SerializableHash) :
    List ℕ → VertexStorage → List (ℕ × Bool) × VertexStorage
  | [], storage => ([], storage)
  | i :: rest, storage =>
    match parents[i]? with
    | none => lookupAhead parents rest storage
    | some parent =>
      let (node, storage) := storage.get parent
      let (found, storage) := lookupAhead parents rest storage
      ((i, node.isSome) :: found, storage)

/-- The first parent that is missing: a parent that was looked up ahead is not looked up again. -/
def findMissing (found : List (ℕ × Bool)) :
    ℕ → List SerializableHash → VertexStorage → Option SerializableHash × VertexStorage
  | _, [], storage => (none, storage)
  | i, parent :: rest, storage =>
    match found.lookup i with
    | some true => findMissing found (i + 1) rest storage
    | some false => (some parent, storage)
    | none =>
      match storage.get parent with
      | (some _, storage) => findMissing found (i + 1) rest storage
      | (none, storage) => (some parent, storage)

/-- Look the parents up in parallel. -/
def missingParent (parents : List SerializableHash) (ahead : List ℕ) (storage : VertexStorage) :
    Option SerializableHash × VertexStorage :=
  let (found, storage) := lookupAhead parents ahead storage
  findMissing found 0 parents storage

/-- The checks of `add_node`: the node is new and its parents exist. -/
def checkNode (storage : VertexStorage) (node : Node) (ahead : List ℕ) :
    Except DagError Unit × VertexStorage :=
  match storage.get node.hash with
  | (some _, storage) => (.error (.nodeExists node.hash.debug), storage)
  | (none, storage) =>
    match missingParent node.parents ahead storage with
    | (some parent, storage) => (.error (.missingParent parent.debug), storage)
    | (none, storage) => (.ok (), storage)

/-- Record an edge at a parent, if the parent has an edge set. -/
def addEdge (edges : HashMap SerializableHash (HashSet Edge)) (parent child : SerializableHash) :
    HashMap SerializableHash (HashSet Edge) :=
  match edges.lookup parent with
  | some parentEdges => edges.insert parent (Insert.insert (Edge.new parent child) parentEdges)
  | none => edges

/-- The edges of a new node: its own edge set, and an edge at each of its parents. -/
def addEdges (edges : HashMap SerializableHash (HashSet Edge)) (hash : SerializableHash)
    (node : Option Node) : HashMap SerializableHash (HashSet Edge) :=
  let edges := if hash ∈ edges then edges else edges.insert hash ∅
  match node with
  | some node => node.parents.foldl (fun edges parent => addEdge edges parent hash) edges
  | none => edges

/-- The metrics after a node was processed in a time. -/
def nodeProcessed (metrics : GraphMetrics) (storage : VertexStorage) (elapsed : ℕ) :
    GraphMetrics :=
  let processed := (metrics.verticesProcessed + 1) % 2 ^ 64
  { metrics with
    verticesProcessed := processed
    avgVertexTimeNs :=
      (metrics.avgVertexTimeNs * (processed - 1) % 2 ^ 64 + elapsed) % 2 ^ 64 / processed
    cacheHitRate := storage.cacheHitRate
    memoryUsageBytes := storage.memoryUsage }

/-- Add a node. -/
def addNode (d : HeldRemoval) (self : Graph) (node : Node) (ahead : List ℕ) (elapsed : ℕ) :
    Option (Except DagError Unit × Graph) :=
  match checkNode self.storage node ahead with
  | (.error e, storage) => some (.error e, { self with storage := storage })
  | (.ok _, storage) => do
    let storage ← storage.insert d node.hash node
    let (stored, storage) := storage.get node.hash
    return (.ok (), {
      storage := storage
      edges := addEdges self.edges node.hash stored
      metrics := nodeProcessed self.metrics storage elapsed })

/-- A node by its hash. -/
def getNode (self : Graph) (hash : SerializableHash) : Option Node × Graph :=
  let (node, storage) := self.storage.get hash
  (node, { self with storage := storage })

/-- The edges recorded for a node. -/
def getEdges (self : Graph) (hash : SerializableHash) : Option (HashSet Edge) :=
  self.edges.lookup hash

/-- The node with its new state, as `update_node_state` computes it before it writes. -/
def readAndUpdate (storage : VertexStorage) (hash : SerializableHash) (newState : NodeState) :
    Except DagError Node × VertexStorage :=
  match storage.get hash with
  | (none, storage) => (.error (.nodeNotFound hash.debug), storage)
  | (some node, storage) => (node.updateState newState, storage)

/-- Update the state of a node. -/
def updateNodeState (d : HeldRemoval) (self : Graph) (hash : SerializableHash)
    (newState : NodeState) : Option (Except DagError Unit × Graph) :=
  match readAndUpdate self.storage hash newState with
  | (.error e, storage) => some (.error e, { self with storage := storage })
  | (.ok node, storage) => do
    let storage ← storage.insert d hash node
    return (.ok (), { self with storage := storage })

/-- Trigger a pruning of old vertices. -/
def prune (d : HeldRemoval) (self : Graph) : Option Graph := do
  let storage ← self.storage.pruneOldVertices d
  return { self with
    storage := storage
    metrics := { self.metrics with
      prunedVertices := (self.metrics.prunedVertices + 1) % 2 ^ 64
      memoryUsageBytes := storage.memoryUsage } }

/-- The current metrics. -/
def currentMetrics (self : Graph) : GraphMetrics :=
  { self.metrics with
    cacheHitRate := self.storage.cacheHitRate
    memoryUsageBytes := self.storage.memoryUsage }

end Graph

/-! ## Calls -/

/-- A call of a public method. -/
inductive GraphCall
  /-- `add_node`, with the lookups that run ahead and the time that the call takes. -/
  | addNode (node : Node) (ahead : List ℕ) (elapsed : ℕ)
  /-- `update_node_state`. -/
  | updateNodeState (hash : SerializableHash) (newState : NodeState)
  /-- `get_node`. -/
  | getNode (hash : SerializableHash)
  /-- `get_edges`. -/
  | getEdges (hash : SerializableHash)
  /-- `is_empty`. -/
  | isEmpty
  /-- `len`. -/
  | len
  /-- `metrics`. -/
  | metrics
  /-- `prune`. -/
  | prune

/-- What a call returns. -/
inductive GraphReply
  /-- Success or an error. -/
  | result (r : Except DagError Unit)
  /-- A node. -/
  | node (r : Option Node)
  /-- A set of edges. -/
  | edges (r : Option (HashSet Edge))
  /-- A truth value. -/
  | bool (r : Bool)
  /-- A number. -/
  | count (r : ℕ)
  /-- The metrics. -/
  | metrics (r : GraphMetrics)

namespace Graph

/-- The reply of a call and the graph after it, if the call returns. -/
def call (d : HeldRemoval) (self : Graph) : GraphCall → Option (GraphReply × Graph)
  | .addNode node ahead elapsed =>
    (self.addNode d node ahead elapsed).map fun r => (.result r.1, r.2)
  | .updateNodeState hash newState =>
    (self.updateNodeState d hash newState).map fun r => (.result r.1, r.2)
  | .getNode hash => some (.node (self.getNode hash).1, (self.getNode hash).2)
  | .getEdges hash => some (.edges (self.getEdges hash), self)
  | .isEmpty => some (.bool self.isEmpty, self)
  | .len => some (.count self.len, self)
  | .metrics => some (.metrics self.currentMetrics, self)
  | .prune => (self.prune d).map fun g => (.result (.ok ()), g)

/-- The graph after a call; one that never returns leaves it as it is. -/
def after (d : HeldRemoval) (self : Graph) (c : GraphCall) : Graph :=
  ((self.call d c).map Prod.snd).getD self

end Graph

end QuDAG
