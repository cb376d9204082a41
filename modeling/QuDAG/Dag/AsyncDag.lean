import QuDAG.Dag.Avalanche
import QuDAG.Dag.History
import QuDAG.Lib.Loop
import QuDAG.Lib.MapMerge

/-!
# The asynchronous DAG (`dag.rs`)

`Dag` admits messages one at a time and merges the vertex map of another instance into its own.
This module models each method as one call; `Dag.Tasks` takes the same parts apart at
their await points.

## Main definitions

* `DagMessage`, `Dag`, `Dag.submitMessage`, `Dag.syncState`.
* `Dag.checkMessage`, `Dag.admitMessage` — the two parts of an admission.
* `Dag.stage`, `Dag.resolve` — the two loops of a synchronization.
* `Vertex.Agrees` — the comparison that a synchronization makes.

## Main results

* `Dag.checkMessage_eq_ok` — which messages pass the checks.
* `Dag.submitMessage_cases` — what a submission leaves.

## Implementation notes

A hashed set or map is iterated in the order a list argument gives. The resolution loop runs
over the staged map in one order, as the map does not change while it runs.
-/

namespace QuDAG

open RustStd

/-- Two vertices have the same payload, parent set, timestamp and signature. -/
structure Vertex.Agrees (existing vertex : Vertex) : Prop where
  payload : existing.payload = vertex.payload
  parents : existing.parentSet = vertex.parentSet
  timestamp : existing.timestamp = vertex.timestamp
  signature : existing.signature = vertex.signature

/-- Agreement is an equivalence. -/
lemma Vertex.agrees_equivalence : Equivalence Vertex.Agrees where
  refl _ := ⟨rfl, rfl, rfl, rfl⟩
  symm h := ⟨h.payload.symm, h.parents.symm, h.timestamp.symm, h.signature.symm⟩
  trans h h' := ⟨h.payload.trans h'.payload, h.parents.trans h'.parents,
    h.timestamp.trans h'.timestamp, h.signature.trans h'.signature⟩

/-- A message to admit. -/
structure DagMessage where
  id : VertexId
  payload : List UInt8
  parents : HashSet VertexId
  timestamp : ℕ

/-- The local asynchronous DAG. -/
structure Dag where
  vertices : VertexMap
  consensus : QRAvalanche
  permits : ℕ

namespace Dag

/-- Errors that can occur during DAG operations. -/
inductive DagError
  | vertexError (error : VertexError)
  | consensusError (error : ConsensusError)
  | channelClosed
  | conflictDetected
  | stateSyncFailed
  deriving DecidableEq, Repr

/-- A new DAG with at least one permit, created at time `now`. -/
def new (maxConcurrent : ℕ) (now : Instant) : Dag := ⟨∅, .new now, max maxConcurrent 1⟩

/-! ## Admission -/

/-- The checks of an admission, made under the graph's write lock. -/
def checkMessage (vertices : VertexMap) (msg : DagMessage) : Except DagError Unit :=
  if msg.id ∈ vertices then .error .conflictDetected
  else if msg.id ∈ msg.parents then .error (.vertexError .invalidParent)
  else if ∃ parent ∈ msg.parents, parent ∉ vertices then .error (.vertexError .parentNotFound)
  else .ok ()

/-- The vertex of a message, with its parents collected in the order `parents`. -/
def messageVertex (msg : DagMessage) (parents : List VertexId) (now : ℕ) : Vertex :=
  { Vertex.new msg.id msg.payload parents now with timestamp := msg.timestamp }

/-- The rest of an admission: register the message's id with the engine and admit its vertex. -/
def admitMessage (self : Dag) (msg : DagMessage) (parents : List VertexId) (now : Instant) :
    Except DagError Unit × Dag :=
  match self.consensus.processVertex msg.id now with
  | (.error e, consensus) => (.error (.consensusError e), { self with consensus := consensus })
  | (.ok _, consensus) =>
    (.ok (), { self with
      consensus := consensus
      vertices := self.vertices.insert msg.id (messageVertex msg parents now) })

/-- Submit a message: check it, register it with the engine and admit its vertex. -/
def submitMessage (self : Dag) (msg : DagMessage) (parents : List VertexId) (now : Instant) :
    Except DagError Unit × Dag :=
  match checkMessage self.vertices msg with
  | .error e => (.error e, self)
  | .ok () => self.admitMessage msg parents now

/-- Registering an id with the engine never fails. -/
lemma admitMessage_eq (self : Dag) (msg : DagMessage) (parents : List VertexId) (now : Instant) :
    self.admitMessage msg parents now = (.ok (), { self with
      consensus := (self.consensus.processVertex msg.id now).2
      vertices := self.vertices.insert msg.id (messageVertex msg parents now) }) := rfl

/-- A message passes the checks iff its id is fresh and all its parents are present; it is then
not its own parent. -/
lemma checkMessage_eq_ok {vertices : VertexMap} {msg : DagMessage} :
    checkMessage vertices msg = .ok () ↔
      msg.id ∉ vertices ∧ ∀ parent ∈ msg.parents, parent ∈ vertices := by
  unfold checkMessage
  by_cases hid : msg.id ∈ vertices
  · simp [hid]
  by_cases hself : msg.id ∈ msg.parents
  · simp only [hid, hself, if_true, if_false, not_false_eq_true, true_and, reduceCtorEq, false_iff]
    exact fun hall => hid (hall msg.id hself)
  by_cases hparents : ∃ parent ∈ msg.parents, parent ∉ vertices
  · simp only [hid, hself, hparents, if_true, if_false, not_false_eq_true, true_and, reduceCtorEq,
      false_iff]
    obtain ⟨parent, hp, hnotMem⟩ := hparents
    exact fun hall => hnotMem (hall parent hp)
  · simp only [hid, hself, hparents, if_false, not_false_eq_true, true_and, true_iff]
    intro parent hp
    by_contra hnotMem
    exact hparents ⟨parent, hp, hnotMem⟩

/-- What a submission leaves: the state as it was, or with the message's vertex admitted and its
id registered. -/
lemma submitMessage_cases (self : Dag) (msg : DagMessage) (parents : List VertexId)
    (now : Instant) :
    (checkMessage self.vertices msg ≠ .ok () ∧
      (self.submitMessage msg parents now).2 = self) ∨
    (checkMessage self.vertices msg = .ok () ∧
      self.submitMessage msg parents now = (.ok (), { self with
        consensus := (self.consensus.processVertex msg.id now).2
        vertices := self.vertices.insert msg.id (messageVertex msg parents now) })) := by
  unfold submitMessage
  cases hcheck : checkMessage self.vertices msg with
  | error e => exact .inl ⟨by simp, rfl⟩
  | ok u => exact .inr ⟨rfl, self.admitMessage_eq msg parents now⟩

/-! ## Synchronization -/

instance (existing vertex : Vertex) : Decidable (existing.Agrees vertex) :=
  decidable_of_iff (existing.payload = vertex.payload ∧ existing.parentSet = vertex.parentSet ∧
      existing.timestamp = vertex.timestamp ∧ existing.signature = vertex.signature)
    ⟨fun ⟨h₁, h₂, h₃, h₄⟩ => ⟨h₁, h₂, h₃, h₄⟩,
      fun h => ⟨h.payload, h.parents, h.timestamp, h.signature⟩⟩

/-- The first loop: add the remote vertices, in the order given, to the staged map. -/
def stage : List (VertexId × Vertex) → VertexMap → Except DagError VertexMap
  | [], staged => .ok staged
  | (id, vertex) :: others, staged =>
    match staged.lookup id with
    | some existing =>
      if existing.payload ≠ vertex.payload ∨ existing.parentSet ≠ vertex.parentSet ∨
          existing.timestamp ≠ vertex.timestamp ∨ existing.signature ≠ vertex.signature then
        .error .conflictDetected
      else stage others staged
    | none => stage others (staged.insert id vertex)

/-- One pass of the second loop: resolve the vertices whose parents are resolved. -/
def resolvePass (staged : List (VertexId × Vertex)) (resolved : HashSet VertexId) :
    HashSet VertexId :=
  staged.foldl (fun resolved (id, vertex) =>
    if ∀ parent ∈ vertex.parents, parent ∈ resolved then insert id resolved else resolved) resolved

/-- One iteration of the second loop. -/
def resolveStep (staged : List (VertexId × Vertex)) (resolved : HashSet VertexId) :
    HashSet VertexId ⊕ Except DagError Unit :=
  if resolved.card < staged.length then
    let before := resolved.card
    let resolved := resolvePass staged resolved
    if resolved.card = before then .inr (.error (.vertexError .invalidParent)) else .inl resolved
  else .inr (.ok ())

/-- A pass resolves more and more. -/
lemma subset_resolvePass (staged : List (VertexId × Vertex)) (resolved : HashSet VertexId) :
    resolved ⊆ resolvePass staged resolved := by
  unfold resolvePass
  induction staged generalizing resolved with
  | nil => exact Finset.Subset.refl _
  | cons e staged ih =>
    rw [List.foldl_cons]
    refine Finset.Subset.trans ?_ (ih _)
    simp only
    split_ifs
    · exact Finset.subset_insert _ _
    · exact Finset.Subset.refl _

/-- A continuing iteration leaves fewer vertices to resolve. -/
lemma measure_resolveStep (staged : List (VertexId × Vertex))
    (resolved resolved' : HashSet VertexId)
    (h : resolveStep staged resolved = .inl resolved') :
    staged.length - resolved'.card < staged.length - resolved.card := by
  unfold resolveStep at h
  simp only at h
  split_ifs at h with hlt hsame
  obtain rfl := Sum.inl.inj h
  have hle := Finset.card_le_card (subset_resolvePass staged resolved)
  omega

/-- The second loop: resolve until every vertex is resolved, or fail if a pass makes no
progress. -/
def resolve (staged : List (VertexId × Vertex)) : Except DagError Unit :=
  Loop.whileLoop (resolveStep staged) (fun resolved => staged.length - resolved.card)
    (measure_resolveStep staged) ∅

/-- The map that a synchronization commits: the union of the local map and the remote snapshot,
if both loops succeed. The snapshot is iterated in the order `others`, and a staged map in the
order `stagedOrder` gives for it. -/
def mergeMaps (vertices : VertexMap) (others : List (VertexId × Vertex))
    (stagedOrder : VertexMap → List (VertexId × Vertex)) : Except DagError VertexMap :=
  match stage others vertices with
  | .error e => .error e
  | .ok staged =>
    match resolve (stagedOrder staged) with
    | .error e => .error e
    | .ok () => .ok staged

/-- Synchronize with another DAG, whose map is iterated in the order `others`. -/
def syncState (self : Dag) (others : List (VertexId × Vertex))
    (stagedOrder : VertexMap → List (VertexId × Vertex)) : Except DagError Unit × Dag :=
  match mergeMaps self.vertices others stagedOrder with
  | .error e => (.error e, self)
  | .ok staged => (.ok (), { self with vertices := staged })

/-- A synchronization that merges the maps replaces the map and nothing else. -/
lemma syncState_of_merge {self : Dag} {others : List (VertexId × Vertex)}
    {stagedOrder : VertexMap → List (VertexId × Vertex)} {merged : VertexMap}
    (h : mergeMaps self.vertices others stagedOrder = .ok merged) :
    self.syncState others stagedOrder = (.ok (), { self with vertices := merged }) := by
  simp only [syncState, h]

end Dag

end QuDAG
