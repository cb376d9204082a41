import QuDAG.Dag.Avalanche
import QuDAG.Dag.History

/-!
# The local admission facade (`lib.rs`)

`DAGConsensus` admits vertices one by one into two stores, its own vertex map and the status map
of its engine, and keeps the engine's tip set.

## Main definitions

* `DAGConsensus`, `DAGConsensus.addVertex`, `DAGConsensus.addMessage`.
* `DAGConsensus.getConfidence`, `DAGConsensus.getTips`, `DAGConsensus.containsMessage` — the
  readers.
* `DAGConsensus.Call`, `DAGConsensus.run` — sequences of admission calls from a new instance;
  `DAGConsensus.admitted` — the vertices of the calls that succeeded.
* `DAGConsensus.Consistent` — the two stores agree, the history is well formed and the tips are the
  childless vertices.

## Main results

* `DAGConsensus.addVertex_cases` — what a call can do.
* `DAGConsensus.run_consistent` — every reachable state is consistent, and an error changes nothing.
* `DAGConsensus.lookup_run` — the vertex map holds exactly the admitted vertices.
* `DAGConsensus.getConfidence_run`, `DAGConsensus.containsMessage_run`,
  `DAGConsensus.mem_getTips_run` — what the readers return after a run.
-/

namespace QuDAG

open RustStd

/-- The local admission facade. -/
structure DAGConsensus where
  vertices : VertexMap
  consensus : QRAvalanche

namespace DAGConsensus

/-- A new facade, created at time `now`. -/
def new (now : Instant) : DAGConsensus := ⟨∅, .new now⟩

/-- The statements that commit a vertex after every check has passed. -/
def commit (self : DAGConsensus) (vertex : Vertex) : DAGConsensus where
  vertices := self.vertices.insert vertex.id vertex
  consensus := { self.consensus with
    vertices := self.consensus.vertices.insert vertex.id .pending
    tips := insert vertex.id
      (vertex.parents.foldl (fun tips parent => tips.erase parent) self.consensus.tips) }

/-- Add a vertex to the DAG. -/
def addVertex (self : DAGConsensus) (vertex : Vertex) : Except DagError Unit × DAGConsensus :=
  let vertexIdStr := Bytes.fromUtf8Lossy vertex.id.asBytes
  if vertex.id ∈ self.consensus.vertices then
    (.error (.consensusError ("Fork detected: vertex " ++ vertexIdStr ++ " already exists")), self)
  else if vertex.id ∈ vertex.parents then
    (.error (.consensusError
      ("Validation error: vertex " ++ vertexIdStr ++ " references itself")), self)
  else
    match vertex.parents.find? fun parent => parent ∉ self.consensus.vertices with
    | some parent =>
      (.error (.consensusError ("Invalid vertex: parent " ++ parent.debug ++ " not found")), self)
    | none => (.ok (), self.commit vertex)

/-- Add a message to the DAG: a vertex without parents whose id and payload are the message. -/
def addMessage (self : DAGConsensus) (message : List UInt8) (now : ℕ) :
    Except DagError Unit × DAGConsensus :=
  self.addVertex (.new (.fromBytes message) message [] now)

/-- The consensus status of a vertex, by the bytes of its id. -/
def getConfidence (self : DAGConsensus) (vertexId : String) : Option ConsensusStatus :=
  self.consensus.vertices.lookup (.fromBytes (Bytes.ofString vertexId))

/-- The current tips, in the order `tips` they are iterated in, as lossily decoded text. -/
def getTips (tips : List VertexId) : List String :=
  tips.map fun id => Bytes.fromUtf8Lossy id.asBytes

/-- Whether the DAG contains a message. -/
def containsMessage (self : DAGConsensus) (message : List UInt8) : Bool :=
  VertexId.fromBytes message ∈ self.vertices

/-! ## Runs -/

/-- The calls that may change a facade. -/
inductive Call
  | addVertex (vertex : Vertex)
  | addMessage (message : List UInt8) (now : ℕ)

namespace Call

/-- The vertex that a call tries to admit. -/
def vertex : Call → Vertex
  | addVertex vertex => vertex
  | addMessage message now => .new (.fromBytes message) message [] now

/-- Make a call. -/
def apply (self : DAGConsensus) : Call → Except DagError Unit × DAGConsensus
  | addVertex vertex => self.addVertex vertex
  | addMessage message now => self.addMessage message now

/-- Every call is an admission of its vertex. -/
lemma apply_eq (self : DAGConsensus) (call : Call) :
    call.apply self = self.addVertex call.vertex := by
  cases call <;> rfl

end Call

/-- The state after a sequence of calls on a new facade. -/
def run (now : Instant) (calls : List Call) : DAGConsensus :=
  calls.foldl (fun self call => (call.apply self).2) (new now)

/-- The vertices that a sequence of calls admits, starting from `self`. -/
def admittedFrom (self : DAGConsensus) : List Call → List Vertex
  | [] => []
  | call :: calls =>
    match call.apply self with
    | (.ok (), self) => call.vertex :: self.admittedFrom calls
    | (.error _, self) => self.admittedFrom calls

/-- The vertices of the calls that returned `Ok`. -/
def admitted (now : Instant) (calls : List Call) : List Vertex := (new now).admittedFrom calls

/-! ## What a call does -/

/-- The tips after the parents of a vertex are retired and the vertex is added. -/
@[simp] lemma mem_tips_commit {self : DAGConsensus} {vertex : Vertex} {id : VertexId} :
    id ∈ (self.commit vertex).consensus.tips ↔
      id = vertex.id ∨ id ∈ self.consensus.tips ∧ id ∉ vertex.parents := by
  have hfold : ∀ (parents : List VertexId) (tips : HashSet VertexId),
      id ∈ parents.foldl (fun tips parent => tips.erase parent) tips ↔
        id ∈ tips ∧ id ∉ parents := by
    intro parents
    induction parents with
    | nil => simp
    | cons parent parents ih =>
      intro tips
      rw [List.foldl_cons, ih, Finset.mem_erase, List.mem_cons]
      tauto
  rw [commit, Finset.mem_insert, hfold]

/-- **What a call can do**: it is refused with an error and changes nothing, or the vertex is
fresh, all its parents are registered, and it is committed. -/
lemma addVertex_cases (self : DAGConsensus) (vertex : Vertex) :
    (∃ message, self.addVertex vertex = (.error (.consensusError message), self)) ∨
    (vertex.id ∉ self.consensus.vertices ∧
      (∀ parent ∈ vertex.parents, parent ∈ self.consensus.vertices) ∧
      self.addVertex vertex = (.ok (), self.commit vertex)) := by
  unfold addVertex
  by_cases hfork : vertex.id ∈ self.consensus.vertices
  · exact .inl ⟨_, if_pos hfork⟩
  by_cases hself : vertex.id ∈ vertex.parents
  · exact .inl ⟨_, (if_neg hfork).trans (if_pos hself)⟩
  simp only [hfork, hself, if_false]
  cases hfind : vertex.parents.find? fun parent => parent ∉ self.consensus.vertices with
  | some parent => exact .inl ⟨_, rfl⟩
  | none =>
    refine .inr ⟨not_false, fun parent hp => ?_, rfl⟩
    simpa using List.find?_eq_none.mp hfind parent hp

/-- A refused call changes nothing. -/
lemma addVertex_error {self self' : DAGConsensus} {vertex : Vertex} {e : DagError}
    (h : self.addVertex vertex = (.error e, self')) : self' = self := by
  rcases self.addVertex_cases vertex with ⟨message, heq⟩ | ⟨-, -, heq⟩
  · rw [heq] at h
    exact (Prod.mk.inj h).2.symm
  · rw [heq] at h
    simp at h

/-! ## Consistency -/

/-- The two stores have the same keys, every status is `Pending`, the history is well formed and
the tips are the childless vertices. -/
structure Consistent (dag : DAGConsensus) : Prop where
  keys : dag.vertices.keys = dag.consensus.vertices.keys
  pending : ∀ id status, dag.consensus.vertices.lookup id = some status → status = .pending
  wellFormed : dag.vertices.WellFormed
  tips : ∀ id, id ∈ dag.consensus.tips ↔ dag.vertices.Childless id

/-- The two stores of a consistent facade hold the same ids. -/
lemma Consistent.mem_iff {self : DAGConsensus} (h : self.Consistent) {id : VertexId} :
    id ∈ self.vertices ↔ id ∈ self.consensus.vertices := by
  rw [← Finmap.mem_keys, h.keys, Finmap.mem_keys]

/-- A new facade is consistent. -/
lemma consistent_new (now : Instant) : (new now).Consistent where
  keys := rfl
  pending id status h := by simp [new, QRAvalanche.new, QRAvalanche.withConfig] at h
  wellFormed := VertexMap.wellFormed_empty
  tips id := by
    constructor
    · intro h
      exact absurd h (Finset.notMem_empty id)
    · intro h
      exact absurd h.1 Finmap.notMem_empty

/-- Committing a fresh vertex with registered parents keeps the facade consistent. -/
lemma Consistent.commit {self : DAGConsensus} (h : self.Consistent) {vertex : Vertex}
    (hfresh : vertex.id ∉ self.consensus.vertices)
    (hparents : ∀ parent ∈ vertex.parents, parent ∈ self.consensus.vertices) :
    (self.commit vertex).Consistent := by
  have hfresh' : vertex.id ∉ self.vertices := fun hv => hfresh (h.mem_iff.mp hv)
  have hparents' : ∀ parent ∈ vertex.parents, parent ∈ self.vertices :=
    fun parent hp => h.mem_iff.mpr (hparents parent hp)
  refine ⟨?_, fun id status hs => ?_, h.wellFormed.insert hfresh' hparents', fun id => ?_⟩
  · ext id
    simp only [DAGConsensus.commit, Finmap.mem_keys, Finmap.mem_insert, h.mem_iff]
  · simp only [DAGConsensus.commit, HashMap.lookup_insert_ite] at hs
    split_ifs at hs with hid
    · exact (Option.some.inj hs).symm
    · exact h.pending id status hs
  · rw [mem_tips_commit, h.tips]
    exact (VertexMap.childless_insert hfresh' h.wellFormed hparents' id).symm

/-- One call keeps the facade consistent. -/
lemma Consistent.apply {self : DAGConsensus} (h : self.Consistent) (call : Call) :
    (call.apply self).2.Consistent := by
  rw [call.apply_eq]
  rcases self.addVertex_cases call.vertex with ⟨message, heq⟩ | ⟨hfresh, hparents, heq⟩
  · rw [heq]
    exact h
  · rw [heq]
    exact h.commit hfresh hparents

/-- A run of calls keeps the facade consistent. -/
lemma Consistent.run {self : DAGConsensus} (h : self.Consistent) (calls : List Call) :
    (calls.foldl (fun self call => (call.apply self).2) self).Consistent := by
  induction calls generalizing self with
  | nil => exact h
  | cons call calls ih => exact ih (h.apply call)

/-- Every reachable facade is consistent. -/
lemma consistent_run (now : Instant) (calls : List Call) : (run now calls).Consistent :=
  (consistent_new now).run calls

/-- **The facade's invariant**: in every state that a run of calls reaches, the stores have the
same keys, every status is `Pending`, the history is closed and acyclic and the tips are the
childless vertices; and a call that returns an error changes nothing. -/
theorem run_consistent (now : Instant) :
    (∀ calls, (run now calls).Consistent) ∧
    ∀ (self self' : DAGConsensus) (call : Call) (e : DagError),
      call.apply self = (.error e, self') → self' = self := by
  refine ⟨consistent_run now, fun self self' call e h => ?_⟩
  rw [call.apply_eq] at h
  exact addVertex_error h

/-! ## The admitted vertices -/

/-- The vertex map after a run holds what it held before and the admitted vertices. -/
lemma lookup_runFrom {self : DAGConsensus} (h : self.Consistent) (calls : List Call)
    (id : VertexId) (v : Vertex) :
    (calls.foldl (fun self call => (call.apply self).2) self).vertices.lookup id = some v ↔
      self.vertices.lookup id = some v ∨ v ∈ self.admittedFrom calls ∧ v.id = id := by
  induction calls generalizing self with
  | nil => simp [admittedFrom]
  | cons call calls ih =>
    rw [List.foldl_cons, ih (h.apply call), admittedFrom, call.apply_eq]
    rcases self.addVertex_cases call.vertex with ⟨message, heq⟩ | ⟨hfresh, -, heq⟩
    · rw [heq]
    · have hnone : self.vertices.lookup call.vertex.id = none :=
        Finmap.lookup_eq_none.mpr fun hv => hfresh (h.mem_iff.mp hv)
      rw [heq]
      simp only [commit, HashMap.lookup_insert_ite, List.mem_cons]
      by_cases hid : id = call.vertex.id
      · subst hid
        simp only [if_true, hnone, Option.some.injEq]
        grind
      · simp only [if_neg hid]
        grind

/-- The vertex map holds exactly the vertices whose calls returned `Ok`. -/
lemma lookup_run (now : Instant) (calls : List Call) (id : VertexId) (v : Vertex) :
    (run now calls).vertices.lookup id = some v ↔ v ∈ admitted now calls ∧ v.id = id := by
  rw [run, lookup_runFrom (consistent_new now)]
  simp [new, admitted]

/-- The keys of the vertex map are the admitted ids. -/
lemma mem_run (now : Instant) (calls : List Call) (id : VertexId) :
    id ∈ (run now calls).vertices ↔ ∃ v ∈ admitted now calls, v.id = id := by
  rw [HashMap.mem_iff_exists]
  exact exists_congr fun v => lookup_run now calls id v

/-- Runs that admit the same ids with the same parent sets reach the same history. -/
lemma same_run {now now' : Instant} {calls calls' : List Call}
    (h : ∀ id parents, (∃ v ∈ admitted now calls, v.id = id ∧ v.parentSet = parents) ↔
      ∃ v ∈ admitted now' calls', v.id = id ∧ v.parentSet = parents) :
    (run now calls).vertices.graph.Same (run now' calls').vertices.graph := by
  refine ⟨Finset.ext fun id => ?_, fun id hid => ?_⟩
  · rw [VertexMap.mem_graph_nodes, VertexMap.mem_graph_nodes, mem_run, mem_run]
    constructor
    · rintro ⟨v, hv, hid⟩
      obtain ⟨w, hw, hwid, -⟩ := (h id v.parentSet).mp ⟨v, hv, hid, rfl⟩
      exact ⟨w, hw, hwid⟩
    · rintro ⟨v, hv, hid⟩
      obtain ⟨w, hw, hwid, -⟩ := (h id v.parentSet).mpr ⟨v, hv, hid, rfl⟩
      exact ⟨w, hw, hwid⟩
  · obtain ⟨v, hv, hvid⟩ := (mem_run now calls id).mp (VertexMap.mem_graph_nodes.mp hid)
    obtain ⟨w, hw, hwid, hparents⟩ := (h id v.parentSet).mp ⟨v, hv, hvid, rfl⟩
    rw [VertexMap.graph_parents ((lookup_run now calls id v).mpr ⟨hv, hvid⟩),
      VertexMap.graph_parents ((lookup_run now' calls' id w).mpr ⟨hw, hwid⟩), hparents]

/-! ## The readers -/

/-- An admitted vertex is `Pending`, and no other vertex has a status. -/
theorem getConfidence_run (now : Instant) (calls : List Call) (text : String) :
    (run now calls).getConfidence text =
      if ∃ v ∈ admitted now calls, v.id = .fromBytes (Bytes.ofString text) then some .pending
      else none := by
  have h := consistent_run now calls
  rw [getConfidence]
  split_ifs with hadmitted
  · have hmem := h.mem_iff.mp ((mem_run now calls _).mpr hadmitted)
    obtain ⟨status, hstatus⟩ := HashMap.mem_iff_exists.mp hmem
    rw [hstatus, h.pending _ status hstatus]
  · refine Finmap.lookup_eq_none.mpr fun hmem => hadmitted ?_
    exact (mem_run now calls _).mp (h.mem_iff.mpr hmem)

/-- A message is contained iff a vertex with its bytes as id was admitted. -/
lemma containsMessage_run (now : Instant) (calls : List Call) (message : List UInt8) :
    (run now calls).containsMessage message = true ↔
      ∃ v ∈ admitted now calls, v.id = .fromBytes message := by
  rw [containsMessage, decide_eq_true_iff, mem_run]

/-- The texts of the tips are those of the childless vertices. -/
lemma mem_getTips_run {now : Instant} {calls : List Call} {tips : List VertexId}
    (htips : HashSet.Enumerates (run now calls).consensus.tips tips) (text : String) :
    text ∈ getTips tips ↔ ∃ id, (run now calls).vertices.Childless id ∧
      Bytes.fromUtf8Lossy id.asBytes = text := by
  simp only [getTips, List.mem_map, htips.2, (consistent_run now calls).tips]

end DAGConsensus

end QuDAG
