import QuDAG.Dag.Sync
import QuDAG.Lib.Runs

/-!
# The engine's registry of an asynchronous DAG

A `Dag` holds its graph and an engine that is to know the same ids and to keep the tips of the
graph. This module says in which runs it does.

## Main definitions

* `Dag.Reachable` — the DAGs that calls of `submit_message` and `sync_state` reach.
* `Dag.Registered` — the engine agrees with the graph.
* `Dag.Call.KeepsRegistry` — the calls that keep it so.

## Main results

* `Dag.Reachable.wellFormed` — the graph of a reachable DAG is well formed.
* `Dag.registered_iff` — the engine agrees with the graph throughout a run iff no admitted message
  has parents and no synchronization brings a new id.
-/

namespace QuDAG

open RustStd

namespace Dag

/-! ## Calls -/

/-- The DAGs that are reached by calls, each synchronization being with a reachable DAG. -/
inductive Reachable : Dag → Prop
  | new (maxConcurrent : ℕ) (now : Instant) : Reachable (Dag.new maxConcurrent now)
  | submit {dag : Dag} (msg : DagMessage) (parents : List VertexId) (now : Instant) :
      Reachable dag → HashSet.Enumerates msg.parents parents →
      Reachable (dag.submitMessage msg parents now).2
  | sync {dag other : Dag} (others : List (VertexId × Vertex))
      (stagedOrder : VertexMap → List (VertexId × Vertex)) :
      Reachable dag → Reachable other → other.vertices.Enumerates others →
      (∀ m : VertexMap, m.Enumerates (stagedOrder m)) →
      Reachable (dag.syncState others stagedOrder).2

/-- The calls on a DAG. -/
inductive Call
  | submitMessage (msg : DagMessage) (parents : List VertexId) (now : Instant)
  | syncState (other : Dag) (others : List (VertexId × Vertex))
      (stagedOrder : VertexMap → List (VertexId × Vertex))

namespace Call

/-- The DAG after a call. -/
def apply (self : Dag) : Call → Dag
  | submitMessage msg parents now => (self.submitMessage msg parents now).2
  | syncState _ others stagedOrder => (self.syncState others stagedOrder).2

/-- The orders are orders of the collections, and the other DAG is a reachable one. -/
def Valid (_ : Dag) : Call → Prop
  | submitMessage msg parents _ => HashSet.Enumerates msg.parents parents
  | syncState other others stagedOrder =>
    Reachable other ∧ other.vertices.Enumerates others ∧
      ∀ m : VertexMap, m.Enumerates (stagedOrder m)

/-- The call refuses the message or the message has no parents; or it finds a conflict or brings
no new id. -/
def KeepsRegistry (self : Dag) : Call → Prop
  | submitMessage msg _ _ => checkMessage self.vertices msg = .ok () → msg.parents = ∅
  | syncState other _ _ =>
    self.vertices.Compatible other.vertices → ∀ id ∈ other.vertices, id ∈ self.vertices

end Call

/-! ## The graph -/

/-- The parents of a message's vertex are those of the message. -/
lemma mem_messageVertex_parents {msg : DagMessage} {parents : List VertexId}
    (h : HashSet.Enumerates msg.parents parents) (now : ℕ) (p : VertexId) :
    p ∈ (messageVertex msg parents now).parents ↔ p ∈ msg.parents := h.2 p

/-- Admitting a message keeps the graph well formed. -/
lemma wellFormed_insertMessage {vertices : VertexMap} (h : vertices.WellFormed) {msg : DagMessage}
    (hcheck : checkMessage vertices msg = .ok ()) {parents : List VertexId}
    (horder : HashSet.Enumerates msg.parents parents) (now : ℕ) :
    VertexMap.WellFormed (vertices.insert msg.id (messageVertex msg parents now)) := by
  obtain ⟨hfresh, hparents⟩ := checkMessage_eq_ok.mp hcheck
  exact h.insert (v := messageVertex msg parents now) hfresh
    fun p hp => hparents p ((mem_messageVertex_parents horder now p).mp hp)

/-- The graph of a reachable DAG is well formed. -/
lemma Reachable.wellFormed {dag : Dag} (h : Reachable dag) : dag.vertices.WellFormed := by
  induction h with
  | new maxConcurrent now => exact VertexMap.wellFormed_empty
  | @submit dag msg parents now _ horder ih =>
    rcases dag.submitMessage_cases msg parents now with ⟨-, heq⟩ | ⟨hcheck, heq⟩
    · rw [heq]
      exact ih
    · rw [heq]
      exact wellFormed_insertMessage ih hcheck horder now
  | @sync dag other others stagedOrder _ _ hothers hstaged ih ih' =>
    obtain ⟨hok, herr⟩ := mergeMaps_spec ih ih' hothers hstaged
    by_cases hagree : dag.vertices.Compatible other.vertices
    · obtain ⟨hmerge, hwell⟩ := hok hagree
      simp only [syncState, hmerge]
      exact hwell
    · simp only [syncState, herr hagree]
      exact ih

/-! ## The registry -/

/-- The engine agrees with the graph: it knows the same ids, and its tips are the childless
ones. -/
structure Registered (dag : Dag) : Prop where
  keys : ∀ id, id ∈ dag.consensus.vertices ↔ id ∈ dag.vertices
  tips : ∀ id, id ∈ dag.consensus.tips ↔ dag.vertices.Childless id

/-- What the good runs keep: the graph is well formed, no vertex has parents, and the engine
agrees with the graph. -/
structure RegistryInv (dag : Dag) : Prop where
  wellFormed : dag.vertices.WellFormed
  noParents : ∀ id v, dag.vertices.lookup id = some v → v.parents = []
  registered : dag.Registered

/-- A new DAG has the invariant. -/
lemma registryInv_new (maxConcurrent : ℕ) (now : Instant) :
    RegistryInv (new maxConcurrent now) where
  wellFormed := VertexMap.wellFormed_empty
  noParents id v h := by simp [new] at h
  registered := by
    refine ⟨fun id => Iff.rfl, fun id => ⟨fun h => ?_, fun h => ?_⟩⟩
    · exact absurd h (Finset.notMem_empty id)
    · exact absurd h.1 Finmap.notMem_empty

/-- **Submitting**: if no vertex has parents, the engine agrees with the graph afterwards iff the
message is refused or has no parents. -/
lemma RegistryInv.submit {dag : Dag} (h : RegistryInv dag) {msg : DagMessage}
    {parents : List VertexId} (horder : HashSet.Enumerates msg.parents parents) (now : Instant) :
    ((Call.submitMessage msg parents now).KeepsRegistry dag →
      RegistryInv (dag.submitMessage msg parents now).2) ∧
    (Registered (dag.submitMessage msg parents now).2 →
      (Call.submitMessage msg parents now).KeepsRegistry dag) := by
  rcases dag.submitMessage_cases msg parents now with ⟨hcheck, heq⟩ | ⟨hcheck, heq⟩
  · rw [heq]
    exact ⟨fun _ => h, fun _ hok => absurd hok hcheck⟩
  obtain ⟨hfresh, hparents⟩ := checkMessage_eq_ok.mp hcheck
  have hmem := mem_messageVertex_parents horder now
  have hchildless := VertexMap.childless_insert (v := messageVertex msg parents now) hfresh
    h.wellFormed fun p hp => hparents p ((hmem p).mp hp)
  rw [heq]
  refine ⟨fun hkeep => ?_, fun hreg _ => ?_⟩
  · have hempty : parents = [] := by
      refine List.eq_nil_iff_forall_not_mem.mpr fun p hp => ?_
      have := (horder.2 p).mp hp
      rw [hkeep hcheck] at this
      exact absurd this (Finset.notMem_empty p)
    refine ⟨wellFormed_insertMessage h.wellFormed hcheck horder now, fun id v hv => ?_, ?_,
      fun id => ?_⟩
    · simp only [HashMap.lookup_insert_ite] at hv
      split_ifs at hv
      · rw [← Option.some.inj hv]
        exact hempty
      · exact h.noParents id v hv
    · intro id
      simp only [QRAvalanche.processVertex, Finmap.mem_insert, h.registered.keys]
    · refine Iff.trans ?_ (hchildless id).symm
      simp only [QRAvalanche.processVertex, Finset.mem_insert, h.registered.tips, hmem,
        hkeep hcheck, Finset.notMem_empty, not_false_eq_true, and_true]
      exact Iff.rfl
  · -- a parent has no child yet, so it is still a tip after the message is admitted
    refine Finset.eq_empty_of_forall_notMem fun p hp => ?_
    have hchild : dag.vertices.Childless p := by
      refine ⟨hparents p hp, fun child v hv => ?_⟩
      rw [h.noParents child v hv]
      exact List.not_mem_nil
    have htip : p ∈ (dag.consensus.processVertex msg.id now).2.tips :=
      Finset.mem_insert_of_mem ((h.registered.tips p).mpr hchild)
    rcases (hchildless p).mp ((hreg.tips p).mp htip) with heq' | ⟨-, hnot⟩
    · have hself : p = msg.id := heq'
      exact hfresh (hself ▸ hparents p hp)
    · exact hnot ((hmem p).mpr hp)

/-- **Synchronizing**: the engine agrees with the graph afterwards iff there is a conflict or no
new id. -/
lemma RegistryInv.sync {dag other : Dag} (h : RegistryInv dag) (hother : Reachable other)
    {others : List (VertexId × Vertex)} (hothers : other.vertices.Enumerates others)
    {stagedOrder : VertexMap → List (VertexId × Vertex)}
    (hstaged : ∀ m : VertexMap, m.Enumerates (stagedOrder m)) :
    ((Call.syncState other others stagedOrder).KeepsRegistry dag →
      RegistryInv (dag.syncState others stagedOrder).2) ∧
    (Registered (dag.syncState others stagedOrder).2 →
      (Call.syncState other others stagedOrder).KeepsRegistry dag) := by
  obtain ⟨hok, herr⟩ := mergeMaps_spec h.wellFormed hother.wellFormed hothers hstaged
  by_cases hagree : dag.vertices.Compatible other.vertices
  · obtain ⟨hmerge, -⟩ := hok hagree
    simp only [syncState, hmerge]
    refine ⟨fun hkeep => ?_, fun hreg _ id hid => ?_⟩
    · rw [MapMerge.union_eq_left (hkeep hagree)]
      exact h
    · have hunion : id ∈ dag.vertices ∪ other.vertices := Finmap.mem_union.mpr (.inr hid)
      exact (h.registered.keys id).mp ((hreg.keys id).mpr hunion)
  · simp only [syncState, herr hagree]
    exact ⟨fun _ => h, fun _ hok' => absurd hok' hagree⟩

/-- **When the registry follows the graph**: in a run of calls on a new DAG, the engine agrees
with the graph in every state iff every message that is admitted has no parents, and every
synchronization finds a conflict or brings no new id. -/
theorem registered_iff (maxConcurrent : ℕ) (now : Instant) (calls : List Call)
    (hvalid : Runs.Steps Call.apply Call.Valid (new maxConcurrent now) calls) :
    Runs.Always Call.apply Registered (new maxConcurrent now) calls ↔
      Runs.Steps Call.apply Call.KeepsRegistry (new maxConcurrent now) calls := by
  refine Runs.always_iff_steps RegistryInv (fun _ h => h.registered) ?_ ?_ hvalid
    (registryInv_new maxConcurrent now)
  · intro dag call h hcall hkeep
    cases call with
    | submitMessage msg parents now => exact (h.submit hcall now).1 hkeep
    | syncState other others stagedOrder => exact (h.sync hcall.1 hcall.2.1 hcall.2.2).1 hkeep
  · intro dag call h hcall hreg
    cases call with
    | submitMessage msg parents now => exact (h.submit hcall now).2 hreg
    | syncState other others stagedOrder => exact (h.sync hcall.1 hcall.2.1 hcall.2.2).2 hreg

/-- A message without parents. -/
def rootMessage : DagMessage := ⟨.fromBytes [1], [], ∅, 0⟩

/-- A message whose parent is the root message. -/
def childMessage : DagMessage := ⟨.fromBytes [2], [], {.fromBytes [1]}, 0⟩

/-- The condition for a run that admits the root message and refuses it the second time. -/
theorem registered_iff_root :
    Runs.Always Call.apply Registered (new 1 0)
        [.submitMessage rootMessage [] 0, .submitMessage rootMessage [] 0] ↔
      Runs.Steps Call.apply Call.KeepsRegistry (new 1 0)
        [.submitMessage rootMessage [] 0, .submitMessage rootMessage [] 0] :=
  registered_iff 1 0 [.submitMessage rootMessage [] 0, .submitMessage rootMessage [] 0]
    ⟨by simp [Call.Valid, HashSet.Enumerates, rootMessage],
      by simp [Call.Valid, HashSet.Enumerates, rootMessage], trivial⟩

/-- A DAG with the root message. -/
def rootDag : Dag := ((new 1 0).submitMessage rootMessage [] 0).2

/-- A DAG with the root message and its child. -/
def childDag : Dag := (rootDag.submitMessage childMessage [.fromBytes [1]] 0).2

lemma reachable_rootDag : Reachable rootDag :=
  .submit rootMessage [] 0 (.new 1 0) (by simp [HashSet.Enumerates, rootMessage])

lemma reachable_childDag : Reachable childDag :=
  .submit childMessage [.fromBytes [1]] 0 reachable_rootDag
    (by simp [HashSet.Enumerates, childMessage])

/-- The engine does not agree with the graph in general: a synchronization does not register the
ids it brings, and a submission does not retire the parents from the tips. -/
theorem not_registered :
    (¬ ∀ dag : Dag, Reachable dag → ∀ id, id ∈ dag.consensus.vertices ↔ id ∈ dag.vertices) ∧
    ¬ ∀ dag : Dag, Reachable dag → ∀ id, id ∈ dag.consensus.tips ↔ dag.vertices.Childless id := by
  have hroot := reachable_rootDag
  refine ⟨fun h => ?_, fun h => ?_⟩
  · have hsync := Reachable.sync rootDag.vertices.sorted HashMap.sorted (.new 1 0) hroot
      rootDag.vertices.sorted_enumerates HashMap.sorted_enumerates
    obtain ⟨hmerge, -⟩ := (mergeMaps_spec (Reachable.new 1 0).wellFormed hroot.wellFormed
      rootDag.vertices.sorted_enumerates HashMap.sorted_enumerates).1
      fun id v w hv => by simp [new] at hv
    have hkeys := (h _ hsync (.fromBytes [1])).mpr
    simp only [syncState, hmerge] at hkeys
    revert hkeys
    decide
  · have hchildless := (h childDag reachable_childDag (.fromBytes [1])).mp (by decide)
    have htip := hchildless.2 (.fromBytes [2]) (messageVertex childMessage [.fromBytes [1]] 0) rfl
    revert htip
    decide

end Dag

end QuDAG
