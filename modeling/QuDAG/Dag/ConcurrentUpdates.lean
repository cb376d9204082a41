import QuDAG.Dag.CacheTransparency
import QuDAG.Lib.Outcome

/-!
# Concurrent state updates of a node

Calls of `update_node_state` on one node run at the same time. Each goes through the reads and
writes of the shared maps one by one: the lookup in the cache, the lookup in the main store and the
write to the cache after a miss, the size of the store, the removals of a pruning, and the writes to
the main store, the cache and the pruning queue. A schedule says which call takes the next step.

A call that looked the node up in the main store holds a reference to its entry until it has filled
the cache, so that no other call writes the entry meanwhile; a pruning holds the lock of the pruning
queue. A call that waits for either takes no step.

The calls check a copy of the node and write it back later. They are equivalent to their sequential
execution in the order of the writes exactly if every write finds the state that the call has read,
or rejects a node that is not settled yet, and no pruning removes the node.

## Main definitions

* `UpdateStage`, `UpdateRun`, `UpdateRun.step` — the steps of the calls.
* `UpdateRun.Linearized` — the calls that wrote can be executed one after the other.
* `UpdateRun.Undisturbed` — the condition on a step.

## Main results

* `UpdateRun.inv_step` — a step that meets the condition keeps the invariant.
* `UpdateRun.linearized_iff` — the exact schedules in which the calls are linearizable.

## Implementation notes

The counters of hits and misses are updated together with the map that they belong to. Removals of
a pruning wait for references to the node itself only; the entries that share its lock are not
modelled, which allows more schedules.
-/

namespace QuDAG

open RustStd

/-! ## Steps -/

/-- How far the insertion of an updated node has come. -/
inductive InsertStage
  /-- The size of the main store is read next. -/
  | sizing
  /-- The lock of the pruning queue is taken next. -/
  | locking
  /-- The queue is locked, and `toRemove` vertices are to be removed. -/
  | pruning (toRemove : ℕ)
  /-- The main store is written next. -/
  | writing
  deriving DecidableEq, Repr

/-- How far a call of `update_node_state` has come. -/
inductive UpdateStage
  /-- The cache is read next. -/
  | start
  /-- The cache has no entry; the main store is read next. -/
  | missed
  /-- The main store has an entry, which is referenced; the cache is written next. -/
  | filling (node : Node)
  /-- The node was read and the update is valid; the updated node is to be inserted. -/
  | inserting (stage : InsertStage) (read updated : Node)
  /-- The main store is written; the cache is written next. -/
  | caching (updated : Node)
  /-- The cache is written; the pruning queue is written next. -/
  | queueing
  /-- The call has returned. -/
  | done (result : Except DagError Unit)

namespace UpdateStage

/-- The call holds a reference to the entry of the node. -/
def referencing : UpdateStage → Bool
  | filling _ => true
  | _ => false

/-- The call holds the lock of the pruning queue. -/
def locking : UpdateStage → Bool
  | inserting (.pruning _) _ _ => true
  | _ => false

/-- The stage after the node was read: the update is checked on the copy. -/
def checked (node : Node) (newState : NodeState) : UpdateStage :=
  match node.updateState newState with
  | .ok updated => inserting .sizing node updated
  | .error e => done (.error e)

end UpdateStage

/-- Some calls of `update_node_state` on one node. -/
structure UpdateRun where
  /-- The shared storage. -/
  storage : VertexStorage
  /-- How far each call has come. -/
  stages : ℕ → UpdateStage
  /-- The calls that have written the main store, in the order of their writes. -/
  writes : List ℕ

namespace UpdateRun

/-- No call has started. -/
def init (storage : VertexStorage) : UpdateRun := ⟨storage, fun _ => .start, []⟩

/-- A call has come to a stage, and the storage has changed. -/
def goto (self : UpdateRun) (i : ℕ) (stage : UpdateStage) (storage : VertexStorage) : UpdateRun :=
  { self with storage := storage, stages := Function.update self.stages i stage }

section Step

variable (d : HeldRemoval) (hash : SerializableHash) (requests : List NodeState)

/-- Another call is at a stage with the property. -/
def Other (self : UpdateRun) (i : ℕ) (p : UpdateStage → Bool) : Prop :=
  ∃ j < requests.length, j ≠ i ∧ p (self.stages j) = true

instance (self : UpdateRun) (i : ℕ) (p : UpdateStage → Bool) :
    Decidable (self.Other requests i p) :=
  inferInstanceAs (Decidable (∃ j < requests.length, _))

/-- The next step of the insertion of an updated node. -/
def insertStep (self : UpdateRun) (i : ℕ) (read updated : Node) : InsertStage → Option UpdateRun
  | .sizing =>
    let stage : InsertStage :=
      if self.storage.config.maxVertices ≤ self.storage.len then .locking else .writing
    some (self.goto i (.inserting stage read updated) self.storage)
  | .locking =>
    if self.Other requests i UpdateStage.locking then none
    else
      let stage : InsertStage :=
        if self.storage.len ≤ self.storage.config.pruningThreshold then .writing
        else .pruning (self.storage.len - self.storage.config.pruningThreshold)
      some (self.goto i (.inserting stage read updated) self.storage)
  | .pruning 0 => some (self.goto i (.inserting .writing read updated) self.storage)
  | .pruning (toRemove + 1) =>
    match self.storage.pruningQueue with
    | [] => some (self.goto i (.inserting .writing read updated) self.storage)
    | k :: queue =>
      let storage := { self.storage with pruningQueue := queue }
      if (self.storage.vertices.lookup k).map Node.state = some .final then
        if d = .deadlocks ∨ k = hash ∧ self.Other requests i UpdateStage.referencing then none
        else some (self.goto i (.inserting (.pruning toRemove) read updated)
          { storage with vertices := storage.vertices.erase k })
      else some (self.goto i (.inserting (.pruning (toRemove + 1)) read updated) storage)
  | .writing =>
    if self.Other requests i UpdateStage.referencing then none
    else
      let storage :=
        { self.storage with vertices := self.storage.vertices.insert hash updated }
      some { self.goto i (.caching updated) storage with writes := self.writes ++ [i] }

/-- The next step of a call, if it is not finished and does not wait. -/
def step (self : UpdateRun) (i : ℕ) : Option UpdateRun :=
  match requests[i]? with
  | none => none
  | some newState =>
    match self.stages i with
    | .start =>
      match self.storage.cache.get hash with
      | (some node, cache) => some (self.goto i (.checked node newState) { self.storage with
          cache := cache
          cacheHits := (self.storage.cacheHits + 1) % 2 ^ 64 })
      | (none, cache) => some (self.goto i .missed { self.storage with cache := cache })
    | .missed =>
      match self.storage.vertices.lookup hash with
      | some node => some (self.goto i (.filling node) self.storage)
      | none => some (self.goto i (.done (.error (.nodeNotFound hash.debug))) self.storage)
    | .filling node => some (self.goto i (.checked node newState) { self.storage with
        cache := self.storage.cache.put hash node
        cacheMisses := (self.storage.cacheMisses + 1) % 2 ^ 64 })
    | .inserting stage read updated => self.insertStep d hash requests i read updated stage
    | .caching updated => some (self.goto i .queueing
        { self.storage with cache := self.storage.cache.put hash updated })
    | .queueing =>
      if self.Other requests i UpdateStage.locking then none
      else some (self.goto i (.done (.ok ()))
        { self.storage with pruningQueue := self.storage.pruningQueue ++ [hash] })
    | .done _ => none

/-- The run after the next step of a call, if there is one. -/
def after (self : UpdateRun) (i : ℕ) : UpdateRun :=
  (self.step d hash requests i).getD self

end Step

/-! ## Linearizability -/

section Spec

variable (requests : List NodeState) (node₀ : Node) (hash : SerializableHash)

/-- The updates of some calls, one after the other. -/
def replay (node : Node) (calls : List ℕ) : Except DagError Node :=
  calls.foldlM (fun node i => node.updateState (requests.getD i .pending)) node

/-- The calls that have written can be executed one after the other, each with success, and lead to
the stored node. A call that returned success is one of them. -/
structure Linearized (σ : UpdateRun) : Prop where
  /-- The sequential execution succeeds with the stored node. -/
  stored : ∃ n, replay requests node₀ σ.writes = .ok n ∧
    σ.storage.vertices.lookup hash = some n
  /-- No call is executed twice. -/
  once : σ.writes.Nodup
  /-- Every successful call is executed. -/
  successful : ∀ i < requests.length, σ.stages i = .done (.ok ()) → i ∈ σ.writes

/-- A node that is final or rejected stays so. -/
def Settles (d : HeldRemoval) (self : UpdateRun) (i : ℕ) : Prop :=
  ∀ n, self.storage.vertices.lookup hash = some n → n.state = .final ∨ n.state = .rejected →
    (self.after d hash requests i).storage.vertices.lookup hash = some n

/-- If the step writes the node, then the stored state is the one that the call has read, or the
call rejects a node that is pending or verified. The step does not remove the node. -/
def Undisturbed (d : HeldRemoval) (self : UpdateRun) (i : ℕ) : Prop :=
  (self.step d hash requests i).isSome = true →
    match self.stages i with
    | .inserting .writing read updated =>
      ∃ n, self.storage.vertices.lookup hash = some n ∧
        (n.state = read.state ∨
          updated.state = .rejected ∧ (n.state = .pending ∨ n.state = .verified))
    | .inserting (.pruning (_ + 1)) _ _ =>
      self.storage.pruningQueue.head? = some hash →
        (self.storage.vertices.lookup hash).map Node.state ≠ some .final
    | _ => True

end Spec

/-! ## The invariant -/

/-- A node that differs from another in its state only. -/
def Variant (node₀ n : Node) : Prop := n = { node₀ with state := n.state }

/-- A node does not differ from itself. -/
lemma Variant.refl (node : Node) : Variant node node := rfl

/-- An update changes the state only. -/
lemma Variant.update {node₀ n n' : Node} {newState : NodeState} (h : Variant node₀ n)
    (hu : n.updateState newState = .ok n') : Variant node₀ n' := by
  obtain ⟨-, rfl⟩ := Node.updateState_eq_ok.mp hu
  unfold Variant at h ⊢
  rw [h]

/-- Variants in the same state are the same node. -/
lemma Variant.eq {node₀ n n' : Node} (h : Variant node₀ n) (h' : Variant node₀ n')
    (hs : n.state = n'.state) : n = n' := by
  rw [h, h', hs]

/-- Variants are updated to the same node. -/
lemma Variant.update_eq {node₀ n n' m m' : Node} {newState : NodeState} (h : Variant node₀ n)
    (h' : Variant node₀ n') (hu : n.updateState newState = .ok m)
    (hu' : n'.updateState newState = .ok m') : m = m' := by
  refine (h.update hu).eq (h'.update hu') ?_
  rw [(Node.updateState_eq_ok.mp hu).2, (Node.updateState_eq_ok.mp hu').2]

section Inv

variable {d : HeldRemoval} {requests : List NodeState} {node₀ : Node} {hash : SerializableHash}

/-- A further call is executed after the others. -/
lemma replay_append {node : Node} {calls : List ℕ} {i : ℕ} :
    replay requests node (calls ++ [i]) =
      (replay requests node calls).bind fun n => n.updateState (requests.getD i .pending) := by
  unfold replay
  rw [List.foldlM_append]
  show (_ >>= _) = _
  congr 1
  funext n
  show (n.updateState _ >>= pure) = _
  exact bind_pure _

/-- Sequential updates change the state only. -/
lemma variant_of_replay {calls : List ℕ} : ∀ {node n : Node}, Variant node₀ node →
    replay requests node calls = .ok n → Variant node₀ n := by
  induction calls with
  | nil =>
    intro node n h hr
    obtain rfl := Except.ok.inj hr
    exact h
  | cons i calls ih =>
    intro node n h hr
    obtain ⟨m, hm, hr'⟩ := RustStd.bind_eq_ok.mp hr
    exact ih (h.update hm) hr'

/-- What is known of a call at each stage. -/
def StageOk (node₀ : Node) (newState : NodeState) (written : Prop) : UpdateStage → Prop
  | .start => ¬ written
  | .missed => ¬ written
  | .filling node => ¬ written ∧ Variant node₀ node
  | .inserting _ read updated =>
    ¬ written ∧ Variant node₀ read ∧ read.updateState newState = .ok updated
  | .caching updated => written ∧ Variant node₀ updated
  | .queueing => written
  | .done (.ok _) => written
  | .done (.error _) => ¬ written

variable (requests node₀ hash) in
/-- The invariant of the runs. -/
structure Inv (σ : UpdateRun) : Prop where
  /-- The calls that have written are linearizable. -/
  linearized : σ.Linearized requests node₀ hash
  /-- Every call knows what its stage says. -/
  stages_ok : ∀ i newState, requests[i]? = some newState →
    StageOk node₀ newState (i ∈ σ.writes) (σ.stages i)
  /-- A cached copy of the node differs from it in its state only. -/
  cached : ∀ n, σ.storage.cache.peek hash = some n → Variant node₀ n

variable {σ : UpdateRun} {i : ℕ} {newState : NodeState} {stage : UpdateStage}
  {storage : VertexStorage}

/-- A checked call knows what its stage says. -/
lemma stageOk_checked {node : Node} {written : Prop} (hw : ¬ written) (hv : Variant node₀ node) :
    StageOk node₀ newState written (.checked node newState) := by
  unfold UpdateStage.checked
  split
  · next updated hu => exact ⟨hw, hv, hu⟩
  · exact hw

/-- A step that does not write the node keeps the invariant. -/
lemma Inv.goto (h : σ.Inv requests node₀ hash) (hi : requests[i]? = some newState)
    (hstage : StageOk node₀ newState (i ∈ σ.writes) stage)
    (hlookup : storage.vertices.lookup hash = σ.storage.vertices.lookup hash)
    (hcache : ∀ n, storage.cache.peek hash = some n → Variant node₀ n) :
    (σ.goto i stage storage).Inv requests node₀ hash := by
  refine ⟨⟨?_, h.linearized.once, ?_⟩, ?_, hcache⟩
  · obtain ⟨n, hn, hstored⟩ := h.linearized.stored
    exact ⟨n, hn, hlookup.trans hstored⟩
  · intro j hj hdone
    by_cases hji : j = i
    · subst hji
      have hdone' : stage = .done (.ok ()) := by
        rw [← hdone]
        exact (Function.update_self j stage σ.stages).symm
      rw [hdone'] at hstage
      exact hstage
    · have hold : σ.stages j = .done (.ok ()) := by
        rw [← hdone]
        exact (Function.update_of_ne hji stage σ.stages).symm
      exact h.linearized.successful j hj hold
  · intro j newState' hj
    by_cases hji : j = i
    · subst hji
      obtain rfl := Option.some.inj (hi.symm.trans hj)
      show StageOk _ _ _ (Function.update σ.stages j stage j)
      rw [Function.update_self]
      exact hstage
    · show StageOk _ _ _ (Function.update σ.stages i stage j)
      rw [Function.update_of_ne hji]
      exact h.stages_ok j newState' hj

variable (hash) in
/-- The run after a call has written the updated node. -/
def written (σ : UpdateRun) (i : ℕ) (updated : Node) : UpdateRun :=
  { σ.goto i (.caching updated)
      { σ.storage with vertices := σ.storage.vertices.insert hash updated } with
    writes := σ.writes ++ [i] }

/-- What the writes replay to after a write is the update of the stored node. -/
lemma replay_written (h : σ.Inv requests node₀ hash) (hi : requests[i]? = some newState) {n : Node}
    (hn : σ.storage.vertices.lookup hash = some n) (updated : Node) :
    replay requests node₀ (σ.written hash i updated).writes = n.updateState newState := by
  obtain ⟨m, hm, hstored⟩ := h.linearized.stored
  obtain rfl := Option.some.inj (hn.symm.trans hstored)
  have hget : requests.getD i .pending = newState := by
    rw [List.getD_eq_getElem?_getD, hi]
    rfl
  show replay requests node₀ (σ.writes ++ [i]) = _
  rw [replay_append, hm, hget]
  rfl

/-- **A write that executes its call** on the stored node keeps the invariant. -/
lemma Inv.write (h : σ.Inv requests node₀ hash) (hi : requests[i]? = some newState)
    {read updated n : Node} (hstage : σ.stages i = .inserting .writing read updated)
    (hn : σ.storage.vertices.lookup hash = some n)
    (hvalid : Node.validTransition n.state newState = true) :
    (σ.written hash i updated).Inv requests node₀ hash := by
  have hok := h.stages_ok i newState hi
  rw [hstage] at hok
  obtain ⟨hnew, hread, hupdated⟩ := hok
  have hnv : Variant node₀ n := by
    obtain ⟨m, hm, hstored⟩ := h.linearized.stored
    obtain rfl := Option.some.inj (hn.symm.trans hstored)
    exact variant_of_replay (.refl node₀) hm
  have hupdate : n.updateState newState = .ok { n with state := newState } :=
    Node.updateState_eq_ok.mpr ⟨hvalid, rfl⟩
  refine ⟨⟨⟨updated, ?_, Finmap.lookup_insert _⟩, ?_, ?_⟩, ?_, h.cached⟩
  · rw [replay_written h hi hn, hupdate, hnv.update_eq hread hupdate hupdated]
  · exact List.nodup_append.mpr ⟨h.linearized.once, List.nodup_singleton i,
      fun a ha b hb heq => hnew (List.mem_singleton.mp hb ▸ heq ▸ ha)⟩
  · intro j hj hdone
    by_cases hji : j = i
    · exact List.mem_append_right _ (List.mem_singleton.mpr hji)
    · refine List.mem_append_left _ (h.linearized.successful j hj ?_)
      rw [← hdone]
      exact (Function.update_of_ne hji (.caching updated) σ.stages).symm
  · intro j newState' hj
    show StageOk node₀ newState' (j ∈ σ.writes ++ [i])
      (Function.update σ.stages i (.caching updated) j)
    by_cases hji : j = i
    · subst hji
      rw [Function.update_self]
      exact ⟨List.mem_append_right _ List.mem_cons_self, hread.update hupdated⟩
    · have hmem : (j ∈ σ.writes ++ [i]) = (j ∈ σ.writes) := by simp [hji]
      rw [Function.update_of_ne hji, hmem]
      exact h.stages_ok j newState' hj

variable (node₀ hash) in
/-- What a step can do: it leaves the stored node as it is, or it writes the node, or it removes the
node, which is final. -/
inductive StepCase (σ : UpdateRun) (i : ℕ) (newState : NodeState) (σ' : UpdateRun) : Prop
  | goto (stage : UpdateStage) (storage : VertexStorage) (eq : σ' = σ.goto i stage storage)
      (ok : StageOk node₀ newState (i ∈ σ.writes) stage)
      (lookup_eq : storage.vertices.lookup hash = σ.storage.vertices.lookup hash)
      (cached : ∀ n, storage.cache.peek hash = some n → Variant node₀ n)
  | write (read updated : Node) (stage_eq : σ.stages i = .inserting .writing read updated)
      (eq : σ' = σ.written hash i updated)
  | remove (toRemove : ℕ) (read updated : Node)
      (stage_eq : σ.stages i = .inserting (.pruning (toRemove + 1)) read updated)
      (head : σ.storage.pruningQueue.head? = some hash)
      (final : (σ.storage.vertices.lookup hash).map Node.state = some .final)
      (lookup_eq : σ'.storage.vertices.lookup hash = none)

/-- The steps of an insertion. -/
lemma insertStep_cases (h : σ.Inv requests node₀ hash) {σ' : UpdateRun} {read updated : Node}
    {stage : InsertStage} (hstage : σ.stages i = .inserting stage read updated)
    (hok : StageOk node₀ newState (i ∈ σ.writes) (.inserting stage read updated))
    (hstep : σ.insertStep d hash requests i read updated stage = some σ') :
    StepCase node₀ hash σ i newState σ' := by
  cases stage with
  | sizing =>
    obtain rfl := Option.some.inj hstep
    exact .goto _ _ rfl hok rfl h.cached
  | locking =>
    rw [insertStep] at hstep
    by_cases hother : σ.Other requests i UpdateStage.locking
    · rw [if_pos hother] at hstep
      cases hstep
    · rw [if_neg hother] at hstep
      obtain rfl := Option.some.inj hstep
      exact .goto _ _ rfl hok rfl h.cached
  | writing =>
    rw [insertStep] at hstep
    split_ifs at hstep
    obtain rfl := Option.some.inj hstep
    exact .write read updated hstage rfl
  | pruning toRemove =>
    cases toRemove with
    | zero =>
      obtain rfl := Option.some.inj hstep
      exact .goto _ _ rfl hok rfl h.cached
    | succ toRemove =>
      rw [insertStep] at hstep
      split at hstep
      · obtain rfl := Option.some.inj hstep
        exact .goto _ _ rfl hok rfl h.cached
      · next k queue hqueue =>
        dsimp only at hstep
        split_ifs at hstep with hfinal hwait
        · obtain rfl := Option.some.inj hstep
          by_cases hk : k = hash
          · subst hk
            refine .remove toRemove read updated hstage ?_ hfinal (Finmap.lookup_erase _ _)
            rw [hqueue]
            rfl
          · exact .goto _ _ rfl hok (Finmap.lookup_erase_ne (Ne.symm hk)) h.cached
        · obtain rfl := Option.some.inj hstep
          exact .goto _ _ rfl hok rfl h.cached

/-- **Every step is one of these.** -/
lemma step_cases (h : σ.Inv requests node₀ hash) {σ' : UpdateRun}
    (hstep : σ.step d hash requests i = some σ') :
    ∃ newState, requests[i]? = some newState ∧ StepCase node₀ hash σ i newState σ' := by
  unfold step at hstep
  cases hi : requests[i]? with
  | none =>
    rw [hi] at hstep
    cases hstep
  | some newState =>
    rw [hi] at hstep
    refine ⟨newState, rfl, ?_⟩
    have hok := h.stages_ok i newState hi
    dsimp only at hstep
    cases hstage : σ.stages i with
    | start =>
      rw [hstage] at hstep hok
      have hfst : (σ.storage.cache.get hash).1 = σ.storage.cache.peek hash := LruCache.get_fst
      have hpeek : ∀ k, (σ.storage.cache.get hash).2.peek k = σ.storage.cache.peek k :=
        fun k => LruCache.peek_get
      dsimp only at hstep
      split at hstep
      · next node cache heq =>
        rw [heq] at hfst hpeek
        obtain rfl := Option.some.inj hstep
        have hv := h.cached node hfst.symm
        refine .goto _ _ rfl (stageOk_checked hok hv) rfl fun n hn => h.cached n ?_
        rw [← hpeek]
        exact hn
      · next cache heq =>
        rw [heq] at hpeek
        obtain rfl := Option.some.inj hstep
        refine .goto _ _ rfl hok rfl fun n hn => h.cached n ?_
        rw [← hpeek]
        exact hn
    | missed =>
      rw [hstage] at hstep hok
      dsimp only at hstep
      obtain ⟨m, hm, hstored⟩ := h.linearized.stored
      rw [hstored] at hstep
      obtain rfl := Option.some.inj hstep
      exact .goto _ _ rfl ⟨hok, variant_of_replay (.refl node₀) hm⟩ rfl h.cached
    | filling node =>
      rw [hstage] at hstep hok
      obtain rfl := Option.some.inj hstep
      refine .goto _ _ rfl (stageOk_checked hok.1 hok.2) rfl fun n hn => ?_
      rcases LruCache.peek_of_put hn with ⟨-, rfl⟩ | ⟨hne, -⟩
      · exact hok.2
      · exact absurd rfl hne
    | inserting stage read updated =>
      rw [hstage] at hstep hok
      exact insertStep_cases h hstage hok hstep
    | caching updated =>
      rw [hstage] at hstep hok
      obtain rfl := Option.some.inj hstep
      refine .goto _ _ rfl hok.1 rfl fun n hn => ?_
      rcases LruCache.peek_of_put hn with ⟨-, rfl⟩ | ⟨hne, -⟩
      · exact hok.2
      · exact absurd rfl hne
    | queueing =>
      rw [hstage] at hstep hok
      dsimp only at hstep
      split_ifs at hstep
      obtain rfl := Option.some.inj hstep
      exact .goto _ _ rfl hok rfl h.cached
    | done r =>
      rw [hstage] at hstep
      cases hstep

/-- An undisturbed write is a valid transition of the stored node. -/
lemma validTransition_of_undisturbed {read updated n : Node}
    (hu : read.updateState newState = .ok updated)
    (h : n.state = read.state ∨
      updated.state = .rejected ∧ (n.state = .pending ∨ n.state = .verified)) :
    Node.validTransition n.state newState = true := by
  obtain ⟨hvalid, rfl⟩ := Node.updateState_eq_ok.mp hu
  rcases h with heq | ⟨hrejected, hstate⟩
  · rw [heq]
    exact hvalid
  · obtain rfl : newState = .rejected := hrejected
    rcases hstate with hstate | hstate
    · rw [hstate]
      rfl
    · rw [hstate]
      rfl

/-- A write that is a valid transition of the stored node is undisturbed. -/
lemma undisturbed_of_validTransition {read updated n : Node}
    (hu : read.updateState newState = .ok updated)
    (h : Node.validTransition n.state newState = true) :
    n.state = read.state ∨
      updated.state = .rejected ∧ (n.state = .pending ∨ n.state = .verified) := by
  obtain ⟨hvalid, rfl⟩ := Node.updateState_eq_ok.mp hu
  have hall : ∀ a b c, Node.validTransition a c = true → Node.validTransition b c = true →
      a = b ∨ c = .rejected ∧ (a = .pending ∨ a = .verified) := by
    intro a b c
    cases a <;> cases b <;> cases c <;> decide
  exact hall _ _ _ h hvalid

/-- **A step that meets the condition keeps the invariant.** -/
lemma inv_after (h : σ.Inv requests node₀ hash) (hu : σ.Undisturbed requests hash d i) :
    (σ.after d hash requests i).Inv requests node₀ hash := by
  unfold after
  cases hstep : σ.step d hash requests i with
  | none => exact h
  | some σ' =>
    obtain ⟨newState, hi, hcase⟩ := step_cases h hstep
    have hcond := hu (by rw [hstep]; rfl)
    show σ'.Inv requests node₀ hash
    cases hcase with
    | goto stage storage eq ok lookup_eq cached =>
      rw [eq]
      exact h.goto hi ok lookup_eq cached
    | write read updated stage_eq eq =>
      rw [stage_eq] at hcond
      obtain ⟨n, hn, hfree⟩ := hcond
      have hok := h.stages_ok i newState hi
      rw [stage_eq] at hok
      rw [eq]
      exact h.write hi stage_eq hn (validTransition_of_undisturbed hok.2.2 hfree)
    | remove toRemove read updated stage_eq head final lookup_eq =>
      rw [stage_eq] at hcond
      exact absurd final (hcond head)

/-- The step of an inserting call is a step of the insertion. -/
lemma step_of_inserting {read updated : Node} {stage : InsertStage}
    (hi : requests[i]? = some newState) (hstage : σ.stages i = .inserting stage read updated) :
    σ.step d hash requests i = σ.insertStep d hash requests i read updated stage := by
  unfold step
  rw [hi, hstage]

/-- **A step after which the calls are linearizable meets the condition.** -/
lemma undisturbed_of_linearized (h : σ.Inv requests node₀ hash)
    (hl : (σ.after d hash requests i).Linearized requests node₀ hash) :
    σ.Undisturbed requests hash d i := by
  intro hsome
  obtain ⟨σ', hstep⟩ := Option.isSome_iff_exists.mp hsome
  have hafter : σ.after d hash requests i = σ' := by
    rw [after, hstep]
    rfl
  rw [hafter] at hl
  obtain ⟨newState, hi, -⟩ := step_cases h hstep
  obtain ⟨n', hreplay, hstored'⟩ := hl.stored
  obtain ⟨n, hn, hstored⟩ := h.linearized.stored
  split
  · next read updated hstage =>
    rw [step_of_inserting hi hstage, insertStep] at hstep
    split_ifs at hstep
    obtain rfl := Option.some.inj hstep
    have hupdate : n.updateState newState = .ok n' :=
      (replay_written h hi hstored updated).symm.trans hreplay
    have hok := h.stages_ok i newState hi
    rw [hstage] at hok
    exact ⟨n, hstored, undisturbed_of_validTransition hok.2.2 (Node.updateState_eq_ok.mp hupdate).1⟩
  · next toRemove read updated hstage =>
    intro hhead hfinal
    rw [step_of_inserting hi hstage, insertStep] at hstep
    split at hstep
    · next hqueue =>
      rw [hqueue] at hhead
      cases hhead
    · next k queue hqueue =>
      rw [hqueue] at hhead
      obtain rfl : k = hash := Option.some.inj hhead
      rw [if_pos hfinal] at hstep
      split_ifs at hstep
      obtain rfl := Option.some.inj hstep
      have hgone : (σ.storage.vertices.erase k).lookup k = none := Finmap.lookup_erase _ _
      cases hgone.symm.trans hstored'
  · trivial

/-- **A settled node stays**, at a step that meets the condition. -/
lemma settles_of_undisturbed (h : σ.Inv requests node₀ hash)
    (hu : σ.Undisturbed requests hash d i) : σ.Settles requests hash d i := by
  intro n hn hsettled
  unfold after
  cases hstep : σ.step d hash requests i with
  | none => exact hn
  | some σ' =>
    obtain ⟨newState, hi, hcase⟩ := step_cases h hstep
    have hcond := hu (by rw [hstep]; rfl)
    show σ'.storage.vertices.lookup hash = some n
    cases hcase with
    | goto stage storage eq ok lookup_eq cached =>
      rw [eq]
      exact lookup_eq.trans hn
    | write read updated stage_eq eq =>
      rw [stage_eq] at hcond
      obtain ⟨m, hm, hfree⟩ := hcond
      obtain rfl := Option.some.inj (hn.symm.trans hm)
      have hok := h.stages_ok i newState hi
      rw [stage_eq] at hok
      have hvalid := validTransition_of_undisturbed hok.2.2 hfree
      rcases hsettled with hstate | hstate
      · rw [hstate] at hvalid
        cases newState <;> exact absurd hvalid (by decide)
      · rw [hstate] at hvalid
        cases newState <;> exact absurd hvalid (by decide)
    | remove toRemove read updated stage_eq head final lookup_eq =>
      rw [stage_eq] at hcond
      exact absurd final (hcond head)

/-- The invariant holds before the first step, if the node is stored and a cached copy of it is the
stored node. -/
lemma inv_init {storage : VertexStorage} (hc : storage.Consistent)
    (hstored : storage.vertices.lookup hash = some node₀) :
    (init storage).Inv requests node₀ hash where
  linearized := {
    stored := ⟨node₀, rfl, hstored⟩
    once := List.nodup_nil
    successful := fun i _ hdone => by cases hdone }
  stages_ok i newState _ := List.not_mem_nil
  cached n hn := by
    obtain rfl := hc hash n hn node₀ hstored
    exact .refl node₀

end Inv

/-- **Exactly when concurrent updates are linearizable**: in every schedule of any number of updates
of a stored node, the calls that wrote can be executed one after the other with the same result, and
a settled node stays, iff no step is disturbed. The storage is that of a graph after any calls. -/
theorem linearized_iff (d : HeldRemoval) (config : StorageConfig) (calls : List GraphCall)
    (requests : List NodeState) (node₀ : Node) (hash : SerializableHash) (schedule : List ℕ)
    (hstored : (Runs.run (Graph.after d) (.withConfig config) calls).storage.vertices.lookup hash =
      some node₀) :
    (Runs.Always (after d hash requests) (Linearized requests node₀ hash)
        (init (Runs.run (Graph.after d) (.withConfig config) calls).storage) schedule ∧
      Runs.Steps (after d hash requests) (Settles requests hash d)
        (init (Runs.run (Graph.after d) (.withConfig config) calls).storage) schedule) ↔
      Runs.Steps (after d hash requests) (Undisturbed requests hash d)
        (init (Runs.run (Graph.after d) (.withConfig config) calls).storage) schedule := by
  have hinit : Inv requests node₀ hash
      (init (Runs.run (Graph.after d) (.withConfig config) calls).storage) :=
    inv_init (Graph.consistent_run d config calls) hstored
  have hiff := @Runs.always_iff_steps _ _ (after d hash requests) (Inv requests node₀ hash)
    (Linearized requests node₀ hash) _ (fun _ _ => True) (fun _ h => h.linearized)
    (fun _ _ h _ hu => inv_after h hu) (fun _ _ h _ hl => undisturbed_of_linearized h hl)
    schedule _ (Runs.steps_of_forall fun _ _ => trivial) hinit
  constructor
  · exact fun h => hiff.mp h.1
  · refine fun h => ⟨hiff.mpr h, Runs.steps_rule (Inv requests node₀ hash) ?_ h hinit⟩
    exact fun _ _ hinv hu => ⟨inv_after hinv hu, settles_of_undisturbed hinv hu⟩

/-! ### Two calls -/

/-- A verified node. -/
def verifiedNode : Node := ⟨⟨List.replicate 32 0x3, rfl⟩, [], .verified, 0, []⟩

/-- The calls that store it. -/
def storeVerified : List GraphCall :=
  [.addNode { verifiedNode with state := .pending } [] 3,
    .updateNodeState verifiedNode.hash .verified]

/-- One update after the other. -/
theorem linearized_sequential :
    (Runs.Always (after .returns verifiedNode.hash [.rejected, .final])
        (Linearized [.rejected, .final] verifiedNode verifiedNode.hash)
        (init (Runs.run (Graph.after .returns) (.withConfig {}) storeVerified).storage)
        [0, 0, 0, 0, 0, 1] ∧
      Runs.Steps (after .returns verifiedNode.hash [.rejected, .final])
        (Settles [.rejected, .final] verifiedNode.hash .returns)
        (init (Runs.run (Graph.after .returns) (.withConfig {}) storeVerified).storage)
        [0, 0, 0, 0, 0, 1]) :=
  (linearized_iff .returns {} storeVerified [.rejected, .final] verifiedNode verifiedNode.hash
    [0, 0, 0, 0, 0, 1] (by decide)).mpr ⟨fun _ => trivial, fun _ => trivial,
      fun _ => ⟨verifiedNode, rfl, .inl rfl⟩, fun _ => trivial, fun _ => trivial, fun _ => trivial,
      trivial⟩

/-- Both calls read the verified node, then one finalizes it and the other rejects it. -/
theorem not_linearized_interleaved :
    ¬ (Runs.Always (after .returns verifiedNode.hash [.final, .rejected])
        (Linearized [.final, .rejected] verifiedNode verifiedNode.hash)
        (init (Runs.run (Graph.after .returns) (.withConfig {}) storeVerified).storage)
        [0, 1, 0, 0, 0, 0, 1, 1, 1, 1] ∧
      Runs.Steps (after .returns verifiedNode.hash [.final, .rejected])
        (Settles [.final, .rejected] verifiedNode.hash .returns)
        (init (Runs.run (Graph.after .returns) (.withConfig {}) storeVerified).storage)
        [0, 1, 0, 0, 0, 0, 1, 1, 1, 1]) := by
  rintro ⟨-, h⟩
  have hwrite := (@Runs.Steps.of_append _ _ _ _ [0, 1, 0, 0, 0, 0, 1] _ _ h).2.1
  have hfinal := hwrite { verifiedNode with state := .final } (by decide) (.inl rfl)
  exact absurd hfinal (by decide)

end UpdateRun

end QuDAG
