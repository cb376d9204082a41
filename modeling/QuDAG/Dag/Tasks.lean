import QuDAG.Dag.Registry

/-!
# Concurrent submissions and synchronizations (`dag.rs`)

Tasks that run `submit_message` and `sync_state` on shared replicas, taken apart at their await
points: a task is resumed when the permit or the lock it waits for is free, and runs to its next
await point. A schedule resumes the tasks in any order.

## Main definitions

* `Tasks.Program`, `Tasks.Phase`, `Tasks.System` — what a task runs, how far it has come, and the
  state of all replicas and tasks.
* `Tasks.resume` — the next part of a task.
* `VertexMap.Reached` — the maps that calls made one after another reach.

## Main results

* `Tasks.run_inv` — every replica's map is one that calls made one after another reach.
* `Tasks.run_grows` — no schedule loses or changes an entry.
* `Tasks.submit_alone`, `Tasks.sync_alone` — a task that is not interrupted does what the call does.
* `Tasks.interleavings` — the maps are well formed, and grow, and hold every message whose
  submission has succeeded.

## Implementation notes

The engine's mutex is taken and given back between two await points, and only by the holder of
the graph's write lock, so a task that waits for it can always go on. The semaphore is never
closed.
-/

namespace QuDAG

open RustStd

/-! ## Maps that calls reach -/

namespace VertexMap

/-- Calls made one after another reach a DAG with this map. -/
def Reached (m : VertexMap) : Prop := ∃ dag : Dag, dag.Reachable ∧ dag.vertices = m

/-- Every entry of `m` is an entry of `m'`. -/
def Grows (m m' : VertexMap) : Prop := ∀ id v, m.lookup id = some v → m'.lookup id = some v

/-- The message's vertex is in the map. -/
def Holds (m : VertexMap) (msg : DagMessage) : Prop :=
  ∃ v, m.lookup msg.id = some v ∧ v.payload = msg.payload ∧ v.parentSet = msg.parents ∧
    v.timestamp = msg.timestamp

/-- A map that grows holds what it held. -/
lemma Holds.grows {m m' : VertexMap} {msg : DagMessage} (h : m.Holds msg) (hgrows : m.Grows m') :
    m'.Holds msg := by
  obtain ⟨v, hv, hmsg⟩ := h
  exact ⟨v, hgrows msg.id v hv, hmsg⟩

/-- Growing is transitive. -/
lemma Grows.trans {m₁ m₂ m₃ : VertexMap} (h : m₁.Grows m₂) (h' : m₂.Grows m₃) : m₁.Grows m₃ :=
  fun id v hv => h' id v (h id v hv)

/-- A map agrees with what it grows into. -/
lemma Grows.compatible {m m' : VertexMap} (h : m.Grows m') : m.Compatible m' := by
  intro id v w hv hw
  obtain rfl := Option.some.inj ((h id v hv).symm.trans hw)
  exact Vertex.agrees_equivalence.refl v

/-- A map grows when a fresh id is inserted. -/
lemma grows_insert {m : VertexMap} {id : VertexId} (hfresh : id ∉ m) (v : Vertex) :
    m.Grows (m.insert id v) := by
  intro id' w hw
  have hne : id' ≠ id := fun h => hfresh (h ▸ HashMap.mem_of_lookup hw)
  rw [Finmap.lookup_insert_of_ne m hne, hw]

/-- The first map of a union grows. -/
lemma grows_union (m m' : VertexMap) : m.Grows (m ∪ m') := by
  intro id v hv
  rw [MapMerge.lookup_union, hv, Option.some_or]

/-- The map of a new DAG is reached. -/
lemma reached_empty : Reached ∅ := ⟨Dag.new 1 0, .new 1 0, rfl⟩

/-- A reached map is well formed. -/
lemma Reached.wellFormed {m : VertexMap} (h : m.Reached) : m.WellFormed := by
  obtain ⟨dag, hdag, rfl⟩ := h
  exact hdag.wellFormed

/-- Admitting a message leads from a reached map to a reached map. -/
lemma Reached.insertMessage {m : VertexMap} (h : m.Reached) {msg : DagMessage}
    (hcheck : Dag.checkMessage m msg = .ok ()) {parents : List VertexId}
    (horder : HashSet.Enumerates msg.parents parents) (now : ℕ) :
    Reached (m.insert msg.id (Dag.messageVertex msg parents now)) := by
  obtain ⟨dag, hdag, rfl⟩ := h
  refine ⟨_, .submit msg parents now hdag horder, ?_⟩
  rcases dag.submitMessage_cases msg parents now with ⟨hrefused, -⟩ | ⟨-, heq⟩
  · exact absurd hcheck hrefused
  · rw [heq]

end VertexMap

namespace Dag

/-- Synchronizing with a reached map leads to a reached map, in which every entry is kept. -/
lemma reached_syncState {dag : Dag} (h : dag.vertices.Reached) {other : VertexMap}
    (h' : other.Reached) {others : List (VertexId × Vertex)} (hothers : other.Enumerates others)
    {stagedOrder : VertexMap → List (VertexId × Vertex)}
    (hstaged : ∀ m : VertexMap, m.Enumerates (stagedOrder m)) :
    (dag.syncState others stagedOrder).2.vertices.Reached ∧
      dag.vertices.Grows (dag.syncState others stagedOrder).2.vertices := by
  obtain ⟨hok, herr⟩ := mergeMaps_spec h.wellFormed h'.wellFormed hothers hstaged
  by_cases hagree : dag.vertices.Compatible other
  · obtain ⟨hmerge, -⟩ := hok hagree
    obtain ⟨local', hlocal, heq⟩ := h
    obtain ⟨remote, hremote, rfl⟩ := h'
    simp only [syncState, hmerge]
    refine ⟨⟨_, .sync others stagedOrder hlocal hremote hothers hstaged, ?_⟩,
      VertexMap.grows_union _ _⟩
    simp only [syncState, heq, hmerge]
  · simp only [syncState, herr hagree]
    exact ⟨h, fun _ _ hv => hv⟩

end Dag

namespace Tasks

/-! ## Tasks -/

/-- What a task runs on which replica. -/
inductive Program (ρ : Type)
  | submitMessage (replica : ρ) (msg : DagMessage)
  | syncState (replica other : ρ)

/-- How far a task has come. -/
inductive Phase
  /-- It has not got anything yet. -/
  | start
  /-- It is a submission that has a permit. -/
  | permit
  /-- It is a submission that has a permit and the write lock of the graph. -/
  | graph
  /-- It is a synchronization that has a clone of the remote map. -/
  | snapshot (other : VertexMap)
  /-- It has returned. -/
  | done (result : Except Dag.DagError Unit)

/-- The replicas, the task that holds the write lock of each graph, and the phases of the
tasks. -/
structure System (ρ τ : Type) where
  dags : ρ → Dag
  writer : ρ → Option τ
  phase : τ → Phase

/-- What is decided outside of the program when a task is resumed: the time, and the orders in
which hashed collections are iterated. -/
structure Choices where
  now : Instant
  parents : HashSet VertexId → List VertexId
  others : VertexMap → List (VertexId × Vertex)
  staged : VertexMap → List (VertexId × Vertex)
  enumerates_parents : ∀ s : HashSet VertexId, s.Enumerates (parents s)
  enumerates_others : ∀ m : VertexMap, m.Enumerates (others m)
  enumerates_staged : ∀ m : VertexMap, m.Enumerates (staged m)

/-- All collections are iterated in increasing order, at time `0`. -/
instance : Inhabited Choices where
  default :=
    { now := 0
      parents := HashSet.sorted
      others := HashMap.sorted
      staged := HashMap.sorted
      enumerates_parents := HashSet.sorted_enumerates
      enumerates_others := HashMap.sorted_enumerates
      enumerates_staged := HashMap.sorted_enumerates }

/-- A task is resumed. -/
structure Event (τ : Type) where
  task : τ
  choices : Choices

variable {ρ τ : Type}

/-- Replicas with these DAGs; no task has begun. -/
def initial (dags : ρ → Dag) : System ρ τ := ⟨dags, fun _ => none, fun _ => .start⟩

namespace System

/-- The map of a replica. -/
def vertices (s : System ρ τ) (r : ρ) : VertexMap := (s.dags r).vertices

section Replicas

variable [DecidableEq ρ]

/-- Change a replica. -/
def setDag (s : System ρ τ) (r : ρ) (dag : Dag) : System ρ τ :=
  { s with dags := Function.update s.dags r dag }

/-- Change the holder of a write lock. -/
def setWriter (s : System ρ τ) (r : ρ) (holder : Option τ) : System ρ τ :=
  { s with writer := Function.update s.writer r holder }

variable (s : System ρ τ) (r r' : ρ) (dag : Dag) (holder : Option τ)

@[simp] lemma vertices_setDag :
    (s.setDag r dag).vertices r' = if r' = r then dag.vertices else s.vertices r' := by
  unfold vertices setDag
  simp only [Function.update_apply]
  split_ifs <;> rfl

/-- A replica changes without its map. -/
lemma vertices_setDag_of_eq {dag : Dag} (h : dag.vertices = s.vertices r) :
    (s.setDag r dag).vertices r' = s.vertices r' := by
  rw [vertices_setDag]
  split_ifs with hr
  · rw [h, hr]
  · rfl

@[simp] lemma dags_setDag :
    (s.setDag r dag).dags r' = if r' = r then dag else s.dags r' := by
  simp only [setDag, Function.update_apply]

@[simp] lemma dags_setWriter : (s.setWriter r holder).dags = s.dags := rfl

@[simp] lemma writer_setDag : (s.setDag r dag).writer = s.writer := rfl

@[simp] lemma phase_setDag : (s.setDag r dag).phase = s.phase := rfl

@[simp] lemma vertices_setWriter : (s.setWriter r holder).vertices r' = s.vertices r' := rfl

@[simp] lemma writer_setWriter :
    (s.setWriter r holder).writer r' = if r' = r then holder else s.writer r' := by
  simp only [setWriter, Function.update_apply]

@[simp] lemma phase_setWriter : (s.setWriter r holder).phase = s.phase := rfl

end Replicas

section Phases

variable [DecidableEq τ]

/-- Change the phase of a task. -/
def setPhase (s : System ρ τ) (t : τ) (phase : Phase) : System ρ τ :=
  { s with phase := Function.update s.phase t phase }

variable (s : System ρ τ) (r : ρ) (t t' : τ) (phase : Phase)

@[simp] lemma dags_setPhase : (s.setPhase t phase).dags = s.dags := rfl

@[simp] lemma vertices_setPhase : (s.setPhase t phase).vertices r = s.vertices r := rfl

@[simp] lemma writer_setPhase : (s.setPhase t phase).writer = s.writer := rfl

@[simp] lemma phase_setPhase :
    (s.setPhase t phase).phase t' = if t' = t then phase else s.phase t' := by
  simp only [setPhase, Function.update_apply]

end Phases

end System

section Resume

variable [DecidableEq ρ] [DecidableEq τ]

/-- Take a permit. -/
def takePermit (dag : Dag) : Dag := { dag with permits := dag.permits - 1 }

/-- Give a permit back. -/
def givePermit (dag : Dag) : Dag := { dag with permits := dag.permits + 1 }

/-- Resume a task: what it does up to its next await point, or nothing if what it waits for is
taken. -/
def resume (programs : τ → Program ρ) (s : System ρ τ) (e : Event τ) : Option (System ρ τ) :=
  match programs e.task, s.phase e.task with
  | .submitMessage r _, .start =>
    if 0 < (s.dags r).permits then
      some ((s.setDag r (takePermit (s.dags r))).setPhase e.task .permit)
    else none
  | .submitMessage r msg, .permit =>
    if s.writer r = none then
      match Dag.checkMessage (s.dags r).vertices msg with
      | .error error =>
        some ((s.setDag r (givePermit (s.dags r))).setPhase e.task (.done (.error error)))
      | .ok () => some ((s.setWriter r (some e.task)).setPhase e.task .graph)
    else none
  | .submitMessage r msg, .graph =>
    let outcome := (s.dags r).admitMessage msg (e.choices.parents msg.parents) e.choices.now
    some (((s.setDag r (givePermit outcome.2)).setWriter r none).setPhase e.task (.done outcome.1))
  | .syncState _ other, .start =>
    if s.writer other = none then
      some (s.setPhase e.task (.snapshot (s.dags other).vertices))
    else none
  | .syncState r _, .snapshot other =>
    if s.writer r = none then
      let outcome := (s.dags r).syncState (e.choices.others other) e.choices.staged
      some ((s.setDag r outcome.2).setPhase e.task (.done outcome.1))
    else none
  | _, _ => none

/-- The system after an event. -/
def apply (programs : τ → Program ρ) (s : System ρ τ) (e : Event τ) : System ρ τ :=
  (resume programs s e).getD s

/-- What the task waits for is free. -/
def Enabled (programs : τ → Program ρ) (s : System ρ τ) (e : Event τ) : Prop :=
  (resume programs s e).isSome

instance (programs : τ → Program ρ) (s : System ρ τ) (e : Event τ) :
    Decidable (Enabled programs s e) := inferInstanceAs (Decidable ((resume programs s e).isSome))

variable {programs : τ → Program ρ} {s s' : System ρ τ} {e : Event τ}

/-! ## Moves -/

/-- What resuming a task can do. -/
inductive Move (programs : τ → Program ρ) (s : System ρ τ) (e : Event τ) : System ρ τ → Prop
  | permit {r : ρ} {msg : DagMessage} (hprogram : programs e.task = .submitMessage r msg)
      (hphase : s.phase e.task = .start) (hpermit : 0 < (s.dags r).permits) :
      Move programs s e ((s.setDag r (takePermit (s.dags r))).setPhase e.task .permit)
  | refuse {r : ρ} {msg : DagMessage} {error : Dag.DagError}
      (hprogram : programs e.task = .submitMessage r msg) (hphase : s.phase e.task = .permit)
      (hwriter : s.writer r = none)
      (hcheck : Dag.checkMessage (s.vertices r) msg = .error error) :
      Move programs s e
        ((s.setDag r (givePermit (s.dags r))).setPhase e.task (.done (.error error)))
  | lock {r : ρ} {msg : DagMessage} (hprogram : programs e.task = .submitMessage r msg)
      (hphase : s.phase e.task = .permit) (hwriter : s.writer r = none)
      (hcheck : Dag.checkMessage (s.vertices r) msg = .ok ()) :
      Move programs s e ((s.setWriter r (some e.task)).setPhase e.task .graph)
  | insert {r : ρ} {msg : DagMessage} (hprogram : programs e.task = .submitMessage r msg)
      (hphase : s.phase e.task = .graph) :
      Move programs s e
        (((s.setDag r (givePermit ((s.dags r).admitMessage msg (e.choices.parents msg.parents)
          e.choices.now).2)).setWriter r none).setPhase e.task (.done (.ok ())))
  | read {r other : ρ} (hprogram : programs e.task = .syncState r other)
      (hphase : s.phase e.task = .start) (hwriter : s.writer other = none) :
      Move programs s e (s.setPhase e.task (.snapshot (s.vertices other)))
  | commit {r other : ρ} {m : VertexMap} (hprogram : programs e.task = .syncState r other)
      (hphase : s.phase e.task = .snapshot m) (hwriter : s.writer r = none) :
      Move programs s e
        ((s.setDag r ((s.dags r).syncState (e.choices.others m) e.choices.staged).2).setPhase e.task
          (.done ((s.dags r).syncState (e.choices.others m) e.choices.staged).1))

/-- **Inversion**: an enabled event makes a move. -/
lemma move_of_enabled (h : Enabled programs s e) : Move programs s e (apply programs s e) := by
  unfold Enabled at h
  unfold apply
  cases hprogram : programs e.task with
  | submitMessage r msg =>
    cases hphase : s.phase e.task with
    | start =>
      simp only [resume, hprogram, hphase] at h ⊢
      split_ifs at h ⊢ with hpermit
      · exact .permit hprogram hphase hpermit
      · simp at h
    | permit =>
      simp only [resume, hprogram, hphase] at h ⊢
      split_ifs at h ⊢ with hwriter
      · cases hcheck : Dag.checkMessage (s.dags r).vertices msg with
        | error error => exact .refuse hprogram hphase hwriter hcheck
        | ok _ => exact .lock hprogram hphase hwriter hcheck
      · simp at h
    | graph =>
      simp only [resume, hprogram, hphase]
      exact .insert hprogram hphase
    | snapshot m => simp [resume, hprogram, hphase] at h
    | done result => simp [resume, hprogram, hphase] at h
  | syncState r other =>
    cases hphase : s.phase e.task with
    | start =>
      simp only [resume, hprogram, hphase] at h ⊢
      split_ifs at h ⊢ with hwriter
      · exact .read hprogram hphase hwriter
      · simp at h
    | snapshot m =>
      simp only [resume, hprogram, hphase] at h ⊢
      split_ifs at h ⊢ with hwriter
      · exact .commit hprogram hphase hwriter
      · simp at h
    | permit => simp [resume, hprogram, hphase] at h
    | graph => simp [resume, hprogram, hphase] at h
    | done result => simp [resume, hprogram, hphase] at h

end Resume

/-! ## The invariant -/

variable {programs : τ → Program ρ} {s s' : System ρ τ} {e : Event τ}

/-- What every schedule keeps: every map, also one that a synchronization carries, is reached by
calls made one after another; a submission that waits for the engine holds the write lock of its
graph and has passed the checks; and a message whose submission has succeeded is in the graph. -/
structure Inv (programs : τ → Program ρ) (s : System ρ τ) : Prop where
  reached : ∀ r, (s.vertices r).Reached
  snapshot : ∀ t m, s.phase t = .snapshot m → m.Reached
  holder : ∀ t r msg, programs t = .submitMessage r msg → s.phase t = .graph →
    s.writer r = some t ∧ Dag.checkMessage (s.vertices r) msg = .ok ()
  admitted : ∀ t r msg, programs t = .submitMessage r msg → s.phase t = .done (.ok ()) →
    (s.vertices r).Holds msg

/-- What a move of the task `t` does to the other tasks: nothing to their phases, their locks and
the maps they have locked; and no map loses an entry. -/
structure Frame (s s' : System ρ τ) (t : τ) : Prop where
  phase : ∀ t', t' ≠ t → s'.phase t' = s.phase t'
  grows : ∀ r, (s.vertices r).Grows (s'.vertices r)
  locked : ∀ r t', t' ≠ t → s.writer r = some t' →
    s'.writer r = some t' ∧ s'.vertices r = s.vertices r

/-- A move that changes no map and no lock that another task holds has a frame. -/
lemma Inv.frame_of_same (h : Inv programs s) {t : τ}
    (hphase : ∀ t', t' ≠ t → s'.phase t' = s.phase t')
    (hvertices : ∀ r, s'.vertices r = s.vertices r)
    (hwriter : ∀ r t', t' ≠ t → s.writer r = some t' → s'.writer r = some t') :
    Frame s s' t ∧ ∀ r, (s'.vertices r).Reached := by
  refine ⟨⟨hphase, fun r => ?_, fun r t' ht' hw => ⟨hwriter r t' ht' hw, hvertices r⟩⟩,
    fun r => ?_⟩
  · rw [hvertices]
    exact fun _ _ hv => hv
  · rw [hvertices]
    exact h.reached r

/-- A move that lets the map of one replica, which no other task has locked, grow to a reached
one has a frame. -/
lemma Inv.frame_of_change (h : Inv programs s) {t : τ} (r : ρ)
    (hphase : ∀ t', t' ≠ t → s'.phase t' = s.phase t')
    (hfree : ∀ t', s.writer r = some t' → t' = t)
    (hgrows : (s.vertices r).Grows (s'.vertices r)) (hreached : (s'.vertices r).Reached)
    (hvertices : ∀ r', r' ≠ r → s'.vertices r' = s.vertices r')
    (hwriter : ∀ r', r' ≠ r → s'.writer r' = s.writer r') :
    Frame s s' t ∧ ∀ r, (s'.vertices r).Reached := by
  refine ⟨⟨hphase, fun r' => ?_, fun r' t' ht' hw => ?_⟩, fun r' => ?_⟩
  · by_cases hr : r' = r
    · exact hr ▸ hgrows
    · rw [hvertices r' hr]
      exact fun _ _ hv => hv
  · have hr : r' ≠ r := fun hr => ht' (hfree t' (hr ▸ hw))
    exact ⟨(hwriter r' hr).trans hw, hvertices r' hr⟩
  · by_cases hr : r' = r
    · exact hr ▸ hreached
    · rw [hvertices r' hr]
      exact h.reached r'

/-- The invariant holds before any task has begun. -/
lemma inv_initial {dags : ρ → Dag} (hdags : ∀ r, (dags r).vertices.Reached) :
    Inv programs (initial dags) where
  reached := hdags
  snapshot t m h := by simp [initial] at h
  holder t r msg _ h := by simp [initial] at h
  admitted t r msg _ h := by simp [initial] at h

variable [DecidableEq ρ] [DecidableEq τ]

/-- **Frame**: a move has a frame, and leads to maps that are reached.

**Proof sketch.** Only a submission that holds the lock and a synchronization that finds the
graph unlocked change a map: one inserts a fresh id, the other commits a union that contains
the present map, not the one it had when it read the remote map. -/
lemma Inv.frame (h : Inv programs s) (hmove : Move programs s e s') :
    Frame s s' e.task ∧ ∀ r, (s'.vertices r).Reached := by
  cases hmove with
  | @permit r msg hprogram hphase hpermit =>
    exact h.frame_of_same (fun t' ht' => by simp [ht'])
      (fun r' => s.vertices_setDag_of_eq r r' rfl) fun _ _ _ hw => hw
  | @refuse r msg error hprogram hphase hwriter hcheck =>
    exact h.frame_of_same (fun t' ht' => by simp [ht'])
      (fun r' => s.vertices_setDag_of_eq r r' rfl) fun _ _ _ hw => hw
  | @lock r msg hprogram hphase hwriter hcheck =>
    refine h.frame_of_same (fun t' ht' => by simp [ht']) (fun _ => rfl) fun r' t' _ hw => ?_
    have hr : r' ≠ r := by
      rintro rfl
      simp [hwriter] at hw
    simp [hr, hw]
  | @insert r msg hprogram hphase =>
    obtain ⟨hwriter, hcheck⟩ := h.holder e.task r msg hprogram hphase
    have hfresh := (Dag.checkMessage_eq_ok.mp hcheck).1
    have horder := e.choices.enumerates_parents msg.parents
    refine h.frame_of_change r (fun t' ht' => by simp [ht']) (fun t' hw => ?_) ?_ ?_
      (fun r' hr => by simp [hr]) fun r' hr => by simp [hr]
    · exact Option.some.inj (hw.symm.trans hwriter)
    · simp only [System.vertices_setPhase, System.vertices_setWriter, System.vertices_setDag,
        if_true]
      exact VertexMap.grows_insert hfresh _
    · simp only [System.vertices_setPhase, System.vertices_setWriter, System.vertices_setDag,
        if_true]
      exact (h.reached r).insertMessage hcheck horder _
  | @read r other hprogram hphase hwriter =>
    exact h.frame_of_same (fun t' ht' => by simp [ht']) (fun _ => rfl) fun _ _ _ hw => hw
  | @commit r other m hprogram hphase hwriter =>
    have hpresent : (s.dags r).vertices.Reached := h.reached r
    obtain ⟨hreached, hgrows⟩ := Dag.reached_syncState hpresent (h.snapshot e.task m hphase)
      (e.choices.enumerates_others m) e.choices.enumerates_staged
    refine h.frame_of_change r (fun t' ht' => by simp [ht']) (fun t' hw => ?_) ?_ ?_
      (fun r' hr => by simp [hr]) fun r' _ => by simp
    · simp [hwriter] at hw
    · simp only [System.vertices_setPhase, System.vertices_setDag, if_true]
      exact hgrows
    · simp only [System.vertices_setPhase, System.vertices_setDag, if_true]
      exact hreached

/-- **Step**: a move keeps the invariant.

**Proof sketch.** Other tasks keep their part by the frame: what they wait for stays, and what
they have admitted stays. For the task itself, the cases are its moves. -/
lemma Inv.step (h : Inv programs s) (hmove : Move programs s e s') : Inv programs s' := by
  obtain ⟨hframe, hreached⟩ := h.frame hmove
  refine ⟨hreached, fun t m hm => ?_, fun t r msg hprogram hgraph => ?_,
    fun t r msg hprogram hdone => ?_⟩
  · by_cases ht : t = e.task
    · subst ht
      cases hmove with
      | @read r other hprogram hphase hwriter =>
        have hm : s.vertices other = m := by simpa using hm
        exact hm ▸ h.reached other
      | permit | refuse | lock | insert | commit => simp at hm
    · exact h.snapshot t m (hframe.phase t ht ▸ hm)
  · by_cases ht : t = e.task
    · subst ht
      cases hmove with
      | @lock r' msg' hprogram' hphase hwriter hcheck =>
        obtain ⟨rfl, rfl⟩ := Program.submitMessage.inj (hprogram'.symm.trans hprogram)
        simpa using hcheck
      | permit | refuse | insert | read | commit => simp at hgraph
    · obtain ⟨hwriter, hcheck⟩ := h.holder t r msg hprogram (hframe.phase t ht ▸ hgraph)
      obtain ⟨hwriter', hvertices⟩ := hframe.locked r t ht hwriter
      exact ⟨hwriter', hvertices ▸ hcheck⟩
  · by_cases ht : t = e.task
    · subst ht
      cases hmove with
      | @insert r' msg' hprogram' hphase =>
        obtain ⟨rfl, rfl⟩ := Program.submitMessage.inj (hprogram'.symm.trans hprogram)
        have horder := e.choices.enumerates_parents msg'.parents
        refine ⟨Dag.messageVertex msg' (e.choices.parents msg'.parents) e.choices.now, ?_, rfl,
          horder.toFinset_eq, rfl⟩
        simp only [System.vertices_setPhase, System.vertices_setWriter, System.vertices_setDag,
          if_true]
        exact Finmap.lookup_insert _
      | @commit r' other m hprogram' hphase hwriter =>
        rw [hprogram] at hprogram'
        simp at hprogram'
      | permit | refuse | lock | read => simp at hdone
    · exact (h.admitted t r msg hprogram (hframe.phase t ht ▸ hdone)).grows (hframe.grows r)

/-! ## Schedules -/

/-- A schedule keeps the invariant. -/
lemma run_inv {events : List (Event τ)} (h : Inv programs s)
    (hsteps : Runs.Steps (apply programs) (Enabled programs) s events) :
    Inv programs (Runs.run (apply programs) s events) :=
  Runs.run_rule (Inv programs) (fun _ _ h henabled => h.step (move_of_enabled henabled)) hsteps h

/-- No schedule loses or changes an entry. -/
lemma run_grows {events : List (Event τ)} (h : Inv programs s)
    (hsteps : Runs.Steps (apply programs) (Enabled programs) s events) (r : ρ) :
    (s.vertices r).Grows ((Runs.run (apply programs) s events).vertices r) := by
  induction events generalizing s with
  | nil => exact fun _ _ hv => hv
  | cons e events ih =>
    have hmove := move_of_enabled hsteps.1
    exact ((h.frame hmove).1.grows r).trans (ih (h.step hmove) hsteps.2)

/-- A submission that is not interrupted does what the call does. -/
lemma submit_alone {t : τ} {r : ρ} {msg : DagMessage}
    (hprogram : programs t = .submitMessage r msg) (hphase : s.phase t = .start)
    (hpermit : 0 < (s.dags r).permits) (hwriter : s.writer r = none)
    (hcheck : Dag.checkMessage (s.vertices r) msg = .ok ()) (c : Choices) :
    let s' := Runs.run (apply programs) s [⟨t, c⟩, ⟨t, c⟩, ⟨t, c⟩]
    let outcome := (s.dags r).submitMessage msg (c.parents msg.parents) c.now
    s'.dags r = outcome.2 ∧ s'.phase t = .done outcome.1 := by
  have hcheck : Dag.checkMessage (s.dags r).vertices msg = .ok () := hcheck
  have hgiven : (s.dags r).permits - 1 + 1 = (s.dags r).permits := by omega
  simp [apply, resume, hprogram, hphase, hpermit, hwriter, hcheck, takePermit, givePermit,
    Dag.submitMessage, Dag.admitMessage_eq, hgiven]

/-- A synchronization that is not interrupted does what the call does. -/
lemma sync_alone {t : τ} {r other : ρ} (hprogram : programs t = .syncState r other)
    (hphase : s.phase t = .start) (hwriter : s.writer r = none) (hother : s.writer other = none)
    (c : Choices) :
    let s' := Runs.run (apply programs) s [⟨t, c⟩, ⟨t, c⟩]
    let outcome := (s.dags r).syncState (c.others (s.vertices other)) c.staged
    s'.dags r = outcome.2 ∧ s'.phase t = .done outcome.1 := by
  simp [apply, resume, hprogram, hphase, hother, hwriter, System.vertices]

/-- **Interleavings**: let tasks on new replicas be resumed in any order, and consider the state
after some events and a later one. The maps are well formed: every parent is present and no
vertex is its own ancestor. Every entry is still there, unchanged. Every message whose
submission has returned `Ok` is in its replica's map, in all later states. -/
theorem interleavings (programs : τ → Program ρ) (maxConcurrent : ρ → ℕ) (now : ρ → Instant)
    (before after : List (Event τ))
    (hsteps : Runs.Steps (apply programs) (Enabled programs)
      (initial fun r => Dag.new (maxConcurrent r) (now r)) (before ++ after)) :
    let s := Runs.run (apply programs) (initial fun r => Dag.new (maxConcurrent r) (now r)) before
    let s' := Runs.run (apply programs) s after
    (∀ r, (s.vertices r).WellFormed) ∧
      (∀ r, (s.vertices r).Grows (s'.vertices r)) ∧
      ∀ t r msg, programs t = .submitMessage r msg → s.phase t = .done (.ok ()) →
        (s'.vertices r).Holds msg := by
  intro s s'
  obtain ⟨hbefore, hafter⟩ := hsteps.of_append
  have hinv : Inv programs s := run_inv (inv_initial fun r => VertexMap.reached_empty) hbefore
  have hgrows := run_grows hinv hafter
  refine ⟨fun r => (hinv.reached r).wellFormed, hgrows, fun t r msg hprogram hdone => ?_⟩
  exact (hinv.admitted t r msg hprogram hdone).grows (hgrows r)

/-- Replica `true` reads the new replica `false`, then admits a message, and then commits. -/
def lateCommit : Bool → Program Bool
  | false => .syncState true false
  | true => .submitMessage true Dag.rootMessage

/-- The schedule in which the message is admitted between the read and the commit. -/
def lateSchedule : List (Event Bool) :=
  [⟨false, default⟩, ⟨true, default⟩, ⟨true, default⟩, ⟨true, default⟩]

/-- The admitted message survives a synchronization that has read the other map before. -/
theorem interleavings_lateCommit :
    let s := Runs.run (apply lateCommit) (initial fun _ => Dag.new 1 0) lateSchedule
    let s' := Runs.run (apply lateCommit) s [⟨false, default⟩]
    (∀ r, (s.vertices r).WellFormed) ∧
      (∀ r, (s.vertices r).Grows (s'.vertices r)) ∧
      ∀ t r msg, lateCommit t = .submitMessage r msg → s.phase t = .done (.ok ()) →
        (s'.vertices r).Holds msg :=
  interleavings lateCommit (fun _ => 1) (fun _ => 0) lateSchedule [⟨false, default⟩]
    ⟨by decide, by decide, by decide, by decide, by decide, trivial⟩

end Tasks

end QuDAG
