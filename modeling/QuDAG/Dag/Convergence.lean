import QuDAG.Dag.Tasks

/-!
# Convergence of synchronizations

Replicas whose maps agree where they overlap exchange them by `sync_state`, in any interleaving.
The abstract model of this forgets the maps: a replica *knows* the initial contents of some
replicas, and a synchronization adds what the other replica knew when it was read. The faithful
model simulates it, since every map is a patchwork of the initial maps that are known.

## Main definitions

* `Vertex.EqUpToOrder` — equality of vertices up to the order of their parents.
* `Tasks.Flow`, `Tasks.flow` — what is known to whom after a schedule.
* `Tasks.Tracks` — the simulation relation.
* `VertexMap.IsUnion` — a map is the union of others up to the order of parents.

## Main results

* `Tasks.run_tracks` — a schedule of synchronizations keeps the simulation.
* `VertexMap.merge_laws` — a synchronization is the join of maps that agree.
* `Tasks.syncs_converge` — synchronizations succeed, and all replicas hold the union of the initial
  maps as soon as everything is known to everyone.
-/

namespace QuDAG

open RustStd

/-! ## Vertices up to the order of their parents -/

/-- The vertices are equal up to the order of their parents. -/
structure Vertex.EqUpToOrder (v w : Vertex) : Prop where
  id : v.id = w.id
  parents : v.parents.Perm w.parents
  payload : v.payload = w.payload
  timestamp : v.timestamp = w.timestamp
  signature : v.signature = w.signature

/-- Equality up to the order of parents is an equivalence. -/
lemma Vertex.eqUpToOrder_equivalence : Equivalence Vertex.EqUpToOrder where
  refl _ := ⟨rfl, .refl _, rfl, rfl, rfl⟩
  symm h := ⟨h.id.symm, h.parents.symm, h.payload.symm, h.timestamp.symm, h.signature.symm⟩
  trans h h' := ⟨h.id.trans h'.id, h.parents.trans h'.parents, h.payload.trans h'.payload,
    h.timestamp.trans h'.timestamp, h.signature.trans h'.signature⟩

/-- No vertex of a reachable DAG lists a parent twice. -/
lemma Dag.Reachable.parents_nodup {dag : Dag} (h : dag.Reachable) {id : VertexId} {v : Vertex}
    (hv : dag.vertices.lookup id = some v) : v.parents.Nodup := by
  induction h generalizing v with
  | new maxConcurrent now => simp [Dag.new] at hv
  | @submit dag msg parents now _ horder ih =>
    rcases dag.submitMessage_cases msg parents now with ⟨-, heq⟩ | ⟨-, heq⟩
    · exact ih (heq ▸ hv)
    · simp only [heq, HashMap.lookup_insert_ite] at hv
      split_ifs at hv
      · exact Option.some.inj hv ▸ horder.1
      · exact ih hv
  | @sync dag other others stagedOrder hdag hother hothers hstaged ih ih' =>
    obtain ⟨hok, herr⟩ := mergeMaps_spec hdag.wellFormed hother.wellFormed hothers hstaged
    by_cases hagree : dag.vertices.Compatible other.vertices
    · simp only [syncState, (hok hagree).1, MapMerge.lookup_union] at hv
      rcases Option.or_eq_some_iff.mp hv with hv | ⟨-, hv⟩
      · exact ih hv
      · exact ih' hv
    · simp only [syncState, herr hagree] at hv
      exact ih hv

/-- Vertices of reached maps that agree under the same id are equal up to the order of their
parents. -/
lemma VertexMap.Reached.eqUpToOrder {m m' : VertexMap} (h : m.Reached) (h' : m'.Reached)
    (hagree : m.Compatible m') : MapMerge.Compatible Vertex.EqUpToOrder m m' := by
  intro id v w hv hw
  have hagrees := hagree id v w hv hw
  have hid : v.id = w.id :=
    (h.wellFormed.id_eq id v hv).trans (h'.wellFormed.id_eq id w hw).symm
  obtain ⟨dag, hdag, rfl⟩ := h
  obtain ⟨dag', hdag', rfl⟩ := h'
  have hperm : v.parents.Perm w.parents := by
    refine (List.perm_ext_iff_of_nodup (hdag.parents_nodup hv) (hdag'.parents_nodup hw)).mpr ?_
    intro p
    rw [← Vertex.mem_parentSet, ← Vertex.mem_parentSet, hagrees.parents]
  exact ⟨hid, hperm, hagrees.payload, hagrees.timestamp, hagrees.signature⟩

/-- Vertices that are equal up to the order of their parents agree. -/
lemma Vertex.EqUpToOrder.agrees {v w : Vertex} (h : v.EqUpToOrder w) : v.Agrees w :=
  ⟨h.payload, List.toFinset_eq_of_perm _ _ h.parents, h.timestamp, h.signature⟩

/-! ## Unions -/

namespace VertexMap

variable {ρ : Type}

/-- The map is the union of the others: up to the order of parents it has all their entries, and
every entry is one of theirs. -/
structure IsUnion (maps : ρ → VertexMap) (m : VertexMap) : Prop where
  contains : ∀ r, MapMerge.Le Vertex.EqUpToOrder (maps r) m
  entry : ∀ id v, m.lookup id = some v → ∃ r, (maps r).lookup id = some v

/-- Merging any two of the maps succeeds with their union. This is commutative up to the order of
parents, associative and idempotent, and it is the join: the least map above both. -/
structure MergesAsJoin (maps : ρ → VertexMap) : Prop where
  merges : ∀ r r' others stagedOrder, (maps r').Enumerates others →
    (∀ m : VertexMap, m.Enumerates (stagedOrder m)) →
    Dag.mergeMaps (maps r) others stagedOrder = .ok (maps r ∪ maps r')
  comm : ∀ r r', MapMerge.Same Vertex.EqUpToOrder (maps r ∪ maps r') (maps r' ∪ maps r)
  assoc : ∀ r r' r'', maps r ∪ maps r' ∪ maps r'' = maps r ∪ (maps r' ∪ maps r'')
  idem : ∀ r, maps r ∪ maps r = maps r
  le_left : ∀ r r', MapMerge.Le Vertex.EqUpToOrder (maps r) (maps r ∪ maps r')
  le_right : ∀ r r', MapMerge.Le Vertex.EqUpToOrder (maps r') (maps r ∪ maps r')
  least : ∀ r r' m, MapMerge.Le Vertex.EqUpToOrder (maps r) m →
    MapMerge.Le Vertex.EqUpToOrder (maps r') m →
    MapMerge.Le Vertex.EqUpToOrder (maps r ∪ maps r') m

/-- A patchwork of all maps is their union. -/
lemma isUnion_of_patchwork {maps : ρ → VertexMap} {S : Set ρ} {m : VertexMap}
    (hequal : ∀ r r', MapMerge.Compatible Vertex.EqUpToOrder (maps r) (maps r'))
    (hall : ∀ r, r ∈ S) (h : MapMerge.Patchwork maps S m) : IsUnion maps m where
  contains r := h.le hequal (hall r)
  entry id v hv := by
    obtain ⟨r, -, hr⟩ := h.entry id v hv
    exact ⟨r, hr⟩

/-- **Merging is a join** on well-formed maps that are equal where they overlap, up to the order of
parents. -/
lemma mergesAsJoin {maps : ρ → VertexMap} (hwell : ∀ r, (maps r).WellFormed)
    (hequal : ∀ r r', MapMerge.Compatible Vertex.EqUpToOrder (maps r) (maps r')) :
    MergesAsJoin maps where
  merges r r' others stagedOrder hothers hstaged := by
    have hagree : (maps r).Compatible (maps r') :=
      fun id v w hv hw => (hequal r r' id v w hv hw).agrees
    exact ((Dag.mergeMaps_spec (hwell r) (hwell r') hothers hstaged).1 hagree).1
  comm r r' := MapMerge.union_comm Vertex.eqUpToOrder_equivalence (hequal r r')
  assoc r r' r'' := Finmap.union_assoc
  idem r := MapMerge.union_self (maps r)
  le_left r r' := MapMerge.le_union_left Vertex.eqUpToOrder_equivalence (maps r) (maps r')
  le_right r r' := MapMerge.le_union_right Vertex.eqUpToOrder_equivalence (hequal r r')
  least _ _ _ h h' := MapMerge.union_le h h'

end VertexMap

/-! ## What is known to whom -/

namespace Tasks

variable {ρ τ : Type}

/-- The replicas whose initial contents a replica knows, and a task carries. -/
structure Flow (ρ τ : Type) where
  known : ρ → Set ρ
  carried : τ → Option (Set ρ)

/-- Every replica knows its own contents. -/
def Flow.initial : Flow ρ τ := ⟨fun r => {r}, fun _ => none⟩

/-- A task that synchronizes `(ends t).1` with `(ends t).2` is resumed: it carries what the other
replica knows, or adds what it carries. -/
def Flow.resume [DecidableEq ρ] [DecidableEq τ] (ends : τ → ρ × ρ) (f : Flow ρ τ) (t : τ) :
    Flow ρ τ :=
  match f.carried t with
  | none => { f with carried := Function.update f.carried t (some (f.known (ends t).2)) }
  | some S =>
    { f with known := Function.update f.known (ends t).1 (f.known (ends t).1 ∪ S) }

section Flow

variable [DecidableEq ρ] [DecidableEq τ] {ends : τ → ρ × ρ} {f : Flow ρ τ} {t : τ}

/-- A task that carries nothing reads. -/
lemma Flow.resume_of_none (h : f.carried t = none) : f.resume ends t =
    { f with carried := Function.update f.carried t (some (f.known (ends t).2)) } := by
  simp only [Flow.resume, h]

/-- A task that carries something adds it. -/
lemma Flow.resume_of_some {S : Set ρ} (h : f.carried t = some S) : f.resume ends t =
    { f with known := Function.update f.known (ends t).1 (f.known (ends t).1 ∪ S) } := by
  simp only [Flow.resume, h]

end Flow

/-- What is known after a schedule. -/
def flow [DecidableEq ρ] [DecidableEq τ] (ends : τ → ρ × ρ) (schedule : List τ) : Flow ρ τ :=
  Runs.run (Flow.resume ends) .initial schedule

/-- All tasks are synchronizations. -/
def syncs (ends : τ → ρ × ρ) (t : τ) : Program ρ := .syncState (ends t).1 (ends t).2

/-- The simulation: no graph is locked, every map is a patchwork of the known initial maps, a
synchronization that has read carries such a patchwork, and one that has returned has
succeeded. -/
structure Tracks (maps : ρ → VertexMap) (s : System ρ τ) (f : Flow ρ τ) : Prop where
  unlocked : ∀ r, s.writer r = none
  map : ∀ r, MapMerge.Patchwork maps (f.known r) (s.vertices r)
  task : ∀ t, (s.phase t = .start ∧ f.carried t = none) ∨
    (∃ m S, s.phase t = .snapshot m ∧ f.carried t = some S ∧ MapMerge.Patchwork maps S m) ∨
    s.phase t = .done (.ok ())

/-- The simulation holds at first. -/
lemma tracks_initial (dags : ρ → Dag) :
    Tracks (fun r => (dags r).vertices) (initial dags : System ρ τ) .initial where
  unlocked _ := rfl
  map r := .single _ r
  task _ := .inl ⟨rfl, rfl⟩

section Simulation

variable [DecidableEq ρ] [DecidableEq τ] {maps : ρ → VertexMap} {ends : τ → ρ × ρ}
  {s s' : System ρ τ} {f : Flow ρ τ} {e : Event τ}
  (hwell : ∀ r, (maps r).WellFormed) (hagree : ∀ r r', (maps r).Compatible (maps r'))

include hwell hagree

/-- **Step**: a synchronization that is resumed is tracked by the flow of what is known.

**Proof sketch.** A read carries the patchwork that the other replica is. A commit merges two
patchworks of the initial maps; these are well formed and agree, so the merge is their union,
the patchwork of what both know. -/
lemma Tracks.step (h : Tracks maps s f) (hmove : Move (syncs ends) s e s') :
    Tracks maps s' (f.resume ends e.task) := by
  cases hmove with
  | permit hprogram | refuse hprogram | lock hprogram | insert hprogram =>
    exact absurd hprogram (by simp [syncs])
  | @read r other hprogram hphase hwriter =>
    obtain ⟨rfl, rfl⟩ := Program.syncState.inj hprogram
    have hcarried : f.carried e.task = none := by
      rcases h.task e.task with ⟨-, hnone⟩ | ⟨m, S, hsnapshot, -⟩ | hdone
      · exact hnone
      · simp [hphase] at hsnapshot
      · simp [hphase] at hdone
    rw [Flow.resume_of_none hcarried]
    refine ⟨h.unlocked, h.map, fun t => ?_⟩
    by_cases ht : t = e.task
    · subst ht
      exact .inr (.inl ⟨_, _, by simp, by simp, h.map (ends e.task).2⟩)
    · simpa [ht] using h.task t
  | @commit r other m hprogram hphase hwriter =>
    obtain ⟨rfl, rfl⟩ := Program.syncState.inj hprogram
    obtain ⟨S, hcarried, hm⟩ : ∃ S, f.carried e.task = some S ∧ MapMerge.Patchwork maps S m := by
      rcases h.task e.task with ⟨hstart, -⟩ | ⟨m', S, hsnapshot, hcarried, hm⟩ | hdone
      · simp [hphase] at hstart
      · obtain rfl := Phase.snapshot.inj (hphase.symm.trans hsnapshot)
        exact ⟨S, hcarried, hm⟩
      · simp [hphase] at hdone
    have hlocal := h.map (ends e.task).1
    obtain ⟨hmerge, -⟩ := (Dag.mergeMaps_spec (.patchwork hwell hagree hlocal)
      (.patchwork hwell hagree hm) (e.choices.enumerates_others m)
      e.choices.enumerates_staged).1 (hlocal.compatible hagree hm)
    rw [Flow.resume_of_some hcarried, Dag.syncState_of_merge hmerge]
    refine ⟨h.unlocked, fun r => ?_, fun t => ?_⟩
    · by_cases hr : r = (ends e.task).1
      · subst hr
        simpa using hlocal.union hm
      · simpa [hr] using h.map r
    · by_cases ht : t = e.task
      · subst ht
        exact .inr (.inr (by simp))
      · simpa [ht] using h.task t

/-- **Run**: a schedule of synchronizations is tracked by what is known after it. -/
lemma run_tracks {events : List (Event τ)} (h : Tracks maps s f)
    (hsteps : Runs.Steps (apply (syncs ends)) (Enabled (syncs ends)) s events) :
    Tracks maps (Runs.run (apply (syncs ends)) s events)
      (Runs.run (Flow.resume ends) f (events.map Event.task)) := by
  induction events generalizing s f with
  | nil => exact h
  | cons e events ih =>
    rw [List.map_cons, Runs.run_cons, Runs.run_cons]
    exact ih (h.step hwell hagree (move_of_enabled hsteps.1)) hsteps.2

omit hwell hagree in
/-- A synchronization that has not returned can go on. -/
lemma Tracks.enabled (h : Tracks maps s f) (e : Event τ)
    (hrunning : ∀ result, s.phase e.task ≠ .done result) : Enabled (syncs ends) s e := by
  rcases h.task e.task with ⟨hstart, -⟩ | ⟨m, S, hsnapshot, -⟩ | hdone
  · simp [Enabled, resume, syncs, hstart, h.unlocked]
  · simp [Enabled, resume, syncs, hsnapshot, h.unlocked]
  · exact absurd hdone (hrunning _)

end Simulation

/-- **Synchronizations converge**: let replicas with reached maps that agree where they overlap
be synchronized, in any interleaving. Every synchronization can go on until it returns, and
returns `Ok`; merging is a join on the maps at any time; and once every replica's initial
contents are known to every replica, each holds the union of all initial maps, and all hold the
same up to the order of parents. -/
theorem syncs_converge [DecidableEq ρ] [DecidableEq τ] (ends : τ → ρ × ρ) (dags : ρ → Dag)
    (hreached : ∀ r, (dags r).vertices.Reached)
    (hagree : ∀ r r', (dags r).vertices.Compatible (dags r').vertices) (events : List (Event τ))
    (hsteps : Runs.Steps (apply (syncs ends)) (Enabled (syncs ends)) (initial dags) events) :
    let s := Runs.run (apply (syncs ends)) (initial dags) events
    (∀ t result, s.phase t = .done result → result = .ok ()) ∧
      (∀ e, (∀ result, s.phase e.task ≠ .done result) → Enabled (syncs ends) s e) ∧
      VertexMap.MergesAsJoin s.vertices ∧
      ((∀ r r₀, r₀ ∈ (flow ends (events.map Event.task)).known r) →
        (∀ r, VertexMap.IsUnion (fun r₀ => (dags r₀).vertices) (s.vertices r)) ∧
          ∀ r r', MapMerge.Same Vertex.EqUpToOrder (s.vertices r) (s.vertices r')) := by
  intro s
  have hwell := fun r => (hreached r).wellFormed
  have hequal := fun r r' => (hreached r).eqUpToOrder (hreached r') (hagree r r')
  have htracks : Tracks (fun r => (dags r).vertices) s (flow ends (events.map Event.task)) :=
    run_tracks hwell hagree (tracks_initial dags) hsteps
  refine ⟨fun t result hdone => ?_, fun e => htracks.enabled e, ?_, fun hknown => ?_⟩
  · rcases htracks.task t with ⟨hstart, -⟩ | ⟨m, S, hsnapshot, -⟩ | hok
    · simp [hstart] at hdone
    · simp [hsnapshot] at hdone
    · exact (Phase.done.inj (hok.symm.trans hdone)).symm
  · refine VertexMap.mergesAsJoin (fun r => ?_) fun r r' => ?_
    · exact .patchwork hwell hagree (htracks.map r)
    · exact (htracks.map r).compatible hequal (htracks.map r')
  · have hall : ∀ r, MapMerge.Patchwork (fun r₀ => (dags r₀).vertices) Set.univ (s.vertices r) := by
      intro r
      have hr := htracks.map r
      rwa [Set.eq_univ_of_forall (hknown r)] at hr
    refine ⟨fun r => VertexMap.isUnion_of_patchwork hequal Set.mem_univ (hall r), fun r r' => ?_⟩
    exact (hall r).same hequal (hall r')

/-- Replica `false` holds a message and its child, replica `true` only the message. -/
def twoDags : Bool → Dag
  | false => Dag.childDag
  | true => Dag.rootDag

/-- Each of the two replicas is synchronized with the other one. -/
def bothWays (t : Bool) : Bool × Bool := (t, !t)

/-- Both synchronizations read before either commits. -/
def crossing : List (Event Bool) :=
  [⟨false, default⟩, ⟨true, default⟩, ⟨false, default⟩, ⟨true, default⟩]

/-- Two replicas that are synchronized in opposite directions at the same time converge. -/
theorem syncs_converge_crossing :
    let s := Runs.run (apply (syncs bothWays)) (initial twoDags) crossing
    (∀ r, VertexMap.IsUnion (fun r₀ => (twoDags r₀).vertices) (s.vertices r)) ∧
      ∀ r r', MapMerge.Same Vertex.EqUpToOrder (s.vertices r) (s.vertices r') := by
  have hreached : ∀ r, (twoDags r).vertices.Reached := by
    intro r
    cases r
    · exact ⟨_, Dag.reachable_childDag, rfl⟩
    · exact ⟨_, Dag.reachable_rootDag, rfl⟩
  have hgrows : Dag.rootDag.vertices.Grows Dag.childDag.vertices :=
    VertexMap.grows_insert (by decide) _
  have hagree : ∀ r r', (twoDags r).vertices.Compatible (twoDags r').vertices := by
    intro r r'
    cases r <;> cases r'
    · exact VertexMap.Grows.compatible fun _ _ hv => hv
    · exact hgrows.compatible.symm Vertex.agrees_equivalence
    · exact hgrows.compatible
    · exact VertexMap.Grows.compatible fun _ _ hv => hv
  have hknown : ∀ r r₀, r₀ ∈ (flow bothWays (crossing.map Event.task)).known r := by
    intro r r₀
    cases r <;> cases r₀ <;>
      simp [flow, crossing, bothWays, Flow.resume, Flow.initial]
  exact (syncs_converge bothWays twoDags hreached hagree crossing
    ⟨by decide, by decide, by decide, by decide, trivial⟩).2.2.2 hknown

end Tasks

end QuDAG
