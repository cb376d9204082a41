import QuDAG.Dag.StorageInvariant

/-!
# The cache of the storage graph

The pruning removes vertices from the main store and leaves them in the cache. A vertex that is
still cached goes on being answered, accepted as a parent and refused as a new node. The cache
changes no answer in exactly those runs in which no vertex that a pruning removes is in the cache
when the call returns, and in which a removal that never returns is not reached.

## Main definitions

* `VertexStorage.pruned`, `VertexStorage.Removes` — what a pruning leaves and removes.
* `Graph.CleanPruning` — the condition on a call.
* `Graph.Transparent`, `Graph.Answered` — the answers are those of the main store.

## Main results

* `Graph.clean_spec` — a call that meets the condition keeps the cache in agreement.
* `Graph.clean_of_transparent` — a call with transparent answers after it meets the condition.
* `Graph.transparent_iff` — the exact runs in which the cache changes no answer.
-/

namespace QuDAG

open RustStd

/-! ## Prunings -/

namespace VertexStorage

variable {d : HeldRemoval} {s t : VertexStorage}

/-- A pruning loop removes final vertices only. -/
lemma lookup_pruneLoop {queue : List SerializableHash} : ∀ {toRemove : ℕ}
    {vertices : HashMap SerializableHash Node}
    {r : List SerializableHash × HashMap SerializableHash Node},
    pruneLoop d queue toRemove vertices = some r → ∀ hash,
      r.2.lookup hash = vertices.lookup hash ∨
        r.2.lookup hash = none ∧ ∃ n, vertices.lookup hash = some n ∧ n.state = .final := by
  induction queue with
  | nil =>
    intro toRemove vertices r h hash
    obtain rfl := Option.some.inj h
    exact .inl rfl
  | cons k queue ih =>
    intro toRemove vertices r h hash
    cases toRemove with
    | zero =>
      obtain rfl := Option.some.inj h
      exact .inl rfl
    | succ toRemove =>
      rw [pruneLoop] at h
      split at h
      · next n hn =>
        split_ifs at h with hfinal hd
        · rcases ih h hash with heq | ⟨hnone, m, hm, hstate⟩
          · by_cases hk : hash = k
            · rw [hk, Finmap.lookup_erase] at heq
              exact .inr ⟨hk ▸ heq, n, hk ▸ hn, hfinal⟩
            · rw [Finmap.lookup_erase_ne hk] at heq
              exact .inl heq
          · have hk : hash ≠ k := by
              rintro rfl
              rw [Finmap.lookup_erase] at hm
              cases hm
            rw [Finmap.lookup_erase_ne hk] at hm
            exact .inr ⟨hnone, m, hm, hstate⟩
        · exact ih h hash
      · exact ih h hash

/-- The loop ends if removals return. Otherwise it ends iff it removes nothing. -/
lemma pruneLoop_ends {queue : List SerializableHash} : ∀ {toRemove : ℕ}
    {vertices : HashMap SerializableHash Node},
    ∃ r, pruneLoop .returns queue toRemove vertices = some r ∧
      (r.2 = vertices ∧ pruneLoop .deadlocks queue toRemove vertices = some r ∨
        (∃ k, k ∈ vertices ∧ k ∉ r.2) ∧
          pruneLoop .deadlocks queue toRemove vertices = none) := by
  induction queue with
  | nil => exact fun {_ vertices} => ⟨([], vertices), rfl, .inl ⟨rfl, rfl⟩⟩
  | cons k queue ih =>
    intro toRemove vertices
    cases toRemove with
    | zero => exact ⟨(k :: queue, vertices), rfl, .inl ⟨rfl, rfl⟩⟩
    | succ toRemove =>
      rw [pruneLoop, pruneLoop, if_neg (by decide), if_pos rfl]
      cases hn : vertices.lookup k with
      | none => exact ih
      | some n =>
        dsimp only
        split_ifs with hfinal
        · obtain ⟨r, hr, -⟩ := @ih toRemove (vertices.erase k)
          refine ⟨r, hr, .inr ⟨⟨k, HashMap.mem_of_lookup hn, ?_⟩, rfl⟩⟩
          have herase : (vertices.erase k).lookup k = none := Finmap.lookup_erase _ _
          rcases lookup_pruneLoop hr k with heq | ⟨hnone, -⟩
          · exact Finmap.lookup_eq_none.mp (heq.trans herase)
          · exact Finmap.lookup_eq_none.mp hnone
        · exact ih

/-- The storage after a pruning whose removals return. -/
def pruned (s : VertexStorage) : VertexStorage := (s.pruneOldVertices .returns).getD s

/-- A pruning removes the vertex. -/
def Removes (s : VertexStorage) (hash : SerializableHash) : Prop :=
  hash ∈ s.vertices ∧ hash ∉ s.pruned.vertices

instance (s : VertexStorage) (hash : SerializableHash) : Decidable (s.Removes hash) :=
  inferInstanceAs (Decidable (_ ∧ _))

/-- What a pruning that has something to do leaves. -/
lemma pruneOldVertices_of_lt (d : HeldRemoval) (h : s.config.pruningThreshold < s.len) :
    s.pruneOldVertices d =
      (pruneLoop d s.pruningQueue (s.len - s.config.pruningThreshold) s.vertices).map
        fun r => { s with pruningQueue := r.1, vertices := r.2 } := by
  unfold pruneOldVertices
  rw [if_neg (Nat.not_le.mpr h)]
  cases pruneLoop d s.pruningQueue (s.len - s.config.pruningThreshold) s.vertices <;> rfl

/-- **A pruning returns** if removals return or there is nothing to remove, and what it leaves does
not depend on the removals. -/
lemma pruneOldVertices_eq_some : s.pruneOldVertices d = some t ↔
    t = s.pruned ∧ (d = .deadlocks → ∀ hash, ¬ s.Removes hash) := by
  by_cases hle : s.len ≤ s.config.pruningThreshold
  · have hsome : ∀ d, s.pruneOldVertices d = some s := fun d => if_pos hle
    have hpruned : s.pruned = s := by
      rw [pruned, hsome]
      rfl
    rw [hsome, hpruned]
    constructor
    · exact fun h => ⟨(Option.some.inj h).symm, fun _ hash hr => hr.2 (hpruned.symm ▸ hr.1)⟩
    · exact fun h => congrArg some h.1.symm
  · have hlt := Nat.lt_of_not_le hle
    obtain ⟨r, hr, hcases⟩ := @pruneLoop_ends s.pruningQueue
      (s.len - s.config.pruningThreshold) s.vertices
    have hpruned : s.pruned = { s with pruningQueue := r.1, vertices := r.2 } := by
      rw [pruned, pruneOldVertices_of_lt _ hlt, hr]
      rfl
    rw [pruneOldVertices_of_lt _ hlt]
    cases d with
    | returns =>
      rw [hr, hpruned]
      exact ⟨fun h => ⟨(Option.some.inj h).symm, fun hd => by cases hd⟩,
        fun h => congrArg some h.1.symm⟩
    | deadlocks =>
      rcases hcases with ⟨hsame, hloop⟩ | ⟨⟨k, hk, hkr⟩, hloop⟩
      · rw [hloop, hpruned]
        constructor
        · refine fun h => ⟨(Option.some.inj h).symm, fun _ hash hremoves => ?_⟩
          have hgone := hremoves.2
          rw [hpruned, hsame] at hgone
          exact hgone hremoves.1
        · exact fun h => congrArg some h.1.symm
      · rw [hloop]
        constructor
        · intro h
          cases h
        · rintro ⟨-, hnone⟩
          refine absurd ⟨hk, ?_⟩ (hnone rfl k)
          rw [hpruned]
          exact hkr

/-- A pruning leaves the cache and the configuration, and it removes final vertices only. -/
lemma pruned_spec (s : VertexStorage) : s.pruned.cache = s.cache ∧
    ∀ hash, s.pruned.vertices.lookup hash = s.vertices.lookup hash ∨
      s.pruned.vertices.lookup hash = none ∧
        ∃ n, s.vertices.lookup hash = some n ∧ n.state = .final := by
  by_cases hle : s.len ≤ s.config.pruningThreshold
  · have hpruned : s.pruned = s := by
      rw [pruned, pruneOldVertices, if_pos hle]
      rfl
    rw [hpruned]
    exact ⟨rfl, fun _ => .inl rfl⟩
  · obtain ⟨r, hr, -⟩ := @pruneLoop_ends s.pruningQueue
      (s.len - s.config.pruningThreshold) s.vertices
    have hpruned : s.pruned = { s with pruningQueue := r.1, vertices := r.2 } := by
      rw [pruned, pruneOldVertices_of_lt _ (Nat.lt_of_not_le hle), hr]
      rfl
    rw [hpruned]
    exact ⟨rfl, lookup_pruneLoop hr⟩

/-- A vertex that is not removed stays as it is. -/
lemma lookup_pruned {hash : SerializableHash} {n : Node} (h : s.vertices.lookup hash = some n)
    (hr : ¬ s.Removes hash) : s.pruned.vertices.lookup hash = some n := by
  rcases s.pruned_spec.2 hash with heq | ⟨hnone, -⟩
  · rw [heq, h]
  · exact absurd ⟨HashMap.mem_of_lookup h, Finmap.lookup_eq_none.mp hnone⟩ hr

/-- A removed vertex was final. -/
lemma Removes.final {hash : SerializableHash} (h : s.Removes hash) :
    s.pruned.vertices.lookup hash = none ∧
      ∃ n, s.vertices.lookup hash = some n ∧ n.state = .final := by
  rcases s.pruned_spec.2 hash with heq | hcase
  · exact absurd (Finmap.lookup_eq_none.mp (heq ▸ Finmap.lookup_eq_none.mpr h.2)) (not_not.mpr h.1)
  · exact hcase

/-- Pruning keeps the cache in agreement with the main store iff nothing that is removed is
cached. -/
lemma agrees_pruned_iff (h : s.Agrees) :
    s.pruned.Agrees ↔ ∀ hash, s.Removes hash → s.cache.peek hash = none := by
  obtain ⟨hcache, -⟩ := s.pruned_spec
  unfold Agrees at h ⊢
  rw [hcache]
  constructor
  · intro hagree hash hr
    cases hpeek : s.cache.peek hash with
    | none => rfl
    | some n =>
      have hn : s.pruned.vertices.lookup hash = some n := hagree hash n hpeek
      rw [hr.final.1] at hn
      cases hn
  · intro hclean hash n hpeek
    refine lookup_pruned (h hash n hpeek) fun hr => ?_
    rw [hclean hash hr] at hpeek
    cases hpeek

/-- So does an insertion after a pruning iff no vertex that is removed is cached after it. The
inserted vertex itself is not removed. -/
lemma agrees_write_pruned_iff (h : s.Agrees) {hash : SerializableHash} {node : Node}
    (hself : ¬ s.Removes hash) :
    (s.pruned.write hash node).Agrees ↔
      ∀ k, s.Removes k → (s.cache.put hash node).peek k = none := by
  obtain ⟨hcache, -⟩ := s.pruned_spec
  have hwrite : (s.pruned.write hash node).cache = s.cache.put hash node := by
    rw [← hcache]
    rfl
  have hvertices : (s.pruned.write hash node).vertices = s.pruned.vertices.insert hash node := rfl
  unfold Agrees
  rw [hwrite, hvertices]
  constructor
  · intro hagree k hr
    cases hpeek : (s.cache.put hash node).peek k with
    | none => rfl
    | some n =>
      have hn : Finmap.lookup k (s.pruned.vertices.insert hash node) = some n := hagree k n hpeek
      have hne : k ≠ hash := fun heq => hself (heq ▸ hr)
      rw [Finmap.lookup_insert_of_ne _ hne, hr.final.1] at hn
      cases hn
  · intro hclean k n hpeek
    rcases LruCache.peek_of_put hpeek with ⟨rfl, rfl⟩ | ⟨hne, hold⟩
    · exact Finmap.lookup_insert _
    · rw [Finmap.lookup_insert_of_ne _ hne]
      refine lookup_pruned (h k n hold) fun hr => ?_
      rw [hclean k hr] at hpeek
      cases hpeek

/-- A lookup of a cached vertex keeps the cache in agreement iff it was. -/
lemma agrees_get_iff {hash : SerializableHash} {n : Node} (h : s.cache.peek hash = some n) :
    (s.get hash).2.Agrees ↔ s.Agrees := by
  have hfst : (s.cache.get hash).1 = some n := LruCache.get_fst.trans h
  have hpeek : ∀ k, (s.cache.get hash).2.peek k = s.cache.peek k := fun k => LruCache.peek_get
  unfold VertexStorage.get
  split
  · next m cache heq =>
    rw [heq] at hpeek
    have hpeek' : ∀ k, cache.peek k = s.cache.peek k := hpeek
    unfold Agrees LruCache.Within
    dsimp only
    simp only [hpeek']
  · next cache heq =>
    rw [heq] at hfst
    cases hfst

end VertexStorage

/-! ## Calls that prune -/

namespace Graph

open VertexStorage

/-- The storage after the lookups of the checks of a call. -/
def lookedUp (g : Graph) : GraphCall → VertexStorage
  | .addNode node ahead _ => (checkNode g.storage node ahead).2
  | .updateNodeState hash newState => (readAndUpdate g.storage hash newState).2
  | _ => g.storage

/-- The cache when a call that prunes returns, up to the order of its entries. -/
def cachedAfter (g : Graph) (c : GraphCall) : LruCache SerializableHash Node :=
  match c with
  | .addNode node _ _ => (g.lookedUp c).cache.put node.hash node
  | .updateNodeState hash newState =>
    match (readAndUpdate g.storage hash newState).1 with
    | .ok node => (g.lookedUp c).cache.put hash node
    | .error _ => (g.lookedUp c).cache
  | _ => g.storage.cache

/-- If the call prunes, then no vertex that it removes is in the cache when it returns, and it
removes none if a removal does not return. -/
def CleanPruning (d : HeldRemoval) (g : Graph) (c : GraphCall) : Prop :=
  g.Prunes c → ∀ hash, (g.lookedUp c).Removes hash →
    d = .returns ∧ (g.cachedAfter c).peek hash = none

/-- A lookup of any hash answers as the main store. -/
def Transparent (g : Graph) : Prop := ∀ hash, (g.getNode hash).1 = g.storage.vertices.lookup hash

/-- The call returns what the main store says. -/
def Answered (d : HeldRemoval) (g : Graph) (c : GraphCall) : Prop :=
  ∃ g', g.call d c = some (g.storeReply c, g')

variable {d : HeldRemoval} {g : Graph}

/-- Lookups answer as the main store iff the entries of the cache are entries of the main store. -/
lemma transparent_iff_agrees : g.Transparent ↔ g.storage.Agrees := by
  constructor
  · intro h hash n hpeek
    have hfst : (g.storage.cache.get hash).1 = some n := LruCache.get_fst.trans hpeek
    have hget : (g.storage.get hash).1 = some n := by
      unfold VertexStorage.get
      split
      · next heq =>
        rw [heq] at hfst
        exact hfst
      · next heq =>
        rw [heq] at hfst
        cases hfst
    exact (h hash).symm.trans hget
  · exact fun h hash => (h.get hash).1

/-- A call that prunes is a pruning after its lookups, followed by its writes. -/
lemma call_of_prunes (hagree : g.storage.Agrees) {c : GraphCall} (hp : g.Prunes c) :
    ∃ finish : VertexStorage → Graph,
      (∀ d, g.call d c =
        ((g.lookedUp c).pruneOldVertices d).map fun t => (g.storeReply c, finish t)) ∧
      ((finish (g.lookedUp c).pruned).storage.Agrees ↔
        ∀ hash, (g.lookedUp c).Removes hash → (g.cachedAfter c).peek hash = none) := by
  cases c with
  | addNode node ahead elapsed =>
    obtain ⟨hok, hfull⟩ := hp
    obtain ⟨hspec, hagree', hread⟩ := checkNode_spec hagree node ahead
    rcases hcheck : checkNode g.storage node ahead with ⟨r, s⟩
    rw [hcheck] at hok hspec hagree' hread
    obtain rfl : r = .ok () := by
      cases r with
      | error e => cases hok
      | ok u => rfl
    have hlooked : g.lookedUp (.addNode node ahead elapsed) = s := congrArg Prod.snd hcheck
    have hcached : g.cachedAfter (.addNode node ahead elapsed) = s.cache.put node.hash node := by
      rw [cachedAfter, hlooked]
    have hfull' : s.Full := by
      unfold VertexStorage.Full at hfull ⊢
      rwa [hread.config_eq, hread.len_eq]
    have hnew : ¬ s.Removes node.hash := fun hr =>
      (storeCheck_eq_ok.mp hspec.symm).1 (hread.vertices_eq ▸ hr.1)
    rw [hlooked, hcached]
    refine ⟨fun t => {
      storage := ((t.write node.hash node).get node.hash).2
      edges := addEdges g.edges node.hash ((t.write node.hash node).get node.hash).1
      metrics := nodeProcessed g.metrics ((t.write node.hash node).get node.hash).2 elapsed },
      fun d => ?_, ?_⟩
    · rw [call, addNode, hcheck, storeReply, ← hspec]
      dsimp only
      rw [insert_of_full hfull']
      cases s.pruneOldVertices d <;> rfl
    · rw [← agrees_write_pruned_iff hagree' hnew]
      exact agrees_get_iff LruCache.peek_put_self
  | updateNodeState hash newState =>
    obtain ⟨hok, hfull⟩ := hp
    obtain ⟨hupdate, hagree', hread⟩ := readAndUpdate_spec hagree hash newState
    rcases hcheck : readAndUpdate g.storage hash newState with ⟨r, s⟩
    rw [hcheck] at hok hupdate hagree' hread
    obtain ⟨n', rfl⟩ : ∃ n', r = .ok n' := by
      cases r with
      | error e => cases hok
      | ok n' => exact ⟨n', rfl⟩
    have hlooked : g.lookedUp (.updateNodeState hash newState) = s := congrArg Prod.snd hcheck
    have hcached : g.cachedAfter (.updateNodeState hash newState) = s.cache.put hash n' := by
      rw [cachedAfter, hcheck, hlooked]
    have hfull' : s.Full := by
      unfold VertexStorage.Full at hfull ⊢
      rwa [hread.config_eq, hread.len_eq]
    have hkept : ¬ s.Removes hash := fun hr => by
      -- no transition leaves the final state
      obtain ⟨-, m, hm, hfinal⟩ := hr.final
      obtain ⟨n, hn, hvalid, -⟩ := storeUpdate_eq_ok.mp hupdate.symm
      rw [hread.vertices_eq, hn] at hm
      obtain rfl := Option.some.inj hm
      rw [hfinal] at hvalid
      cases newState <;> exact absurd hvalid (by decide)
    rw [hlooked, hcached]
    refine ⟨fun t => { g with storage := t.write hash n' }, fun d => ?_,
      agrees_write_pruned_iff hagree' hkept⟩
    rw [call, updateNodeState, hcheck, storeReply, ← hupdate]
    dsimp only
    rw [insert_of_full hfull']
    cases s.pruneOldVertices d <;> rfl
  | prune =>
    refine ⟨fun t => { g with
      storage := t
      metrics := { g.metrics with
        prunedVertices := (g.metrics.prunedVertices + 1) % 2 ^ 64
        memoryUsageBytes := t.memoryUsage } }, fun d => ?_, agrees_pruned_iff hagree⟩
    show (g.prune d).map _ = (g.storage.pruneOldVertices d).map _
    unfold prune
    cases g.storage.pruneOldVertices d <;> rfl
  | getNode hash => exact absurd hp id
  | getEdges hash => exact absurd hp id
  | isEmpty => exact absurd hp id
  | len => exact absurd hp id
  | metrics => exact absurd hp id

/-- **What the condition says**: the call returns what the main store says, and afterwards the
entries of the cache are entries of the main store. -/
lemma clean_iff (hagree : g.storage.Agrees) {c : GraphCall} :
    Answered d g c ∧ (g.after d c).storage.Agrees ↔ CleanPruning d g c := by
  by_cases hp : g.Prunes c
  · obtain ⟨finish, hcall, hiff⟩ := call_of_prunes hagree hp
    constructor
    · rintro ⟨⟨g', hg'⟩, hafter⟩ - hash hr
      have hsome := hg'
      rw [hcall] at hsome
      obtain ⟨t, ht, heq⟩ := Option.map_eq_some_iff.mp hsome
      obtain ⟨rfl, hkept⟩ := pruneOldVertices_eq_some.mp ht
      obtain rfl := (Prod.mk.inj heq).2
      have hlast : g.after d c = finish (g.lookedUp c).pruned := by
        rw [after, hg']
        rfl
      rw [hlast, hiff] at hafter
      refine ⟨?_, hafter hash hr⟩
      cases d with
      | returns => rfl
      | deadlocks => exact absurd hr (hkept rfl hash)
    · intro hclean
      have hprune : (g.lookedUp c).pruneOldVertices d = some (g.lookedUp c).pruned := by
        refine pruneOldVertices_eq_some.mpr ⟨rfl, fun hd hash hr => ?_⟩
        have hreturns := (hclean hp hash hr).1
        rw [hd] at hreturns
        cases hreturns
      have hg' : g.call d c = some (g.storeReply c, finish (g.lookedUp c).pruned) := by
        rw [hcall, hprune]
        rfl
      refine ⟨⟨_, hg'⟩, ?_⟩
      have hlast : g.after d c = finish (g.lookedUp c).pruned := by
        rw [after, hg']
        rfl
      rw [hlast, hiff]
      exact fun hash hr => (hclean hp hash hr).2
  · obtain ⟨g', hcall, hagree', -, -⟩ := call_spec (d := d) hagree hp
    refine ⟨fun _ h => absurd h hp, fun _ => ⟨⟨g', hcall⟩, ?_⟩⟩
    rw [after, hcall]
    exact hagree'

/-- **Exactly when the cache changes no answer**: in a run every lookup and every call answers as
the main store iff every pruning leaves nothing that it removes in the cache, and returns. -/
theorem transparent_iff (d : HeldRemoval) (config : StorageConfig) (calls : List GraphCall) :
    (Runs.Always (after d) Transparent (withConfig config) calls ∧
      Runs.Steps (after d) (Answered d) (withConfig config) calls) ↔
      Runs.Steps (after d) (CleanPruning d) (withConfig config) calls := by
  have hinit : (withConfig config).storage.Agrees := agrees_new config
  constructor
  · rintro ⟨halways, hanswered⟩
    refine (Runs.always_iff_steps (fun g : Graph => g.storage.Agrees)
      (fun g => transparent_iff_agrees.mpr) ?_ ?_ hanswered hinit).mp halways
    · exact fun g c h _ hclean => ((clean_iff h).mpr hclean).2
    · exact fun g c h ha ht => (clean_iff h).mp ⟨ha, transparent_iff_agrees.mp ht⟩
  · intro hclean
    refine ⟨(Runs.always_rule (fun g : Graph => g.storage.Agrees) ?_ hclean hinit).imp
      (fun g => transparent_iff_agrees.mpr), Runs.steps_rule (fun g : Graph => g.storage.Agrees) ?_
      hclean hinit⟩
    · exact fun g c h hc => ((clean_iff h).mpr hc).2
    · exact fun g c h hc => ((clean_iff h).mpr hc).symm

/-- A store that keeps no vertex after a pruning, but a cache. -/
def tightConfig : StorageConfig := { maxVertices := 10, pruningThreshold := 0, cacheDepth := 4 }

/-- A vertex without parents. -/
def finalNode : Node := ⟨⟨List.replicate 32 0x2, rfl⟩, [0x7], .pending, 0, []⟩

/-- It is added and finalized, and then the store is pruned. -/
def pruneFinal : List GraphCall :=
  [.addNode finalNode [] 5, .updateNodeState finalNode.hash .verified,
    .updateNodeState finalNode.hash .final, .prune]

/-- After the pruning the vertex is answered although it is not stored, if removals return. If they
do not, the pruning never returns. -/
theorem not_transparent_pruneFinal :
    ¬ ∃ d, Runs.Always (after d) Transparent (withConfig tightConfig) pruneFinal ∧
      Runs.Steps (after d) (Answered d) (withConfig tightConfig) pruneFinal := by
  rintro ⟨d, halways, hanswered⟩
  cases d with
  | returns => exact absurd (halways.2.2.2.2 finalNode.hash) (by decide)
  | deadlocks =>
    obtain ⟨g', hg'⟩ := hanswered.2.2.2.1
    cases hg'

end Graph

/-! ## Stored vertices in the cache -/

/-- A stored vertex that is cached is cached as it is stored. -/
def VertexStorage.Consistent (s : VertexStorage) : Prop :=
  s.cache.Within fun hash node => ∀ n, s.vertices.lookup hash = some n → n = node

namespace VertexStorage

variable {d : HeldRemoval} {s t : VertexStorage}

/-- Lookups keep the cache consistent. -/
lemma Consistent.get (h : s.Consistent) (hash : SerializableHash) : (s.get hash).2.Consistent := by
  have hkeep : (s.cache.get hash).2.Within
      fun k node => ∀ n, s.vertices.lookup k = some n → n = node := LruCache.Within.get h
  unfold VertexStorage.get
  split
  · next node cache heq =>
    rw [heq] at hkeep
    exact hkeep
  · next cache heq =>
    rw [heq] at hkeep
    split
    · next node hnode =>
      exact hkeep.put fun n hn => Option.some.inj (hn.symm.trans hnode)
    · exact hkeep

/-- So do prunings. -/
lemma Consistent.pruneOldVertices (h : s.Consistent) (ht : s.pruneOldVertices d = some t) :
    t.Consistent := by
  obtain ⟨rfl, -⟩ := pruneOldVertices_eq_some.mp ht
  obtain ⟨hcache, hlookup⟩ := s.pruned_spec
  intro hash node hpeek n hn
  rw [hcache] at hpeek
  rcases hlookup hash with heq | ⟨hnone, -⟩
  · exact h hash node hpeek n (heq ▸ hn)
  · rw [hnone] at hn
    cases hn

/-- So do insertions. -/
lemma Consistent.insert (h : s.Consistent) {hash : SerializableHash} {node : Node}
    (ht : s.insert d hash node = some t) : t.Consistent := by
  have hwrite : ∀ {u : VertexStorage}, u.Consistent → (u.write hash node).Consistent := by
    intro u hu k m hpeek n hn
    have hn' : Finmap.lookup k (u.vertices.insert hash node) = some n := hn
    rcases LruCache.peek_of_put hpeek with ⟨rfl, rfl⟩ | ⟨hne, hold⟩
    · exact Option.some.inj (hn'.symm.trans (Finmap.lookup_insert _))
    · rw [Finmap.lookup_insert_of_ne _ hne] at hn'
      exact hu k m hold n hn'
  by_cases hfull : s.Full
  · rw [insert_of_full hfull] at ht
    obtain ⟨u, hu, rfl⟩ := Option.map_eq_some_iff.mp ht
    exact hwrite (h.pruneOldVertices hu)
  · rw [insert_of_not_full hfull] at ht
    obtain rfl := Option.some.inj ht
    exact hwrite h

end VertexStorage

namespace Graph

variable {d : HeldRemoval} {g : Graph} {s : VertexStorage}

/-- Looking up parents keeps what lookups keep. -/
lemma checkNode_keeps {I : VertexStorage → Prop} (hI : ∀ {s} hash, I s → I (s.get hash).2)
    (node : Node) (ahead : List ℕ) (h : I s) : I (checkNode s node ahead).2 := by
  have hahead : ∀ {ahead : List ℕ} {s : VertexStorage}, I s →
      I (lookupAhead node.parents ahead s).2 := by
    intro ahead
    induction ahead with
    | nil => exact fun h => h
    | cons i ahead ih =>
      intro s h
      rw [lookupAhead]
      split
      · exact ih h
      · exact ih (hI _ h)
  have hmissing : ∀ {found : List (ℕ × Bool)} {rest : List SerializableHash} {i : ℕ}
      {s : VertexStorage}, I s → I (findMissing found i rest s).2 := by
    intro found rest
    induction rest with
    | nil => exact fun h => h
    | cons p rest ih =>
      intro i s h
      have hget := hI p h
      rw [findMissing]
      split
      · exact ih h
      · exact h
      · split
        · next heq =>
          rw [heq] at hget
          exact ih hget
        · next heq =>
          rw [heq] at hget
          exact hget
  have hget := hI node.hash h
  have hparents : ∀ {t : VertexStorage}, I t → I (missingParent node.parents ahead t).2 :=
    fun ht => hmissing (hahead ht)
  unfold checkNode
  split
  · next heq =>
    rw [heq] at hget
    exact hget
  · next t heq =>
    rw [heq] at hget
    have hlast := hparents hget
    split
    · next hp =>
      rw [hp] at hlast
      exact hlast
    · next hp =>
      rw [hp] at hlast
      exact hlast

/-- Every call keeps the cache consistent, also one that prunes. -/
lemma consistent_after (h : g.storage.Consistent) (c : GraphCall) :
    (g.after d c).storage.Consistent := by
  cases hcall : g.call d c with
  | none =>
    rw [after, hcall]
    exact h
  | some r =>
    rw [after, hcall]
    show r.2.storage.Consistent
    cases c with
    | addNode node ahead elapsed =>
      obtain ⟨r', hadd, rfl⟩ := Option.map_eq_some_iff.mp hcall
      have hkept := checkNode_keeps (fun hash hs => hs.get hash) node ahead h
      unfold addNode at hadd
      split at hadd
      · next heq =>
        rw [heq] at hkept
        obtain rfl := Option.some.inj hadd
        exact hkept
      · next heq =>
        rw [heq] at hkept
        obtain ⟨t, ht, hlast⟩ := Option.bind_eq_some_iff.mp hadd
        obtain rfl := Option.some.inj hlast
        exact (hkept.insert ht).get node.hash
    | updateNodeState hash newState =>
      obtain ⟨r', hupdate, rfl⟩ := Option.map_eq_some_iff.mp hcall
      have hkept : (readAndUpdate g.storage hash newState).2.Consistent := by
        have hget := h.get hash
        unfold readAndUpdate
        split
        · next heq =>
          rw [heq] at hget
          exact hget
        · next heq =>
          rw [heq] at hget
          exact hget
      unfold updateNodeState at hupdate
      split at hupdate
      · next heq =>
        rw [heq] at hkept
        obtain rfl := Option.some.inj hupdate
        exact hkept
      · next heq =>
        rw [heq] at hkept
        obtain ⟨t, ht, hlast⟩ := Option.bind_eq_some_iff.mp hupdate
        obtain rfl := Option.some.inj hlast
        exact hkept.insert ht
    | prune =>
      obtain ⟨g', hprune, rfl⟩ := Option.map_eq_some_iff.mp hcall
      obtain ⟨t, ht, hlast⟩ := Option.bind_eq_some_iff.mp hprune
      obtain rfl := Option.some.inj hlast
      exact h.pruneOldVertices ht
    | getNode hash =>
      obtain rfl := Option.some.inj hcall
      exact h.get hash
    | getEdges hash =>
      obtain rfl := Option.some.inj hcall
      exact h
    | isEmpty =>
      obtain rfl := Option.some.inj hcall
      exact h
    | len =>
      obtain rfl := Option.some.inj hcall
      exact h
    | metrics =>
      obtain rfl := Option.some.inj hcall
      exact h

/-- **In every run a stored vertex that is cached is cached as it is stored**, whatever was
pruned. -/
lemma consistent_run (d : HeldRemoval) (config : StorageConfig) (calls : List GraphCall) :
    (Runs.run (after d) (withConfig config) calls).storage.Consistent :=
  Runs.run_invariant (fun g : Graph => g.storage.Consistent) (fun _ c h => consistent_after h c)
    (LruCache.within_new _ _)

end Graph

end QuDAG
