import Mathlib.Data.List.Zip
import QuDAG.Dag.EngineRuns
import QuDAG.Lib.StarGroups

/-!
# Fork resolution

The conflict sets of `detect_fork_conflicts` are greedy star groups of the pending vertices, and
`detect_and_resolve_forks` rejects every vertex that does not survive in its group.

## Main definitions

* `QRAvalanche.pendingSet` — the pending vertices.
* `QRAvalanche.forkLosers` — the vertices that a resolution newly rejects.
* `QRAvalanche.HasLeaders` — the condition for replicas to agree.

## Main results

* `QRAvalanche.detectAndResolveForks_spec` — which vertices are rejected.
* `QRAvalanche.forkLosers_agree_iff` — replicas with the same view reject the same vertices iff
  every pending vertex has a leader in its neighbourhood.
-/

namespace QuDAG

open RustStd

namespace QRAvalanche

/-! ## Conflicts -/

/-- A vertex conflicts with itself. -/
lemma verticesConflict_self (v : VertexId) : verticesConflict v v = true := by
  have hzip : (v.asBytes.zip v.asBytes).countP (fun b => decide (b.1 ≠ b.2)) = 0 := by
    rw [List.countP_eq_zero]
    intro b hb
    rw [List.zip_eq_zipWith, List.zipWith_self, List.mem_map] at hb
    obtain ⟨x, -, rfl⟩ := hb
    simp
  simp only [verticesConflict, hzip]
  simp

/-- Conflicts are mutual. -/
lemma verticesConflict_comm (u v : VertexId) : verticesConflict u v = verticesConflict v u := by
  have hzip : (u.asBytes.zip v.asBytes).countP (fun b => decide (b.1 ≠ b.2)) =
      (v.asBytes.zip u.asBytes).countP (fun b => decide (b.1 ≠ b.2)) := by
    rw [← List.zip_swap, List.countP_map]
    exact List.countP_congr fun b _ => by simp [ne_comm]
  unfold verticesConflict
  simp only [hzip]
  by_cases hlen : u.asBytes.length = v.asBytes.length
  · simp [hlen]
  · rw [if_pos hlen, if_pos (Ne.symm hlen)]

/-- The inner loop gathers what the center of a star group takes along. -/
lemma gatherConflicts_eq (vertexId : VertexId) {pending : List VertexId}
    (hnodup : pending.Nodup) (conflictSet : List VertexId) (visited : HashSet VertexId) :
    gatherConflicts vertexId pending conflictSet visited =
      (conflictSet ++ StarGroups.gathered verticesConflict pending vertexId visited,
        visited ∪ (StarGroups.gathered verticesConflict pending vertexId visited).toFinset) := by
  unfold gatherConflicts
  induction pending generalizing conflictSet visited with
  | nil => simp [StarGroups.gathered]
  | cons other pending ih =>
    obtain ⟨hother, hnodup⟩ := List.nodup_cons.mp hnodup
    rw [List.foldl_cons]
    by_cases h : other ≠ vertexId ∧ other ∉ visited ∧ verticesConflict vertexId other
    · -- the vertex just visited does not come again
      have hgathered : StarGroups.gathered verticesConflict pending vertexId
          (insert other visited) =
          StarGroups.gathered verticesConflict pending vertexId visited := by
        refine List.filter_congr fun u hu => ?_
        have hne : u ≠ other := fun heq => hother (heq ▸ hu)
        simp [hne]
      have hcons : StarGroups.gathered verticesConflict (other :: pending) vertexId visited =
          other :: StarGroups.gathered verticesConflict pending vertexId visited :=
        List.filter_cons_of_pos (by simpa using h)
      simp only [if_pos h]
      rw [ih hnodup, hgathered, hcons]
      simp [Finset.insert_union]
    · have hcons : StarGroups.gathered verticesConflict (other :: pending) vertexId visited =
          StarGroups.gathered verticesConflict pending vertexId visited :=
        List.filter_cons_of_neg (by simpa using h)
      simp only [if_neg h]
      rw [ih hnodup, hcons]

/-- The outer loop collects the star groups with at least two members. -/
lemma groupConflicts_eq {pending : List VertexId} (hnodup : pending.Nodup)
    (todo : List VertexId) (visited : HashSet VertexId) (conflicts : List (List VertexId)) :
    groupConflicts pending todo visited conflicts = conflicts ++
      ((StarGroups.groups verticesConflict pending todo visited).map
        fun g => g.1 :: g.2).filter (1 < ·.length) := by
  induction todo generalizing visited conflicts with
  | nil => simp [groupConflicts, StarGroups.groups]
  | cons v todo ih =>
    rw [groupConflicts, StarGroups.groups]
    split_ifs with hv
    · exact ih visited conflicts
    · simp only [gatherConflicts_eq v hnodup, List.singleton_append]
      rw [ih, List.map_cons]
      split_ifs with hlen
      · rw [List.filter_cons_of_pos (by simpa using hlen), List.append_assoc,
          List.singleton_append]
      · rw [List.filter_cons_of_neg (by simpa using hlen)]

/-- The winner of a conflict set is its heaviest member, the first one among equals. -/
lemma resolveConflictSet_eq (self : QRAvalanche) (first : VertexId) (rest : List VertexId) :
    self.resolveConflictSet (first :: rest) =
      .ok (StarGroups.best self.confidenceValue first rest) := by
  have hfold : ∀ (rest : List VertexId) (first : VertexId),
      (rest.foldl (fun best vertexId =>
        if best.2 < self.confidenceValue vertexId then (vertexId, self.confidenceValue vertexId)
        else (best.1, best.2)) (first, self.confidenceValue first)).1 =
      StarGroups.best self.confidenceValue first rest := by
    intro rest
    induction rest with
    | nil => simp [StarGroups.best]
    | cons u rest ih =>
      intro first
      rw [List.foldl_cons, StarGroups.best]
      by_cases h : self.confidenceValue first < self.confidenceValue u
      · simp only [if_pos h, ih]
      · simp only [if_neg h, ih]
  cases rest with
  | nil => rfl
  | cons u rest => exact congrArg Except.ok (hfold (u :: rest) first)

/-! ## Resolution -/

/-- Rejecting losers changes no confidence. -/
lemma rejectLosers_confidence (winner : VertexId) :
    ∀ (conflictSet resolvedForks : List VertexId) (self : QRAvalanche),
      (self.rejectLosers winner resolvedForks conflictSet).2.confidence = self.confidence := by
  intro conflictSet
  induction conflictSet with
  | nil => exact fun _ _ => rfl
  | cons vertexId conflictSet ih =>
    intro resolvedForks self
    rw [rejectLosers]
    split_ifs
    · exact ih _ _
    · exact ih _ _

/-- The vertex lost in one of the groups. -/
def Lost (weight : VertexId → ℚ) (groups : List (VertexId × List VertexId)) (id : VertexId) :
    Prop :=
  ∃ g ∈ groups, id ∈ g.1 :: g.2 ∧ id ≠ StarGroups.best weight g.1 g.2

/-- **Resolving groups**: the vertices that lost are returned and rejected, and no other status
changes.

**Proof sketch.** Induction on the groups. A group with one member is skipped, and nobody loses
in it; in a larger group all members but the heaviest are rejected, which leaves the
confidences as they were. -/
lemma resolveForks_spec (weight : VertexId → ℚ) (groups : List (VertexId × List VertexId)) :
    ∀ (resolvedForks : List VertexId) (self : QRAvalanche), self.confidenceValue = weight →
      ∃ losers engine,
        self.resolveForks resolvedForks
          ((groups.map fun g => g.1 :: g.2).filter (1 < ·.length)) = (.ok losers, engine) ∧
        (∀ id, id ∈ losers ↔ id ∈ resolvedForks ∨ Lost weight groups id) ∧
        ∀ id, (Lost weight groups id → engine.status id = some .rejected) ∧
          (¬ Lost weight groups id → engine.status id = self.status id) := by
  induction groups with
  | nil =>
    intro resolvedForks self _
    exact ⟨resolvedForks, self, rfl, by simp [Lost], by simp [Lost]⟩
  | cons g groups ih =>
    obtain ⟨first, rest⟩ := g
    intro resolvedForks self hweight
    have hlost : ∀ id, Lost weight ((first, rest) :: groups) id ↔
        (id ∈ first :: rest ∧ id ≠ StarGroups.best weight first rest) ∨ Lost weight groups id :=
      fun id => List.exists_mem_cons_iff _ _ _
    by_cases hlen : 1 < (first :: rest).length
    · rw [List.map_cons, List.filter_cons_of_pos (by simpa using hlen), resolveForks,
        if_pos hlen, resolveConflictSet_eq, hweight]
      obtain ⟨hlist, hstatus⟩ := rejectLosers_vertices (StarGroups.best weight first rest)
        (first :: rest) resolvedForks self
      obtain ⟨losers, engine, heq, hlosers, hengine⟩ :=
        ih (self.rejectLosers (StarGroups.best weight first rest) resolvedForks
          (first :: rest)).1 (self.rejectLosers (StarGroups.best weight first rest)
          resolvedForks (first :: rest)).2 (by
            rw [← hweight]
            funext id
            rw [confidenceValue, confidenceValue, rejectLosers_confidence])
      have hmem : ∀ id, id ∈ (first :: rest).filter (· ≠ StarGroups.best weight first rest) ↔
          id ∈ first :: rest ∧ id ≠ StarGroups.best weight first rest := by simp
      refine ⟨losers, engine, heq, fun id => ?_, fun id => ⟨fun h => ?_, fun h => ?_⟩⟩
      · rw [hlosers, hlist, List.mem_append, hmem, hlost, or_assoc]
      · by_cases hrest : Lost weight groups id
        · exact (hengine id).1 hrest
        · have hfirst := ((hlost id).mp h).resolve_right hrest
          rw [(hengine id).2 hrest, hstatus, if_pos ((hmem id).mpr hfirst)]
      · obtain ⟨hfirst, hrest⟩ := not_or.mp (mt (hlost id).mpr h)
        rw [(hengine id).2 hrest, hstatus, if_neg (mt (hmem id).mp hfirst)]
    · have hrest : rest = [] := by
        rw [List.length_cons] at hlen
        exact List.eq_nil_of_length_eq_zero (by omega)
      have hfirst : ¬ ∃ id, id ∈ first :: rest ∧ id ≠ StarGroups.best weight first rest := by
        simp [hrest, StarGroups.best]
      have hlost' : ∀ id, Lost weight ((first, rest) :: groups) id ↔ Lost weight groups id :=
        fun id => (hlost id).trans (or_iff_right fun h => hfirst ⟨id, h⟩)
      rw [List.map_cons, List.filter_cons_of_neg (by simpa using hlen)]
      simp only [hlost']
      exact ih resolvedForks self hweight

/-- The pending vertices. -/
def pendingSet (self : QRAvalanche) : Finset VertexId :=
  self.vertices.keys.filter fun id => self.status id = some .pending

lemma mem_pendingSet {self : QRAvalanche} {id : VertexId} :
    id ∈ self.pendingSet ↔ self.status id = some .pending := by
  rw [pendingSet, Finset.mem_filter, Finmap.mem_keys]
  exact and_iff_right_of_imp fun h => HashMap.mem_of_lookup h

/-- The pending vertices are listed in the order of the status map. -/
lemma enumerates_pendingVertices {self : QRAvalanche}
    {entries : List (VertexId × ConsensusStatus)} (h : self.vertices.Enumerates entries) :
    HashSet.Enumerates self.pendingSet (pendingVertices entries) := by
  refine ⟨h.1.sublist (List.filter_sublist.map _), fun id => ?_⟩
  rw [mem_pendingSet, pendingVertices, List.mem_map]
  constructor
  · rintro ⟨⟨id', status⟩, hmem, rfl⟩
    obtain ⟨hmem, hpending⟩ := List.mem_filter.mp hmem
    obtain rfl : status = .pending := by simpa using hpending
    exact (h.2 _ _).mp hmem
  · intro hid
    exact ⟨(id, .pending), List.mem_filter.mpr ⟨(h.2 _ _).mpr hid, by simp⟩, rfl⟩

/-- **What fork resolution does**: it never fails, it returns and rejects the pending vertices
that do not survive in their star group, and it changes no other status. -/
lemma detectAndResolveForks_spec (self : QRAvalanche)
    {entries : List (VertexId × ConsensusStatus)} (h : self.vertices.Enumerates entries) :
    ∃ losers engine, self.detectAndResolveForks entries = (.ok losers, engine) ∧
      (∀ id, id ∈ losers ↔ id ∈ self.pendingSet ∧
        id ∉ StarGroups.survivors verticesConflict self.confidenceValue (pendingVertices entries)
          (pendingVertices entries) ∅) ∧
      ∀ id, (id ∈ losers → engine.status id = some .rejected) ∧
        (id ∉ losers → engine.status id = self.status id) := by
  have horder := enumerates_pendingVertices h
  obtain ⟨losers, engine, heq, hlosers, hstatus⟩ := resolveForks_spec self.confidenceValue
    (StarGroups.groups verticesConflict (pendingVertices entries) (pendingVertices entries) ∅)
    [] self rfl
  have hlost : ∀ id, id ∈ losers ↔ Lost self.confidenceValue (StarGroups.groups
      verticesConflict (pendingVertices entries) (pendingVertices entries) ∅) id := by
    intro id
    rw [hlosers]
    exact or_iff_right List.not_mem_nil
  refine ⟨losers, { engine with
    metrics := losers.foldl (fun metrics _ => metrics.recordForkResolved) engine.metrics },
    ?_, fun id => ?_, fun id => ⟨fun hid => ?_, fun hid => ?_⟩⟩
  · rw [detectAndResolveForks, detectForkConflicts, groupConflicts_eq horder.1, List.nil_append,
      heq]
  · rw [hlost, Lost, StarGroups.mem_losers_iff horder verticesConflict_self
      (fun u hu => (horder.2 u).mp hu) (fun u hu _ => (horder.2 u).mpr hu)]
    simp
  · exact (hstatus id).1 ((hlost id).mp hid)
  · exact (hstatus id).2 (mt (hlost id).mpr hid)

/-- Fork resolution changes the status of pending vertices only. -/
lemma detectAndResolveForks_status (self : QRAvalanche)
    {entries : List (VertexId × ConsensusStatus)} (h : self.vertices.Enumerates entries)
    {id : VertexId} (hid : self.status id ≠ some .pending) :
    (self.detectAndResolveForks entries).2.status id = self.status id := by
  obtain ⟨losers, engine, heq, hlosers, hstatus⟩ := self.detectAndResolveForks_spec h
  rw [heq]
  exact (hstatus id).2 fun hmem => hid (mem_pendingSet.mp ((hlosers id).mp hmem).1)

/-! ## Agreement -/

/-- The vertices that a fork resolution newly rejects. -/
def forkLosers (self : QRAvalanche) (entries : List (VertexId × ConsensusStatus)) :
    Finset VertexId :=
  self.vertices.keys.filter fun id => self.status id ≠ some .rejected ∧
    (self.detectAndResolveForks entries).2.status id = some .rejected

/-- Two replicas with the same statuses, confidence values and votes. -/
structure SameView (e₁ e₂ : QRAvalanche) : Prop where
  vertices : e₁.vertices = e₂.vertices
  confidence : ∀ id, e₁.confidenceValue id = e₂.confidenceValue id
  votes : e₁.votingRecord.votes = e₂.votingRecord.votes

/-- Every pending vertex has a leader in its neighbourhood, where the neighbours of a pending
vertex are the pending vertices that conflict with it, itself included: a neighbour `t` such
that, for every neighbour `x` of `t`, all neighbours of `t` are neighbours of `x`, and all other
neighbours of `x` have less confidence than `t`. -/
def HasLeaders (self : QRAvalanche) : Prop :=
  ∀ v ∈ self.pendingSet, ∃ t ∈ StarGroups.neighbours verticesConflict self.pendingSet v,
    StarGroups.Leader verticesConflict self.confidenceValue self.pendingSet t

/-- The newly rejected vertices are the pending ones that do not survive. -/
lemma mem_forkLosers (self : QRAvalanche) {entries : List (VertexId × ConsensusStatus)}
    (h : self.vertices.Enumerates entries) (id : VertexId) :
    id ∈ self.forkLosers entries ↔ id ∈ self.pendingSet ∧
      id ∉ StarGroups.survivors verticesConflict self.confidenceValue (pendingVertices entries)
        (pendingVertices entries) ∅ := by
  obtain ⟨losers, engine, heq, hlosers, hstatus⟩ := self.detectAndResolveForks_spec h
  rw [← hlosers, forkLosers, Finset.mem_filter, heq, Finmap.mem_keys]
  constructor
  · rintro ⟨-, hbefore, hafter⟩
    by_contra hid
    exact hbefore ((hstatus id).2 hid ▸ hafter)
  · intro hid
    have hpending := mem_pendingSet.mp ((hlosers id).mp hid).1
    exact ⟨HashMap.mem_of_lookup hpending, by rw [hpending]; simp, (hstatus id).1 hid⟩

/-- Every order of the pending vertices is that of some order of the status map. -/
lemma exists_entries {self : QRAvalanche} {l : List VertexId}
    (h : HashSet.Enumerates self.pendingSet l) :
    ∃ entries, self.vertices.Enumerates entries ∧ pendingVertices entries = l := by
  have hall := self.vertices.sorted_enumerates
  set all := self.vertices.sorted
  have hothers : ∀ id status, (id, status) ∈ all.filter (fun e => e.2 ≠ .pending) ↔
      self.status id = some status ∧ status ≠ .pending := by
    intro id status
    rw [List.mem_filter, hall.2, decide_eq_true_eq]
    exact Iff.rfl
  refine ⟨l.map (fun id => (id, .pending)) ++ all.filter (fun e => e.2 ≠ .pending),
    ⟨?_, fun id status => ?_⟩, ?_⟩
  · rw [List.map_append, List.map_map, List.nodup_append]
    refine ⟨by simpa [Function.comp_def] using h.1,
      hall.1.sublist (List.filter_sublist.map _), fun id hid id' hid' heq => ?_⟩
    subst heq
    obtain ⟨⟨id', status⟩, hmem, rfl⟩ := List.mem_map.mp hid'
    obtain ⟨hstatus, hne⟩ := (hothers id' status).mp hmem
    have hpending := mem_pendingSet.mp ((h.2 id').mp (by simpa [Function.comp_def] using hid))
    exact hne (Option.some.inj (hstatus.symm.trans hpending))
  · rw [List.mem_append, hothers, List.mem_map]
    constructor
    · rintro (⟨id', hid', heq⟩ | ⟨hstatus, -⟩)
      · obtain ⟨rfl, rfl⟩ := Prod.mk.inj heq
        exact mem_pendingSet.mp ((h.2 id').mp hid')
      · exact hstatus
    · intro hstatus
      by_cases hpending : status = .pending
      · subst hpending
        exact .inl ⟨id, (h.2 id).mpr (mem_pendingSet.mpr hstatus), rfl⟩
      · exact .inr ⟨hstatus, hpending⟩
  · rw [pendingVertices, List.filter_append, List.filter_filter, List.map_append]
    have hnone : all.filter (fun e => decide (e.2 = .pending) && decide (e.2 ≠ .pending)) = [] :=
      List.filter_eq_nil_iff.mpr (by simp)
    have hall' : (l.map fun id => (id, ConsensusStatus.pending)).filter
        (fun e => decide (e.2 = .pending)) = l.map fun id => (id, ConsensusStatus.pending) :=
      List.filter_eq_self.mpr (by simp)
    rw [hnone, hall', List.map_map]
    simp [Function.comp_def]

/-- **When replicas agree on forks**: two replicas with the same view reject the same vertices
in every pair of iteration orders iff every pending vertex has a leader in its neighbourhood. -/
theorem forkLosers_agree_iff {e₁ e₂ : QRAvalanche} (h : SameView e₁ e₂) :
    (∀ l₁ l₂, e₁.vertices.Enumerates l₁ → e₂.vertices.Enumerates l₂ →
      e₁.forkLosers l₁ = e₂.forkLosers l₂) ↔ e₁.HasLeaders := by
  have hpending : e₂.pendingSet = e₁.pendingSet := by
    ext id
    rw [mem_pendingSet, mem_pendingSet, status, status, h.vertices]
  have hweight : e₂.confidenceValue = e₁.confidenceValue :=
    funext fun id => (h.confidence id).symm
  have hindep := StarGroups.survivors_independent_iff verticesConflict_self
    verticesConflict_comm e₁.confidenceValue e₁.pendingSet
  rw [HasLeaders, ← hindep]
  constructor
  · intro hagree l₁ l₂ hl₁ hl₂ w
    obtain ⟨entries₁, hentries₁, rfl⟩ := exists_entries hl₁
    obtain ⟨entries₂, hentries₂, rfl⟩ := exists_entries (hpending ▸ hl₂ :
      HashSet.Enumerates e₂.pendingSet l₂)
    have hsame := hagree entries₁ entries₂ hentries₁ hentries₂
    have hiff := Finset.ext_iff.mp hsame w
    rw [e₁.mem_forkLosers hentries₁, e₂.mem_forkLosers hentries₂, hpending, hweight] at hiff
    have hsub : ∀ l, HashSet.Enumerates e₁.pendingSet l →
        w ∈ StarGroups.survivors verticesConflict e₁.confidenceValue l l ∅ → w ∈ e₁.pendingSet :=
      fun l hl => StarGroups.mem_of_mem_survivors hl fun u hu => (hl.2 u).mp hu
    by_cases hw : w ∈ e₁.pendingSet
    · simpa [hw, not_iff_not] using hiff
    · exact ⟨fun hs => absurd (hsub _ hl₁ hs) hw, fun hs => absurd (hsub _ hl₂ hs) hw⟩
  · intro hindep l₁ l₂ hl₁ hl₂
    have hl₂' := enumerates_pendingVertices hl₂
    rw [hpending] at hl₂'
    ext w
    rw [e₁.mem_forkLosers hl₁, e₂.mem_forkLosers hl₂, hpending, hweight,
      hindep _ _ (enumerates_pendingVertices hl₁) hl₂' w]

/-- Two vertices that conflict and get no vote. -/
def twinCalls : List Op :=
  [.processVertex (.fromBytes [0, 0, 0, 0]) 0, .processVertex (.fromBytes [0, 0, 0, 1]) 0]

/-- An engine with two pending vertices that conflict and have the same confidence. -/
def twins : QRAvalanche := Runs.run Op.apply (new 0) twinCalls

/-- The condition at two replicas with equally confident twins. -/
theorem forkLosers_agree_iff_twins :
    (∀ l₁ l₂, twins.vertices.Enumerates l₁ → twins.vertices.Enumerates l₂ →
      twins.forkLosers l₁ = twins.forkLosers l₂) ↔ twins.HasLeaders :=
  forkLosers_agree_iff ⟨rfl, fun _ => rfl, rfl⟩

/-- Replicas with the same view need not agree: of two equally confident twins, each replica
rejects the one that it iterates over last. -/
theorem not_forkLosers_agree :
    ¬ ∀ e₁ e₂ : QRAvalanche, e₁.Reachable → e₂.Reachable → SameView e₁ e₂ →
      ∀ l₁ l₂, e₁.vertices.Enumerates l₁ → e₂.vertices.Enumerates l₂ →
        e₁.forkLosers l₁ = e₂.forkLosers l₂ := by
  intro h
  have hreach : twins.Reachable := ⟨.default, 0, twinCalls, ⟨trivial, trivial, trivial⟩, rfl⟩
  have horder : twins.vertices.Enumerates
      [(.fromBytes [0, 0, 0, 1], .pending), (.fromBytes [0, 0, 0, 0], .pending)] :=
    (HashMap.Enumerates.empty.insert (by decide) _).insert (by decide) _
  have hagree := h twins twins hreach hreach ⟨rfl, fun _ => rfl, rfl⟩ _ _ horder
    (horder.perm (List.Perm.swap _ _ _))
  have hmem := Finset.ext_iff.mp hagree (.fromBytes [0, 0, 0, 0])
  revert hmem
  decide +kernel

end QRAvalanche

end QuDAG
