import QuDAG.Dag.Forks
import QuDAG.Lib.StarCover

/-!
# What a fork resolution leaves pending

After `detect_and_resolve_forks` the rejected vertices are no tips, and no other status has
changed. Whether conflicting vertices are left pending is another matter: conflicts are not
transitive, so the winner of a conflict set may conflict with vertices outside the set, and not
conflict with members of it.

## Main definitions

* `QRAvalanche.FaithfulWinners` — the condition under which conflicts are resolved.

## Main results

* `QRAvalanche.detectAndResolveForks_tips` — the rejected vertices are no tips.
* `QRAvalanche.detectAndResolveForks_resolves` — under the condition no two pending vertices
  conflict afterwards, and every rejected vertex conflicts with a pending one.
-/

namespace QuDAG

open RustStd

namespace QRAvalanche

/-! ## Tips -/

/-- Rejecting the losers of a conflict set takes them out of the tips. -/
lemma rejectLosers_tips (winner : VertexId) :
    ∀ (conflictSet resolvedForks : List VertexId) (self : QRAvalanche),
      (∀ id ∈ resolvedForks, id ∉ self.tips) →
        ∀ id ∈ (self.rejectLosers winner resolvedForks conflictSet).1,
          id ∉ (self.rejectLosers winner resolvedForks conflictSet).2.tips := by
  intro conflictSet
  induction conflictSet with
  | nil => exact fun _ _ h => h
  | cons vertexId conflictSet ih =>
    intro resolvedForks self h
    rw [rejectLosers]
    split_ifs with hwinner
    · refine ih _ _ fun id hid htip => ?_
      have htip' : id ∈ self.tips.erase vertexId := htip
      rw [Finset.mem_erase] at htip'
      rcases List.mem_append.mp hid with hid | hid
      · exact h id hid htip'.2
      · exact htip'.1 (List.mem_singleton.mp hid)
    · exact ih _ _ h

/-- The vertices that the conflict sets lose are no tips. -/
lemma resolveForks_tips :
    ∀ (conflicts : List (List VertexId)) (resolvedForks : List VertexId) (self : QRAvalanche),
      (∀ id ∈ resolvedForks, id ∉ self.tips) → ∀ {losers : List VertexId} {engine : QRAvalanche},
        self.resolveForks resolvedForks conflicts = (.ok losers, engine) →
          ∀ id ∈ losers, id ∉ engine.tips := by
  intro conflicts
  induction conflicts with
  | nil =>
    intro resolvedForks self h losers engine heq
    obtain ⟨hlosers, rfl⟩ := Prod.mk.inj heq
    obtain rfl := Except.ok.inj hlosers
    exact h
  | cons conflictSet conflicts ih =>
    intro resolvedForks self h losers engine heq
    rw [resolveForks] at heq
    split_ifs at heq with hlen
    · cases hwinner : self.resolveConflictSet conflictSet with
      | error e =>
        rw [hwinner] at heq
        simp at heq
      | ok winner =>
        rw [hwinner] at heq
        exact ih _ _ (rejectLosers_tips winner conflictSet resolvedForks self h) heq
    · exact ih _ _ h heq

/-- **A vertex that a fork resolution rejects is no tip any more.** -/
lemma detectAndResolveForks_tips (self : QRAvalanche)
    {entries : List (VertexId × ConsensusStatus)} {losers : List VertexId} {engine : QRAvalanche}
    (h : self.detectAndResolveForks entries = (.ok losers, engine)) :
    ∀ id ∈ losers, id ∉ engine.tips := by
  rw [detectAndResolveForks] at h
  rcases hres : self.resolveForks [] (detectForkConflicts entries) with ⟨result, self'⟩
  rw [hres] at h
  cases result with
  | error e => simp at h
  | ok resolvedForks =>
    have htips := resolveForks_tips _ [] self (fun id hid => absurd hid List.not_mem_nil) hres
    obtain ⟨hlosers, rfl⟩ := Prod.mk.inj h
    obtain rfl := Except.ok.inj hlosers
    exact htips

/-! ## Conflicts -/

/-- Whenever a pending vertex has less confidence than a pending vertex it conflicts with, those
with the most confidence among the latter conflict with no other pending vertices than it does,
and with all of them, but for those that conflict with a pending vertex which outweighs everything
within two conflicts. -/
def FaithfulWinners (self : QRAvalanche) : Prop :=
  ∀ v ∈ self.pendingSet,
    StarGroups.FaithfullyReplaced verticesConflict self.confidenceValue self.pendingSet v

/-- **What a fork resolution leaves pending**: where winners stand in for the centers of their
conflict sets, no two pending vertices conflict afterwards, in every iteration order. The rejected
vertices are no tips and conflict with a pending one, and no other status changes. -/
theorem detectAndResolveForks_resolves {self : QRAvalanche}
    {entries : List (VertexId × ConsensusStatus)} (h : self.vertices.Enumerates entries)
    (hwinners : self.FaithfulWinners) :
    ∃ losers engine, self.detectAndResolveForks entries = (.ok losers, engine) ∧
      (∀ u v, u ≠ v → engine.status u = some .pending → engine.status v = some .pending →
        verticesConflict u v = false) ∧
      (∀ u ∈ losers, engine.status u = some .rejected ∧ u ∉ engine.tips ∧
        ∃ v, engine.status v = some .pending ∧ verticesConflict u v = true) ∧
      ∀ u, u ∉ losers → engine.status u = self.status u := by
  obtain ⟨losers, engine, heq, hlosers, hstatus⟩ := self.detectAndResolveForks_spec h
  have horder := enumerates_pendingVertices h
  set survivors := StarGroups.survivors verticesConflict self.confidenceValue
    (pendingVertices entries) (pendingVertices entries) ∅
  -- the vertices that are pending afterwards are the survivors
  have hpending : ∀ u, engine.status u = some .pending ↔ u ∈ survivors := by
    intro u
    by_cases hu : u ∈ losers
    · rw [(hstatus u).1 hu]
      simp [((hlosers u).mp hu).2]
    · rw [(hstatus u).2 hu, ← mem_pendingSet]
      refine ⟨fun hpend => ?_, fun hsurv => ?_⟩
      · by_contra hsurv
        exact hu ((hlosers u).mpr ⟨hpend, hsurv⟩)
      · exact StarGroups.mem_of_mem_survivors horder (fun x hx => (horder.2 x).mp hx) hsurv
  have hpairwise := StarGroups.survivors_pairwise verticesConflict_self verticesConflict_comm
    horder hwinners (fun x hx => (horder.2 x).mp hx)
    (fun x hx => absurd hx (Finset.notMem_empty x))
  refine ⟨losers, engine, heq, fun u v hne hu hv => ?_, fun u hu => ⟨(hstatus u).1 hu, ?_, ?_⟩,
    fun u => (hstatus u).2⟩
  · have hsymm : Std.Symm fun s t => verticesConflict s t = false :=
      ⟨fun s t hst => by rw [verticesConflict_comm]; exact hst⟩
    exact hpairwise.forall ((hpending u).mp hu) ((hpending v).mp hv) hne
  · exact self.detectAndResolveForks_tips heq u hu
  · obtain ⟨v, hv, huv⟩ := StarGroups.exists_survivor verticesConflict_self verticesConflict_comm
      horder hwinners ((hlosers u).mp hu).1
    exact ⟨v, (hpending v).mpr hv, huv⟩

/-- With two equally confident twins the condition holds, and one of them is left. -/
theorem detectAndResolveForks_resolves_twins :
    ∃ losers engine, twins.detectAndResolveForks
        [(.fromBytes [0, 0, 0, 1], .pending), (.fromBytes [0, 0, 0, 0], .pending)] =
          (.ok losers, engine) ∧
      (∀ u v, u ≠ v → engine.status u = some .pending → engine.status v = some .pending →
        verticesConflict u v = false) ∧
      (∀ u ∈ losers, engine.status u = some .rejected ∧ u ∉ engine.tips ∧
        ∃ v, engine.status v = some .pending ∧ verticesConflict u v = true) ∧
      ∀ u, u ∉ losers → engine.status u = twins.status u := by
  have horder : twins.vertices.Enumerates
      [(.fromBytes [0, 0, 0, 1], .pending), (.fromBytes [0, 0, 0, 0], .pending)] :=
    (HashMap.Enumerates.empty.insert (by decide) _).insert (by decide) _
  refine detectAndResolveForks_resolves horder fun v hv t ht hlt => ?_
  have hzero : ∀ u ∈ twins.pendingSet, twins.confidenceValue u = 0 := by decide +kernel
  rw [hzero v hv, hzero t (StarGroups.mem_neighbours.mp ht.1).1] at hlt
  exact absurd hlt (lt_irrefl 0)

/-- Three vertices in a row, where those at the ends do not conflict with each other. The one in
the middle is voted on twice before it is processed and once after. -/
def rowCalls : List Op :=
  [.recordVote (.fromBytes [0, 0, 0, 0]) (.fromBytes [1]) true 0,
    .recordVote (.fromBytes [0, 0, 0, 0]) (.fromBytes [2]) false 0,
    .processVertex (.fromBytes [0, 0, 0, 0]) 0, .processVertex (.fromBytes [0, 0, 0, 1]) 0,
    .processVertex (.fromBytes [0, 0, 1, 0]) 0,
    .recordVote (.fromBytes [0, 0, 0, 0]) (.fromBytes [3]) true 0]

/-- An engine with three pending vertices, the middle one with the most confidence. -/
def row : QRAvalanche := Runs.run Op.apply (new 0) rowCalls

/-- A reachable engine that iterates over the ends of the row first keeps the middle and one end
pending, although they conflict. -/
theorem not_detectAndResolveForks_resolves :
    row.Reachable ∧ ∃ entries, row.vertices.Enumerates entries ∧
      (row.detectAndResolveForks entries).2.status (.fromBytes [0, 0, 0, 0]) = some .pending ∧
      (row.detectAndResolveForks entries).2.status (.fromBytes [0, 0, 0, 1]) = some .pending ∧
      verticesConflict (.fromBytes [0, 0, 0, 0]) (.fromBytes [0, 0, 0, 1]) = true := by
  have hvertices : row.vertices = (((∅ : HashMap VertexId ConsensusStatus).insert
      (.fromBytes [0, 0, 0, 0]) .pending).insert (.fromBytes [0, 0, 0, 1]) .pending).insert
        (.fromBytes [0, 0, 1, 0]) .pending := by decide +kernel
  have horder : row.vertices.Enumerates
      [(.fromBytes [0, 0, 1, 0], .pending), (.fromBytes [0, 0, 0, 1], .pending),
        (.fromBytes [0, 0, 0, 0], .pending)] := by
    rw [hvertices]
    exact ((HashMap.Enumerates.empty.insert (by decide) _).insert (by decide) _).insert
      (by decide) _
  exact ⟨⟨.default, 0, rowCalls, ⟨trivial, trivial, trivial, trivial, trivial, trivial, trivial⟩,
    rfl⟩, _, horder, by decide +kernel, by decide +kernel, by decide⟩

end QRAvalanche

end QuDAG
