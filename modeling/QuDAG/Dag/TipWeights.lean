import Mathlib.Data.List.DropRight
import QuDAG.Dag.TipSelection

/-!
# When tips and weights are exact

A weight tells what was known when its vertex was added last, and a vertex is a tip until one of its
children is added after it. So the bookkeeping depends on the order in which vertices arrive.

## Main definitions

* `AdvancedTipSelection.Exact` — the tips and weights are those of the added vertices.
* `AdvancedTipSelection.Settled` — every vertex was last added after its descendants, and one of its
  children again after it.
* `AdvancedTipSelection.Tracks` — what the bookkeeping holds after any calls.

## Main results

* `AdvancedTipSelection.calculateCumulativeWeight_eq` — the search finds all descendants.
* `AdvancedTipSelection.tracks_run` — the invariant of all runs.
* `AdvancedTipSelection.exact_iff` — the calls after which the bookkeeping is exact.
-/

namespace QuDAG

open RustStd

namespace AdvancedTipSelection

/-! ## What the bookkeeping is about -/

/-- The ids of the added vertices. -/
def added (calls : List Call) : Finset VertexId := (calls.map fun c => c.vertex.id).toFinset

/-- The added vertices that have `p` as a parent. -/
def children (calls : List Call) (p : VertexId) : Finset VertexId :=
  added (calls.filter fun c => p ∈ c.vertex.parents)

/-- `d` is `a`, or a descendant of it. -/
def Below (calls : List Call) (a d : VertexId) : Prop :=
  Relation.ReflTransGen (fun p c => c ∈ children calls p) a d

open Classical in
/-- The added vertices that descend from `a`. -/
noncomputable def descendants (calls : List Call) (a : VertexId) : Finset VertexId :=
  (added calls).filter fun d => d ≠ a ∧ Below calls a d

/-- The tips are the added vertices that are no added vertex's parent, and the weights count the
children and the descendants of every added vertex. -/
structure Exact (calls : List Call) (s : AdvancedTipSelection) : Prop where
  tips : ∀ v, v ∈ s.tips ↔ v ∈ added calls ∧ ∀ c ∈ calls, v ∉ c.vertex.parents
  weights : ∀ v ∈ added calls, ∃ w, s.weights.lookup v = some w ∧
    w.approvers = (children calls v).card ∧
    w.cumulativeWeight = 1 + (descendants calls v).card

/-- The calls up to the last one that adds a vertex. -/
def upTo (v : VertexId) (calls : List Call) : List Call :=
  calls.rdropWhile fun c => c.vertex.id ≠ v

/-- The calls after the last one that adds a vertex. -/
def after (v : VertexId) (calls : List Call) : List Call :=
  calls.rtakeWhile fun c => c.vertex.id ≠ v

/-- Every vertex was added for the last time when it had all its children and descendants, and if
it has children then one of them was added again after that. -/
def Settled (calls : List Call) : Prop :=
  ∀ v ∈ added calls,
    children (upTo v calls) v = children calls v ∧
    descendants (upTo v calls) v = descendants calls v ∧
    ((children calls v).Nonempty → ∃ c ∈ after v calls, v ∈ c.vertex.parents)

/-! ## The added vertices -/

variable {calls calls' : List Call} {self : AdvancedTipSelection} {a d p v : VertexId} {c : Call}

@[simp] lemma mem_added : v ∈ added calls ↔ ∃ c ∈ calls, c.vertex.id = v := by
  simp [added]

@[simp] lemma mem_children : v ∈ children calls p ↔
    ∃ c ∈ calls, p ∈ c.vertex.parents ∧ c.vertex.id = v := by
  simp [children, and_assoc]

/-- A vertex has children iff it is a parent. -/
lemma children_nonempty_iff : (children calls p).Nonempty ↔ ∃ c ∈ calls, p ∈ c.vertex.parents := by
  simp only [Finset.Nonempty, mem_children]
  constructor
  · rintro ⟨v, c, hc, hp, -⟩
    exact ⟨c, hc, hp⟩
  · rintro ⟨c, hc, hp⟩
    exact ⟨c.vertex.id, c, hc, hp, rfl⟩

@[simp] lemma mem_descendants :
    d ∈ descendants calls a ↔ d ∈ added calls ∧ d ≠ a ∧ Below calls a d := by
  simp [descendants]

/-- More calls add more vertices. -/
lemma added_subset (h : calls ⊆ calls') : added calls ⊆ added calls' := by
  intro v hv
  obtain ⟨c, hc, rfl⟩ := mem_added.mp hv
  exact mem_added.mpr ⟨c, h hc, rfl⟩

/-- More calls add more children. -/
lemma children_subset (h : calls ⊆ calls') : children calls p ⊆ children calls' p := by
  intro v hv
  obtain ⟨c, hc, hp, rfl⟩ := mem_children.mp hv
  exact mem_children.mpr ⟨c, h hc, hp, rfl⟩

/-- More calls add more descendants. -/
lemma descendants_subset (h : calls ⊆ calls') : descendants calls a ⊆ descendants calls' a := by
  intro d hd
  obtain ⟨hadded, hne, hbelow⟩ := mem_descendants.mp hd
  exact mem_descendants.mpr ⟨added_subset h hadded, hne,
    Relation.ReflTransGen.mono (fun _ _ hchild => children_subset h hchild) _ _ hbelow⟩

/-- Everything below a vertex, other than itself, was added. -/
lemma mem_descendants_of_ne (hne : d ≠ a) : d ∈ descendants calls a ↔ Below calls a d := by
  rw [mem_descendants]
  refine ⟨fun h => h.2.2, fun h => ⟨?_, hne, h⟩⟩
  rcases Relation.ReflTransGen.cases_tail h with heq | ⟨p, -, hchild⟩
  · exact absurd heq hne
  · obtain ⟨c, hc, -, rfl⟩ := mem_children.mp hchild
    exact mem_added.mpr ⟨c, hc, rfl⟩

/-! ## The last addition of a vertex -/

/-- The calls up to the last addition come first. -/
lemma upTo_append_after (v : VertexId) (calls : List Call) :
    upTo v calls ++ after v calls = calls :=
  List.rdropWhile_append_rtakeWhile

/-- They are some of the calls. -/
lemma upTo_subset (v : VertexId) (calls : List Call) : upTo v calls ⊆ calls :=
  (List.rdropWhile_prefix _ _).subset

/-- One more call. -/
lemma upTo_concat (v : VertexId) (calls : List Call) (c : Call) :
    upTo v (calls ++ [c]) = if c.vertex.id = v then calls ++ [c] else upTo v calls := by
  unfold upTo
  rw [List.rdropWhile_concat]
  by_cases h : c.vertex.id = v <;> simp [h]

/-- One more call. -/
lemma after_concat (v : VertexId) (calls : List Call) (c : Call) :
    after v (calls ++ [c]) = if c.vertex.id = v then [] else after v calls ++ [c] := by
  unfold after
  rw [List.rtakeWhile_concat]
  by_cases h : c.vertex.id = v <;> simp [h]

/-! ## The search -/

/-- The search is a depth-first search. -/
lemma calculateCumulativeWeightRecursive_eq (it : HashSet.Iteration VertexId) :
    ∀ (fuel : ℕ) (v : VertexId) (visited : HashSet VertexId),
      self.calculateCumulativeWeightRecursive it fuel v visited =
        DepthFirst.weigh (fun p => it.order (self.reverseAdjacency.members p)) self.directWeight
          fuel v visited := by
  intro fuel
  induction fuel with
  | zero => exact fun _ _ => rfl
  | succ fuel ih =>
    intro v visited
    simp only [calculateCumulativeWeightRecursive, DepthFirst.weigh, ih]

/-- **The cumulative weight** is one more than the number of descendants. -/
lemma calculateCumulativeWeight_eq (it : HashSet.Iteration VertexId)
    (hchildren : ∀ p, self.reverseAdjacency.members p = children calls p)
    (hdirect : ∀ v, self.directWeight v = 1) (v : VertexId) :
    self.calculateCumulativeWeight it v = 1 + (descendants calls v).card := by
  have hclosed : DepthFirst.Closed (fun p => it.order (self.reverseAdjacency.members p))
      (insert v self.knownChildren) := by
    intro p _ d hd
    have hd' : d ∈ self.reverseAdjacency.members p := HashSet.Iteration.mem_order.mp hd
    refine Finset.mem_insert_of_mem (Finset.mem_biUnion.mpr ⟨p, ?_, hd'⟩)
    by_contra hp
    rw [HashMap.members_of_notMem (fun h => hp (Finmap.mem_keys.mpr h))] at hd'
    exact absurd hd' (Finset.notMem_empty d)
  have hfuel : (insert v self.knownChildren).card < self.knownChildren.card + 2 :=
    Nat.lt_succ_of_le (Finset.card_insert_le _ _)
  have hin := Finset.mem_insert_self v self.knownChildren
  have hreaches : ∀ u, DepthFirst.Reaches
      (fun p => it.order (self.reverseAdjacency.members p)) v u ↔ Below calls v u := fun u => by
    unfold DepthFirst.Reaches Below
    simp only [HashSet.Iteration.mem_order, hchildren]
  unfold calculateCumulativeWeight
  rw [calculateCumulativeWeightRecursive_eq, DepthFirst.weigh_fst hclosed hin hfuel]
  have hset : (DepthFirst.weigh (fun p => it.order (self.reverseAdjacency.members p))
      self.directWeight (self.knownChildren.card + 2) v ∅).2 = insert v (descendants calls v) := by
    ext u
    rw [DepthFirst.mem_weigh_iff hclosed hin hfuel, hreaches, Finset.mem_insert]
    by_cases hu : u = v
    · subst hu
      exact iff_of_true .refl (.inl rfl)
    · rw [mem_descendants_of_ne hu]
      simp [hu]
  have hnot : v ∉ descendants calls v := by simp
  rw [hset, Finset.sum_congr rfl fun u _ => hdirect u, ← Finset.card_eq_sum_ones,
    Finset.card_insert_of_notMem hnot, Nat.add_comm]

/-! ## What a call does -/

/-- The bookkeeping after some calls: the children are those of the added vertices, a vertex is a
tip if none of its children was added after it, and its weight is from its last addition. -/
structure Tracks (calls : List Call) (s : AdvancedTipSelection) : Prop where
  children : ∀ p, s.reverseAdjacency.members p = children calls p
  tips : ∀ v, v ∈ s.tips ↔ v ∈ added calls ∧ ∀ c ∈ after v calls, v ∉ c.vertex.parents
  direct : ∀ v w, s.weights.lookup v = some w → w.directWeight = 1
  weights : ∀ v ∈ added calls, ∃ w, s.weights.lookup v = some w ∧
    w.approvers = (AdvancedTipSelection.children (upTo v calls) v).card ∧
    w.cumulativeWeight = 1 + (descendants (upTo v calls) v).card

/-- Nothing was added. -/
lemma tracks_new : Tracks [] new where
  children p := by simp [new, HashMap.members, AdvancedTipSelection.children, added]
  tips v := by simp [new]
  direct v w h := by simp [new] at h
  weights v hv := by simp at hv

/-- The children after a call. -/
lemma members_apply (h : ∀ p, self.reverseAdjacency.members p = children calls p) (c : Call)
    (p : VertexId) :
    (self.apply c).reverseAdjacency.members p = children (calls ++ [c]) p := by
  ext v
  have hfold : v ∈ (self.apply c).reverseAdjacency.members p ↔
      (p ∈ c.it.order c.vertex.parentSet ∧ v = c.vertex.id) ∨
        v ∈ self.reverseAdjacency.members p :=
    HashMap.mem_members_foldl_addMember
  rw [hfold, h, HashSet.Iteration.mem_order, Vertex.mem_parentSet, mem_children, mem_children]
  simp only [List.mem_append, List.mem_singleton, or_and_right, exists_or, exists_eq_left]
  rw [or_comm, @eq_comm _ v]

/-- Erasing several elements. -/
lemma mem_foldl_erase {l : List VertexId} : ∀ {s : HashSet VertexId},
    v ∈ l.foldl (fun s p => s.erase p) s ↔ v ∈ s ∧ v ∉ l := by
  induction l with
  | nil => simp
  | cons p l ih =>
    intro s
    rw [List.foldl_cons, ih, Finset.mem_erase, List.mem_cons]
    tauto

/-- The tips after a call. -/
lemma mem_tips_apply : v ∈ (self.apply c).tips ↔
    v = c.vertex.id ∨ v ∈ self.tips ∧ v ∉ c.vertex.parents := by
  have htips : v ∈ (self.apply c).tips ↔ v ∈ insert c.vertex.id
      ((c.it.order c.vertex.parentSet).foldl (fun tips parent => tips.erase parent) self.tips) :=
    Iff.rfl
  rw [htips, Finset.mem_insert, mem_foldl_erase, HashSet.Iteration.mem_order, Vertex.mem_parentSet]

/-- **One call** keeps the invariant. -/
lemma Tracks.apply (h : Tracks calls self) (c : Call) : Tracks (calls ++ [c]) (self.apply c) := by
  have hchildren := members_apply h.children c
  have hdirect : ∀ v, self.directWeight v = 1 := fun v => by
    unfold directWeight
    cases hw : self.weights.lookup v with
    | none => rfl
    | some w => simpa using h.direct v w hw
  have hweight : (self.apply c).weights = self.weights.insert c.vertex.id
      { cumulativeWeight := 1 + (descendants (calls ++ [c]) c.vertex.id).card
        directWeight := 1
        approvers := (AdvancedTipSelection.children (calls ++ [c]) c.vertex.id).card
        lastUpdated := c.now } := by
    have hcumulative := @calculateCumulativeWeight_eq (calls ++ [c])
      { self.apply c with weights := self.weights } c.it hchildren hdirect c.vertex.id
    rw [← hchildren, ← hcumulative]
    rfl
  refine ⟨hchildren, fun v => ?_, fun v w hw => ?_, fun v hv => ?_⟩
  · rw [mem_tips_apply, h.tips, after_concat]
    by_cases hid : c.vertex.id = v
    · simp [hid]
    · simp only [hid, if_false, mem_added, List.mem_append, List.mem_singleton, or_and_right,
        exists_or, exists_eq_left, or_false, or_imp, forall_and, forall_eq, Ne.symm hid, false_or]
      tauto
  · rw [hweight, HashMap.lookup_insert_ite] at hw
    split_ifs at hw with hid
    · rw [← Option.some.inj hw]
    · exact h.direct v w hw
  · rw [hweight, HashMap.lookup_insert_ite, upTo_concat]
    by_cases hid : c.vertex.id = v
    · rw [if_pos hid.symm, if_pos hid, ← hid]
      exact ⟨_, rfl, rfl, rfl⟩
    · rw [if_neg (Ne.symm hid), if_neg hid]
      refine h.weights v ?_
      simpa [hid] using hv

/-- **The invariant of all runs.** -/
lemma tracks_run (calls : List Call) :
    Tracks calls (Runs.run AdvancedTipSelection.apply new calls) := by
  induction calls using List.reverseRecOn with
  | nil => exact tracks_new
  | append_singleton calls c ih =>
    unfold Runs.run at ih ⊢
    rw [List.foldl_concat]
    exact ih.apply c

/-! ## When the bookkeeping is exact -/

/-- **Exactly when the bookkeeping describes the added vertices**: after any calls, in any order and
with any repetitions, the tips and the weights are exact iff the calls are settled. -/
theorem exact_iff (calls : List Call) :
    Exact calls (Runs.run AdvancedTipSelection.apply new calls) ↔ Settled calls := by
  have h := tracks_run calls
  generalize Runs.run AdvancedTipSelection.apply new calls = self at h
  constructor
  · intro hexact v hv
    obtain ⟨w, hw, happrovers, hweight⟩ := h.weights v hv
    obtain ⟨w', hw', happrovers', hweight'⟩ := hexact.weights v hv
    obtain rfl : w = w' := Option.some.inj (hw.symm.trans hw')
    refine ⟨Finset.eq_of_subset_of_card_le (children_subset (upTo_subset v calls)) ?_,
      Finset.eq_of_subset_of_card_le (descendants_subset (upTo_subset v calls)) ?_, fun hne => ?_⟩
    · exact le_of_eq (happrovers'.symm.trans happrovers)
    · omega
    · by_contra hnone
      have htip : v ∈ self.tips :=
        (h.tips v).mpr ⟨hv, fun c hc hp => hnone ⟨c, hc, hp⟩⟩
      obtain ⟨c, hc, hp⟩ := children_nonempty_iff.mp hne
      exact ((hexact.tips v).mp htip).2 c hc hp
  · intro hsettled
    refine ⟨fun v => ?_, fun v hv => ?_⟩
    · rw [h.tips]
      refine and_congr_right fun hv => ⟨fun hafter c hc hp => ?_, fun hall c hc => ?_⟩
      · obtain ⟨c', hc', hp'⟩ := (hsettled v hv).2.2 (children_nonempty_iff.mpr ⟨c, hc, hp⟩)
        exact hafter c' hc' hp'
      · refine hall c ?_
        rw [← upTo_append_after v calls]
        exact List.mem_append_right _ hc
    · obtain ⟨w, hw, happrovers, hweight⟩ := h.weights v hv
      obtain ⟨hchildren, hdescendants, -⟩ := hsettled v hv
      rw [hchildren] at happrovers
      rw [hdescendants] at hweight
      exact ⟨w, hw, happrovers, hweight⟩

/-- The vertex `[1]`, without parents. -/
def genesis : Call := ⟨⟨.fromBytes [1], [], [], 0, []⟩, 0, .sorted⟩

/-- The vertex `[2]`, a child of `[1]`. -/
def child : Call := ⟨⟨.fromBytes [2], [.fromBytes [1]], [], 0, []⟩, 0, .sorted⟩

/-- A vertex whose child arrives after it has no approver, and a vertex whose child arrives before
it stays a tip. -/
theorem not_exact_twoVertices :
    ¬ Exact [genesis, child] (Runs.run AdvancedTipSelection.apply new [genesis, child]) ∧
      ¬ Exact [child, genesis] (Runs.run AdvancedTipSelection.apply new [child, genesis]) := by
  constructor
  · intro h
    obtain ⟨w, hw, happrovers, -⟩ := h.weights (.fromBytes [1]) (by decide)
    have hzero : ((Runs.run AdvancedTipSelection.apply new [genesis, child]).weights.lookup
        (.fromBytes [1])).map VertexWeight.approvers = some 0 := by decide +kernel
    rw [hw, Option.map_some, happrovers] at hzero
    revert hzero
    decide +kernel
  · intro h
    have htip := (h.tips (.fromBytes [1])).mp (by decide +kernel)
    exact htip.2 child List.mem_cons_self (by decide)

end AdvancedTipSelection

end QuDAG
