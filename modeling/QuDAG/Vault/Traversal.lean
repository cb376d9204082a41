import QuDAG.Lib.Traversal
import QuDAG.Vault.RoundTrip

/-!
# Descendants, ancestors and levels

The traversals of the graph of the vault (`dag_storage.rs`). The two closures are exact and inverse
to each other, and the check for cycles is right. The level walk lists a vertex once for every path
that leads to it: a secret in two categories is listed twice.

## Main definitions

* `VaultDag.findDescendants`, `VaultDag.findAncestors`, `VaultDag.wouldCreateCycle`,
  `VaultDag.listAtDepth`.
* `VaultDag.TraversalsExact` — what the traversals should do.

## Main results

* `VaultDag.WellFormed.traversalsExact_iff` — when they do it, in a vault with the invariant.
* `VaultDag.traversalsExact_run_iff` — the same over all runs.

## Implementation notes

The children or parents of a vertex are seen in an order that is an argument.
-/

namespace QuDAG.Vault

open RustStd

namespace VaultDag

variable {K : Crates} {dag : VaultDag} {order : VertexId → HashSet.Iteration VertexId}

/-! ## The traversals -/

/-- The related vertices of a vertex in the order in which they are seen. -/
def related (order : VertexId → HashSet.Iteration VertexId)
    (m : HashMap VertexId (HashSet VertexId)) (id : VertexId) : List VertexId :=
  match m.lookup id with
  | none => []
  | some ids => (order id).order ids

/-- A vertex that is absent has no related vertices. -/
lemma related_of_notMem {m : HashMap VertexId (HashSet VertexId)} :
    ∀ id ∉ m.keys, related order m id = [] := by
  intro id hid
  rw [related, Finmap.lookup_eq_none.mpr fun hmem => hid (Finmap.mem_keys.mpr hmem)]

/-- What a queue that starts with the related vertices of a vertex collects. -/
def collect (order : VertexId → HashSet.Iteration VertexId)
    (m : HashMap VertexId (HashSet VertexId)) (id : VertexId) : HashSet VertexId :=
  match m.lookup id with
  | none => ∅
  | some ids => Traversal.close (related order m) m.keys related_of_notMem ∅ ((order id).order ids)

/-- Find all descendants of a node. -/
def findDescendants (order : VertexId → HashSet.Iteration VertexId) (id : VertexId)
    (dag : VaultDag) : HashSet VertexId := collect order dag.childMap id

/-- Find all ancestors of a node. -/
def findAncestors (order : VertexId → HashSet.Iteration VertexId) (id : VertexId)
    (dag : VaultDag) : HashSet VertexId := collect order dag.parentMap id

/-- Check if adding an edge would create a cycle. -/
def wouldCreateCycle (order : VertexId → HashSet.Iteration VertexId) (source target : VertexId)
    (dag : VaultDag) : Bool :=
  if source = target then true else target ∈ dag.findAncestors order source

/-- The level a number of steps below a level. An empty level ends the walk. -/
def nextLevels (order : VertexId → HashSet.Iteration VertexId) (dag : VaultDag) :
    ℕ → List VertexId → List VertexId
  | 0, level => level
  | depth + 1, level =>
    let next := level.flatMap (related order dag.childMap)
    if next = [] then next else nextLevels order dag depth next

/-- List all nodes at a specific depth from root. -/
def listAtDepth (order : VertexId → HashSet.Iteration VertexId) (depth : ℕ) (dag : VaultDag) :
    List VertexId := nextLevels order dag depth [dag.rootId]

/-- What the traversals should do. -/
structure TraversalsExact (order : VertexId → HashSet.Iteration VertexId) (depth : ℕ)
    (dag : VaultDag) : Prop where
  /-- The descendants are those by the map of children. -/
  descendants : ∀ a b, b ∈ dag.findDescendants order a ↔
    Relation.TransGen (fun p c => c ∈ dag.children p) a b
  /-- The ancestors are those by the map of parents. -/
  ancestors : ∀ a b, b ∈ dag.findAncestors order a ↔
    Relation.TransGen (fun c p => p ∈ dag.parents c) a b
  /-- Descendants and ancestors are inverse to each other. -/
  dual : ∀ a b, b ∈ dag.findDescendants order a ↔ a ∈ dag.findAncestors order b
  /-- The check for cycles is right. -/
  cycle : ∀ p c, dag.wouldCreateCycle order p c = true ↔
    Traversal.Cyclic fun a b => b ∈ dag.children a ∨ (a = p ∧ b = c)
  /-- A vertex is listed iff a path of the length leads to it. -/
  level : ∀ v, v ∈ dag.listAtDepth order depth ↔
    ∃ path : List VertexId, path.length = depth ∧
      Traversal.IsWalk (fun p c => c ∈ dag.children p) dag.rootId path v
  /-- No vertex is listed twice. -/
  once : (dag.listAtDepth order depth).Nodup

/-! ## What they do -/

section Related

variable {m : HashMap VertexId (HashSet VertexId)} {a b : VertexId}

/-- The related vertices are the members at the vertex. -/
lemma mem_related : b ∈ related order m a ↔ b ∈ HashMap.members m a := by
  unfold related HashMap.members
  cases m.lookup a with
  | none => simp
  | some ids => exact HashSet.Iteration.mem_order

/-- Every related vertex is seen once. -/
lemma nodup_related : (related order m a).Nodup := by
  unfold related
  cases m.lookup a with
  | none => exact List.nodup_nil
  | some ids => exact ((order a).enumerates ids).1

/-- **A queue collects the transitive closure.** -/
lemma mem_collect : b ∈ collect order m a ↔
    Relation.TransGen (fun a b => b ∈ HashMap.members m a) a b := by
  have hstep : (fun a b => b ∈ related order m a) = fun a b => b ∈ HashMap.members m a :=
    funext fun a => funext fun b => propext mem_related
  rw [Relation.TransGen.head'_iff]
  unfold collect
  cases hlookup : m.lookup a with
  | none =>
    have hnone : HashMap.members m a = ∅ :=
      HashMap.members_of_notMem (Finmap.lookup_eq_none.mp hlookup)
    simp [hnone]
  | some ids =>
    have hids : HashMap.members m a = ids := HashMap.members_of_lookup hlookup
    rw [Traversal.mem_close_iff, hids]
    unfold Traversal.Reaches
    rw [hstep]
    simp only [HashSet.Iteration.mem_order]

end Related

/-- The levels below a level are those below its vertices. -/
lemma nextLevels_eq (depth : ℕ) : ∀ level : List VertexId, nextLevels order dag depth level =
    level.flatMap (Traversal.ends (related order dag.childMap) depth) := by
  induction depth with
  | zero =>
    intro level
    show level = level.flatMap fun a => [a]
    rw [List.flatMap_singleton']
  | succ depth ih =>
    intro level
    have hends : Traversal.ends (related order dag.childMap) (depth + 1) = fun a =>
        (related order dag.childMap a).flatMap
          (Traversal.ends (related order dag.childMap) depth) := rfl
    rw [hends, ← List.flatMap_assoc, nextLevels]
    split_ifs with hempty
    · rw [hempty, List.flatMap_nil]
    · exact ih _

/-- The list of a depth is the level walk from the root. -/
lemma listAtDepth_eq (depth : ℕ) : dag.listAtDepth order depth =
    Traversal.ends (related order dag.childMap) depth dag.rootId := by
  rw [listAtDepth, nextLevels_eq, List.flatMap_singleton]

/-- **The traversals are exact iff no two paths of the depth lead to one vertex**, in a vault with
the invariant. -/
theorem WellFormed.traversalsExact_iff (h : dag.WellFormed) (depth : ℕ) :
    dag.TraversalsExact order depth ↔
      Traversal.UniqueWalks (fun p c => c ∈ dag.children p) depth dag.rootId := by
  have hchildren : (fun p c => c ∈ dag.children p) = dag.ParentOf :=
    funext fun p => funext fun c => propext (h.inverse p c)
  have hparents : (fun c p => p ∈ dag.parents c) = Function.swap dag.ParentOf := rfl
  have hdescendants : ∀ a b, b ∈ dag.findDescendants order a ↔
      Relation.TransGen (fun p c => c ∈ dag.children p) a b := fun _ _ => mem_collect
  have hancestors : ∀ a b, b ∈ dag.findAncestors order a ↔
      Relation.TransGen (fun c p => p ∈ dag.parents c) a b := fun _ _ => mem_collect
  have hacyclic : ¬ Traversal.Cyclic fun p c => c ∈ dag.children p := by
    rintro ⟨v, hv⟩
    rw [hchildren] at hv
    exact h.graphInvariant.acyclic v hv
  have hnext : ∀ a b, b ∈ related order dag.childMap a ↔ b ∈ dag.children a :=
    fun _ _ => mem_related
  have honce : (dag.listAtDepth order depth).Nodup ↔
      Traversal.UniqueWalks (fun p c => c ∈ dag.children p) depth dag.rootId := by
    rw [listAtDepth_eq]
    exact Traversal.nodup_ends_iff hnext fun _ => nodup_related
  refine ⟨fun hexact => honce.mp hexact.once, fun hunique => ?_⟩
  refine ⟨hdescendants, hancestors, fun a b => ?_, fun p c => ?_, fun v => ?_, honce.mpr hunique⟩
  · rw [hdescendants, hancestors, hchildren, hparents, Relation.transGen_swap]
  · rw [Traversal.cyclic_insert_iff hacyclic, hchildren, ← Relation.transGen_swap, ← hparents,
      ← hancestors]
    unfold wouldCreateCycle
    split_ifs with heq
    · exact iff_of_true rfl (.inl heq)
    · rw [decide_eq_true_iff, or_iff_right heq]
  · rw [listAtDepth_eq]
    exact Traversal.mem_ends hnext

/-! ## Runs -/

/-- **When the traversals are exact.** After every sequence of calls whose identifiers are new, the
closures, their duality and the check for cycles are right for all vertices, and the level of a
depth lists every vertex once, iff no two different paths of that length lead from the root to the
same vertex. -/
theorem traversalsExact_run_iff {rootId : VertexId} {now : DateTime} {ops : List Op}
    (hfresh : Runs.Steps (apply K) Fresh (new rootId now) ops)
    (order : VertexId → HashSet.Iteration VertexId) (depth : ℕ) :
    let dag := Runs.run (apply K) (new rootId now) ops
    dag.TraversalsExact order depth ↔
      Traversal.UniqueWalks (fun p c => c ∈ dag.children p) depth dag.rootId := by
  intro dag
  have h : dag.WellFormed :=
    Runs.run_rule WellFormed (fun _ _ h => h.apply) hfresh (wellFormed_new rootId now)
  exact h.traversalsExact_iff depth

/-- A secret in two categories. -/
noncomputable def twoCategories : List Op :=
  [.addSecret toyCrypto (toyDraws 1) (.new "work" "" "" 5) [],
    .addSecret toyCrypto (toyDraws 2) (.new "home" "" "" 5) [],
    .addSecret toyCrypto (toyDraws 3) (.new "bank" "user" "password" 5) ["work", "home"]]

/-- The vertices below the root are listed once, whatever hangs below them. -/
theorem traversalsExact_run_iff_children :
    (Runs.run (apply toyCrates) (new ⟨[0]⟩ 5) twoCategories).TraversalsExact
      (fun _ => .sorted) 1 := by
  refine (traversalsExact_run_iff (by decide +kernel) (fun _ => .sorted) 1).mpr ?_
  intro v l l' hl hl' hwalk hwalk'
  obtain ⟨b, rfl⟩ := List.length_eq_one_iff.mp hl
  obtain ⟨b', rfl⟩ := List.length_eq_one_iff.mp hl'
  rw [show b = v from hwalk.2, show b' = v from hwalk'.2]

/-- A secret in two categories is listed twice. -/
theorem not_traversalsExact_twoCategories :
    Runs.Steps (apply toyCrates) Fresh (new ⟨[0]⟩ 5) twoCategories ∧
      (Runs.run (apply toyCrates) (new ⟨[0]⟩ 5) twoCategories).listAtDepth (fun _ => .sorted) 2 =
        [⟨[3]⟩, ⟨[3]⟩] ∧
      ¬ (Runs.run (apply toyCrates) (new ⟨[0]⟩ 5) twoCategories).TraversalsExact
        (fun _ => .sorted) 2 := by
  have hlist : (Runs.run (apply toyCrates) (new ⟨[0]⟩ 5) twoCategories).listAtDepth
      (fun _ => .sorted) 2 = [⟨[3]⟩, ⟨[3]⟩] := by
    decide +kernel
  refine ⟨by decide +kernel, hlist, fun hexact => ?_⟩
  have honce := hexact.once
  rw [hlist] at honce
  exact absurd honce (by decide)

end VaultDag

end QuDAG.Vault
