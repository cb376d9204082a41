import QuDAG.Lib.Outcome
import QuDAG.Lib.RootedGraph
import QuDAG.Vault.VaultDag

/-!
# What every call keeps of the graph of the vault

Parents and children are inverse to each other, exactly the stored secrets have entries for their
parents, and the graph hangs from its root. Every addition, update and deletion keeps this, also one
that fails after it has created categories.

## Main definitions

* `VaultDag.graph` — the graph of a vault.
* `VaultDag.WellFormed` — the invariant.
* `VaultDag.Released` — what becomes of the children of a vertex that is removed.

## Main results

* `VaultDag.WellFormed.insertVertex`, `VaultDag.WellFormed.removeVertex` — the changes of the graph
  keep the invariant.
* `VaultDag.WellFormed.addSecret`, `VaultDag.WellFormed.updateSecret`,
  `VaultDag.WellFormed.deleteSecret` — so do the calls.
-/

namespace QuDAG.Vault

open RustStd

namespace VaultDag

variable {K : Crates} {crypto : VaultCrypto} {dag : VaultDag}

/-- The graph of the vault. -/
def graph (dag : VaultDag) : ParentGraph VertexId :=
  ⟨insert dag.rootId dag.secrets.keys, dag.parents⟩

/-- The vertices of the graph are the root and the secrets. -/
lemma mem_nodes {id : VertexId} : id ∈ dag.graph.nodes ↔ id = dag.rootId ∨ id ∈ dag.secrets := by
  show id ∈ insert dag.rootId dag.secrets.keys ↔ _
  rw [Finset.mem_insert, Finmap.mem_keys]

/-- The invariant of the vault. -/
structure WellFormed (dag : VaultDag) : Prop where
  /-- The secrets have entries for their parents. -/
  keys : ∀ id, id ∈ dag.parentMap ↔ id ∈ dag.secrets
  /-- Parents and children are inverse to each other. -/
  inverse : ∀ p c, c ∈ dag.children p ↔ p ∈ dag.parents c
  /-- The graph hangs from the root. -/
  rooted : dag.graph.Rooted dag.rootId
  /-- The root is not a secret. -/
  root_notMem : dag.rootId ∉ dag.secrets
  /-- A label leads to a secret with that label. -/
  labels : ∀ label id, dag.labelIndex.lookup label = some id →
    ∃ secret, dag.secrets.lookup id = some secret ∧ secret.label = label

/-- A vertex that is not stored has no parents. -/
lemma WellFormed.parents_of_notMem (h : dag.WellFormed) {id : VertexId} (hid : id ∉ dag.secrets) :
    dag.parents id = ∅ :=
  HashMap.members_of_notMem fun hmem => hid ((h.keys id).mp hmem)

/-- A label leads to a secret. -/
lemma WellFormed.mem_of_label (h : dag.WellFormed) {label : String} {id : VertexId}
    (hlabel : dag.labelIndex.lookup label = some id) : id ∈ dag.secrets := by
  obtain ⟨secret, hsecret, -⟩ := h.labels label id hlabel
  exact HashMap.mem_of_lookup hsecret

/-- Different labels lead to different secrets. -/
lemma WellFormed.label_injective (h : dag.WellFormed) {label label' : String} {id : VertexId}
    (hlabel : dag.labelIndex.lookup label = some id)
    (hlabel' : dag.labelIndex.lookup label' = some id) : label = label' := by
  obtain ⟨secret, hsecret, rfl⟩ := h.labels label id hlabel
  obtain ⟨secret', hsecret', rfl⟩ := h.labels label' id hlabel'
  rw [hsecret] at hsecret'
  rw [Option.some.inj hsecret']

/-- A new vault has no secrets. -/
lemma wellFormed_new (rootId : VertexId) (now : DateTime) : (new rootId now).WellFormed where
  keys _ := Iff.rfl
  inverse _ _ := iff_of_false (Finset.notMem_empty _) (Finset.notMem_empty _)
  rooted := by
    have hnodes : (new rootId now).graph.nodes = {rootId} := by
      ext id
      rw [mem_nodes, Finset.mem_singleton]
      exact or_iff_left Finmap.notMem_empty
    refine ⟨hnodes ▸ Finset.mem_singleton_self rootId, rfl, fun c hc hne => ?_,
      fun c _ => Finset.empty_subset _, fun v hv => ?_⟩
    · rw [hnodes] at hc
      exact absurd (Finset.mem_singleton.mp hc) hne
    · obtain ⟨p, -, hp⟩ := Relation.TransGen.tail'_iff.mp hv
      exact absurd hp.2 (Finset.notMem_empty p)
  root_notMem := Finmap.notMem_empty
  labels _ _ h := by cases h

/-! ## New vertices -/

/-- **A new vertex** below stored vertices keeps the invariant. -/
lemma WellFormed.insertVertex (h : dag.WellFormed) {id : VertexId} {secret : EncryptedSecret}
    {parentIds : HashSet VertexId} {order : List VertexId} {now : DateTime}
    (hnew : dag.IsFresh id) (hstored : ∀ p ∈ parentIds, p = dag.rootId ∨ p ∈ dag.secrets)
    (hsome : parentIds.Nonempty) (horder : parentIds.Enumerates order) :
    (insertVertex id secret parentIds order now dag).WellFormed where
  keys id' := by
    show id' ∈ dag.parentMap.insert id parentIds ↔ id' ∈ dag.secrets.insert id secret
    rw [Finmap.mem_insert, Finmap.mem_insert, h.keys]
  inverse p c := by
    show c ∈ HashMap.members
        (order.foldl (fun m parentId => HashMap.addMember m parentId id) dag.childMap) p ↔
      p ∈ HashMap.members (dag.parentMap.insert id parentIds) c
    rw [HashMap.mem_members_foldl_addMember, HashMap.members_insert, horder.2]
    have hold := h.inverse p c
    unfold children parents at hold
    rw [hold]
    by_cases hc : c = id
    · have hnone := h.parents_of_notMem hnew.2
      unfold parents at hnone
      rw [if_pos hc, hc, hnone]
      simp
    · simp [hc]
  rooted := by
    refine h.rooted.insert (v := id) ?_ (fun u hu => ?_) ?_ ?_ ?_
    · show insert dag.rootId (dag.secrets.insert id secret).keys = _
      rw [HashMap.keys_insert, Finset.insert_comm]
      rfl
    · have hu' : u ≠ id := by
        rintro rfl
        exact (mem_nodes.mp hu).elim hnew.1 hnew.2
      show HashMap.members (dag.parentMap.insert id parentIds) u = _
      rw [HashMap.members_insert, if_neg hu']
      rfl
    · show HashMap.members (dag.parentMap.insert id parentIds) id ⊆ _
      rw [HashMap.members_insert, if_pos rfl]
      exact fun p hp => mem_nodes.mpr (hstored p hp)
    · show (HashMap.members (dag.parentMap.insert id parentIds) id).Nonempty
      rw [HashMap.members_insert, if_pos rfl]
      exact hsome
    · exact fun hmem => (mem_nodes.mp hmem).elim hnew.1 hnew.2
  root_notMem hmem := (Finmap.mem_insert.mp hmem).elim (fun heq => hnew.1 heq.symm) h.root_notMem
  labels label id' hlabel := by
    replace hlabel : (dag.labelIndex.insert secret.label id).lookup label = some id' := hlabel
    show ∃ s, (dag.secrets.insert id secret).lookup id' = some s ∧ s.label = label
    rw [HashMap.lookup_insert_ite] at hlabel ⊢
    split_ifs at hlabel with heq
    · rw [if_pos (Option.some.inj hlabel).symm]
      exact ⟨secret, rfl, heq.symm⟩
    · have hne : id' ≠ id := fun hid => hnew.2 (hid ▸ h.mem_of_label hlabel)
      rw [if_neg hne]
      exact h.labels label id' hlabel

/-! ## Removed vertices -/

/-- What becomes of some children when they lose a parent: a child that has other parents keeps
them, one without is attached to the root. Nothing else changes. -/
structure Released (id : VertexId) (ids : List VertexId) (dag after : VaultDag) : Prop where
  /-- The root stays. -/
  rootId : after.rootId = dag.rootId
  /-- So do the secrets. -/
  secrets : after.secrets = dag.secrets
  /-- So do the labels. -/
  labelIndex : after.labelIndex = dag.labelIndex
  /-- The same vertices have entries for their parents. -/
  keys : ∀ c, c ∈ after.parentMap ↔ c ∈ dag.parentMap
  /-- The parents. -/
  parents : ∀ c, after.parents c =
    if c ∈ ids ∧ c ∈ dag.parentMap then
      if (dag.parents c).erase id = ∅ then {dag.rootId} else (dag.parents c).erase id
    else dag.parents c
  /-- The children. -/
  children : ∀ p c, c ∈ after.children p ↔ c ∈ dag.children p ∨
    (p = dag.rootId ∧ c ∈ ids ∧ c ∈ dag.parentMap ∧ (dag.parents c).erase id = ∅)

/-- Nothing changes for no children. -/
lemma Released.nil (id : VertexId) (dag : VaultDag) : Released id [] dag dag where
  rootId := rfl
  secrets := rfl
  labelIndex := rfl
  keys _ := Iff.rfl
  parents c := by rw [if_neg fun h => List.not_mem_nil h.1]
  children p c := by simp

/-- One child. -/
lemma released_removeParent (id : VertexId) (dag : VaultDag) (childId : VertexId) :
    Released id [childId] dag (removeParent id dag childId) := by
  unfold removeParent
  cases hlookup : dag.parentMap.lookup childId with
  | none =>
    have hnot : childId ∉ dag.parentMap := Finmap.lookup_eq_none.mp hlookup
    have hfalse : ∀ c, ¬ (c ∈ [childId] ∧ c ∈ dag.parentMap) := fun c h =>
      hnot (List.mem_singleton.mp h.1 ▸ h.2)
    refine ⟨rfl, rfl, rfl, fun _ => Iff.rfl, fun c => ?_, fun p c => ?_⟩
    · rw [if_neg (hfalse c)]
    · exact (or_iff_left fun h => hfalse c ⟨h.2.1, h.2.2.1⟩).symm
  | some parents =>
    have hmem : childId ∈ dag.parentMap := HashMap.mem_of_lookup hlookup
    have hparents : dag.parents childId = parents := HashMap.members_of_lookup hlookup
    have hkeys : ∀ (s : HashSet VertexId) c,
        c ∈ dag.parentMap.insert childId s ↔ c ∈ dag.parentMap := fun s c => by
      rw [Finmap.mem_insert]
      exact or_iff_right_of_imp fun heq => heq ▸ hmem
    dsimp only
    split_ifs with hempty
    · refine ⟨rfl, rfl, rfl, hkeys _, fun c => ?_, fun p c => ?_⟩
      · show HashMap.members (dag.parentMap.insert childId {dag.rootId}) c = _
        rw [HashMap.members_insert]
        by_cases hc : c = childId
        · subst hc
          rw [if_pos rfl, if_pos ⟨List.mem_singleton_self c, hmem⟩, hparents, if_pos hempty]
        · rw [if_neg hc, if_neg fun h => hc (List.mem_singleton.mp h.1)]
          rfl
      · show c ∈ HashMap.members (HashMap.addMember dag.childMap dag.rootId childId) p ↔ _
        rw [HashMap.mem_members_addMember, List.mem_singleton, or_comm]
        refine or_congr_right ⟨?_, fun h => ⟨h.1, h.2.1⟩⟩
        rintro ⟨hp, rfl⟩
        exact ⟨hp, rfl, hmem, hparents ▸ hempty⟩
    · refine ⟨rfl, rfl, rfl, hkeys _, fun c => ?_, fun p c => ?_⟩
      · show HashMap.members (dag.parentMap.insert childId (parents.erase id)) c = _
        rw [HashMap.members_insert]
        by_cases hc : c = childId
        · subst hc
          rw [if_pos rfl, if_pos ⟨List.mem_singleton_self c, hmem⟩, hparents, if_neg hempty]
        · rw [if_neg hc, if_neg fun h => hc (List.mem_singleton.mp h.1)]
          rfl
      · refine (or_iff_left fun h => hempty ?_).symm
        rw [← hparents, ← List.mem_singleton.mp h.2.1]
        exact h.2.2.2

/-- One child and then others. -/
lemma Released.cons {id childId : VertexId} {ids : List VertexId} {dag mid after : VaultDag}
    (hfirst : Released id [childId] dag mid) (hrest : Released id ids mid after)
    (hnew : childId ∉ ids) : Released id (childId :: ids) dag after := by
  have hother : ∀ c ∈ ids, mid.parents c = dag.parents c := fun c hc => by
    have hne : c ≠ childId := fun heq => hnew (heq ▸ hc)
    rw [hfirst.parents, if_neg fun h => hne (List.mem_singleton.mp h.1)]
  refine ⟨hrest.rootId.trans hfirst.rootId, hrest.secrets.trans hfirst.secrets,
    hrest.labelIndex.trans hfirst.labelIndex, fun c => (hrest.keys c).trans (hfirst.keys c),
    fun c => ?_, fun p c => ?_⟩
  · simp only [hrest.parents, hfirst.keys, hfirst.rootId, List.mem_cons]
    by_cases hc : c ∈ ids
    · rw [hother c hc]
      simp [hc]
    · simp [hc, hfirst.parents]
  · rw [hrest.children, hfirst.children, hfirst.keys, hfirst.rootId, List.mem_singleton,
      List.mem_cons, or_assoc]
    refine or_congr_right ?_
    constructor
    · rintro (⟨hp, hc, h⟩ | ⟨hp, hc, hmem, hempty⟩)
      · exact ⟨hp, .inl hc, h⟩
      · exact ⟨hp, .inr hc, hmem, hother c hc ▸ hempty⟩
    · rintro ⟨hp, hc | hc, hmem, hempty⟩
      · exact .inl ⟨hp, hc, hmem, hempty⟩
      · exact .inr ⟨hp, hc, hmem, (hother c hc).symm ▸ hempty⟩

/-- Any children. -/
lemma released_foldl {id : VertexId} {ids : List VertexId} (hnodup : ids.Nodup) :
    ∀ dag, Released id ids dag (ids.foldl (removeParent id) dag) := by
  induction ids with
  | nil => exact Released.nil id
  | cons childId ids ih =>
    intro dag
    obtain ⟨hnew, hnodup⟩ := List.nodup_cons.mp hnodup
    exact (released_removeParent id dag childId).cons (ih hnodup _) hnew

/-- **A vertex is no longer the parent of its children.** -/
lemma exists_released (order : HashSet.Iteration VertexId) (id : VertexId) (dag : VaultDag) :
    ∃ ids, (∀ c, c ∈ ids ↔ c ∈ dag.children id) ∧
      Released id ids { dag with childMap := dag.childMap.erase id } (release order id dag) := by
  unfold release
  cases hlookup : dag.childMap.lookup id with
  | none =>
    have hnot : id ∉ dag.childMap := Finmap.lookup_eq_none.mp hlookup
    have herase : dag.childMap.erase id = dag.childMap := by
      refine Finmap.ext_lookup fun c => ?_
      by_cases hc : c = id
      · rw [hc, Finmap.lookup_erase, hlookup]
      · rw [Finmap.lookup_erase_ne hc]
    refine ⟨[], fun c => ?_, ?_⟩
    · rw [show dag.children id = ∅ from HashMap.members_of_notMem hnot]
      simp
    · rw [herase]
      exact .nil id dag
  | some children =>
    refine ⟨order.order children, fun c => ?_, released_foldl (order.enumerates children).1 _⟩
    rw [HashSet.Iteration.mem_order, show dag.children id = children from
      HashMap.members_of_lookup hlookup]

/-- **A vertex is no longer the child of its parents**, and has none. -/
lemma detach_spec (order : HashSet.Iteration VertexId) (id : VertexId) (dag : VaultDag) :
    let after := detach order id dag
    after.rootId = dag.rootId ∧ after.secrets = dag.secrets ∧ after.labelIndex = dag.labelIndex ∧
      (∀ c, c ∈ after.parentMap ↔ c ≠ id ∧ c ∈ dag.parentMap) ∧
      (∀ c, after.parents c = if c = id then ∅ else dag.parents c) ∧
      ∀ p c, c ∈ after.children p ↔ c ∈ dag.children p ∧ ¬ (p ∈ dag.parents id ∧ c = id) := by
  dsimp only
  unfold detach
  cases hlookup : dag.parentMap.lookup id with
  | none =>
    have hnot : id ∉ dag.parentMap := Finmap.lookup_eq_none.mp hlookup
    have hempty : dag.parents id = ∅ := HashMap.members_of_notMem hnot
    refine ⟨rfl, rfl, rfl, fun c => ?_, fun c => ?_, fun p c => ?_⟩
    · refine (and_iff_right_of_imp ?_).symm
      rintro hc rfl
      exact hnot hc
    · split_ifs with hc
      · rw [hc, hempty]
      · rfl
    · rw [hempty]
      simp
  | some parents =>
    have hparents : dag.parents id = parents := HashMap.members_of_lookup hlookup
    refine ⟨rfl, rfl, rfl, fun c => Finmap.mem_erase, fun c => ?_, fun p c => ?_⟩
    · exact HashMap.members_erase dag.parentMap id c
    · show c ∈ HashMap.members ((order.order parents).foldl
        (fun m parentId => HashMap.removeMember m parentId id) dag.childMap) p ↔ _
      rw [HashMap.mem_members_foldl_removeMember, HashSet.Iteration.mem_order, hparents]
      rfl

/-- **The graph after a vertex was removed**: the other vertices lose it as a parent, and those that
are left without one are attached to the root. -/
lemma WellFormed.removeVertex_spec (h : dag.WellFormed) {id : VertexId} (hid : id ∈ dag.secrets)
    (parents children : HashSet.Iteration VertexId) (label : String) :
    let after := removeVertex parents children label id dag
    after.rootId = dag.rootId ∧ after.secrets = dag.secrets.erase id ∧
      after.labelIndex = dag.labelIndex.erase label ∧
      (∀ c, c ∈ after.parentMap ↔ c ≠ id ∧ c ∈ dag.parentMap) ∧
      (∀ c, after.parents c = if c = id then ∅
        else if id ∈ dag.parents c ∧ (dag.parents c).erase id = ∅ then {dag.rootId}
        else (dag.parents c).erase id) ∧
      ∀ p c, c ∈ after.children p ↔ c ≠ id ∧ ((p ≠ id ∧ c ∈ dag.children p) ∨
        (p = dag.rootId ∧ id ∈ dag.parents c ∧ (dag.parents c).erase id = ∅)) := by
  intro after
  have hself : id ∉ dag.parents id := fun hmem =>
    h.rooted.acyclic id (.single ⟨mem_nodes.mpr (.inr hid), hmem⟩)
  let cleared : VaultDag := { dag with
    secrets := dag.secrets.erase id
    labelIndex := dag.labelIndex.erase label
    createdAtMap := dag.createdAtMap.erase id
    updatedAtMap := dag.updatedAtMap.erase id }
  obtain ⟨hroot, hsecrets, hindex, hkeys, hparents, hchildren⟩ := detach_spec parents id cleared
  have hlast : after = release children id (detach parents id cleared) := rfl
  generalize detach parents id cleared = detached at *
  replace hroot : detached.rootId = dag.rootId := hroot
  obtain ⟨ids, hids, hreleased⟩ := exists_released children id detached
  rw [← hlast] at hreleased
  -- the children that lose the vertex are those that have it as a parent
  have hmem : ∀ c, c ∈ ids ↔ id ∈ dag.parents c := fun c => by
    rw [hids, hchildren]
    exact (and_iff_left fun hc => hself hc.1).trans (h.inverse id c)
  have hstored : ∀ c, id ∈ dag.parents c → c ≠ id ∧ c ∈ detached.parentMap := fun c hc => by
    have hne : c ≠ id := by
      rintro rfl
      exact hself hc
    refine ⟨hne, (hkeys c).mpr ⟨hne, ?_⟩⟩
    by_contra hnot
    rw [show dag.parents c = ∅ from HashMap.members_of_notMem hnot] at hc
    exact Finset.notMem_empty id hc
  have hold : ∀ c, c ≠ id → detached.parents c = dag.parents c := fun c hc =>
    (hparents c).trans (if_neg hc)
  refine ⟨hreleased.rootId.trans hroot, hreleased.secrets.trans hsecrets,
    hreleased.labelIndex.trans hindex, fun c => (hreleased.keys c).trans (hkeys c), fun c => ?_,
    fun p c => ?_⟩
  · by_cases hc : id ∈ dag.parents c
    · obtain ⟨hne, hkey⟩ := hstored c hc
      refine (hreleased.parents c).trans ?_
      rw [if_pos ⟨(hmem c).mpr hc, hkey⟩, if_neg hne]
      show (if (detached.parents c).erase id = ∅ then {detached.rootId}
        else (detached.parents c).erase id) = _
      rw [hold c hne, hroot]
      simp only [hc, true_and]
    · refine (hreleased.parents c).trans ?_
      rw [if_neg fun hboth => hc ((hmem c).mp hboth.1), Finset.erase_eq_of_notMem hc]
      simp only [hc, false_and, if_false]
      exact hparents c
  · refine (hreleased.children p c).trans ?_
    show c ∈ HashMap.members (detached.childMap.erase id) p ∨ (p = detached.rootId ∧ c ∈ ids ∧
      c ∈ detached.parentMap ∧ (detached.parents c).erase id = ∅) ↔ _
    have hkept : c ∈ HashMap.members (detached.childMap.erase id) p ↔
        c ≠ id ∧ p ≠ id ∧ c ∈ dag.children p := by
      rw [HashMap.members_erase]
      split_ifs with hp
      · simp [hp]
      · refine (hchildren p c).trans ?_
        constructor
        · rintro ⟨hc, hnot⟩
          exact ⟨fun heq => hnot ⟨heq ▸ (h.inverse p c).mp hc, heq⟩, hp, hc⟩
        · rintro ⟨hne, -, hc⟩
          exact ⟨hc, fun hboth => hne hboth.2⟩
    have hadopted : (p = detached.rootId ∧ c ∈ ids ∧ c ∈ detached.parentMap ∧
        (detached.parents c).erase id = ∅) ↔
        c ≠ id ∧ p = dag.rootId ∧ id ∈ dag.parents c ∧ (dag.parents c).erase id = ∅ := by
      rw [hmem, hroot]
      constructor
      · rintro ⟨hp, hc, -, hempty⟩
        obtain ⟨hne, -⟩ := hstored c hc
        exact ⟨hne, hp, hc, hold c hne ▸ hempty⟩
      · rintro ⟨hne, hp, hc, hempty⟩
        exact ⟨hp, hc, (hstored c hc).2, (hold c hne).symm ▸ hempty⟩
    rw [hkept, hadopted, ← and_or_left]

/-- **Removing a vertex with its label** keeps the invariant. -/
lemma WellFormed.removeVertex (h : dag.WellFormed) {label : String} {id : VertexId}
    (hlabel : dag.labelIndex.lookup label = some id)
    (parents children : HashSet.Iteration VertexId) :
    (removeVertex parents children label id dag).WellFormed := by
  have hid : id ∈ dag.secrets := h.mem_of_label hlabel
  have hne : id ≠ dag.rootId := fun heq => h.root_notMem (heq ▸ hid)
  obtain ⟨hroot, hsecrets, hindex, hkeys, hparents, hchildren⟩ :=
    h.removeVertex_spec hid parents children label
  generalize VaultDag.removeVertex parents children label id dag = after at *
  have hmem : ∀ c, c ∈ after.secrets ↔ c ≠ id ∧ c ∈ dag.secrets := fun c => by
    rw [hsecrets, Finmap.mem_erase]
  have hrootParents : dag.parents dag.rootId = ∅ := h.rooted.root_parents
  -- a secret has parents, so one without others has the vertex as its parent
  have hlost : ∀ c ∈ dag.secrets, (dag.parents c).erase id = ∅ → id ∈ dag.parents c := by
    intro c hc hempty
    by_contra hnot
    rw [Finset.erase_eq_of_notMem hnot] at hempty
    have hcroot : c ≠ dag.rootId := fun heq => h.root_notMem (heq ▸ hc)
    exact (h.rooted.nonempty c (mem_nodes.mpr (.inr hc)) hcroot).ne_empty hempty
  refine ⟨fun c => ?_, fun p c => ?_, ?_, ?_, fun label' id' hlabel' => ?_⟩
  · rw [hkeys, hmem, h.keys]
  · rw [hchildren, hparents]
    by_cases hc : c = id
    · simp [hc]
    · rw [if_neg hc, and_iff_right hc, h.inverse]
      split_ifs with hempty
      · have hnone : ¬ (p ≠ id ∧ p ∈ dag.parents c) := fun hp =>
          Finset.notMem_empty p (hempty.2 ▸ Finset.mem_erase.mpr hp)
        rw [or_iff_right hnone, and_iff_left hempty, Finset.mem_singleton]
      · rw [or_iff_left fun hp => hempty hp.2, Finset.mem_erase]
  · rw [hroot]
    refine h.rooted.splice hne ?_ ?_ fun c hc hcroot => ?_
    · ext c
      rw [mem_nodes, hmem, hroot, Finset.mem_erase, mem_nodes]
      constructor
      · rintro (rfl | ⟨hc, hstored⟩)
        · exact ⟨hne.symm, .inl rfl⟩
        · exact ⟨hc, .inr hstored⟩
      · rintro ⟨hc, rfl | hstored⟩
        · exact .inl rfl
        · exact .inr ⟨hc, hstored⟩
    · refine (hparents dag.rootId).trans ?_
      rw [if_neg hne.symm, hrootParents]
      simp
    · have hc' := (hmem c).mp ((mem_nodes.mp hc).resolve_left fun heq => hcroot (heq.trans hroot))
      refine (hparents c).trans ?_
      rw [if_neg hc'.1]
      show _ = if (dag.parents c).erase id = ∅ then {dag.rootId} else (dag.parents c).erase id
      by_cases hempty : (dag.parents c).erase id = ∅
      · rw [if_pos hempty, if_pos ⟨hlost c hc'.2 hempty, hempty⟩]
      · rw [if_neg hempty, if_neg fun hboth => hempty hboth.2]
  · rw [hroot, hmem]
    exact fun hboth => h.root_notMem hboth.2
  · rw [hindex] at hlabel'
    have hlabelNe : label' ≠ label := by
      rintro rfl
      rw [Finmap.lookup_erase] at hlabel'
      cases hlabel'
    rw [Finmap.lookup_erase_ne hlabelNe] at hlabel'
    have hidNe : id' ≠ id := by
      rintro rfl
      exact hlabelNe (h.label_injective hlabel' hlabel)
    obtain ⟨secret, hsecret, hsecretLabel⟩ := h.labels label' id' hlabel'
    refine ⟨secret, ?_, hsecretLabel⟩
    rw [hsecrets, Finmap.lookup_erase_ne hidNe, hsecret]

/-! ## The calls -/

/-- The state that is read is the state. -/
lemma run_get (dag : VaultDag) :
    (Fallible.get : Fallible VaultError VaultDag VaultDag).run dag = (.ok dag, dag) := rfl

/-- An encrypted secret keeps its label. -/
lemma label_encryptSecret {fields : HashMap.Iteration String String} {nonce : Nonce}
    {secret : SecretEntry} {encrypted : EncryptedSecret}
    (h : crypto.encryptSecret K fields nonce secret = .ok encrypted) :
    encrypted.label = secret.label := by
  obtain ⟨data, -, h⟩ := bind_eq_ok.mp h
  rw [← Except.ok.inj h]

/-- The creation of a missing category: its entry cannot be encrypted and nothing changes, or it is
stored below the root. -/
lemma run_createCategory (fields : HashMap.Iteration String String) (draws : CategoryDraws)
    {label : String} (hmissing : dag.labelIndex.lookup label = none) :
    (∃ e, (createCategory K crypto fields draws label).run dag = (.error e, dag)) ∨
    ∃ secret, secret.label = label ∧ (createCategory K crypto fields draws label).run dag =
      (.ok draws.vertexId,
        insertVertex draws.vertexId secret {dag.rootId} [dag.rootId] draws.now dag) := by
  unfold createCategory
  rw [Fallible.run_bind_of_ok (run_get dag), hmissing]
  dsimp only
  cases hencrypted : crypto.encryptSecret K fields draws.nonce
    (SecretEntry.new label "" "" draws.created) with
  | error e => exact .inl ⟨e, Fallible.run_bind_of_error rfl⟩
  | ok secret =>
    exact .inr ⟨secret, label_encryptSecret hencrypted, Fallible.run_bind_of_ok rfl⟩

/-- What remains true while the parents of a new vertex are looked up. -/
structure Prepared (draws : AddDraws) (parentIds : HashSet VertexId) (dag : VaultDag) : Prop where
  /-- The invariant. -/
  wellFormed : dag.WellFormed
  /-- The identifier of the vertex is new. -/
  fresh : dag.IsFresh draws.vertexId
  /-- The parents found so far are the root or stored. -/
  stored : ∀ p ∈ parentIds, p = dag.rootId ∨ p ∈ dag.secrets

/-- A vertex for a missing label. -/
lemma Prepared.insertVertex {draws : AddDraws} {parentIds : HashSet VertexId}
    (h : Prepared draws parentIds dag) {id : VertexId} (hnew : dag.IsFresh id)
    (hother : id ≠ draws.vertexId) (secret : EncryptedSecret) (now : DateTime) :
    Prepared draws (insert id parentIds)
      (insertVertex id secret {dag.rootId} [dag.rootId] now dag) := by
  have hsecrets : ∀ c,
      c ∈ (VaultDag.insertVertex id secret {dag.rootId} [dag.rootId] now dag).secrets ↔
        c = id ∨ c ∈ dag.secrets := fun c => Finmap.mem_insert
  refine ⟨h.wellFormed.insertVertex hnew (fun p hp => .inl (Finset.mem_singleton.mp hp))
    (Finset.singleton_nonempty _) ⟨List.nodup_singleton _, fun p => by simp⟩,
    ⟨h.fresh.1, fun hmem => ?_⟩, fun p hp => ?_⟩
  · exact ((hsecrets _).mp hmem).elim (fun heq => hother heq.symm) h.fresh.2
  · rcases Finset.mem_insert.mp hp with rfl | hp
    · exact .inr ((hsecrets p).mpr (.inl rfl))
    · exact (h.stored p hp).imp_right fun hp => (hsecrets p).mpr (.inr hp)

/-- No parents are found yet. -/
lemma Prepared.forget {draws : AddDraws} {parentIds : HashSet VertexId}
    (h : Prepared draws parentIds dag) : Prepared draws ∅ dag :=
  ⟨h.wellFormed, h.fresh, fun p hp => absurd hp (Finset.notMem_empty p)⟩

/-- The identifiers for the other labels are new as well. -/
lemma FreshCategories.tail {draws : AddDraws} {label : String} {labels : List String}
    (h : dag.FreshCategories draws (label :: labels)) : dag.FreshCategories draws labels := by
  intro label' hlabel' hmissing
  obtain ⟨hnew, hother, hdifferent⟩ := h label' (.tail _ hlabel') hmissing
  exact ⟨hnew, hother, fun l hl => hdifferent l (.tail _ hl)⟩

/-- They remain new when the category for a label is created. -/
lemma FreshCategories.created {draws : AddDraws} {label : String} {labels : List String}
    (h : dag.FreshCategories draws (label :: labels)) (hmissing : label ∉ dag.labelIndex)
    {secret : EncryptedSecret} (hlabel : secret.label = label) (now : DateTime) :
    (insertVertex (draws.category label).vertexId secret {dag.rootId} [dag.rootId] now
      dag).FreshCategories draws labels := by
  intro label' hlabel' hmissing'
  obtain ⟨hne, hmissing'⟩ : label' ≠ label ∧ label' ∉ dag.labelIndex := by
    have hnot : ¬ (label' = secret.label ∨ label' ∈ dag.labelIndex) := fun hmem =>
      hmissing' (Finmap.mem_insert.mpr hmem)
    rw [hlabel] at hnot
    exact not_or.mp hnot
  obtain ⟨hnew, hother, hdifferent⟩ := h.tail label' hlabel' hmissing'
  refine ⟨⟨hnew.1, fun hmem => ?_⟩, hother, fun l hl hl' => hdifferent l hl fun hmem => ?_⟩
  · rcases Finmap.mem_insert.mp hmem with heq | hmem
    · exact hne ((h label (.head _) hmissing).2.2 label' (.tail _ hlabel') hmissing' heq)
    · exact hnew.2 hmem
  · exact hl' (Finmap.mem_insert.mpr (.inr hmem))

/-- **Looking up the parents** keeps what remains true, also when a category cannot be created, and
finds some parent for every list of labels that is not empty.

**Proof sketch.** Induction on the labels. A category that is created takes its label from those
that are missing, so the identifiers for the labels that are still missing remain new. -/
lemma run_findParents {draws : AddDraws} {labels : List String} :
    ∀ {parentIds : HashSet VertexId} {dag : VaultDag}, Prepared draws parentIds dag →
      dag.FreshCategories draws labels →
      (∃ e after, (findParents K crypto draws labels parentIds).run dag = (.error e, after) ∧
        Prepared draws ∅ after) ∨
      ∃ found after, (findParents K crypto draws labels parentIds).run dag = (.ok found, after) ∧
        Prepared draws found after ∧ (labels ≠ [] ∨ parentIds.Nonempty → found.Nonempty) := by
  induction labels with
  | nil =>
    intro parentIds dag h _
    exact .inr ⟨parentIds, dag, rfl, h, fun hsome => hsome.resolve_left fun hne => hne rfl⟩
  | cons label labels ih =>
    intro parentIds dag h hfresh
    have hadded : ∀ (id : VertexId) (found : HashSet VertexId),
        (labels ≠ [] ∨ (insert id parentIds).Nonempty → found.Nonempty) →
          (label :: labels ≠ [] ∨ parentIds.Nonempty → found.Nonempty) := fun _ _ hsome _ =>
      hsome (.inr (Finset.insert_nonempty _ _))
    unfold findParents
    rw [Fallible.run_bind_of_ok (run_get dag)]
    cases hlookup : dag.labelIndex.lookup label with
    | some id =>
      have hnext : Prepared draws (insert id parentIds) dag :=
        ⟨h.wellFormed, h.fresh, fun p hp => by
          rcases Finset.mem_insert.mp hp with rfl | hp
          · exact .inr (h.wellFormed.mem_of_label hlookup)
          · exact h.stored p hp⟩
      rcases ih hnext hfresh.tail with hfails | ⟨found, after, hrun, hfound, hsome⟩
      · exact .inl hfails
      · exact .inr ⟨found, after, hrun, hfound, hadded id found hsome⟩
    | none =>
      have hmissing : label ∉ dag.labelIndex := Finmap.lookup_eq_none.mp hlookup
      obtain ⟨hnew, hother, -⟩ := hfresh label (.head _) hmissing
      dsimp only
      rcases @run_createCategory K crypto dag draws.fields (draws.category label) label hlookup with
        ⟨e, hrun⟩ | ⟨secret, hlabel, hrun⟩
      · exact .inl ⟨e, dag, Fallible.run_bind_of_error hrun, h.forget⟩
      · rw [Fallible.run_bind_of_ok hrun]
        rcases ih (h.insertVertex hnew hother secret (draws.category label).now)
          (hfresh.created hmissing hlabel _) with hfails | ⟨found, after, hrun, hfound, hsome⟩
        · exact .inl hfails
        · exact .inr ⟨found, after, hrun, hfound, hadded _ found hsome⟩

/-- **An addition** keeps the invariant. -/
lemma WellFormed.addSecret (h : dag.WellFormed) {draws : AddDraws} {secret : SecretEntry}
    {parentLabels : List String} (hnew : dag.IsFresh draws.vertexId)
    (hfresh : dag.FreshCategories draws parentLabels) :
    ((addSecret K crypto draws secret parentLabels).run dag).2.WellFormed := by
  have hstart : Prepared draws ∅ dag := ⟨h, hnew, fun p hp => absurd hp (Finset.notMem_empty p)⟩
  unfold VaultDag.addSecret
  rw [Fallible.run_bind_of_ok (run_get dag)]
  by_cases hexists : secret.label ∈ dag.labelIndex
  · rw [if_pos hexists]
    exact h
  · rw [if_neg hexists]
    cases hencrypted : crypto.encryptSecret K draws.fields draws.nonce secret with
    | error e => exact h
    | ok encrypted =>
      rw [Fallible.run_bind_of_ok (show (Fallible.ofExcept (.ok encrypted) :
        Fallible VaultError VaultDag _).run dag = (.ok encrypted, dag) from rfl)]
      have hstored : ∀ {parentIds : HashSet VertexId} {dag : VaultDag},
          Prepared draws parentIds dag → parentIds.Nonempty →
          (VaultDag.insertVertex draws.vertexId encrypted parentIds (draws.parents.order parentIds)
            draws.now dag).WellFormed := fun h hsome =>
        h.wellFormed.insertVertex h.fresh h.stored hsome (draws.parents.enumerates _)
      by_cases hempty : parentLabels.isEmpty = true
      · rw [if_pos hempty, Fallible.run_bind_of_ok (Fallible.run_pure _ _)]
        exact hstored ⟨h, hnew, fun p hp => .inl (Finset.mem_singleton.mp hp)⟩
          (Finset.singleton_nonempty _)
      · rw [if_neg hempty]
        rcases @run_findParents K crypto draws parentLabels ∅ dag hstart hfresh with
          ⟨e, after, hrun, hafter⟩ | ⟨found, after, hrun, hafter, hsome⟩
        · rw [Fallible.run_bind_of_error hrun]
          exact hafter.wellFormed
        · rw [Fallible.run_bind_of_ok hrun]
          exact hstored hafter (hsome (.inl fun heq => hempty (List.isEmpty_iff.mpr heq)))

/-- Replacing a secret keeps the graph. -/
lemma WellFormed.replaceSecret (h : dag.WellFormed) {id : VertexId} (hid : id ∈ dag.secrets)
    {secret : EncryptedSecret} {index : HashMap String VertexId}
    (hlabels : ∀ label id', index.lookup label = some id' →
      ∃ s, (dag.secrets.insert id secret).lookup id' = some s ∧ s.label = label) :
    WellFormed { dag with secrets := dag.secrets.insert id secret, labelIndex := index } := by
  have hmem : ∀ c, c ∈ dag.secrets.insert id secret ↔ c ∈ dag.secrets := fun c => by
    rw [Finmap.mem_insert]
    exact or_iff_right_of_imp fun heq => heq ▸ hid
  refine ⟨fun c => (h.keys c).trans (hmem c).symm, h.inverse, ?_,
    fun hroot => h.root_notMem ((hmem _).mp hroot), hlabels⟩
  have hnodes : insert dag.rootId (dag.secrets.insert id secret).keys =
      insert dag.rootId dag.secrets.keys := by
    rw [HashMap.keys_insert, Finset.insert_eq_of_mem (Finmap.mem_keys.mpr hid)]
  show (ParentGraph.mk (insert dag.rootId (dag.secrets.insert id secret).keys)
    dag.parents).Rooted dag.rootId
  rw [hnodes]
  exact h.rooted

/-- **An update** keeps the invariant: the graph stays, and the secret is found by its new label. -/
lemma WellFormed.updateSecret (h : dag.WellFormed) {fields : HashMap.Iteration String String}
    {nonce : Nonce} {label : String} {newSecret : SecretEntry} :
    ((updateSecret K crypto fields nonce label newSecret).run dag).2.WellFormed := by
  unfold VaultDag.updateSecret
  rw [Fallible.run_bind_of_ok (run_get dag)]
  cases hlookup : dag.labelIndex.lookup label with
  | none => exact h
  | some id =>
    dsimp only
    cases hencrypted : crypto.encryptSecret K fields nonce newSecret with
    | error e => exact h
    | ok encrypted =>
      have hencryptedLabel := label_encryptSecret hencrypted
      have hid := h.mem_of_label hlookup
      -- another label leads to another secret, which stays
      have hothers : ∀ label' id', label' ≠ label → dag.labelIndex.lookup label' = some id' →
          ∃ s, (dag.secrets.insert id encrypted).lookup id' = some s ∧ s.label = label' := by
        intro label' id' hne hlabel'
        have hidNe : id' ≠ id := fun heq => hne (h.label_injective hlabel' (heq ▸ hlookup))
        rw [Finmap.lookup_insert_of_ne _ hidNe]
        exact h.labels label' id' hlabel'
      rw [Fallible.run_bind_of_ok (show (Fallible.ofExcept (.ok encrypted) :
          Fallible VaultError VaultDag _).run dag = (.ok encrypted, dag) from rfl),
        Fallible.run_bind_of_ok (Fallible.run_modify _ _)]
      split_ifs with hrenamed
      · refine h.replaceSecret hid fun label' id' hlabel' => ?_
        rw [HashMap.lookup_insert_ite] at hlabel'
        split_ifs at hlabel' with heq
        · obtain rfl := Option.some.inj hlabel'
          exact ⟨encrypted, Finmap.lookup_insert _, hencryptedLabel.trans heq.symm⟩
        · have hne : label' ≠ label := by
            rintro rfl
            rw [Finmap.lookup_erase] at hlabel'
            cases hlabel'
          exact hothers label' id' hne (Finmap.lookup_erase_ne hne ▸ hlabel')
      · refine h.replaceSecret hid fun label' id' hlabel' => ?_
        by_cases hne : label' = label
        · rw [hne, hlookup] at hlabel'
          obtain rfl := Option.some.inj hlabel'
          exact ⟨encrypted, Finmap.lookup_insert _,
            hencryptedLabel.trans (hne.trans (not_not.mp hrenamed)).symm⟩
        · exact hothers label' id' hne hlabel'

/-- **A deletion** keeps the invariant. -/
lemma WellFormed.deleteSecret (h : dag.WellFormed) {parents children : HashSet.Iteration VertexId}
    {label : String} : ((deleteSecret parents children label).run dag).2.WellFormed := by
  unfold VaultDag.deleteSecret
  rw [Fallible.run_bind_of_ok (run_get dag)]
  cases hlookup : dag.labelIndex.lookup label with
  | none => exact h
  | some id => exact h.removeVertex hlookup parents children

end VaultDag

end QuDAG.Vault
