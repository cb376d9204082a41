import QuDAG.Lib.Runs
import QuDAG.Vault.GraphInvariant

/-!
# Vaults that are written and read back

A vault that is written and read back has the same root, the same secrets, and the same parents and
children, whatever the orders of iteration. So the graph of the vault is as it should be after every
sequence of calls.

## Main definitions

* `VaultDag.SameGraph` — the vaults have the same root, secrets, parents and children.
* `VaultDag.GraphInvariant` — what holds of the graph of a vault.

## Main results

* `VaultDag.deserialize_serialize` — a vault is read back.
* `VaultDag.graphInvariant_run` — every reachable vault has the invariant and is read back.
-/

namespace QuDAG.Vault

open RustStd

namespace VaultDag

variable {K : Crates} {dag : VaultDag}

/-! ## What is written and read -/

/-- The vaults have the same root, secrets, parents and children. -/
structure SameGraph (dag loaded : VaultDag) : Prop where
  /-- The root. -/
  rootId : loaded.rootId = dag.rootId
  /-- The secrets. -/
  secrets : loaded.secrets = dag.secrets
  /-- The parents. -/
  parentMap : loaded.parentMap = dag.parentMap
  /-- The children. -/
  children : ∀ id, loaded.children id = dag.children id

/-- A vertex ID is read back. -/
lemma decodeId_encode (error : String) (id : VertexId) :
    decodeId error (Hex.encode id.asBytes) = .ok id := by
  unfold decodeId
  rw [Hex.decode_encode]
  rfl

/-- Vertex IDs are read back. -/
lemma decode_encode_ids (ids : List VertexId) :
    ((ids.map fun id => Hex.encode id.asBytes).filterMap Hex.decode).map VertexId.fromBytes =
      ids := by
  induction ids with
  | nil => rfl
  | cons id ids ih =>
    rw [List.map_cons, List.filterMap_cons, Hex.decode_encode]
    dsimp only
    rw [List.map_cons, ih]
    rfl

/-- Add a secret of another vault, below its parents there. -/
def copyVertex (dag : VaultDag) (read : VertexId → HashSet.Iteration VertexId) (now : DateTime)
    (copy : VaultDag) (e : VertexId × EncryptedSecret) : VaultDag :=
  placeVertex e.1 e.2 (dag.parents e.1) ((read e.1).order (dag.parents e.1)) now copy

/-- A vertex that was written is read back. -/
lemma loadVertex_serializeVertex (written : HashSet.Iteration VertexId)
    (read : VertexId → HashSet.Iteration VertexId) (now : DateTime) (copy : VaultDag)
    (e : VertexId × EncryptedSecret) :
    loadVertex read now copy (serializeVertex written dag e) =
      .ok (copyVertex dag read now copy e) := by
  have hparents : (((serializeVertex written dag e).parents.filterMap
      Hex.decode).map VertexId.fromBytes).toFinset = dag.parents e.1 := by
    unfold serializeVertex parents HashMap.members
    cases dag.parentMap.lookup e.1 with
    | none => rfl
    | some p =>
      rw [Option.map_some, Option.getD_some, Option.getD_some, decode_encode_ids]
      exact (written.enumerates p).toFinset_eq
  unfold loadVertex
  rw [show (serializeVertex written dag e).id = Hex.encode e.1.asBytes from rfl, decodeId_encode]
  show Except.ok _ = _
  rw [hparents]
  rfl

/-- **A vault is read back** as the vertices of its secrets, one after the other. -/
lemma deserialize_eq_foldl (secrets : HashMap.Iteration VertexId EncryptedSecret)
    (written read : VertexId → HashSet.Iteration VertexId) (now : DateTime) (dag : VaultDag) :
    deserialize read now (serialize secrets written dag) =
      .ok ((secrets.order dag.secrets).foldl (copyVertex dag read now) (new dag.rootId now)) := by
  have hall : ∀ (l : List (VertexId × EncryptedSecret)) (copy : VaultDag),
      (l.map fun e => serializeVertex (written e.1) dag e).foldlM (loadVertex read now) copy =
        .ok (l.foldl (copyVertex dag read now) copy) := by
    intro l
    induction l with
    | nil => exact fun _ => rfl
    | cons e l ih =>
      intro copy
      rw [List.map_cons, List.foldlM_cons, loadVertex_serializeVertex]
      exact ih _
  unfold deserialize serialize
  rw [decodeId_encode]
  exact hall _ _

/-! ## Copying the vertices -/

section Copy

variable {read : VertexId → HashSet.Iteration VertexId} {now : DateTime}

/-- The root, the secrets and the parents after secrets were copied. -/
lemma foldl_copyVertex (l : List (VertexId × EncryptedSecret)) (copy : VaultDag) :
    let copied := l.foldl (copyVertex dag read now) copy
    copied.rootId = copy.rootId ∧
      copied.secrets = l.foldl (fun m e => m.insert e.1 e.2) copy.secrets ∧
      copied.parentMap = l.foldl (fun m e => m.insert e.1 (dag.parents e.1)) copy.parentMap := by
  induction l generalizing copy with
  | nil => exact ⟨rfl, rfl, rfl⟩
  | cons e l ih => exact ih (copyVertex dag read now copy e)

/-- The children after secrets were copied. -/
lemma mem_children_foldl_copyVertex {p c : VertexId} (l : List (VertexId × EncryptedSecret))
    (copy : VaultDag) : c ∈ (l.foldl (copyVertex dag read now) copy).children p ↔
      (c ∈ l.map Prod.fst ∧ p ∈ dag.parents c) ∨ c ∈ copy.children p := by
  induction l generalizing copy with
  | nil => simp
  | cons e l ih =>
    have hfirst : c ∈ (copyVertex dag read now copy e).children p ↔
        (p ∈ dag.parents e.1 ∧ c = e.1) ∨ c ∈ copy.children p := by
      refine Iff.trans (HashMap.mem_members_foldl_addMember) ?_
      rw [HashSet.Iteration.mem_order]
      rfl
    rw [List.foldl_cons, ih, hfirst, List.map_cons, List.mem_cons]
    constructor
    · rintro (⟨hc, hp⟩ | ⟨hp, rfl⟩ | hc)
      · exact .inl ⟨.inr hc, hp⟩
      · exact .inl ⟨.inl rfl, hp⟩
      · exact .inr hc
    · rintro (⟨rfl | hc, hp⟩ | hc)
      · exact .inr (.inl ⟨hp, rfl⟩)
      · exact .inl ⟨hc, hp⟩
      · exact .inr (.inr hc)

/-- The labels after secrets were copied lead to copied secrets. -/
lemma labelIndex_foldl_copyVertex {label : String} {id : VertexId}
    (l : List (VertexId × EncryptedSecret)) (copy : VaultDag)
    (h : (l.foldl (copyVertex dag read now) copy).labelIndex.lookup label = some id) :
    (∃ secret, (id, secret) ∈ l ∧ secret.label = label) ∨
      copy.labelIndex.lookup label = some id := by
  induction l generalizing copy with
  | nil => exact .inr h
  | cons e l ih =>
    rcases ih (copyVertex dag read now copy e) h with ⟨secret, hmem, hlabel⟩ | hfirst
    · exact .inl ⟨secret, .tail _ hmem, hlabel⟩
    · replace hfirst : (copy.labelIndex.insert e.2.label e.1).lookup label = some id := hfirst
      rw [HashMap.lookup_insert_ite] at hfirst
      split_ifs at hfirst with heq
      · obtain rfl := Option.some.inj hfirst
        exact .inl ⟨e.2, .head _, heq.symm⟩
      · exact .inr hfirst

end Copy

/-- The parents of the secrets are those in the map of parents. -/
lemma WellFormed.enumerates_parentMap (h : dag.WellFormed) {l : List (VertexId × EncryptedSecret)}
    (hl : dag.secrets.Enumerates l) :
    dag.parentMap.Enumerates (l.map fun e => (e.1, dag.parents e.1)) := by
  refine ⟨?_, fun c s => ?_⟩
  · rw [List.map_map]
    exact hl.1
  · have hmem : c ∈ l.map Prod.fst ↔ c ∈ dag.parentMap := hl.mem_keys.trans (h.keys c).symm
    rw [List.mem_map]
    constructor
    · rintro ⟨e, he, heq⟩
      obtain ⟨rfl, rfl⟩ := Prod.mk.inj heq
      obtain ⟨s, hs⟩ := HashMap.mem_iff_exists.mp (hmem.mp (List.mem_map_of_mem he))
      rw [hs, show dag.parents e.1 = s from HashMap.members_of_lookup hs]
    · intro hs
      obtain ⟨e, he, rfl⟩ := List.mem_map.mp (hmem.mpr (HashMap.mem_of_lookup hs))
      exact ⟨e, he, Prod.ext rfl (HashMap.members_of_lookup hs)⟩

/-- **A vault is written and read back**, whatever the orders of iteration. -/
theorem deserialize_serialize (h : dag.WellFormed)
    (secrets : HashMap.Iteration VertexId EncryptedSecret)
    (written read : VertexId → HashSet.Iteration VertexId) (now : DateTime) :
    ∃ loaded, deserialize read now (serialize secrets written dag) = .ok loaded ∧
      SameGraph dag loaded := by
  have hl := secrets.enumerates dag.secrets
  obtain ⟨hroot, hsecrets, hparents⟩ :=
    @foldl_copyVertex dag read now (secrets.order dag.secrets) (new dag.rootId now)
  refine ⟨_, deserialize_eq_foldl secrets written read now dag, hroot,
    hsecrets.trans hl.foldl_insert_eq, ?_, fun p => Finset.ext fun c => ?_⟩
  · rw [hparents, ← (h.enumerates_parentMap hl).foldl_insert_eq, List.foldl_map]
    rfl
  · rw [mem_children_foldl_copyVertex, hl.mem_keys, h.inverse]
    refine (or_iff_left (Finset.notMem_empty c)).trans (and_iff_right_of_imp fun hp => ?_)
    by_contra hc
    rw [h.parents_of_notMem hc] at hp
    exact Finset.notMem_empty p hp

/-- A vault with the same graph has the invariant if its labels lead to their secrets. -/
lemma WellFormed.of_sameGraph (h : dag.WellFormed) {loaded : VaultDag}
    (hsame : SameGraph dag loaded)
    (hlabels : ∀ label id, loaded.labelIndex.lookup label = some id →
      ∃ secret, loaded.secrets.lookup id = some secret ∧ secret.label = label) :
    loaded.WellFormed := by
  obtain ⟨hroot, hsecrets, hparents, hchildren⟩ := hsame
  have hparents' : ∀ c, loaded.parents c = dag.parents c := fun c => by
    unfold parents
    rw [hparents]
  have hgraph : loaded.graph = dag.graph := by
    unfold graph
    rw [hroot, hsecrets, funext hparents']
  refine ⟨fun c => ?_, fun p c => ?_, ?_, ?_, hlabels⟩
  · rw [hparents, hsecrets, h.keys]
  · rw [hchildren, hparents', h.inverse]
  · rw [hgraph, hroot]
    exact h.rooted
  · rw [hroot, hsecrets]
    exact h.root_notMem

/-- **Writing and reading back** keeps the invariant. -/
lemma WellFormed.reload (h : dag.WellFormed)
    (secrets : HashMap.Iteration VertexId EncryptedSecret)
    (written read : VertexId → HashSet.Iteration VertexId) (now : DateTime) :
    (apply K dag (.reload secrets written read now)).WellFormed := by
  obtain ⟨loaded, hloaded, hsame⟩ := deserialize_serialize h secrets written read now
  have hrun : apply K dag (.reload secrets written read now) = loaded := by
    unfold apply
    dsimp only
    rw [hloaded]
  rw [hrun]
  refine h.of_sameGraph hsame fun label id hlabel => ?_
  rw [deserialize_eq_foldl] at hloaded
  rw [← Except.ok.inj hloaded] at hlabel
  rcases labelIndex_foldl_copyVertex _ _ hlabel with ⟨secret, hmem, hsecret⟩ | hnone
  · refine ⟨secret, ?_, hsecret⟩
    rw [hsame.secrets]
    exact ((secrets.enumerates dag.secrets).2 id secret).mp hmem
  · cases hnone

/-! ## Runs -/

/-- **A call keeps the invariant** if the identifiers that it makes are new. -/
lemma WellFormed.apply (h : dag.WellFormed) {op : Op} (hfresh : dag.Fresh op) :
    (apply K dag op).WellFormed := by
  cases op with
  | addSecret crypto draws secret parentLabels => exact h.addSecret hfresh.1 hfresh.2
  | updateSecret crypto fields nonce label newSecret => exact h.updateSecret
  | deleteSecret parents children label => exact h.deleteSecret
  | reload secrets written read now => exact h.reload secrets written read now

/-- One vertex is a parent of the other. -/
def ParentOf (dag : VaultDag) (p c : VertexId) : Prop := p ∈ dag.parents c

/-- What holds of the graph of a vault. -/
structure GraphInvariant (dag : VaultDag) : Prop where
  /-- Parents and children are inverse to each other. -/
  inverse : ∀ p c, c ∈ dag.children p ↔ p ∈ dag.parents c
  /-- Exactly the stored secrets have entries for their parents. -/
  keys : ∀ id, id ∈ dag.parentMap ↔ id ∈ dag.secrets
  /-- Every secret has a parent. -/
  nonempty : ∀ id ∈ dag.secrets, (dag.parents id).Nonempty
  /-- Every parent is the root or a stored secret. -/
  closed : ∀ id, ∀ p ∈ dag.parents id, p = dag.rootId ∨ p ∈ dag.secrets
  /-- No vertex is its own ancestor. -/
  acyclic : ∀ id, ¬ Relation.TransGen dag.ParentOf id id
  /-- Every secret is reachable from the root. -/
  reachable : ∀ id ∈ dag.secrets, Relation.ReflTransGen dag.ParentOf dag.rootId id

/-- The invariant of the calls implies that of the graph. -/
lemma WellFormed.graphInvariant (h : dag.WellFormed) : dag.GraphInvariant := by
  have hstored : ∀ {p c}, dag.ParentOf p c → c ∈ dag.secrets := fun {p c} hp => by
    by_contra hc
    exact Finset.notMem_empty p (h.parents_of_notMem hc ▸ hp)
  have hedge : ∀ {p c}, dag.ParentOf p c → dag.graph.Edge p c := fun hp =>
    ⟨mem_nodes.mpr (.inr (hstored hp)), hp⟩
  refine ⟨h.inverse, h.keys, fun id hid => ?_, fun id p hp => ?_, fun id hid => ?_,
    fun id hid => ?_⟩
  · exact h.rooted.nonempty id (mem_nodes.mpr (.inr hid)) fun heq => h.root_notMem (heq ▸ hid)
  · exact mem_nodes.mp (h.rooted.closed id (mem_nodes.mpr (.inr (hstored hp))) hp)
  · exact h.rooted.acyclic id (Relation.TransGen.mono (fun _ _ => hedge) _ _ hid)
  · exact Relation.ReflTransGen.mono (fun _ _ hp => hp.2) _ _
      (h.rooted.reachable (mem_nodes.mpr (.inr hid)))

/-- **The graph of a vault.** After every sequence of calls whose identifiers are new, parents and
children are inverse to each other, exactly the secrets have entries for their parents, every secret
has a parent, every parent is the root or a secret, no vertex is its own ancestor, and every secret
is reachable from the root; and the vault that is written and read back has the same root, secrets,
parents and children. -/
theorem graphInvariant_run {rootId : VertexId} {now : DateTime} {ops : List Op}
    (hfresh : Runs.Steps (apply K) Fresh (new rootId now) ops) :
    let dag := Runs.run (apply K) (new rootId now) ops
    dag.GraphInvariant ∧ ∀ secrets written read now, ∃ loaded,
      deserialize read now (serialize secrets written dag) = .ok loaded ∧
        SameGraph dag loaded := by
  intro dag
  have h : dag.WellFormed :=
    Runs.run_rule WellFormed (fun _ _ h => h.apply) hfresh (wellFormed_new rootId now)
  exact ⟨h.graphInvariant, fun secrets written read now =>
    deserialize_serialize h secrets written read now⟩

/-! ## A vault with categories -/

/-- A stand-in for the other crates, which does not encrypt. -/
def toyCrates : Crates where
  aesEncrypt _ _ plaintext := .ok plaintext
  dateTime := Codec.u64.refine (fun n => some n.toNat) fun t => UInt64.ofNat t.toNat

/-- A key. -/
def toyCrypto : VaultCrypto := ⟨⟨List.replicate 32 1, rfl⟩⟩

/-- What an addition reads, by a number: at most one category is missing. -/
noncomputable def toyDraws (n : UInt8) : AddDraws where
  vertexId := ⟨[n]⟩
  nonce := ⟨List.replicate 12 n, rfl⟩
  now := 5
  category _ := ⟨⟨[n + 1]⟩, ⟨List.replicate 12 n, rfl⟩, 5, 5⟩
  fields := .arbitrary
  parents := .sorted

/-- A secret in a category, a secret below both, and the deletion of the category. -/
noncomputable def toyCalls : List Op :=
  [.addSecret toyCrypto (toyDraws 1) (.new "email/work" "user" "password" 5) ["email"],
    .addSecret toyCrypto (toyDraws 3) (.new "bank" "user" "password" 5) ["email/work", "email"],
    .deleteSecret .sorted .sorted "email"]

/-- The first secret is still reachable after the deletion of its only parent. -/
theorem graphInvariant_run_toy :
    let dag := Runs.run (apply toyCrates) (new ⟨[0]⟩ 5) toyCalls
    ⟨[2]⟩ ∉ dag.secrets ∧ ⟨[1]⟩ ∈ dag.secrets ∧ dag.GraphInvariant ∧
      Relation.ReflTransGen dag.ParentOf dag.rootId ⟨[1]⟩ := by
  intro dag
  have hsecrets : (⟨[2]⟩ : VertexId) ∉ dag.secrets ∧ (⟨[1]⟩ : VertexId) ∈ dag.secrets := by
    decide +kernel
  have hfresh : Runs.Steps (apply toyCrates) Fresh (new ⟨[0]⟩ 5) toyCalls := by decide +kernel
  have hinvariant : dag.GraphInvariant := (graphInvariant_run hfresh).1
  exact ⟨hsecrets.1, hsecrets.2, hinvariant, hinvariant.reachable _ hsecrets.2⟩

end VaultDag

end QuDAG.Vault
