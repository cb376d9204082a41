import QuDAG.Dag.Vertex
import QuDAG.Lib.Fallible
import QuDAG.Lib.Hex
import QuDAG.Lib.Multimap
import QuDAG.Vault.Secret

/-!
# The graph of the vault

DAG-based storage for vault secrets (`dag_storage.rs`): secrets are vertices below a root, found by
their labels, and a secret may have several parents.

## Main definitions

* `VaultDag`, with `addSecret`, `updateSecret` and `deleteSecret`.
* `VaultDag.serialize`, `VaultDag.deserialize` — the form for storage.

## Implementation notes

Vertex identifiers are those of the DAG (the feature `qudag-integration`, which is on by default).
What a call reads from outside (new identifiers, nonces, the clock, the orders in which maps and
sets are iterated over) is an argument. A call with an error may leave changes behind: an addition
whose later category cannot be encrypted has created the earlier ones.
-/

namespace QuDAG.Vault

open RustStd

/-- DAG-based storage for vault secrets. -/
structure VaultDag where
  /-- The root vertex ID of the vault. -/
  rootId : VertexId
  /-- Map of vertex IDs to encrypted secrets. -/
  secrets : HashMap VertexId EncryptedSecret
  /-- Map of labels to vertex IDs for quick lookup. -/
  labelIndex : HashMap String VertexId
  /-- Map of vertex IDs to their parent vertices (categories). -/
  parentMap : HashMap VertexId (HashSet VertexId)
  /-- Map of vertex IDs to their child vertices. -/
  childMap : HashMap VertexId (HashSet VertexId)
  /-- Map of vertex IDs to their creation timestamp. -/
  createdAtMap : HashMap VertexId DateTime
  /-- Map of vertex IDs to their last update timestamp. -/
  updatedAtMap : HashMap VertexId DateTime
  deriving DecidableEq

/-- Serializable vertex containing encrypted secret data. -/
structure SerializedVertex where
  /-- The vertex ID in hex format. -/
  id : String
  /-- Parent vertex IDs in hex format. -/
  parents : List String
  /-- The encrypted secret data. -/
  encryptedSecret : EncryptedSecret

/-- Serializable representation of the vault DAG. -/
structure SerializedVaultDag where
  /-- The root vertex ID in hex format. -/
  rootId : String
  /-- All vertices in the DAG. -/
  vertices : List SerializedVertex

namespace VaultDag

/-- Create a new empty vault DAG. -/
def new (rootId : VertexId) (now : DateTime) : VaultDag where
  rootId := rootId
  secrets := ∅
  labelIndex := ∅
  parentMap := ∅
  childMap := ∅
  createdAtMap := Finmap.singleton rootId now
  updatedAtMap := Finmap.singleton rootId now

/-- The parents of a vertex. -/
def parents (dag : VaultDag) (id : VertexId) : HashSet VertexId := HashMap.members dag.parentMap id

/-- The children of a vertex. -/
def children (dag : VaultDag) (id : VertexId) : HashSet VertexId := HashMap.members dag.childMap id

/-! ## Adding secrets -/

/-- What the creation of a category reads from outside. -/
structure CategoryDraws where
  /-- The new vertex ID. -/
  vertexId : VertexId
  /-- The nonce for the encryption. -/
  nonce : Nonce
  /-- The time at which the entry is created. -/
  created : DateTime
  /-- The time of the changes. -/
  now : DateTime

/-- What an addition reads from outside. -/
structure AddDraws where
  /-- The new vertex ID. -/
  vertexId : VertexId
  /-- The nonce for the encryption. -/
  nonce : Nonce
  /-- The time of the changes. -/
  now : DateTime
  /-- What the creation of a category reads, by its label. -/
  category : String → CategoryDraws
  /-- The order of custom fields. -/
  fields : HashMap.Iteration String String
  /-- The order in which the parents are updated. -/
  parents : HashSet.Iteration VertexId

/-- Store a vertex below its parents, which are updated in an order. -/
def insertVertex (vertexId : VertexId) (secret : EncryptedSecret) (parentIds : HashSet VertexId)
    (order : List VertexId) (now : DateTime) (dag : VaultDag) : VaultDag :=
  { dag with
    secrets := dag.secrets.insert vertexId secret
    labelIndex := dag.labelIndex.insert secret.label vertexId
    parentMap := dag.parentMap.insert vertexId parentIds
    childMap := order.foldl (fun m parentId => HashMap.addMember m parentId vertexId) dag.childMap
    createdAtMap := dag.createdAtMap.insert vertexId now
    updatedAtMap := order.foldl (fun m parentId => m.insert parentId now)
      (dag.updatedAtMap.insert vertexId now) }

variable (K : Crates) (crypto : VaultCrypto)

/-- Create a category node, below the root. -/
def createCategory (fields : HashMap.Iteration String String) (draws : CategoryDraws)
    (label : String) : Fallible VaultError VaultDag VertexId := do
  let dag ← Fallible.get
  match dag.labelIndex.lookup label with
  | some existingId => pure existingId
  | none =>
    let category := SecretEntry.new label "" "" draws.created
    let secret ← Fallible.ofExcept (crypto.encryptSecret K fields draws.nonce category)
    Fallible.modify
      (insertVertex draws.vertexId secret {dag.rootId} [dag.rootId] draws.now)
    pure draws.vertexId

/-- The vertices with the labels, besides those found so far; categories are created for labels
that are not stored. -/
def findParents (draws : AddDraws) :
    List String → HashSet VertexId → Fallible VaultError VaultDag (HashSet VertexId)
  | [], parentIds => pure parentIds
  | parentLabel :: parentLabels, parentIds => do
    let dag ← Fallible.get
    match dag.labelIndex.lookup parentLabel with
    | some parentId => findParents draws parentLabels (insert parentId parentIds)
    | none =>
      let categoryId ←
        createCategory K crypto draws.fields (draws.category parentLabel) parentLabel
      findParents draws parentLabels (insert categoryId parentIds)

/-- Add a secret to the vault DAG. -/
def addSecret (draws : AddDraws) (secret : SecretEntry) (parentLabels : List String) :
    Fallible VaultError VaultDag VertexId := do
  let dag ← Fallible.get
  if secret.label ∈ dag.labelIndex then
    Fallible.fail (.generic ("Secret with label '" ++ secret.label ++ "' already exists"))
  else
    let encrypted ← Fallible.ofExcept (crypto.encryptSecret K draws.fields draws.nonce secret)
    let parentIds ←
      if parentLabels.isEmpty then pure {dag.rootId}
      else findParents K crypto draws parentLabels ∅
    Fallible.modify
      (insertVertex draws.vertexId encrypted parentIds (draws.parents.order parentIds) draws.now)
    pure draws.vertexId

/-! ## Updates and deletions -/

/-- Update an existing secret. -/
def updateSecret (fields : HashMap.Iteration String String) (nonce : Nonce) (label : String)
    (newSecret : SecretEntry) : Fallible VaultError VaultDag Unit := do
  let dag ← Fallible.get
  match dag.labelIndex.lookup label with
  | none => Fallible.fail (.secretNotFound label)
  | some vertexId =>
    let encrypted ← Fallible.ofExcept (crypto.encryptSecret K fields nonce newSecret)
    Fallible.modify fun dag => { dag with secrets := dag.secrets.insert vertexId encrypted }
    if label ≠ newSecret.label then
      Fallible.modify fun dag => { dag with
        labelIndex := (dag.labelIndex.erase label).insert newSecret.label vertexId }
    else pure ()

/-- A vertex is no longer the child of its parents, seen in an order. -/
def detach (order : HashSet.Iteration VertexId) (vertexId : VertexId) (dag : VaultDag) :
    VaultDag :=
  match dag.parentMap.lookup vertexId with
  | none => dag
  | some parents => { dag with
      parentMap := dag.parentMap.erase vertexId
      childMap := (order.order parents).foldl
        (fun m parentId => HashMap.removeMember m parentId vertexId) dag.childMap }

/-- A child loses a parent. A child without parents is attached to the root. -/
def removeParent (vertexId : VertexId) (dag : VaultDag) (childId : VertexId) : VaultDag :=
  match dag.parentMap.lookup childId with
  | none => dag
  | some parents =>
    let parents := parents.erase vertexId
    if parents = ∅ then
      { dag with
        parentMap := dag.parentMap.insert childId {dag.rootId}
        childMap := HashMap.addMember dag.childMap dag.rootId childId }
    else { dag with parentMap := dag.parentMap.insert childId parents }

/-- A vertex is no longer the parent of its children, seen in an order. -/
def release (order : HashSet.Iteration VertexId) (vertexId : VertexId) (dag : VaultDag) :
    VaultDag :=
  match dag.childMap.lookup vertexId with
  | none => dag
  | some children => (order.order children).foldl (removeParent vertexId)
      { dag with childMap := dag.childMap.erase vertexId }

/-- Remove a vertex with its label. -/
def removeVertex (parents children : HashSet.Iteration VertexId) (label : String)
    (vertexId : VertexId) (dag : VaultDag) : VaultDag :=
  release children vertexId (detach parents vertexId { dag with
    secrets := dag.secrets.erase vertexId
    labelIndex := dag.labelIndex.erase label
    createdAtMap := dag.createdAtMap.erase vertexId
    updatedAtMap := dag.updatedAtMap.erase vertexId })

/-- Delete a secret from the vault. -/
def deleteSecret (parents children : HashSet.Iteration VertexId) (label : String) :
    Fallible VaultError VaultDag Unit := do
  let dag ← Fallible.get
  match dag.labelIndex.lookup label with
  | none => Fallible.fail (.secretNotFound label)
  | some vertexId => Fallible.modify (removeVertex parents children label vertexId)

/-! ## Storage -/

/-- The form of a secret for storage, whose parents are seen in an order. -/
def serializeVertex (parents : HashSet.Iteration VertexId) (dag : VaultDag)
    (e : VertexId × EncryptedSecret) : SerializedVertex where
  id := Hex.encode e.1.asBytes
  parents := ((dag.parentMap.lookup e.1).map fun p =>
    (parents.order p).map fun id => Hex.encode id.asBytes).getD []
  encryptedSecret := e.2

/-- Serialize the vault DAG for storage: the secrets are seen in an order, and so are the parents
of each. -/
def serialize (secrets : HashMap.Iteration VertexId EncryptedSecret)
    (parents : VertexId → HashSet.Iteration VertexId) (dag : VaultDag) : SerializedVaultDag where
  rootId := Hex.encode dag.rootId.asBytes
  vertices := (secrets.order dag.secrets).map fun e => serializeVertex (parents e.1) dag e

/-- Convert a hex string to a vertex ID. -/
def decodeId (error text : String) : Except VaultError VertexId :=
  match Hex.decode text with
  | some bytes => .ok (VertexId.fromBytes bytes)
  | none => .error (.invalidFormat error)

/-- Store a vertex that was read below its parents, which are seen in an order. -/
def placeVertex (vertexId : VertexId) (secret : EncryptedSecret) (parentIds : HashSet VertexId)
    (order : List VertexId) (now : DateTime) (dag : VaultDag) : VaultDag :=
  { dag with
    secrets := dag.secrets.insert vertexId secret
    labelIndex := dag.labelIndex.insert secret.label vertexId
    parentMap := dag.parentMap.insert vertexId parentIds
    childMap := order.foldl (fun m parentId => HashMap.addMember m parentId vertexId) dag.childMap
    createdAtMap := dag.createdAtMap.insert vertexId now
    updatedAtMap := dag.updatedAtMap.insert vertexId now }

/-- Add a vertex that was read. Parents that cannot be converted are left out. -/
def loadVertex (parents : VertexId → HashSet.Iteration VertexId) (now : DateTime) (dag : VaultDag)
    (vertex : SerializedVertex) : Except VaultError VaultDag := do
  let vertexId ← decodeId "Invalid vertex ID" vertex.id
  let parentIds := ((vertex.parents.filterMap Hex.decode).map VertexId.fromBytes).toFinset
  pure (placeVertex vertexId vertex.encryptedSecret parentIds ((parents vertexId).order parentIds)
    now dag)

/-- Deserialize a vault DAG from storage; the parents of each vertex are seen in an order. -/
def deserialize (parents : VertexId → HashSet.Iteration VertexId) (now : DateTime)
    (data : SerializedVaultDag) : Except VaultError VaultDag := do
  let rootId ← decodeId "Invalid root ID" data.rootId
  data.vertices.foldlM (loadVertex parents now) (new rootId now)

/-! ## Runs -/

/-- A call on the vault, with what it reads from outside. -/
inductive Op
  /-- Add a secret below the vertices with some labels. -/
  | addSecret (crypto : VaultCrypto) (draws : AddDraws) (secret : SecretEntry)
      (parentLabels : List String)
  /-- Update the secret with a label. -/
  | updateSecret (crypto : VaultCrypto) (fields : HashMap.Iteration String String) (nonce : Nonce)
      (label : String) (newSecret : SecretEntry)
  /-- Delete the secret with a label. -/
  | deleteSecret (parents children : HashSet.Iteration VertexId) (label : String)
  /-- Write the vault and read it back. -/
  | reload (secrets : HashMap.Iteration VertexId EncryptedSecret)
      (written read : VertexId → HashSet.Iteration VertexId) (now : DateTime)

/-- The vault after a call, which may have failed. -/
def apply (dag : VaultDag) : Op → VaultDag
  | .addSecret crypto draws secret parentLabels =>
    ((addSecret K crypto draws secret parentLabels).run dag).2
  | .updateSecret crypto fields nonce label newSecret =>
    ((updateSecret K crypto fields nonce label newSecret).run dag).2
  | .deleteSecret parents children label => ((deleteSecret parents children label).run dag).2
  | .reload secrets written read now =>
    match deserialize read now (serialize secrets written dag) with
    | .ok loaded => loaded
    | .error _ => dag

/-- The vertex ID is new: it is neither the root nor stored. -/
def IsFresh (dag : VaultDag) (id : VertexId) : Prop := id ≠ dag.rootId ∧ id ∉ dag.secrets

/-- The vertex IDs for the categories that are missing are new and different. -/
def FreshCategories (dag : VaultDag) (draws : AddDraws) (labels : List String) : Prop :=
  ∀ label ∈ labels, label ∉ dag.labelIndex → dag.IsFresh (draws.category label).vertexId ∧
    (draws.category label).vertexId ≠ draws.vertexId ∧
    ∀ label' ∈ labels, label' ∉ dag.labelIndex →
      (draws.category label').vertexId = (draws.category label).vertexId → label' = label

/-- The vertex IDs that a call makes are new. -/
def Fresh (dag : VaultDag) : Op → Prop
  | .addSecret _ draws _ parentLabels =>
    dag.IsFresh draws.vertexId ∧ dag.FreshCategories draws parentLabels
  | .updateSecret _ _ _ _ _ => True
  | .deleteSecret _ _ _ => True
  | .reload _ _ _ _ => True

instance instDecidableIsFresh (dag : VaultDag) (id : VertexId) : Decidable (dag.IsFresh id) :=
  inferInstanceAs (Decidable (_ ∧ _))

instance instDecidableFreshCategories (dag : VaultDag) (draws : AddDraws) (labels : List String) :
    Decidable (dag.FreshCategories draws labels) :=
  inferInstanceAs (Decidable (∀ label ∈ labels, label ∉ dag.labelIndex → _ ∧ _ ∧
    ∀ label' ∈ labels, label' ∉ dag.labelIndex → _ → label' = label))

instance instDecidableFresh (dag : VaultDag) : ∀ op, Decidable (dag.Fresh op)
  | .addSecret _ _ _ _ => inferInstanceAs (Decidable (_ ∧ _))
  | .updateSecret _ _ _ _ _ => instDecidableTrue
  | .deleteSecret _ _ _ => instDecidableTrue
  | .reload _ _ _ _ => instDecidableTrue

end VaultDag

end QuDAG.Vault
