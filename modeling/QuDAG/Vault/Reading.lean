import QuDAG.Lib.Outcome
import QuDAG.Vault.VaultDag

/-!
# Reading the secrets of the vault

What is decrypted (`crypto.rs`) and deserialized again: the secret with a label, the list of all
labels (`dag_storage.rs`), and the graph of the vault as it is written to a file.

## Main definitions

* `VaultCrates` — what the vault uses of other crates, with what reads back.
* `VaultCrypto.decrypt`, `SecretEntry.deserialize`.
* `VaultDag.getSecret`, `VaultDag.listSecrets`.
* `WireDag.codec` — the bytes of the graph.

## Implementation notes

`bincode` ignores what follows the value that it reads. The texts of its errors are not modelled;
they depend on the bytes.
-/

namespace QuDAG.Vault

open RustStd

/-! ## Files -/

/-- A salt in the text form that Argon2 takes. -/
structure SaltString where
  /-- The text. -/
  text : String
  deriving DecidableEq

/-- Key derivation context containing salt and parameters. -/
structure KdfContext where
  /-- Salt for the KDF. -/
  salt : String
  /-- Argon2 parameters encoded as a string. -/
  params : String
  deriving DecidableEq

/-- Key pair for quantum-resistant operations. -/
structure VaultKeyPair where
  /-- ML-KEM public key for key encapsulation. -/
  kemPublic : List UInt8
  /-- ML-KEM secret key (encrypted). -/
  kemSecretEncrypted : List UInt8
  /-- ML-DSA public key for signatures. -/
  dsaPublic : List UInt8
  /-- ML-DSA secret key (encrypted). -/
  dsaSecretEncrypted : List UInt8
  deriving DecidableEq

/-- Metadata about the vault. -/
structure VaultMetadata where
  /-- Version of the vault format. -/
  version : UInt32
  /-- When the vault was created. -/
  createdAt : DateTime
  /-- When the vault was last modified. -/
  modifiedAt : DateTime
  /-- Number of secrets in the vault. -/
  secretCount : ℕ
  /-- Optional description of the vault. -/
  description : Option String
  deriving DecidableEq

/-- Vault file format containing all encrypted data. -/
structure VaultFile where
  /-- Version of the vault format. -/
  version : UInt32
  /-- KDF context for password derivation. -/
  kdfContext : KdfContext
  /-- Encrypted vault key. -/
  encryptedVaultKey : List UInt8
  /-- Optional quantum-resistant key pair. -/
  keypair : Option VaultKeyPair
  /-- Serialized and encrypted DAG. -/
  encryptedDag : List UInt8
  /-- Vault metadata. -/
  metadata : VaultMetadata
  deriving DecidableEq

/-- What the vault uses of other crates. -/
structure VaultCrates extends Crates where
  /-- Decrypt with AES-256-GCM: key, nonce, ciphertext. -/
  aesDecrypt : VaultKey → Nonce → List UInt8 → Except String (List UInt8)
  /-- A salt from random bytes. -/
  generateSalt : List UInt8 → SaltString
  /-- A salt from its text. -/
  saltFromB64 : String → Except String SaltString
  /-- Hash a password with Argon2id: memory, iterations, parallelism, password and salt. The output
  has the 32 bytes that are asked for. -/
  argon2 : ℕ → ℕ → ℕ → String → SaltString → Except String (Option VaultKey)
  /-- Write a file as JSON. -/
  toVecPretty : VaultFile → Except String (List UInt8)
  /-- Read a file as JSON. -/
  fromSlice : List UInt8 → Except String VaultFile
  /-- The error of `bincode` for some bytes. -/
  bincodeError : List UInt8 → String

/-- What other crates promise: what was encrypted is decrypted with the same key and nonce, a salt
that was made is accepted, and a file that was written is read back. -/
structure VaultCrates.ReadsBack (K : VaultCrates) : Prop where
  /-- AES-GCM. -/
  decrypt : ∀ key nonce plaintext ciphertext, K.aesEncrypt key nonce plaintext = .ok ciphertext →
    K.aesDecrypt key nonce ciphertext = .ok plaintext
  /-- Salts. -/
  salt : ∀ bytes, K.saltFromB64 (K.generateSalt bytes).text = .ok (K.generateSalt bytes)
  /-- JSON. -/
  json : ∀ file bytes, K.toVecPretty file = .ok bytes → K.fromSlice bytes = .ok file

variable (K : VaultCrates)

/-! ## Secrets -/

/-- Size of the AES-GCM nonce in bytes. -/
def nonceSize : ℕ := 12

/-- Decrypt data using AES-256-GCM. -/
def VaultCrypto.decrypt (ciphertext : List UInt8) (crypto : VaultCrypto) :
    Except VaultError (List UInt8) :=
  if h : ciphertext.length < nonceSize then .error (.crypto "Invalid ciphertext: too short")
  else
    have hlength : (ciphertext.take nonceSize).length = 12 := by
      rw [List.length_take, Nat.min_eq_left (Nat.not_lt.mp h)]
      rfl
    (K.aesDecrypt crypto.vaultKey ⟨ciphertext.take nonceSize, hlength⟩
      (ciphertext.drop nonceSize)).mapError fun e => .crypto ("Decryption failed: " ++ e)

/-- The entry as it is written. -/
def SecretEntry.wire (fields : HashMap.Iteration String String) (secret : SecretEntry) :
    WireEntry where
  label := secret.label
  username := secret.username
  password := secret.password
  url := secret.url
  notes := secret.notes
  createdAt := secret.metadata.createdAt
  modifiedAt := secret.metadata.modifiedAt
  accessedAt := secret.metadata.accessedAt
  version := secret.metadata.version
  tags := secret.metadata.tags
  customFields := fields.order secret.metadata.customFields

/-- The map of entries that are read one after the other. -/
def collectFields (fields : List (String × String)) : HashMap String String :=
  fields.foldl (fun m e => m.insert e.1 e.2) ∅

/-- The entry that was read. -/
def WireEntry.entry (w : WireEntry) : SecretEntry where
  label := w.label
  username := w.username
  password := w.password
  url := w.url
  notes := w.notes
  metadata := ⟨w.createdAt, w.modifiedAt, w.accessedAt, w.version, w.tags,
    collectFields w.customFields⟩

/-- Deserialize an entry. -/
def SecretEntry.deserialize (bytes : List UInt8) : Except VaultError SecretEntry :=
  match (WireEntry.codec K.toCrates).decode bytes with
  | some (w, _) => .ok w.entry
  | none => .error (.serialization (K.bincodeError bytes))

/-- Decrypt and deserialize a secret. -/
def VaultCrypto.decryptSecret (secret : EncryptedSecret) (crypto : VaultCrypto) :
    Except VaultError SecretEntry := do
  let decrypted ← crypto.decrypt K secret.encryptedData
  SecretEntry.deserialize K decrypted

/-- Get a secret by its label. -/
def VaultDag.getSecret (crypto : VaultCrypto) (label : String) (dag : VaultDag) :
    Except VaultError SecretEntry :=
  match dag.labelIndex.lookup label with
  | none => .error (.secretNotFound label)
  | some vertexId =>
    match dag.secrets.lookup vertexId with
    | none => .error (.secretNotFound label)
    | some encrypted => crypto.decryptSecret K encrypted

/-- List all secrets, which are seen in an order. -/
def VaultDag.listSecrets (secrets : HashMap.Iteration VertexId EncryptedSecret) (dag : VaultDag) :
    List String :=
  (((secrets.order dag.secrets).map Prod.snd).filter fun s =>
    !s.label.isEmpty && !s.encryptedData.isEmpty).map EncryptedSecret.label

/-! ## The graph -/

/-- A vertex as it is written. -/
structure WireVertex where
  id : String
  parents : List String
  encryptedData : List UInt8
  createdAt : DateTime
  modifiedAt : DateTime
  accessedAt : Option DateTime
  version : UInt32
  tags : List String
  customFields : List (String × String)
  label : String
  deriving DecidableEq

/-- The fields of a vertex. -/
def WireVertex.codec : Codec WireVertex :=
  (Codec.string.pair (Codec.string.list.pair (Codec.byteVec.pair (K.dateTime.pair (K.dateTime.pair
    (K.dateTime.option.pair (Codec.u32.pair (Codec.string.list.pair
      ((Codec.string.pair Codec.string).list.pair Codec.string))))))))).refine
    (fun p => some ⟨p.1, p.2.1, p.2.2.1, p.2.2.2.1, p.2.2.2.2.1, p.2.2.2.2.2.1, p.2.2.2.2.2.2.1,
      p.2.2.2.2.2.2.2.1, p.2.2.2.2.2.2.2.2.1, p.2.2.2.2.2.2.2.2.2⟩)
    fun w => (w.id, w.parents, w.encryptedData, w.createdAt, w.modifiedAt, w.accessedAt, w.version,
      w.tags, w.customFields, w.label)

/-- A graph as it is written: its root and its vertices. -/
abbrev WireDag : Type := String × List WireVertex

/-- The fields of a graph. -/
def WireDag.codec : Codec WireDag := Codec.string.pair (WireVertex.codec K).list

section Checkable

variable [Codec.Checkable K.dateTime]

instance instCheckableWireEntry : Codec.Checkable (WireEntry.codec K.toCrates) :=
  show Codec.Checkable (Codec.refine _ _ _) from inferInstance

instance instCheckableWireVertex : Codec.Checkable (WireVertex.codec K) :=
  show Codec.Checkable (Codec.refine _ _ _) from inferInstance

instance instCheckableWireDag : Codec.Checkable (WireDag.codec K) :=
  show Codec.Checkable (Codec.pair _ _) from inferInstance

end Checkable

/-- The vertex as it is written. -/
def SerializedVertex.wire (fields : HashMap.Iteration String String) (vertex : SerializedVertex) :
    WireVertex where
  id := vertex.id
  parents := vertex.parents
  encryptedData := vertex.encryptedSecret.encryptedData
  createdAt := vertex.encryptedSecret.metadata.createdAt
  modifiedAt := vertex.encryptedSecret.metadata.modifiedAt
  accessedAt := vertex.encryptedSecret.metadata.accessedAt
  version := vertex.encryptedSecret.metadata.version
  tags := vertex.encryptedSecret.metadata.tags
  customFields := fields.order vertex.encryptedSecret.metadata.customFields
  label := vertex.encryptedSecret.label

/-- The vertex that was read. -/
def WireVertex.vertex (w : WireVertex) : SerializedVertex where
  id := w.id
  parents := w.parents
  encryptedSecret := ⟨w.encryptedData, ⟨w.createdAt, w.modifiedAt, w.accessedAt, w.version, w.tags,
    collectFields w.customFields⟩, w.label⟩

/-- The graph as it is written. -/
def SerializedVaultDag.wire (fields : HashMap.Iteration String String)
    (data : SerializedVaultDag) : WireDag := (data.rootId, data.vertices.map (·.wire fields))

/-- Serialize a graph. -/
def SerializedVaultDag.toBytes (fields : HashMap.Iteration String String)
    (data : SerializedVaultDag) : List UInt8 := (WireDag.codec K).encode (data.wire fields)

/-- Deserialize a graph. -/
def SerializedVaultDag.ofBytes (bytes : List UInt8) : Except VaultError SerializedVaultDag :=
  match (WireDag.codec K).decode bytes with
  | some (w, _) => .ok ⟨w.1, w.2.map WireVertex.vertex⟩
  | none => .error (.serialization (K.bincodeError bytes))

/-! ## What was written is read back -/

variable {K}

/-- The custom fields are read back. -/
lemma collectFields_order (fields : HashMap.Iteration String String)
    (m : HashMap String String) : collectFields (fields.order m) = m :=
  (fields.enumerates m).foldl_insert_eq

/-- An entry is read back. -/
lemma SecretEntry.entry_wire (fields : HashMap.Iteration String String) (secret : SecretEntry) :
    (secret.wire fields).entry = secret := by
  unfold wire WireEntry.entry
  rw [collectFields_order]

/-- A vertex is read back. -/
lemma SerializedVertex.vertex_wire (fields : HashMap.Iteration String String)
    (vertex : SerializedVertex) : (vertex.wire fields).vertex = vertex := by
  unfold wire WireVertex.vertex
  rw [collectFields_order]

/-- The bytes of an entry whose lengths and times fit are read back. -/
lemma SecretEntry.deserialize_serialize {fields : HashMap.Iteration String String}
    {secret : SecretEntry} (h : (WireEntry.codec K.toCrates).Valid (secret.wire fields)) :
    SecretEntry.deserialize K (secret.serialize K.toCrates fields) = .ok secret := by
  have hread := (WireEntry.codec K.toCrates).decode_encode _ [] h
  rw [List.append_nil] at hread
  unfold deserialize
  rw [show secret.serialize K.toCrates fields =
    (WireEntry.codec K.toCrates).encode (secret.wire fields) from rfl, hread]
  dsimp only
  rw [entry_wire]

/-- The bytes of a graph whose lengths and times fit are read back. -/
lemma SerializedVaultDag.ofBytes_toBytes {fields : HashMap.Iteration String String}
    {data : SerializedVaultDag} (h : (WireDag.codec K).Valid (data.wire fields)) :
    SerializedVaultDag.ofBytes K (data.toBytes K fields) = .ok data := by
  have hread := (WireDag.codec K).decode_encode _ [] h
  have hvertices : (data.wire fields).2.map WireVertex.vertex = data.vertices := by
    unfold wire
    rw [List.map_map]
    exact List.map_id'' (fun v => v.vertex_wire fields) _
  rw [List.append_nil] at hread
  unfold ofBytes toBytes
  rw [hread]
  dsimp only
  rw [hvertices]
  rfl

/-- What was encrypted is decrypted. -/
lemma VaultCrypto.decrypt_encrypt (hK : K.ReadsBack) {crypto : VaultCrypto} {nonce : Nonce}
    {plaintext data : List UInt8} (h : crypto.encrypt K.toCrates nonce plaintext = .ok data) :
    crypto.decrypt K data = .ok plaintext := by
  obtain ⟨ciphertext, hencrypted, hdata⟩ := bind_eq_ok.mp h
  have hciphertext := hK.decrypt _ _ _ _ (mapError_eq_ok.mp hencrypted)
  obtain rfl : nonce.bytes ++ ciphertext = data := Except.ok.inj hdata
  have hlength : nonce.bytes.length = nonceSize := nonce.length_eq
  have hnonce : (nonce.bytes ++ ciphertext).take nonceSize = nonce.bytes := by
    rw [← hlength, List.take_left]
  have hrest : (nonce.bytes ++ ciphertext).drop nonceSize = ciphertext := by
    rw [← hlength, List.drop_left]
  unfold decrypt
  rw [dif_neg (by rw [List.length_append, hlength]; omega)]
  simp only [hnonce, hrest]
  rw [mapError_eq_ok]
  exact hciphertext

/-- What is decrypted is not empty. -/
lemma VaultCrypto.ne_nil_of_decrypt {crypto : VaultCrypto} {data plaintext : List UInt8}
    (h : crypto.decrypt K data = .ok plaintext) : data ≠ [] := by
  rintro rfl
  unfold decrypt at h
  rw [dif_pos (by decide)] at h
  cases h

/-- **A secret that was encrypted is read back**, if its lengths and times fit. -/
lemma VaultCrypto.decryptSecret_encryptSecret (hK : K.ReadsBack) {crypto : VaultCrypto}
    {fields : HashMap.Iteration String String} {nonce : Nonce} {secret : SecretEntry}
    {encrypted : EncryptedSecret}
    (hfits : (WireEntry.codec K.toCrates).Valid (secret.wire fields))
    (h : crypto.encryptSecret K.toCrates fields nonce secret = .ok encrypted) :
    crypto.decryptSecret K encrypted = .ok secret := by
  obtain ⟨data, hdata, hencrypted⟩ := bind_eq_ok.mp h
  rw [← Except.ok.inj hencrypted]
  exact bind_eq_ok.mpr ⟨_, decrypt_encrypt hK hdata, SecretEntry.deserialize_serialize hfits⟩

end QuDAG.Vault
