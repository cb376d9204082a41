import QuDAG.Vault.Reading

set_option autoImplicit false
set_option linter.dupNamespace false

/-!
# The vault and its file

The vault combines the graph of secrets with its file (`vault.rs`), whose key is encrypted under a
key derived from the password (`kdf.rs`). Every change is saved at once: the whole file is written
again, next to the old one, which it then replaces.

## Main definitions

* `Vault`, `Session` — a vault, and a vault with the files on the disk.
* `create`, `open`, `save`.
* `Session.addSecret`, `Session.updateSecret`, `Session.deleteSecret`, `Session.import` — the
  operations.

## Implementation notes

A file is found by its path, and it holds what was written last. What a call reads from outside is
an argument, and so is whether the disk lets it write and rename. A failed write leaves the disk as
it is. Counters do not overflow: there are no more secrets than fit in memory.
-/

namespace QuDAG.Vault

open RustStd

/-- Version of the vault format. -/
def vaultVersion : UInt32 := 1

/-! ## The disk -/

/-- A path: its components, the first of which is empty if the path is absolute. -/
abbrev PathBuf : Type := List String

/-- The path as text. -/
def PathBuf.display (path : PathBuf) : String := "/".intercalate path

/-- A file name before its last dot, where a dot in front does not count. -/
def fileStem (name : String) : String :=
  match (name.toList.reverse.dropWhile (· ≠ '.')).tail.reverse with
  | [] => name
  | stem => String.ofList stem

/-- The path with another extension of its file name, if it has one. -/
def PathBuf.withExtension (extension : String) (path : PathBuf) : PathBuf :=
  match path.getLast? with
  | none => path
  | some name =>
    if name = "" ∨ name = "." ∨ name = ".." then path
    else path.dropLast ++ [fileStem name ++ "." ++ extension]

/-- The files on a disk. -/
abbrev Disk : Type := HashMap PathBuf (List UInt8)

/-- Read a file. -/
def Disk.read (path : PathBuf) (disk : Disk) : Except VaultError (List UInt8) :=
  match disk.lookup path with
  | some data => .ok data
  | none => .error (.io "No such file or directory (os error 2)")

/-- Write a file, if the disk lets us. -/
def Disk.write (outcome : Except String Unit) (path : PathBuf) (data : List UInt8) :
    Fallible VaultError Disk Unit := do
  Fallible.ofExcept (outcome.mapError .io)
  Fallible.modify fun disk => disk.insert path data

/-- Rename a file, if the disk lets us. A file with the new name is replaced. -/
def Disk.rename (outcome : Except String Unit) (path newPath : PathBuf) :
    Fallible VaultError Disk Unit := do
  let disk ← Fallible.get
  let data ← Fallible.ofExcept (Disk.read path disk)
  Fallible.ofExcept (outcome.mapError .io)
  Fallible.modify fun disk => (disk.erase path).insert newPath data

/-! ## Keys -/

/-- The memory of Argon2: 64 MB. -/
def argon2Memory : ℕ := 64 * 1024

/-- The iterations of Argon2. -/
def argon2Iterations : ℕ := 3

/-- The parallelism of Argon2. -/
def argon2Parallelism : ℕ := 4

section Keys

variable (K : VaultCrates)

/-- The key for a password and a salt. -/
def hashPassword (password : String) (salt : SaltString) : Except VaultError VaultKey := do
  let hash ← (K.argon2 argon2Memory argon2Iterations argon2Parallelism password salt).mapError
    fun e => .keyDerivation ("Failed to hash password: " ++ e)
  match hash with
  | some key => pure key
  | none => .error (.keyDerivation "No hash output")

/-- Derive a vault key from a password using Argon2id. -/
def deriveKey (random : List UInt8) (password : String) :
    Except VaultError (VaultKey × KdfContext) := do
  let salt := K.generateSalt random
  let key ← hashPassword K password salt
  pure (key, ⟨salt.text, "m=" ++ toString argon2Memory ++ ",t=" ++ toString argon2Iterations ++
    ",p=" ++ toString argon2Parallelism⟩)

/-- Derive a vault key from a password using a saved context. Its parameters are not read. -/
def deriveKeyWithContext (password : String) (context : KdfContext) :
    Except VaultError VaultKey := do
  let salt ← (K.saltFromB64 context.salt).mapError fun e => .keyDerivation ("Invalid salt: " ++ e)
  hashPassword K password salt

/-- Encrypt the vault key with a password-derived key. -/
def encryptVaultKey (random : List UInt8) (nonce : Nonce) (vaultKey : VaultKey)
    (password : String) : Except VaultError (List UInt8 × KdfContext) := do
  let (derivedKey, context) ← deriveKey K random password
  let encrypted ← (VaultCrypto.mk derivedKey).encrypt K.toCrates nonce vaultKey.bytes
  pure (encrypted, context)

/-- Decrypt the vault key with a password-derived key. -/
def decryptVaultKey (encryptedKey : List UInt8) (password : String) (context : KdfContext) :
    Except VaultError VaultKey := do
  let derivedKey ← deriveKeyWithContext K password context
  let decrypted ← (VaultCrypto.mk derivedKey).decrypt K encryptedKey
  if h : decrypted.length = 32 then pure ⟨decrypted, h⟩
  else .error (.invalidFormat "Decrypted key has wrong size")

/-- What the generation of a key pair reads from outside. -/
structure KeypairDraws where
  /-- Random bytes for the public key of ML-KEM. -/
  kemPublic : Except String (List UInt8)
  /-- Random bytes for the public key of ML-DSA. -/
  dsaPublic : Except String (List UInt8)
  /-- The nonce for the secret key of ML-KEM. -/
  kemNonce : Nonce
  /-- The nonce for the secret key of ML-DSA. -/
  dsaNonce : Nonce

/-- Generate a placeholder key pair for standalone mode. -/
def VaultCrypto.generateKeypair (draws : KeypairDraws) (crypto : VaultCrypto) :
    Except VaultError VaultKeyPair := do
  let kemPublic ← draws.kemPublic.mapError fun e => .crypto ("Failed to generate KEM key: " ++ e)
  let dsaPublic ← draws.dsaPublic.mapError fun e => .crypto ("Failed to generate DSA key: " ++ e)
  let kemSecretEncrypted ← crypto.encrypt K.toCrates draws.kemNonce (List.replicate 2400 0)
  let dsaSecretEncrypted ← crypto.encrypt K.toCrates draws.dsaNonce (List.replicate 4032 0)
  pure ⟨kemPublic, kemSecretEncrypted, dsaPublic, dsaSecretEncrypted⟩

end Keys

/-! ## Vaults -/

/-- Main vault structure managing encrypted secrets. -/
structure Vault where
  /-- Path to the vault file. -/
  path : PathBuf
  /-- Cryptographic operations handler. -/
  crypto : VaultCrypto
  /-- DAG storage for secrets. -/
  dag : VaultDag
  /-- Vault metadata. -/
  metadata : VaultMetadata

/-- What saving reads from outside. -/
structure SaveDraws where
  /-- The order of the secrets. -/
  secrets : HashMap.Iteration VertexId EncryptedSecret
  /-- The order of the parents of each. -/
  parents : VertexId → HashSet.Iteration VertexId
  /-- The order of custom fields. -/
  fields : HashMap.Iteration String String
  /-- The nonce for the encryption. -/
  nonce : Nonce
  /-- Whether the temporary file is written. -/
  write : Except String Unit
  /-- Whether it is renamed. -/
  rename : Except String Unit

/-- What opening reads from outside. -/
structure OpenDraws where
  /-- The order of the parents of each secret. -/
  parents : VertexId → HashSet.Iteration VertexId
  /-- The time. -/
  now : DateTime

/-- What the creation of a vault reads from outside. -/
structure CreateDraws where
  /-- Whether the directory exists or is created. -/
  directory : Except String Unit
  /-- The random key. -/
  key : Except String VaultKey
  /-- Random bytes for the salt. -/
  salt : List UInt8
  /-- The nonce for the encryption of the key. -/
  keyNonce : Nonce
  /-- What the key pair reads. -/
  keypair : KeypairDraws
  /-- The root of the graph. -/
  rootId : VertexId
  /-- The time at which the graph is created. -/
  now : DateTime
  /-- The time of creation. -/
  createdAt : DateTime
  /-- The time of the last modification. -/
  modifiedAt : DateTime
  /-- What saving reads. -/
  save : SaveDraws

/-- Parse categories from a label (e.g., "email/work" -> ["email"]). -/
def parseCategories (label : String) : List String :=
  if '/' ∈ label.toList then
    let parts := (label.toList.splitOn '/').map String.ofList
    if 1 < parts.length then parts.dropLast else []
  else []

namespace Vault

variable (K : VaultCrates)

/-- Get a secret by its label. -/
def getSecret (label : String) (vault : Vault) : Except VaultError SecretEntry :=
  vault.dag.getSecret K vault.crypto label

/-- Internal save method. -/
def saveInternal (draws : SaveDraws) (encryptedVaultKey : List UInt8) (kdfContext : KdfContext)
    (keypair : Option VaultKeyPair) (vault : Vault) : Fallible VaultError Disk Unit := do
  let serializedDag := vault.dag.serialize draws.secrets draws.parents
  let dagData := serializedDag.toBytes K draws.fields
  let encryptedDag ← Fallible.ofExcept (vault.crypto.encrypt K.toCrates draws.nonce dagData)
  let vaultFile : VaultFile :=
    ⟨vaultVersion, kdfContext, encryptedVaultKey, keypair, encryptedDag, vault.metadata⟩
  let data ← Fallible.ofExcept ((K.toVecPretty vaultFile).mapError .serialization)
  let tempPath := PathBuf.withExtension "tmp" vault.path
  Disk.write draws.write tempPath data
  Disk.rename draws.rename tempPath vault.path

/-- Save the vault to disk, with the key that is there. -/
def save (draws : SaveDraws) (vault : Vault) : Fallible VaultError Disk Unit := do
  let disk ← Fallible.get
  let data ← Fallible.ofExcept (Disk.read vault.path disk)
  let currentFile ← Fallible.ofExcept ((K.fromSlice data).mapError .serialization)
  saveInternal K draws currentFile.encryptedVaultKey currentFile.kdfContext currentFile.keypair
    vault

/-- Create a new vault at the specified path. -/
def create (draws : CreateDraws) (path : PathBuf) (masterPassword : String) :
    Fallible VaultError Disk Vault := do
  let disk ← Fallible.get
  if path ∈ disk then Fallible.fail (.vaultExists (PathBuf.display path))
  else
    Fallible.ofExcept (draws.directory.mapError .io)
    let key ← Fallible.ofExcept
      (draws.key.mapError fun e => .crypto ("Failed to generate random key: " ++ e))
    let crypto : VaultCrypto := ⟨key⟩
    let (encryptedVaultKey, kdfContext) ← Fallible.ofExcept
      (encryptVaultKey K draws.salt draws.keyNonce key masterPassword)
    let keypair ← Fallible.ofExcept (crypto.generateKeypair K draws.keypair)
    let vault : Vault := ⟨path, crypto, .new draws.rootId draws.now,
      ⟨vaultVersion, draws.createdAt, draws.modifiedAt, 0, none⟩⟩
    saveInternal K draws.save encryptedVaultKey kdfContext (some keypair) vault
    pure vault

/-- Open an existing vault. -/
def «open» (draws : OpenDraws) (path : PathBuf) (masterPassword : String) (disk : Disk) :
    Except VaultError Vault := do
  if path ∈ disk then
    let data ← Disk.read path disk
    let vaultFile ← (K.fromSlice data).mapError .serialization
    if vaultVersion < vaultFile.version then
      .error (.invalidFormat ("Unsupported vault version: " ++ toString vaultFile.version))
    else
      let vaultKey ← decryptVaultKey K vaultFile.encryptedVaultKey masterPassword
        vaultFile.kdfContext
      let crypto : VaultCrypto := ⟨vaultKey⟩
      let dagData ← crypto.decrypt K vaultFile.encryptedDag
      let serializedDag ← SerializedVaultDag.ofBytes K dagData
      let dag ← VaultDag.deserialize draws.parents draws.now serializedDag
      pure ⟨path, crypto, dag, vaultFile.metadata⟩
  else .error (.vaultNotFound (PathBuf.display path))

end Vault

/-! ## Operations -/

/-- A vault that is open, and the disk. -/
structure Session where
  /-- The vault. -/
  vault : Vault
  /-- The disk. -/
  disk : Disk

/-- What an addition reads from outside. -/
structure AddSecretDraws where
  /-- The password that is generated if none is given. -/
  password : String
  /-- The time at which the entry is created. -/
  created : DateTime
  /-- What the graph reads. -/
  dag : VaultDag.AddDraws
  /-- The time of the modification. -/
  modifiedAt : DateTime
  /-- What saving reads. -/
  save : SaveDraws

/-- What an update reads from outside. -/
structure UpdateSecretDraws where
  /-- The time at which the password is updated. -/
  updated : DateTime
  /-- The order of custom fields. -/
  fields : HashMap.Iteration String String
  /-- The nonce for the encryption. -/
  nonce : Nonce
  /-- The time of the modification. -/
  modifiedAt : DateTime
  /-- What saving reads. -/
  save : SaveDraws

/-- What a deletion reads from outside. -/
structure DeleteSecretDraws where
  /-- The order of the parents. -/
  parents : HashSet.Iteration VertexId
  /-- The order of the children. -/
  children : HashSet.Iteration VertexId
  /-- The time of the modification. -/
  modifiedAt : DateTime
  /-- What saving reads. -/
  save : SaveDraws

/-- What an import reads from outside. -/
structure ImportDraws where
  /-- What opening the other vault reads. -/
  opening : OpenDraws
  /-- The order of the secrets of the other vault. -/
  secrets : HashMap.Iteration VertexId EncryptedSecret
  /-- What the addition of a secret reads, by its label. -/
  add : String → VaultDag.AddDraws
  /-- The time of the modification. -/
  modifiedAt : DateTime
  /-- What saving reads. -/
  save : SaveDraws

/-- Update the secret password and increment version, which wraps around in a build without
overflow checks. -/
def SecretEntry.updatePassword (newPassword : String) (now : DateTime) (secret : SecretEntry) :
    SecretEntry :=
  { secret with
    password := newPassword
    metadata := { secret.metadata with
      modifiedAt := now
      version := secret.metadata.version + 1 } }

/-- The entry with a new username and a new password, if they are given. -/
def SecretEntry.revise (username password : Option String) (now : DateTime)
    (secret : SecretEntry) : SecretEntry :=
  let secret := match username with
    | some u => { secret with username := u }
    | none => secret
  match password with
  | some p => secret.updatePassword p now
  | none => secret

namespace Session

variable (K : VaultCrates)

/-- A computation on the graph of the vault. -/
def onDag {α : Type} (m : Fallible VaultError VaultDag α) : Fallible VaultError Session α :=
  Fallible.zoom (fun s => s.vault.dag)
    (fun dag s => { s with vault := { s.vault with dag := dag } }) m

/-- A computation on the disk. -/
def onDisk {α : Type} (m : Fallible VaultError Disk α) : Fallible VaultError Session α :=
  Fallible.zoom Session.disk (fun disk s => { s with disk := disk }) m

/-- Change the number of secrets, and set the time of the last modification. -/
def stamp (count : ℕ → ℕ) (now : DateTime) (s : Session) : Session :=
  { s with vault := { s.vault with metadata := { s.vault.metadata with
    secretCount := count s.vault.metadata.secretCount
    modifiedAt := now } } }

/-- Save the vault. -/
def save (draws : SaveDraws) : Fallible VaultError Session Unit := do
  let s ← Fallible.get
  onDisk (s.vault.save K draws)

/-- Add a new secret to the vault. -/
def addSecret (draws : AddSecretDraws) (label username : String) (password : Option String) :
    Fallible VaultError Session Unit := do
  let s ← Fallible.get
  let secret := SecretEntry.new label username (password.getD draws.password) draws.created
  let _ ← onDag
    (VaultDag.addSecret K.toCrates s.vault.crypto draws.dag secret (parseCategories label))
  Fallible.modify (stamp (· + 1) draws.modifiedAt)
  save K draws.save

/-- Update an existing secret. -/
def updateSecret (draws : UpdateSecretDraws) (label : String) (username password : Option String) :
    Fallible VaultError Session Unit := do
  let s ← Fallible.get
  let secret ← Fallible.ofExcept (s.vault.getSecret K label)
  onDag (VaultDag.updateSecret K.toCrates s.vault.crypto draws.fields draws.nonce label
    (secret.revise username password draws.updated))
  Fallible.modify (stamp id draws.modifiedAt)
  save K draws.save

/-- Delete a secret from the vault. -/
def deleteSecret (draws : DeleteSecretDraws) (label : String) :
    Fallible VaultError Session Unit := do
  onDag (VaultDag.deleteSecret draws.parents draws.children label)
  Fallible.modify (stamp (· - 1) draws.modifiedAt)
  save K draws.save

/-- Import the secret of another vault with a label, unless the label can be read here. The result
is the number of secrets that were imported. -/
def importSecret (crypto : VaultCrypto) (other : Vault) (draws : VaultDag.AddDraws)
    (label : String) : Fallible VaultError VaultDag ℕ := do
  let dag ← Fallible.get
  match dag.getSecret K crypto label with
  | .ok _ => pure 0
  | .error _ =>
    let secret ← Fallible.ofExcept (other.getSecret K label)
    let _ ← VaultDag.addSecret K.toCrates crypto draws secret (parseCategories label)
    pure 1

/-- Import the secrets with some labels, one after the other. -/
def importSecrets (crypto : VaultCrypto) (other : Vault) (draws : String → VaultDag.AddDraws) :
    List String → Fallible VaultError VaultDag ℕ
  | [] => pure 0
  | label :: labels => do
    let first ← importSecret K crypto other (draws label) label
    let rest ← importSecrets crypto other draws labels
    pure (first + rest)

/-- Import secrets from another vault file. -/
def «import» (draws : ImportDraws) (inputPath : PathBuf) (masterPassword : String) :
    Fallible VaultError Session Unit := do
  let s ← Fallible.get
  let other ← Fallible.ofExcept (Vault.open K draws.opening inputPath masterPassword s.disk)
  let secrets := other.dag.listSecrets draws.secrets
  let imported ← onDag (importSecrets K s.vault.crypto other draws.add secrets)
  Fallible.modify (stamp (· + imported) draws.modifiedAt)
  save K draws.save

/-- Open the vault again. -/
def reopen (draws : OpenDraws) (masterPassword : String) : Fallible VaultError Session Unit := do
  let s ← Fallible.get
  let vault ← Fallible.ofExcept (Vault.open K draws s.vault.path masterPassword s.disk)
  Fallible.modify fun s => { s with vault := vault }

end Session

end QuDAG.Vault
