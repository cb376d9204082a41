import QuDAG.Lib.Codec
import QuDAG.Lib.Collections

/-!
# Secrets of the vault

Secret entries with their metadata (`secret.rs`), their serialization, and their encryption
(`crypto.rs`).

## Main definitions

* `Crates` — what the vault uses of other crates.
* `SecretEntry`, `SecretEntry.serialize` — a secret and its bytes.
* `VaultCrypto.encrypt` — the encryption under the key of the vault.
* `EncryptedSecret`, `VaultCrypto.encryptSecret` — what the vault stores.

## Implementation notes

Serialization cannot fail here: `bincode` fails only on sequences of unknown length. It writes the
custom fields in the order in which their map is iterated over. How a time is written is up to
`chrono`.
-/

namespace QuDAG.Vault

open RustStd

/-- Errors that can occur during vault operations. -/
inductive VaultError
  /-- Cryptographic operation failed. -/
  | crypto (reason : String)
  /-- Key derivation failed. -/
  | keyDerivation (reason : String)
  /-- IO operation failed. -/
  | io (reason : String)
  /-- Serialization/deserialization failed. -/
  | serialization (reason : String)
  /-- Secret not found. -/
  | secretNotFound (label : String)
  /-- Vault already exists. -/
  | vaultExists (path : String)
  /-- Vault not found. -/
  | vaultNotFound (path : String)
  /-- Invalid vault format or corrupted data. -/
  | invalidFormat (reason : String)
  /-- Generic vault error. -/
  | generic (reason : String)
  deriving DecidableEq

/-- A point in time, in nanoseconds. -/
abbrev DateTime : Type := ℤ

/-- A vault key: 32 bytes. -/
structure VaultKey where
  /-- The bytes. -/
  bytes : List UInt8
  /-- There are 32 of them. -/
  length_eq : bytes.length = 32

/-- An AES-GCM nonce: 12 bytes. -/
structure Nonce where
  /-- The bytes. -/
  bytes : List UInt8
  /-- There are 12 of them. -/
  length_eq : bytes.length = 12
  deriving DecidableEq

/-- What the vault uses of other crates. -/
structure Crates where
  /-- Encrypt with AES-256-GCM: key, nonce, plaintext. -/
  aesEncrypt : VaultKey → Nonce → List UInt8 → Except String (List UInt8)
  /-- How a time is written. -/
  dateTime : Codec DateTime

/-! ## Entries -/

/-- Metadata associated with a secret entry. -/
structure SecretMetadata where
  /-- When the secret was created. -/
  createdAt : DateTime
  /-- When the secret was last modified. -/
  modifiedAt : DateTime
  /-- When the secret was last accessed. -/
  accessedAt : Option DateTime
  /-- Version number for the secret. -/
  version : UInt32
  /-- Tags for categorization. -/
  tags : List String
  /-- Custom fields for extensibility. -/
  customFields : HashMap String String
  deriving DecidableEq

/-- A secret entry containing sensitive information. -/
structure SecretEntry where
  /-- Unique label for the secret. -/
  label : String
  /-- Username associated with the secret. -/
  username : String
  /-- The actual password or secret value. -/
  password : String
  /-- Optional URL associated with the secret. -/
  url : Option String
  /-- Optional notes about the secret. -/
  notes : Option String
  /-- Metadata about the secret. -/
  metadata : SecretMetadata
  deriving DecidableEq

/-- The metadata of a new secret. -/
def SecretMetadata.default (now : DateTime) : SecretMetadata := ⟨now, now, none, 1, [], ∅⟩

/-- Create a new secret entry. -/
def SecretEntry.new (label username password : String) (now : DateTime) : SecretEntry :=
  ⟨label, username, password, none, none, .default now⟩

/-- An entry with its custom fields in the order in which they are written. -/
structure WireEntry where
  label : String
  username : String
  password : String
  url : Option String
  notes : Option String
  createdAt : DateTime
  modifiedAt : DateTime
  accessedAt : Option DateTime
  version : UInt32
  tags : List String
  customFields : List (String × String)
  deriving DecidableEq

/-- The fields of an entry. -/
def WireEntry.codec (K : Crates) : Codec WireEntry :=
  (Codec.string.pair (Codec.string.pair (Codec.string.pair (Codec.string.option.pair
    (Codec.string.option.pair (K.dateTime.pair (K.dateTime.pair (K.dateTime.option.pair
      (Codec.u32.pair (Codec.string.list.pair (Codec.string.pair Codec.string).list)))))))))).refine
    (fun p => some ⟨p.1, p.2.1, p.2.2.1, p.2.2.2.1, p.2.2.2.2.1, p.2.2.2.2.2.1, p.2.2.2.2.2.2.1,
      p.2.2.2.2.2.2.2.1, p.2.2.2.2.2.2.2.2.1, p.2.2.2.2.2.2.2.2.2.1, p.2.2.2.2.2.2.2.2.2.2⟩)
    fun w => (w.label, w.username, w.password, w.url, w.notes, w.createdAt, w.modifiedAt,
      w.accessedAt, w.version, w.tags, w.customFields)

/-- Serialize an entry, whose custom fields are iterated over in some way. -/
def SecretEntry.serialize (K : Crates) (fields : HashMap.Iteration String String)
    (secret : SecretEntry) : List UInt8 :=
  (WireEntry.codec K).encode ⟨secret.label, secret.username, secret.password, secret.url,
    secret.notes, secret.metadata.createdAt, secret.metadata.modifiedAt,
    secret.metadata.accessedAt, secret.metadata.version, secret.metadata.tags,
    fields.order secret.metadata.customFields⟩

/-! ## Encryption -/

/-- Encrypted secret data stored in the vault. -/
structure EncryptedSecret where
  /-- The encrypted secret data. -/
  encryptedData : List UInt8
  /-- Metadata (stored unencrypted for searching). -/
  metadata : SecretMetadata
  /-- Label (stored unencrypted for indexing). -/
  label : String
  deriving DecidableEq

/-- Vault cryptographic operations wrapper. -/
structure VaultCrypto where
  /-- The main vault encryption key. -/
  vaultKey : VaultKey

namespace VaultCrypto

/-- Encrypt data using AES-256-GCM. The nonce comes first. -/
def encrypt (K : Crates) (nonce : Nonce) (plaintext : List UInt8) (crypto : VaultCrypto) :
    Except VaultError (List UInt8) := do
  let ciphertext ← (K.aesEncrypt crypto.vaultKey nonce plaintext).mapError fun e =>
    .crypto ("Encryption failed: " ++ e)
  pure (nonce.bytes ++ ciphertext)

/-- Serialize and encrypt a secret. -/
def encryptSecret (K : Crates) (fields : HashMap.Iteration String String) (nonce : Nonce)
    (secret : SecretEntry) (crypto : VaultCrypto) : Except VaultError EncryptedSecret := do
  let serialized := secret.serialize K fields
  let encryptedData ← crypto.encrypt K nonce serialized
  pure ⟨encryptedData, secret.metadata, secret.label⟩

end VaultCrypto

end QuDAG.Vault
