import Mathlib.Tactic.Lemma

/-!
# What the protocol takes from outside

The keys of the cryptographic crate (`qudag-crypto`) as far as the protocol handles them, and the
operations on them, which are parameters: hashing, ML-DSA signatures and ML-KEM key encapsulation.

## Main definitions

* `Platform` — what comes from other crates and from the build.
* `MlDsaPublicKey.fromBytes`, `KemPublicKey.fromBytes`, `SecretKey.fromBytes`,
  `KemCiphertext.fromBytes` — keys and ciphertexts from bytes. Only the first can fail.

## Implementation notes

An error of another crate is its debug text, which is all that the protocol makes of it.
-/

namespace QuDAG.Protocol

/-- Bytes drawn from a random generator. -/
abbrev Seed : Type := List UInt8

/-- An ML-DSA key pair. -/
structure MlDsaKeyPair where
  /-- The public key. -/
  publicKey : List UInt8
  /-- The secret key. -/
  secretKey : List UInt8
  deriving DecidableEq

/-- An ML-DSA public key. -/
structure MlDsaPublicKey where
  /-- The raw bytes. -/
  keyBytes : List UInt8
  deriving DecidableEq

/-- An ML-KEM key pair. -/
structure KemKeyPair where
  /-- The public key. -/
  publicKey : List UInt8
  /-- The secret key. -/
  secretKey : List UInt8
  deriving DecidableEq

/-- An ML-KEM public key. -/
structure KemPublicKey where
  /-- The raw bytes. -/
  bytes : List UInt8
  deriving DecidableEq

/-- An ML-KEM secret key. -/
structure SecretKey where
  /-- The raw bytes. -/
  bytes : List UInt8
  deriving DecidableEq

/-- An ML-KEM ciphertext. -/
structure KemCiphertext where
  /-- The raw bytes. -/
  bytes : List UInt8
  deriving DecidableEq

/-- An ML-KEM shared secret. -/
structure SharedSecret where
  /-- The raw bytes. -/
  bytes : List UInt8
  deriving DecidableEq

/-- What the protocol uses of other crates, and the build. -/
structure Platform where
  /-- The build checks arithmetic for overflow. -/
  overflowChecks : Bool
  /-- The BLAKE3 hash. -/
  blake3 : List UInt8 → List UInt8
  /-- The keyed BLAKE3 hash: key, data. -/
  keyedHash : List UInt8 → List UInt8 → List UInt8
  /-- Generate an ML-DSA key pair. -/
  generateMlDsa : Seed → Except String MlDsaKeyPair
  /-- Parse the bytes of an ML-DSA public key. -/
  parseMlDsaKey : List UInt8 → Bool
  /-- Sign a message with ML-DSA. -/
  signMlDsa : MlDsaKeyPair → List UInt8 → Seed → Except String (List UInt8)
  /-- Verify an ML-DSA signature: key, message, signature. -/
  verifyMlDsa : MlDsaPublicKey → List UInt8 → List UInt8 → Except String Unit
  /-- Generate an ML-KEM key pair. -/
  keygen : Seed → Except String (KemPublicKey × SecretKey)
  /-- Encapsulate a secret for a public key. -/
  encapsulate : KemPublicKey → Seed → Except String (KemCiphertext × SharedSecret)
  /-- Decapsulate a secret. -/
  decapsulate : SecretKey → KemCiphertext → Except String SharedSecret
  /-- The debug text of the error on bytes that cannot be deserialized. -/
  decodeError : List UInt8 → String

/-- What is encapsulated for a generated key is decapsulated with it. -/
def Platform.KemCorrect (P : Platform) : Prop :=
  ∀ seed publicKey secretKey seed' ciphertext secret,
    P.keygen seed = .ok (publicKey, secretKey) →
    P.encapsulate publicKey seed' = .ok (ciphertext, secret) →
    P.decapsulate secretKey ciphertext = .ok secret

/-- A stand-in for the other crates. Keys and ciphertexts repeat the first byte of their seed, a
signature repeats what it signs, a secret is known by its ciphertext and the secret key. -/
def Platform.toy : Platform where
  overflowChecks := true
  blake3 bytes := List.replicate 32 (bytes.foldl (fun h b => h * 31 + b) 7)
  keyedHash key data := List.replicate 32 ((key ++ data).foldl (fun h b => h * 31 + b) 7)
  generateMlDsa seed := .ok ⟨List.replicate 1952 (seed.headD 0), seed⟩
  parseMlDsaKey _ := true
  signMlDsa keypair data _ := .ok (keypair.publicKey.headD 0 :: data)
  verifyMlDsa publicKey data signature :=
    if signature = publicKey.keyBytes.headD 0 :: data then .ok () else .error "VerificationFailed"
  keygen seed := .ok (⟨[seed.headD 0]⟩, ⟨[seed.headD 0]⟩)
  encapsulate publicKey seed :=
    .ok (⟨[seed.headD 0]⟩, ⟨[publicKey.bytes.headD 0, seed.headD 0]⟩)
  decapsulate secretKey ciphertext := .ok ⟨secretKey.bytes.headD 0 :: ciphertext.bytes⟩
  decodeError _ := "Io(UnexpectedEof)"

/-- The stand-in decapsulates what it encapsulates. -/
lemma Platform.kemCorrect_toy : Platform.toy.KemCorrect := by
  intro seed publicKey secretKey seed' ciphertext secret hkeys hsecret
  obtain ⟨rfl, rfl⟩ := Prod.mk.inj (Except.ok.inj hkeys)
  obtain ⟨rfl, rfl⟩ := Prod.mk.inj (Except.ok.inj hsecret)
  rfl

/-- Create a new ML-DSA public key from raw bytes. -/
def MlDsaPublicKey.fromBytes (P : Platform) (bytes : List UInt8) : Except String MlDsaPublicKey :=
  if bytes.length ≠ 1952 then
    .error ("InvalidKeyLength \x7b expected: 1952, found: " ++ toString bytes.length ++ " \x7d")
  else if P.parseMlDsaKey bytes then .ok ⟨bytes⟩
  else .error "InvalidPublicKey(\"Failed to parse public key\")"

/-- Create an ML-KEM public key from raw bytes. -/
def KemPublicKey.fromBytes (bytes : List UInt8) : Except String KemPublicKey := .ok ⟨bytes⟩

/-- Create an ML-KEM secret key from raw bytes. -/
def SecretKey.fromBytes (bytes : List UInt8) : Except String SecretKey := .ok ⟨bytes⟩

/-- Create an ML-KEM ciphertext from raw bytes. -/
def KemCiphertext.fromBytes (bytes : List UInt8) : Except String KemCiphertext := .ok ⟨bytes⟩

end QuDAG.Protocol
