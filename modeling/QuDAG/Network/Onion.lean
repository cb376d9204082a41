import QuDAG.Dag.Voting
import QuDAG.Lib.Outcome
import QuDAG.Vault.Secret

/-!
# Onion layers (`onion.rs`)

A message for a route is encrypted for the last hop first; the layer of each hop holds the layer of
the next one. A layer is checked when it is built and when it is opened.

## Main definitions

* `OnionLayer`, with `validate` and its binary form.
* `MLKEMOnionRouter.encryptLayers`, `MLKEMOnionRouter.decryptLayer`.
* `OnionCrates.Correct` — the cryptography opens what it sealed.

## Main results

* `OnionLayer.deserialize_serialize` — a layer is read back.

## Implementation notes

The cryptographic crates are parameters. Random values and readings of the clock are arguments, in
milliseconds. Serialization cannot fail here.
-/

namespace QuDAG.Network

open RustStd
open QuDAG.Vault (Nonce)

/-- Error types for onion routing operations. -/
inductive OnionError
  | encryptionError (reason : String)
  | decryptionError (reason : String)
  | invalidFormat (reason : String)
  | mlkemError (reason : String)
  | rngError (reason : String)
  | routeError (reason : String)
  | timingError (reason : String)
  deriving DecidableEq, Repr

/-! ## Layers -/

/-- Onion routing layer containing encrypted next hop information. -/
structure OnionLayer where
  /-- Encrypted next hop public key. -/
  nextHop : List UInt8
  /-- Encrypted payload for next hop. -/
  payload : List UInt8
  /-- Encrypted routing metadata. -/
  metadata : List UInt8
  /-- ML-KEM ciphertext for key encapsulation. -/
  kemCiphertext : List UInt8
  /-- Nonce for AEAD encryption. -/
  nonce : Nonce
  /-- Authentication tag. -/
  authTag : List UInt8
  /-- Layer creation timestamp for timing analysis resistance. -/
  timestamp : UInt64
  /-- Dummy padding for size normalization. -/
  padding : List UInt8
  deriving DecidableEq

/-- Layer processing flags. -/
structure LayerFlags where
  isExit : Bool
  paddingEnabled : Bool
  timingObfuscation : Bool
  ackRequired : Bool

/-- Hop metadata for routing. -/
structure HopMetadata where
  /-- Circuit ID for this hop. -/
  circuitId : UInt64
  /-- Hop number in circuit. -/
  hopNumber : UInt8
  /-- Next hop node ID. -/
  nextHop : Option (List UInt8)
  /-- Layer processing flags. -/
  flags : LayerFlags

/-- A nonce is written as its bytes. -/
def nonceCodec : Codec Nonce :=
  (Codec.u8.array 12).refine (fun l => if h : l.length = 12 then some ⟨l, h⟩ else none) Nonce.bytes

/-- The fields of a layer. -/
def OnionLayer.codec : Codec OnionLayer :=
  (Codec.byteVec.pair (Codec.byteVec.pair (Codec.byteVec.pair (Codec.byteVec.pair (nonceCodec.pair
    (Codec.byteVec.pair (Codec.u64.pair Codec.byteVec))))))).refine
    (fun p => some ⟨p.1, p.2.1, p.2.2.1, p.2.2.2.1, p.2.2.2.2.1, p.2.2.2.2.2.1, p.2.2.2.2.2.2.1,
      p.2.2.2.2.2.2.2⟩)
    fun l => (l.nextHop, l.payload, l.metadata, l.kemCiphertext, l.nonce, l.authTag, l.timestamp,
      l.padding)

/-- The fields of the flags. -/
def LayerFlags.codec : Codec LayerFlags :=
  (Codec.bool.pair (Codec.bool.pair (Codec.bool.pair Codec.bool))).refine
    (fun p => some ⟨p.1, p.2.1, p.2.2.1, p.2.2.2⟩)
    fun f => (f.isExit, f.paddingEnabled, f.timingObfuscation, f.ackRequired)

/-- The fields of the metadata. -/
def HopMetadata.codec : Codec HopMetadata :=
  (Codec.u64.pair (Codec.u8.pair (Codec.byteVec.option.pair LayerFlags.codec))).refine
    (fun p => some ⟨p.1, p.2.1, p.2.2.1, p.2.2.2⟩)
    fun m => (m.circuitId, m.hopNumber, m.nextHop, m.flags)

namespace OnionLayer

/-- Validates layer format and timing constraints. -/
def validate (now : UInt64) (layer : OnionLayer) : Except OnionError Unit :=
  if layer.nextHop = [] then .error (.invalidFormat "empty next hop key")
  else if layer.payload = [] then .error (.invalidFormat "empty payload")
  else if layer.kemCiphertext = [] then .error (.invalidFormat "missing KEM ciphertext")
  -- 5 minute window
  else if 300000 < now.toNat - layer.timestamp.toNat then .error (.timingError "layer too old")
  else .ok ()

/-- Get total layer size including padding. -/
def totalSize (layer : OnionLayer) : ℕ :=
  layer.nextHop.length + layer.payload.length + layer.metadata.length +
    layer.kemCiphertext.length + layer.authTag.length + layer.padding.length + 12 + 8

/-- Normalize layer size to standard size. -/
def normalizeSize (random : ℕ → List UInt8) (targetSize : ℕ) (layer : OnionLayer) : OnionLayer :=
  if layer.totalSize < targetSize then
    { layer with padding := layer.padding ++ random (targetSize - layer.totalSize) }
  else layer

/-- The bytes of a layer. -/
def serialize (layer : OnionLayer) : List UInt8 := codec.encode layer

/-- Read a layer, whatever follows it. -/
def deserialize (bytes : List UInt8) : Option OnionLayer := (codec.decode bytes).map Prod.fst

/-- The lengths of the layer fit their prefixes. -/
def Fits (layer : OnionLayer) : Prop := codec.Valid layer

/-- **A layer is read back.** -/
lemma deserialize_serialize {layer : OnionLayer} (h : layer.Fits) :
    deserialize layer.serialize = some layer := by
  have hread := codec.decode_encode layer [] h
  rw [List.append_nil] at hread
  rw [deserialize, serialize, hread]
  rfl

end OnionLayer

/-! ## Cryptography -/

/-- The crates behind the router: ML-KEM, HKDF and ChaCha20-Poly1305. -/
structure OnionCrates where
  /-- Encapsulate a secret for a public key. -/
  encapsulate : List UInt8 → List UInt8 → Except String (List UInt8 × List UInt8)
  /-- Read a ciphertext. -/
  ciphertextFromBytes : List UInt8 → Except String (List UInt8)
  /-- Decapsulate a ciphertext with a secret key. -/
  decapsulate : List UInt8 → List UInt8 → Except String (List UInt8)
  /-- Derive a symmetric key from a shared secret. -/
  hkdf : List UInt8 → Option (List UInt8)
  /-- Encrypt with a key and a nonce. -/
  sealInPlace : List UInt8 → Nonce → List UInt8 → Except String (List UInt8)
  /-- Decrypt with a key and a nonce. -/
  openInPlace : List UInt8 → Nonce → List UInt8 → Except String (List UInt8)

/-- The cryptography opens what it sealed: for a pair of keys, the shared secret is found again,
and it opens what it sealed, which is not empty. -/
structure OnionCrates.Correct (K : OnionCrates) (publicKey secretKey : List UInt8) : Prop where
  decapsulate : ∀ random ciphertext secret,
    K.encapsulate random publicKey = .ok (ciphertext, secret) → ciphertext ≠ [] ∧
      ∃ c, K.ciphertextFromBytes ciphertext = .ok c ∧ K.decapsulate secretKey c = .ok secret
  openInPlace : ∀ key nonce data sealed, K.sealInPlace key nonce data = .ok sealed →
    sealed ≠ [] ∧ K.openInPlace key nonce sealed = .ok data

/-! ## Routers -/

/-- Node information in directory. -/
structure NodeInfo where
  /-- Node ID. -/
  id : List UInt8
  /-- ML-KEM public key. -/
  publicKey : List UInt8
  /-- Node bandwidth (bytes/sec). -/
  bandwidth : ℕ
  /-- Node can be used as entry guard. -/
  guard : Bool
  /-- Node can be used as exit. -/
  exit : Bool
  /-- Node is stable. -/
  stable : Bool
  /-- Last seen timestamp. -/
  lastSeen : Instant

/-- Directory authority client for node discovery. -/
structure DirectoryClient where
  /-- Known nodes with their public keys. -/
  nodes : HashMap (List UInt8) NodeInfo
  /-- Last directory update. -/
  lastUpdate : Instant
  /-- Update interval. -/
  updateInterval : Duration

/-- Get public key for a node. -/
def DirectoryClient.getPublicKey (nodeId : List UInt8) (directory : DirectoryClient) :
    Except String (List UInt8) :=
  match directory.nodes.lookup nodeId with
  | some info => .ok info.publicKey
  | none => .error "Node not found in directory"

/-- Implementation of ML-KEM-based onion routing. -/
structure MLKEMOnionRouter where
  /-- Node's ML-KEM secret key for decryption. -/
  mlKemSecretKey : List UInt8
  /-- Standard layer size for traffic analysis resistance. -/
  standardLayerSize : ℕ
  /-- Directory authority client. -/
  directoryClient : DirectoryClient

/-- What building a layer reads from outside. -/
structure LayerDraws where
  /-- The nonce. -/
  nonce : Except String Nonce
  /-- Random bytes for the encapsulation. -/
  kem : List UInt8
  /-- The circuit ID in the metadata. -/
  circuitId : UInt64
  /-- When the metadata is made. -/
  metadataTime : UInt64
  /-- Padding of the metadata. -/
  metadataPadding : List UInt8
  /-- When the layer is made. -/
  layerTime : UInt64
  /-- First padding of the layer. -/
  layerPadding : List UInt8
  /-- Padding to the standard size. -/
  normalPadding : ℕ → List UInt8
  /-- When the layer is checked. -/
  validateTime : UInt64

namespace MLKEMOnionRouter

variable (K : OnionCrates)

/-- Derive symmetric key from ML-KEM shared secret using KDF. -/
def deriveSymmetricKey (sharedSecret : List UInt8) : Except OnionError (List UInt8) :=
  match K.hkdf sharedSecret with
  | some key => .ok key
  | none => .error (.encryptionError "Key derivation failed")

/-- Creates routing metadata for a layer. -/
def createMetadata (draws : LayerDraws) (routeInfo : List UInt8) : List UInt8 :=
  Codec.u64.encode draws.metadataTime ++ routeInfo ++ draws.metadataPadding

/-- The layer for the hop that is `i` before the last one. -/
def buildLayer (draws : LayerDraws) (route : List (List UInt8)) (i : ℕ)
    (currentPayload : List UInt8) (router : MLKEMOnionRouter) : Except OnionError OnionLayer := do
  let nonce ← draws.nonce.mapError .rngError
  -- get public key for this hop
  let hopPublicKey ← (router.directoryClient.getPublicKey
    (route.getD (route.length - i - 1) [])).mapError fun e =>
      .routeError ("Failed to get public key: " ++ e)
  let (kemCiphertext, sharedSecret) ← (K.encapsulate draws.kem hopPublicKey).mapError fun e =>
    .mlkemError ("Encapsulation failed: " ++ e)
  let symmetricKey ← deriveSymmetricKey K sharedSecret
  let next := route.getD (route.length - i) []
  let hopInfo : HopMetadata :=
    ⟨draws.circuitId, UInt8.ofNat i, if i = 0 then none else some next,
      ⟨false, false, false, false⟩⟩
  let metadata := createMetadata draws (HopMetadata.codec.encode hopInfo)
  -- empty for last layer
  let nextHop := if i = 0 then [] else next
  let encryptedPayload ← (K.sealInPlace symmetricKey nonce currentPayload).mapError .encryptionError
  let layer : OnionLayer := ⟨nextHop, encryptedPayload, metadata, kemCiphertext, nonce, [],
    draws.layerTime, draws.layerPadding⟩
  let layer := layer.normalizeSize draws.normalPadding router.standardLayerSize
  layer.validate draws.validateTime
  return layer

/-- The loop over the hops from the last to the first. -/
def encryptLoop (draws : ℕ → LayerDraws) (route : List (List UInt8)) (router : MLKEMOnionRouter) :
    ℕ → ℕ → List UInt8 → List OnionLayer → Except OnionError (List OnionLayer)
  | 0, _, _, layers => .ok layers
  | remaining + 1, i, currentPayload, layers => do
    let layer ← router.buildLayer K (draws i) route i currentPayload
    encryptLoop draws route router remaining (i + 1) layer.serialize (layers ++ [layer])

/-- Encrypt layers for onion routing, the outermost first. -/
def encryptLayers (draws : ℕ → LayerDraws) (message : List UInt8) (route : List (List UInt8))
    (router : MLKEMOnionRouter) : Except OnionError (List OnionLayer) := do
  if route = [] then .error (.routeError "empty route")
  else
    let layers ← encryptLoop K draws route router route.length 0 message []
    return layers.reverse

/-- Decrypt an onion layer. -/
def decryptLayer (now : UInt64) (layer : OnionLayer) (router : MLKEMOnionRouter) :
    Except OnionError (List UInt8 × Option OnionLayer) := do
  layer.validate now
  let kemCiphertext ← (K.ciphertextFromBytes layer.kemCiphertext).mapError fun _ =>
    .mlkemError "Invalid KEM ciphertext"
  let sharedSecret ← (K.decapsulate router.mlKemSecretKey kemCiphertext).mapError fun e =>
    .mlkemError ("Decapsulation failed: " ++ e)
  let symmetricKey ← deriveSymmetricKey K sharedSecret
  let decryptedPayload ←
    (K.openInPlace symmetricKey layer.nonce layer.payload).mapError .decryptionError
  if layer.nextHop ≠ [] then
    match OnionLayer.deserialize decryptedPayload with
    | some nextLayer => return (decryptedPayload, some nextLayer)
    | none => return (decryptedPayload, none)
  else return (decryptedPayload, none)

end MLKEMOnionRouter

end QuDAG.Network
