import QuDAG.Lib.Hex
import QuDAG.Protocol.State

/-!
# The handshake

The handshake coordinator (`handshake.rs`): sessions with their ephemeral keys, the messages of the
handshake, the derivation of the session keys, and the processing of what is received.

## Main definitions

* `HandshakeMessagePayload` — what the messages carry, with its serialization.
* `deriveSessionKeys` — the secrets of a session.
* `validateTimestamp` — the check of the time of a message.
* `HandshakeCoordinator`, with `initiateHandshake`, `processHandshakeMessage` and `cleanupSessions`.

## Implementation notes

What a call reads from outside (the clocks, random bytes, new identifiers, the order in which the
headers of a message are iterated over) is a record `Env`. The parts of the processing that only
read the coordinator are functions to `Except` of their own, so that what is left is what changes
the coordinator. A message that is made here has no headers, so there is one order for them.
Serialization cannot fail; keys and ciphertexts of ML-KEM are taken from bytes without a check.
-/

namespace QuDAG.Protocol

open RustStd

/-! ## Errors and configuration -/

/-- The hyphenated text of a UUID. -/
def Uuid.display (u : Uuid) : String :=
  "-".intercalate [Hex.encode (u.bytes.take 4), Hex.encode ((u.bytes.drop 4).take 2),
    Hex.encode ((u.bytes.drop 6).take 2), Hex.encode ((u.bytes.drop 8).take 2),
    Hex.encode (u.bytes.drop 10)]

/-- Handshake-related errors. -/
inductive HandshakeError
  /-- Cryptographic operation failed. -/
  | cryptoError (reason : String)
  /-- Invalid handshake message. -/
  | invalidMessage (reason : String)
  /-- Protocol version mismatch. -/
  | versionMismatch (expected actual : ProtocolVersion)
  /-- Unsupported capabilities. -/
  | unsupportedCapabilities (capabilities : List String)
  /-- Invalid peer credentials. -/
  | invalidCredentials
  /-- State machine error. -/
  | stateMachine (e : StateError)
  /-- Message error. -/
  | message (e : MessageError)
  /-- Replay attack detected. -/
  | replayAttack (timestamp : UInt64)
  deriving DecidableEq

/-- How a call stops early: with an error, or because of an overflow. -/
inductive Failure
  | error (e : HandshakeError)
  | panic
  deriving DecidableEq

/-- Handshake configuration. -/
structure HandshakeConfig where
  /-- Timeout for handshake completion. -/
  timeout : ℕ
  /-- Supported protocol versions. -/
  supportedVersions : List ProtocolVersion
  /-- Required capabilities. -/
  requiredCapabilities : List String
  /-- Optional capabilities. -/
  optionalCapabilities : List String
  /-- Maximum timestamp skew allowed, in milliseconds. -/
  maxTimestampSkew : UInt64
  deriving DecidableEq

/-- The default configuration. -/
def HandshakeConfig.default : HandshakeConfig :=
  ⟨30 * 10 ^ 9, [.current], ["dag-consensus", "quantum-resistant-crypto"],
    ["anonymous-routing", "dark-addressing"], 300 * 1000⟩

/-- The capabilities that are sent to the peer. -/
def HandshakeConfig.capabilities (config : HandshakeConfig) : List String :=
  config.requiredCapabilities ++ config.optionalCapabilities

/-! ## Sessions -/

/-- Handshake session state. -/
inductive HandshakeSessionState
  /-- Waiting to start handshake. -/
  | waiting
  /-- Sent initial handshake message. -/
  | initSent
  /-- Received initial handshake message. -/
  | initReceived
  /-- Sent handshake response. -/
  | responseSent
  /-- Received handshake response. -/
  | responseReceived
  /-- Handshake completed successfully. -/
  | completed
  /-- Handshake failed. -/
  | failed
  deriving DecidableEq

/-- The debug text of a session state. -/
def HandshakeSessionState.debug : HandshakeSessionState → String
  | .waiting => "Waiting"
  | .initSent => "InitSent"
  | .initReceived => "InitReceived"
  | .responseSent => "ResponseSent"
  | .responseReceived => "ResponseReceived"
  | .completed => "Completed"
  | .failed => "Failed"

/-- Handshake keys for a session. -/
structure HandshakeKeys where
  /-- ML-DSA keypair for authentication. -/
  signatureKeypair : MlDsaKeyPair
  /-- ML-KEM keypair for key exchange. -/
  kemKeypair : KemKeyPair
  deriving DecidableEq

/-- Peer's public keys. -/
structure PeerKeys where
  /-- Peer's ML-DSA public key. -/
  signaturePublicKey : MlDsaPublicKey
  /-- Peer's ML-KEM public key. -/
  kemPublicKey : KemPublicKey
  deriving DecidableEq

/-- Derived shared secrets. -/
structure SharedSecrets where
  /-- Shared secret from ML-KEM. -/
  kemSharedSecret : SharedSecret
  /-- Derived encryption key. -/
  encryptionKey : List UInt8
  /-- Derived MAC key. -/
  macKey : List UInt8
  /-- Session identifier. -/
  sessionKey : List UInt8
  deriving DecidableEq

/-- A handshake session. -/
structure HandshakeSession where
  /-- Session identifier. -/
  sessionId : Uuid
  /-- Peer identifier (if known). -/
  peerId : Option (List UInt8)
  /-- Handshake state. -/
  state : HandshakeSessionState
  /-- Protocol version negotiated. -/
  negotiatedVersion : Option ProtocolVersion
  /-- Peer capabilities. -/
  peerCapabilities : List String
  /-- Our ephemeral keys for this session. -/
  ourKeys : HandshakeKeys
  /-- Peer's public keys. -/
  peerKeys : Option PeerKeys
  /-- Shared secrets. -/
  sharedSecrets : Option SharedSecrets
  /-- Session start time. -/
  startedAt : ℕ
  /-- Last activity. -/
  lastActivity : ℕ
  /-- Nonce for this session. -/
  nonce : UInt64
  deriving DecidableEq

/-! ## Payloads -/

/-- Initial handshake message. -/
structure InitPayload where
  protocolVersion : ProtocolVersion
  supportedVersions : List ProtocolVersion
  capabilities : List String
  signaturePublicKey : List UInt8
  kemPublicKey : List UInt8
  nonce : UInt64
  timestamp : UInt64

/-- Handshake response message. -/
structure ResponsePayload where
  protocolVersion : ProtocolVersion
  capabilities : List String
  signaturePublicKey : List UInt8
  /-- Encapsulated shared secret. -/
  kemCiphertext : List UInt8
  nonce : UInt64
  timestamp : UInt64

/-- Handshake completion message. -/
structure CompletePayload where
  sessionId : List UInt8
  timestamp : UInt64

/-- Version negotiation message. -/
structure VersionNegotiationPayload where
  supportedVersions : List ProtocolVersion
  preferredVersion : ProtocolVersion

/-- Handshake message payloads. -/
inductive HandshakeMessagePayload
  | init (p : InitPayload)
  | response (p : ResponsePayload)
  | complete (p : CompletePayload)
  | versionNegotiation (p : VersionNegotiationPayload)

/-- The fields of an initial message. -/
def InitPayload.codec : Codec InitPayload :=
  (ProtocolVersion.codec.pair (ProtocolVersion.codec.list.pair (Codec.string.list.pair
    (Codec.byteVec.pair (Codec.byteVec.pair (Codec.u64.pair Codec.u64)))))).refine
    (fun p => some ⟨p.1, p.2.1, p.2.2.1, p.2.2.2.1, p.2.2.2.2.1, p.2.2.2.2.2.1, p.2.2.2.2.2.2⟩)
    fun p => (p.protocolVersion, p.supportedVersions, p.capabilities, p.signaturePublicKey,
      p.kemPublicKey, p.nonce, p.timestamp)

/-- The fields of a response. -/
def ResponsePayload.codec : Codec ResponsePayload :=
  (ProtocolVersion.codec.pair (Codec.string.list.pair (Codec.byteVec.pair (Codec.byteVec.pair
    (Codec.u64.pair Codec.u64))))).refine
    (fun p => some ⟨p.1, p.2.1, p.2.2.1, p.2.2.2.1, p.2.2.2.2.1, p.2.2.2.2.2⟩)
    fun p => (p.protocolVersion, p.capabilities, p.signaturePublicKey, p.kemCiphertext, p.nonce,
      p.timestamp)

/-- The fields of a completion message. -/
def CompletePayload.codec : Codec CompletePayload :=
  (Codec.byteVec.pair Codec.u64).refine (fun p => some ⟨p.1, p.2⟩) fun p =>
    (p.sessionId, p.timestamp)

/-- The fields of a version negotiation. -/
def VersionNegotiationPayload.codec : Codec VersionNegotiationPayload :=
  (ProtocolVersion.codec.list.pair ProtocolVersion.codec).refine (fun p => some ⟨p.1, p.2⟩)
    fun p => (p.supportedVersions, p.preferredVersion)

/-- A payload is written as its number and its fields. -/
def HandshakeMessagePayload.codec : Codec HandshakeMessagePayload :=
  Codec.variant
    (fun
      | .init _ => 0
      | .response _ => 1
      | .complete _ => 2
      | .versionNegotiation _ => 3)
    (fun
      | 0 => InitPayload.codec.case .init fun
          | .init p => some p
          | _ => none
      | 1 => ResponsePayload.codec.case .response fun
          | .response p => some p
          | _ => none
      | 2 => CompletePayload.codec.case .complete fun
          | .complete p => some p
          | _ => none
      | 3 => VersionNegotiationPayload.codec.case .versionNegotiation fun
          | .versionNegotiation p => some p
          | _ => none
      | _ => Codec.reject)

/-- Deserialize the payload of a message of a kind. -/
def decodePayload (P : Platform) (kind : String) (bytes : List UInt8) :
    Except HandshakeError HandshakeMessagePayload :=
  match HandshakeMessagePayload.codec.decode bytes with
  | some r => .ok r.1
  | none => .error (.invalidMessage
      ("Failed to deserialize " ++ kind ++ ": " ++ P.decodeError bytes))

/-! ## Checks and keys -/

/-- Validate message timestamp to prevent replay attacks. The second sum is made only if the first
comparison does not decide. -/
def validateTimestamp (checks : Bool) (config : HandshakeConfig) (now : UInt64)
    (message : Message) : Outcome HandshakeError Unit :=
  let messageTime := message.timestamp
  let maxSkew := config.maxTimestampSkew
  match addU64 checks messageTime maxSkew with
  | none => .panic
  | some latest =>
    if latest < now then .err (.replayAttack messageTime)
    else
      match addU64 checks now maxSkew with
      | none => .panic
      | some horizon =>
        if horizon < messageTime then .err (.replayAttack messageTime) else .ok ()

/-- Negotiate protocol version: the one the peer prefers, or the first of ours that is compatible
with one of the peer's. -/
def negotiateVersion (config : HandshakeConfig) (peerVersions : List ProtocolVersion)
    (peerPreferred : ProtocolVersion) : Except HandshakeError ProtocolVersion :=
  if peerPreferred ∈ config.supportedVersions then .ok peerPreferred
  else
    match config.supportedVersions.find? fun version => peerVersions.any version.isCompatible with
    | some version => .ok version
    | none => .error (.versionMismatch .current peerPreferred)

/-- Verify peer capabilities: the first one that is missing is the error. -/
def verifyCapabilities (config : HandshakeConfig) (peerCapabilities : List String) :
    Except HandshakeError Unit :=
  match config.requiredCapabilities.find? fun capability => decide (capability ∉ peerCapabilities)
  with
  | some capability => .error (.unsupportedCapabilities [capability])
  | none => .ok ()

/-- The bytes of a number, the highest first. -/
def toBeBytes (n : UInt64) : List UInt8 := (Codec.wordBytes 8 n.toNat).reverse

/-- Derive session keys from shared secret. -/
def deriveSessionKeys (P : Platform) (secret : SharedSecret) (ourNonce peerNonce : UInt64) :
    SharedSecrets :=
  let keyMaterial := secret.bytes ++ toBeBytes (ourNonce ^^^ peerNonce)
  let derive := fun context => P.keyedHash (P.blake3 (Bytes.ofString context)) keyMaterial
  ⟨secret, derive "QuDAG-Encryption-Key", derive "QuDAG-MAC-Key", derive "QuDAG-Session-Key"⟩

/-- Generate new handshake keys. -/
def generateKeys (P : Platform) (signatureSeed kemSeed : Seed) :
    Except HandshakeError HandshakeKeys := do
  let signatureKeypair ← (P.generateMlDsa signatureSeed).mapError fun e =>
    .cryptoError ("Failed to generate ML-DSA keypair: " ++ e)
  let kemKeys ← (P.keygen kemSeed).mapError fun e =>
    .cryptoError ("Failed to generate ML-KEM keypair: " ++ e)
  pure ⟨signatureKeypair, ⟨kemKeys.1.bytes, kemKeys.2.bytes⟩⟩

/-! ## The parts that only read -/

/-- What a call reads from outside. -/
structure Env where
  /-- The time at the check of the timestamp, in milliseconds. -/
  now : UInt64
  /-- The order in which the headers of the received message are iterated over. -/
  headerOrder : List (String × String)
  /-- The random bytes for the signature keys. -/
  signatureSeed : Seed
  /-- The random bytes for the encapsulation keys. -/
  kemSeed : Seed
  /-- The random bytes for the encapsulation. -/
  encapsulationSeed : Seed
  /-- The random bytes for the signature. -/
  signingSeed : Seed
  /-- The identifier of a new session. -/
  sessionId : Uuid
  /-- The nonce of a new session. -/
  nonce : UInt64
  /-- The time at which a session starts. -/
  startedAt : ℕ
  /-- The time of the last activity. -/
  lastActivity : ℕ
  /-- The time in the payload of a new message, in milliseconds. -/
  payloadTime : UInt64
  /-- The identifier of a new message. -/
  messageId : Uuid
  /-- The time of a new message, in milliseconds. -/
  messageTime : UInt64
  /-- The clocks of the state machine. -/
  clock : Clock

variable (P : Platform) (config : HandshakeConfig) (env : Env)

/-- Make a message with a payload and sign it. -/
def signedMessage (handshakeType : HandshakeType) (payload : HandshakeMessagePayload)
    (keys : HandshakeKeys) : Except HandshakeError Message :=
  ((Message.new (.handshake handshakeType) (HandshakeMessagePayload.codec.encode payload)
    env.messageId env.messageTime).sign P [] keys.signatureKeypair env.signingSeed).mapError
    .message

/-- The first message of a session with these keys. -/
def initPayload (keys : HandshakeKeys) : InitPayload :=
  ⟨.current, config.supportedVersions, config.capabilities, keys.signatureKeypair.publicKey,
    keys.kemKeypair.publicKey, env.nonce, env.payloadTime⟩

/-- A new session of the initiator, and its first message. -/
def openSession (peerId : Option (List UInt8)) :
    Except HandshakeError (HandshakeSession × Message) := do
  let sessionKeys ← generateKeys P env.signatureSeed env.kemSeed
  let message ←
    signedMessage P env .init (.init (initPayload config env sessionKeys)) sessionKeys
  pure (⟨env.sessionId, peerId, .initSent, none, [], sessionKeys, none, none, env.startedAt,
    env.lastActivity, env.nonce⟩, message)

/-- An initial message that passed the checks. -/
structure CheckedInit where
  /-- The version that was negotiated. -/
  negotiatedVersion : ProtocolVersion
  /-- The capabilities of the peer. -/
  capabilities : List String
  /-- The keys of the peer. -/
  peerKeys : PeerKeys
  /-- The nonce of the peer. -/
  nonce : UInt64

/-- Verify the signature of a message. -/
def verifySignature (message : Message) (publicKey : MlDsaPublicKey) :
    Except HandshakeError Unit := do
  let verified ← (message.verify P env.headerOrder publicKey).mapError .message
  if verified then .ok () else .error .invalidCredentials

/-- Verify the signature of a message of the peer of a session, if its keys are known. -/
def verifyPeer (session : HandshakeSession) (message : Message) : Except HandshakeError Unit :=
  match session.peerKeys with
  | none => .ok ()
  | some peerKeys => verifySignature P env message peerKeys.signaturePublicKey

/-- Check an initial message: its payload, version, capabilities, keys and signature. -/
def checkInit (message : Message) : Except HandshakeError CheckedInit := do
  match ← decodePayload P "handshake init" message.payload with
  | .init p =>
    let negotiatedVersion ← negotiateVersion config p.supportedVersions p.protocolVersion
    verifyCapabilities config p.capabilities
    let peerSignatureKey ← (MlDsaPublicKey.fromBytes P p.signaturePublicKey).mapError fun e =>
      .cryptoError ("Invalid peer signature key: " ++ e)
    let peerKemKey ← (KemPublicKey.fromBytes p.kemPublicKey).mapError fun e =>
      .cryptoError ("Invalid peer KEM key: " ++ e)
    verifySignature P env message peerSignatureKey
    pure ⟨negotiatedVersion, p.capabilities, ⟨peerSignatureKey, peerKemKey⟩, p.nonce⟩
  | _ => .error (.invalidMessage "Expected handshake init payload")

/-- The response to an initial message. -/
def responsePayload (checked : CheckedInit) (keys : HandshakeKeys)
    (ciphertext : KemCiphertext) : ResponsePayload :=
  ⟨checked.negotiatedVersion, config.capabilities, keys.signatureKeypair.publicKey,
    ciphertext.bytes, env.nonce, env.payloadTime⟩

/-- A new session of the responder, and the response to the initial message. -/
def answerInit (checked : CheckedInit) : Except HandshakeError (HandshakeSession × Message) := do
  let sessionKeys ← generateKeys P env.signatureSeed env.kemSeed
  let encapsulated ← (P.encapsulate checked.peerKeys.kemPublicKey env.encapsulationSeed).mapError
    fun e => .cryptoError ("KEM encapsulation failed: " ++ e)
  let sharedSecrets := deriveSessionKeys P encapsulated.2 checked.nonce env.nonce
  let message ← signedMessage P env .response
    (.response (responsePayload config env checked sessionKeys encapsulated.1)) sessionKeys
  pure (⟨env.sessionId, none, .responseSent, some checked.negotiatedVersion, checked.capabilities,
    sessionKeys, some checked.peerKeys, some sharedSecrets, env.startedAt, env.lastActivity,
    env.nonce⟩, message)

/-- The session after a response was accepted: its payload, keys, signature, version and
capabilities are checked, and the secrets are derived. -/
def acceptResponse (session : HandshakeSession) (message : Message) :
    Except HandshakeError HandshakeSession := do
  match ← decodePayload P "handshake response" message.payload with
  | .response p =>
    let peerSignatureKey ← (MlDsaPublicKey.fromBytes P p.signaturePublicKey).mapError fun e =>
      .cryptoError ("Invalid peer signature key: " ++ e)
    verifySignature P env message peerSignatureKey
    if p.protocolVersion ∉ config.supportedVersions then
      .error (.versionMismatch .current p.protocolVersion)
    else
      verifyCapabilities config p.capabilities
      let ciphertext ← (KemCiphertext.fromBytes p.kemCiphertext).mapError fun e =>
        .cryptoError ("Invalid KEM ciphertext: " ++ e)
      let secretKey ← (SecretKey.fromBytes session.ourKeys.kemKeypair.secretKey).mapError fun e =>
        .cryptoError ("Invalid secret key: " ++ e)
      let secret ← (P.decapsulate secretKey ciphertext).mapError fun e =>
        .cryptoError ("KEM decapsulation failed: " ++ e)
      let sharedSecrets := deriveSessionKeys P secret session.nonce p.nonce
      -- the key of the peer is a placeholder: it is our own
      let kemPublicKey ←
        (KemPublicKey.fromBytes session.ourKeys.kemKeypair.publicKey).mapError fun e =>
          .cryptoError ("Invalid public key: " ++ e)
      pure { session with
        negotiatedVersion := some p.protocolVersion
        peerCapabilities := p.capabilities
        peerKeys := some ⟨peerSignatureKey, kemPublicKey⟩
        sharedSecrets := some sharedSecrets
        state := .responseReceived
        lastActivity := env.lastActivity }
  | _ => .error (.invalidMessage "Expected handshake response payload")

/-! ## The coordinator -/

/-- Handshake coordinator. -/
structure HandshakeCoordinator where
  /-- Handshake configuration. -/
  config : HandshakeConfig
  /-- Active handshake sessions. -/
  sessions : HashMap Uuid HandshakeSession
  /-- Protocol state machine. -/
  stateMachine : ProtocolStateMachine
  deriving DecidableEq

namespace HandshakeCoordinator

/-- Create a new handshake coordinator. -/
def new (config : HandshakeConfig) (stateMachine : ProtocolStateMachine) : HandshakeCoordinator :=
  ⟨config, ∅, stateMachine⟩

/-- A result of a part that only reads the coordinator. -/
def ofResult {α : Type} (r : Except HandshakeError α) : Fallible Failure HandshakeCoordinator α :=
  Fallible.ofExcept (r.mapError .error)

/-- Stop with an error. -/
def failWith {α : Type} (e : HandshakeError) : Fallible Failure HandshakeCoordinator α :=
  Fallible.fail (.error e)

/-- Insert or replace a session. -/
def setSession (sessionId : Uuid) (session : HandshakeSession) :
    Fallible Failure HandshakeCoordinator Unit :=
  Fallible.modify fun coordinator =>
    { coordinator with sessions := coordinator.sessions.insert sessionId session }

/-- Let the state machine process a message. -/
def updateStateMachine (message : Message) (sessionId : Uuid) :
    Fallible Failure HandshakeCoordinator Unit := fun coordinator =>
  match (ProtocolStateMachine.processMessage env.clock message (some sessionId)).run
    coordinator.stateMachine with
  | (.ok _, machine) => (.ok (), { coordinator with stateMachine := machine })
  | (.error e, machine) =>
    (.error (.error (.stateMachine e)), { coordinator with stateMachine := machine })

/-- Initiate handshake with a peer. -/
def initiateHandshake (peerId : Option (List UInt8)) :
    Fallible Failure HandshakeCoordinator (Uuid × Message) := do
  let coordinator ← Fallible.get
  let opened ← ofResult (openSession P coordinator.config env peerId)
  setSession env.sessionId opened.1
  pure (env.sessionId, opened.2)

/-- Process handshake init message. -/
def processHandshakeInit (message : Message) :
    Fallible Failure HandshakeCoordinator (Option Message) := do
  let coordinator ← Fallible.get
  let checked ← ofResult (checkInit P coordinator.config env message)
  let answer ← ofResult (answerInit P coordinator.config env checked)
  setSession env.sessionId answer.1
  updateStateMachine env message env.sessionId
  pure (some answer.2)

/-- The session that a message is for, which has to be in a state. -/
def findSession (kind : String) (expected : HandshakeSessionState) (sessionId : Option Uuid) :
    Fallible Failure HandshakeCoordinator (Uuid × HandshakeSession) := do
  match sessionId with
  | none => failWith (.invalidMessage ("Session ID required for handshake " ++ kind))
  | some sessionId =>
    let coordinator ← Fallible.get
    match coordinator.sessions.lookup sessionId with
    | none => failWith (.invalidMessage ("Session not found: " ++ sessionId.display))
    | some session =>
      if session.state ≠ expected then
        failWith (.invalidMessage
          ("Invalid session state for " ++ kind ++ ": " ++ session.state.debug))
      else pure (sessionId, session)

/-- Process handshake response message. -/
def processHandshakeResponse (message : Message) (sessionId : Option Uuid) :
    Fallible Failure HandshakeCoordinator (Option Message) := do
  let (sessionId, session) ← findSession "response" .initSent sessionId
  let coordinator ← Fallible.get
  let session ← ofResult (acceptResponse P coordinator.config env session message)
  setSession sessionId session
  let completeMessage ← ofResult (signedMessage P env .complete
    (.complete ⟨sessionId.bytes, env.payloadTime⟩) session.ourKeys)
  setSession sessionId { session with state := .completed }
  updateStateMachine env message sessionId
  pure (some completeMessage)

/-- Process handshake complete message. -/
def processHandshakeComplete (message : Message) (sessionId : Option Uuid) :
    Fallible Failure HandshakeCoordinator (Option Message) := do
  let (sessionId, session) ← findSession "complete" .responseSent sessionId
  ofResult (verifyPeer P env session message)
  setSession sessionId { session with
    state := .completed
    lastActivity := env.lastActivity }
  updateStateMachine env message sessionId
  pure none

/-- Process version negotiation message. -/
def processVersionNegotiation (message : Message) :
    Fallible Failure HandshakeCoordinator (Option Message) := do
  let coordinator ← Fallible.get
  match ← ofResult (decodePayload P "version negotiation" message.payload) with
  | .versionNegotiation p =>
    let _ ← ofResult (negotiateVersion coordinator.config p.supportedVersions p.preferredVersion)
    pure none
  | _ => failWith (.invalidMessage "Expected version negotiation payload")

/-- Check the time of a message. -/
def checkTimestamp (message : Message) : Fallible Failure HandshakeCoordinator Unit := do
  let coordinator ← Fallible.get
  match validateTimestamp P.overflowChecks coordinator.config env.now message with
  | .ok () => pure ()
  | .err e => failWith e
  | .panic => Fallible.fail .panic

/-- Process incoming handshake message. -/
def processHandshakeMessage (message : Message) (sessionId : Option Uuid) :
    Fallible Failure HandshakeCoordinator (Option Message) := do
  checkTimestamp P env message
  match message.msgType with
  | .handshake .init => processHandshakeInit P env message
  | .handshake .response => processHandshakeResponse P env message sessionId
  | .handshake .complete => processHandshakeComplete P env message sessionId
  | .handshake .versionNegotiation => processVersionNegotiation P message
  | _ => failWith (.invalidMessage "Not a handshake message")

/-- Remove completed or failed sessions, and those that took too long. -/
def cleanupSessions (now : ℕ) (coordinator : HandshakeCoordinator) : HandshakeCoordinator :=
  { coordinator with
    sessions := coordinator.sessions.retain fun _ session =>
      match session.state with
      | .completed | .failed => false
      | _ => decide (now - session.startedAt < coordinator.config.timeout) }

/-- Get shared secrets for a session. -/
def getSharedSecrets (coordinator : HandshakeCoordinator) (sessionId : Uuid) :
    Option SharedSecrets :=
  (coordinator.sessions.lookup sessionId).bind HandshakeSession.sharedSecrets

end HandshakeCoordinator

end QuDAG.Protocol
