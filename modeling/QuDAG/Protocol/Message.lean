import QuDAG.Lib.Codec
import QuDAG.Lib.Collections
import QuDAG.Lib.Outcome
import QuDAG.Protocol.Platform

/-!
# Protocol messages

The messages of the protocol (`message.rs`): their types, their serialization, their signatures
and their validation.

## Main definitions

* `Message`, with `toBytes`, `fromBytes`, `sign`, `verify`, `isExpired` and `validate`.
* `WireMessage` — a message with its headers in the order of an iteration.
* `Message.Fits` — the lengths of the message fit their prefixes.

## Main results

* `Message.fromBytes_toBytes` — a message is read back, whatever the order of its headers.
* `Message.toBytes_inj` — the bytes determine the message and the order.

## Implementation notes

Serialization cannot fail here: `bincode` fails only on sequences of unknown length. It writes the
headers in the order in which the map is iterated over, so that order is an argument of all that
serializes. Each reading of the clock is an argument as well, in milliseconds.
-/

namespace QuDAG.Protocol

open RustStd

/-- A UUID: 16 bytes. -/
structure Uuid where
  /-- The bytes. -/
  bytes : List UInt8
  /-- There are 16 of them. -/
  length_eq : bytes.length = 16
  deriving DecidableEq

/-- The UUID of zeros. -/
def Uuid.nil : Uuid := ⟨List.replicate 16 0, rfl⟩

/-! ## Message types -/

/-- Protocol version information. -/
structure ProtocolVersion where
  /-- Major version. -/
  major : UInt16
  /-- Minor version. -/
  minor : UInt16
  /-- Patch version. -/
  patch : UInt16
  /-- Protocol features supported. -/
  features : List String
  deriving DecidableEq, Repr

namespace ProtocolVersion

/-- Current protocol version. -/
def current : ProtocolVersion := ⟨1, 0, 0, []⟩

/-- Check if this version is compatible with another. -/
def isCompatible (version other : ProtocolVersion) : Bool :=
  version.major == other.major && decide (version.minor ≤ other.minor)

end ProtocolVersion

/-- Handshake message types. -/
inductive HandshakeType
  | init
  | response
  | complete
  | versionNegotiation
  deriving DecidableEq, Repr

/-- Consensus message types for the DAG. -/
inductive ConsensusMessageType
  | vertexProposal
  | vote
  | finality
  | query
  deriving DecidableEq, Repr

/-- Routing message types. -/
inductive RoutingMessageType
  | onionRouted
  | direct
  | broadcast
  deriving DecidableEq, Repr

/-- Anonymous communication message types. -/
inductive AnonymousMessageType
  | data
  | mix
  | cover
  deriving DecidableEq, Repr

/-- Control message types. -/
inductive ControlMessageType
  | ping
  | pong
  | disconnect
  | keepAlive
  deriving DecidableEq, Repr

/-- Synchronization message types. -/
inductive SyncMessageType
  | stateRequest
  | stateResponse
  | deltaSync
  | checkpointSync
  deriving DecidableEq, Repr

/-- Message type enumeration. -/
inductive MessageType
  /-- Protocol handshake messages. -/
  | handshake (t : HandshakeType)
  /-- DAG consensus messages. -/
  | consensus (t : ConsensusMessageType)
  /-- Network routing messages. -/
  | routing (t : RoutingMessageType)
  /-- Anonymous communication messages. -/
  | anonymous (t : AnonymousMessageType)
  /-- Protocol control messages. -/
  | control (t : ControlMessageType)
  /-- State synchronization messages. -/
  | sync (t : SyncMessageType)
  /-- Generic data messages. -/
  | data (bytes : List UInt8)
  deriving DecidableEq, Repr

/-- Errors that can occur during message operations. -/
inductive MessageError
  | invalidFormat
  | messageTooLarge (length : ℕ)
  | invalidSignature
  | missingSignature
  | signingFailed
  | verificationFailed
  | encryptionFailed
  | decryptionFailed
  | serializationFailed
  | deserializationFailed
  | messageExpired
  | invalidTimestamp
  | incompatibleVersion (version : ProtocolVersion)
  deriving DecidableEq, Repr

/-- Protocol message structure. -/
structure Message where
  /-- Unique message identifier. -/
  id : Uuid
  /-- Protocol version. -/
  version : ProtocolVersion
  /-- Message type. -/
  msgType : MessageType
  /-- Message payload. -/
  payload : List UInt8
  /-- Message timestamp. -/
  timestamp : UInt64
  /-- Message signature (ML-DSA). -/
  signature : Option (List UInt8)
  /-- Message headers for metadata. -/
  headers : HashMap String String
  /-- Sender's public key hash for verification. -/
  senderKeyHash : Option (List UInt8)
  /-- Message sequence number for ordering. -/
  sequence : UInt64
  /-- Time-to-live for message expiration. -/
  ttl : Option UInt64
  deriving DecidableEq

/-- A message with its headers in the order in which they are written. -/
structure WireMessage where
  id : Uuid
  version : ProtocolVersion
  msgType : MessageType
  payload : List UInt8
  timestamp : UInt64
  signature : Option (List UInt8)
  headers : List (String × String)
  senderKeyHash : Option (List UInt8)
  sequence : UInt64
  ttl : Option UInt64

/-! ## Serialization -/

/-- UUIDs are byte strings. -/
def Uuid.codec : Codec Uuid :=
  Codec.byteVec.refine (fun l => if h : l.length = 16 then some ⟨l, h⟩ else none) Uuid.bytes

@[simp] lemma Uuid.valid_codec (u : Uuid) : Uuid.codec.Valid u := by
  refine ⟨(Codec.valid_byteVec _).mpr ?_, dif_pos u.length_eq⟩
  rw [u.length_eq]
  decide

/-- The fields of a version. -/
def ProtocolVersion.codec : Codec ProtocolVersion :=
  (Codec.u16.pair (Codec.u16.pair (Codec.u16.pair Codec.string.list))).refine
    (fun p => some ⟨p.1, p.2.1, p.2.2.1, p.2.2.2⟩) fun v => (v.major, v.minor, v.patch, v.features)

/-- Handshake types are written as their numbers. -/
def HandshakeType.codec : Codec HandshakeType :=
  Codec.enumeration
    (fun
      | .init => 0
      | .response => 1
      | .complete => 2
      | .versionNegotiation => 3)
    (fun
      | 0 => some .init
      | 1 => some .response
      | 2 => some .complete
      | 3 => some .versionNegotiation
      | _ => none)

/-- Consensus types are written as their numbers. -/
def ConsensusMessageType.codec : Codec ConsensusMessageType :=
  Codec.enumeration
    (fun
      | .vertexProposal => 0
      | .vote => 1
      | .finality => 2
      | .query => 3)
    (fun
      | 0 => some .vertexProposal
      | 1 => some .vote
      | 2 => some .finality
      | 3 => some .query
      | _ => none)

/-- Routing types are written as their numbers. -/
def RoutingMessageType.codec : Codec RoutingMessageType :=
  Codec.enumeration
    (fun
      | .onionRouted => 0
      | .direct => 1
      | .broadcast => 2)
    (fun
      | 0 => some .onionRouted
      | 1 => some .direct
      | 2 => some .broadcast
      | _ => none)

/-- Anonymous types are written as their numbers. -/
def AnonymousMessageType.codec : Codec AnonymousMessageType :=
  Codec.enumeration
    (fun
      | .data => 0
      | .mix => 1
      | .cover => 2)
    (fun
      | 0 => some .data
      | 1 => some .mix
      | 2 => some .cover
      | _ => none)

/-- Control types are written as their numbers. -/
def ControlMessageType.codec : Codec ControlMessageType :=
  Codec.enumeration
    (fun
      | .ping => 0
      | .pong => 1
      | .disconnect => 2
      | .keepAlive => 3)
    (fun
      | 0 => some .ping
      | 1 => some .pong
      | 2 => some .disconnect
      | 3 => some .keepAlive
      | _ => none)

/-- Synchronization types are written as their numbers. -/
def SyncMessageType.codec : Codec SyncMessageType :=
  Codec.enumeration
    (fun
      | .stateRequest => 0
      | .stateResponse => 1
      | .deltaSync => 2
      | .checkpointSync => 3)
    (fun
      | 0 => some .stateRequest
      | 1 => some .stateResponse
      | 2 => some .deltaSync
      | 3 => some .checkpointSync
      | _ => none)

/-- A message type is written as its number and its field. -/
def MessageType.codec : Codec MessageType :=
  Codec.variant
    (fun
      | .handshake _ => 0
      | .consensus _ => 1
      | .routing _ => 2
      | .anonymous _ => 3
      | .control _ => 4
      | .sync _ => 5
      | .data _ => 6)
    (fun
      | 0 => HandshakeType.codec.case .handshake fun
          | .handshake t => some t
          | _ => none
      | 1 => ConsensusMessageType.codec.case .consensus fun
          | .consensus t => some t
          | _ => none
      | 2 => RoutingMessageType.codec.case .routing fun
          | .routing t => some t
          | _ => none
      | 3 => AnonymousMessageType.codec.case .anonymous fun
          | .anonymous t => some t
          | _ => none
      | 4 => ControlMessageType.codec.case .control fun
          | .control t => some t
          | _ => none
      | 5 => SyncMessageType.codec.case .sync fun
          | .sync t => some t
          | _ => none
      | 6 => Codec.byteVec.case .data fun
          | .data bytes => some bytes
          | _ => none
      | _ => Codec.reject)

/-- The fields of a message. -/
def WireMessage.codec : Codec WireMessage :=
  (Uuid.codec.pair (ProtocolVersion.codec.pair (MessageType.codec.pair (Codec.byteVec.pair
    (Codec.u64.pair (Codec.byteVec.option.pair ((Codec.string.pair Codec.string).list.pair
      (Codec.byteVec.option.pair (Codec.u64.pair Codec.u64.option))))))))).refine
    (fun p => some ⟨p.1, p.2.1, p.2.2.1, p.2.2.2.1, p.2.2.2.2.1, p.2.2.2.2.2.1, p.2.2.2.2.2.2.1,
      p.2.2.2.2.2.2.2.1, p.2.2.2.2.2.2.2.2.1, p.2.2.2.2.2.2.2.2.2⟩)
    fun w => (w.id, w.version, w.msgType, w.payload, w.timestamp, w.signature, w.headers,
      w.senderKeyHash, w.sequence, w.ttl)

/-- The message that was read: a later header replaces an earlier one. -/
def WireMessage.toMessage (w : WireMessage) : Message :=
  ⟨w.id, w.version, w.msgType, w.payload, w.timestamp, w.signature,
    HashMap.ofList w.headers.reverse, w.senderKeyHash, w.sequence, w.ttl⟩

namespace Message

/-- Create a new message. -/
def new (msgType : MessageType) (payload : List UInt8) (id : Uuid) (now : UInt64) : Message :=
  ⟨id, .current, msgType, payload, now, none, ∅, none, 0, none⟩

/-- The message as it is written when its headers are iterated over in an order. -/
def wire (order : List (String × String)) (m : Message) : WireMessage :=
  ⟨m.id, m.version, m.msgType, m.payload, m.timestamp, m.signature, order, m.senderKeyHash,
    m.sequence, m.ttl⟩

/-- Serialize message to bytes. -/
def toBytes (order : List (String × String)) (m : Message) : List UInt8 :=
  WireMessage.codec.encode (m.wire order)

/-- Deserialize message from bytes. -/
def fromBytes (data : List UInt8) : Except MessageError Message :=
  match WireMessage.codec.decode data with
  | some r => .ok r.1.toMessage
  | none => .error .deserializationFailed

/-! ## Signatures -/

/-- Get message for signing (excludes signature field). -/
def getSignableData (order : List (String × String)) (m : Message) : List UInt8 :=
  toBytes order { m with signature := none }

/-- Sign message with ML-DSA: the signed message. An error leaves the message as it was. -/
def sign (P : Platform) (order : List (String × String)) (keypair : MlDsaKeyPair) (seed : Seed)
    (m : Message) : Except MessageError Message :=
  let signableData := m.getSignableData order
  match P.signMlDsa keypair signableData seed with
  | .error _ => .error .signingFailed
  | .ok signature =>
    let m := { m with signature := some signature }
    .ok { m with senderKeyHash := some (P.blake3 keypair.publicKey) }

/-- Verify message signature with ML-DSA. -/
def verify (P : Platform) (order : List (String × String)) (publicKey : MlDsaPublicKey)
    (m : Message) : Except MessageError Bool :=
  match m.signature with
  | none => .error .missingSignature
  | some signature =>
    if m.senderKeyHash.any fun senderHash => senderHash != P.blake3 publicKey.keyBytes then
      .ok false
    else
      match P.verifyMlDsa publicKey (m.getSignableData order) signature with
      | .error _ => .error .verificationFailed
      | .ok _ => .ok true

/-! ## Validation -/

/-- Check if message has expired. The sum of timestamp and time to live may overflow. -/
def isExpired (checks : Bool) (now : UInt64) (m : Message) : Option Bool :=
  match m.ttl with
  | none => some false
  | some ttl => (addU64 checks m.timestamp ttl).map fun deadline => decide (deadline < now)

/-- Validate message structure and content. The clock is read for the expiry and again. -/
def validate (checks : Bool) (expiryNow now : UInt64) (m : Message) :
    Outcome MessageError Unit :=
  match m.isExpired checks expiryNow with
  | none => .panic
  | some true => .err .messageExpired
  | some false =>
    if 1024 * 1024 < m.payload.length then .err (.messageTooLarge m.payload.length)
    else
      match addU64 checks now (5 * 60 * 1000) with
      | none => .panic
      | some latest => if latest < m.timestamp then .err .invalidTimestamp else .ok ()

/-! ## Reading back -/

/-- The lengths of the message fit their prefixes, as they do for every message in memory. -/
def Fits (m : Message) : Prop :=
  ∀ order, m.headers.Enumerates order → WireMessage.codec.Valid (m.wire order)

variable {m m' : Message} {order order' : List (String × String)}

lemma toMessage_wire (h : m.headers.Enumerates order) : (m.wire order).toMessage = m := by
  show Message.mk _ _ _ _ _ _ (HashMap.ofList order.reverse) _ _ _ = m
  rw [(h.perm order.reverse_perm.symm).ofList_eq]
  rfl

/-- **A message is read back**, whatever the order of its headers. -/
theorem fromBytes_toBytes (hfits : m.Fits) (h : m.headers.Enumerates order) :
    fromBytes (m.toBytes order) = .ok m := by
  have hread := WireMessage.codec.decode_encode (m.wire order) [] (hfits order h)
  rw [List.append_nil] at hread
  unfold fromBytes toBytes
  rw [hread]
  exact congrArg Except.ok (toMessage_wire h)

/-- The bytes determine the message and the order of its headers. -/
theorem toBytes_inj (hfits : WireMessage.codec.Valid (m.wire order))
    (hfits' : WireMessage.codec.Valid (m'.wire order')) :
    m.toBytes order = m'.toBytes order' ↔ m.wire order = m'.wire order' := by
  constructor
  · exact fun h => (WireMessage.codec.encode_append_inj hfits hfits' (congrArg (· ++ []) h)).1
  · exact fun h => congrArg WireMessage.codec.encode h

/-- A message without its signature fits if the message does. -/
lemma valid_unsigned (h : WireMessage.codec.Valid (m.wire order)) :
    WireMessage.codec.Valid (wire order { m with signature := none }) := by
  obtain ⟨⟨hid, hversion, htype, hpayload, htime, -, hrest⟩, -⟩ := h
  exact ⟨⟨hid, hversion, htype, hpayload, htime, Codec.valid_option_none _, hrest⟩, rfl⟩

end Message

end QuDAG.Protocol
