import QuDAG.Lib.Collections
import QuDAG.Lib.Framing
import QuDAG.Lib.Runs

/-!
# Frames and connections of the secure transport (`transport.rs`)

A frame is its length, its type, its number, its payload and its tag. What is read from a text of
bytes is a frame that the text starts with; what follows is not looked at.

The transport notes a connection under a new name, but it never puts one into the map that it
counts. The limit on connections is checked against that map.

## Main definitions

* `SecureFrame`, with `toBytes` and `fromBytes`.
* `SecureTransport`, with `connect`, `accept`, `closeConnection` and `shutdown`.

## Main results

* `SecureFrame.fromBytes_eq_ok_iff` — which frame is read from which bytes.
* `SecureTransport.never_limits` — what the transport counts over a run.

## Implementation notes

Setting up TLS, the key exchange and the obfuscator is left out, and so are the numbers of bytes,
which no operation of the transport changes. What comes of opening or accepting a connection is an
argument.
-/

namespace QuDAG.Network

open RustStd

/-! ## Frames -/

/-- Errors that can occur during transport operations. -/
inductive TransportError
  | connectionFailed (reason : String)
  | handshakeTimeout (millis : ℕ)
  | connectionLimitExceeded (current max : ℕ)
  | invalidMessageFormat (reason : String)
  | configurationError (reason : String)
  deriving DecidableEq, Repr

/-- Message framing for secure transport. -/
structure SecureFrame where
  /-- Frame length. -/
  length : UInt32
  /-- Frame type. -/
  frameType : UInt8
  /-- Sequence number. -/
  sequence : UInt64
  /-- Payload (encrypted). -/
  payload : List UInt8
  /-- Authentication tag. -/
  authTag : List UInt8
  /-- It has 16 bytes. -/
  length_authTag : authTag.length = 16

namespace SecureFrame

/-- Maximum frame size (16MB). -/
def maxFrameSize : ℕ := 16 * 1024 * 1024

/-- Frame header size: length, type, sequence and tag. -/
def headerSize : ℕ := 4 + 1 + 8 + 16

/-- Create a new secure frame. -/
def new (frameType : UInt8) (sequence : UInt64) (payload : List UInt8) : SecureFrame where
  length := UInt32.ofNat payload.length
  frameType := frameType
  sequence := sequence
  payload := payload
  authTag := List.replicate 16 0
  length_authTag := List.length_replicate

/-- Serialize frame to bytes. -/
def toBytes (frame : SecureFrame) : List UInt8 :=
  Framing.beBytes 4 frame.length.toNat ++ frame.frameType ::
    (Framing.beBytes 8 frame.sequence.toNat ++ (frame.payload ++ frame.authTag))

/-- The tag that a text has behind so many bytes. -/
lemma length_take_drop {bytes : List UInt8} {n : ℕ} (h : ¬ bytes.length < n + 16) :
    ((bytes.drop n).take 16).length = 16 := by
  rw [List.length_take, List.length_drop]
  omega

/-- Deserialize frame from bytes. -/
def fromBytes (bytes : List UInt8) : Except TransportError SecureFrame :=
  if bytes.length < headerSize then .error (.invalidMessageFormat "Frame too short")
  else
    let length := Framing.beValue (bytes.take 4)
    if maxFrameSize < length then .error (.invalidMessageFormat "Frame too large")
    else
      let payloadEnd := 13 + length
      if h : bytes.length < payloadEnd + 16 then
        .error (.invalidMessageFormat "Invalid frame length")
      else .ok {
        length := UInt32.ofNat length
        frameType := (bytes.drop 4).headD 0
        sequence := UInt64.ofNat (Framing.beValue ((bytes.drop 5).take 8))
        payload := (bytes.drop 13).take length
        authTag := (bytes.drop payloadEnd).take 16
        length_authTag := length_take_drop h }

/-- The length is that of the payload, and it is not too large. -/
def WellFormed (frame : SecureFrame) : Prop :=
  frame.length.toNat = frame.payload.length ∧ frame.payload.length ≤ maxFrameSize

/-- Frames are the same if their entries are. -/
lemma ext_entries {frame frame' : SecureFrame} (hlength : frame.length = frame'.length)
    (htype : frame.frameType = frame'.frameType) (hsequence : frame.sequence = frame'.sequence)
    (hpayload : frame.payload = frame'.payload) (htag : frame.authTag = frame'.authTag) :
    frame = frame' := by
  cases frame
  cases frame'
  simp_all

/-- What follows a frame is not looked at. -/
lemma fromBytes_toBytes_append {frame : SecureFrame} (h : frame.WellFormed) (rest : List UInt8) :
    fromBytes (frame.toBytes ++ rest) = .ok frame := by
  obtain ⟨hlength, hmax⟩ := h
  have htag := frame.length_authTag
  have hbytes : frame.toBytes ++ rest = Framing.beBytes 4 frame.length.toNat ++
      (frame.frameType :: (Framing.beBytes 8 frame.sequence.toNat ++
        (frame.payload ++ (frame.authTag ++ rest)))) := by
    simp only [toBytes, List.append_assoc, List.cons_append]
  have hvalue : Framing.beValue (Framing.beBytes 4 frame.length.toNat) = frame.length.toNat :=
    Framing.beValue_beBytes frame.length.toNat_lt
  have hnumber : Framing.beValue (Framing.beBytes 8 frame.sequence.toNat) = frame.sequence.toNat :=
    Framing.beValue_beBytes frame.sequence.toNat_lt
  have hfour (tail : List UInt8) : (Framing.beBytes 4 frame.length.toNat ++ tail).drop 4 = tail :=
    List.drop_left' (Framing.length_beBytes 4 _)
  have height (tail : List UInt8) :
      (Framing.beBytes 8 frame.sequence.toNat ++ tail).drop 8 = tail :=
    List.drop_left' (Framing.length_beBytes 8 _)
  have hfive : (frame.toBytes ++ rest).drop 5 = Framing.beBytes 8 frame.sequence.toNat ++
      (frame.payload ++ (frame.authTag ++ rest)) := by
    rw [hbytes, show (5 : ℕ) = 4 + 1 from rfl, ← List.drop_drop, hfour]
    rfl
  have hthirteen : (frame.toBytes ++ rest).drop 13 = frame.payload ++ (frame.authTag ++ rest) := by
    rw [show (13 : ℕ) = 5 + 8 from rfl, ← List.drop_drop, hfive, height]
  have hend : (frame.toBytes ++ rest).drop (13 + frame.payload.length) = frame.authTag ++ rest := by
    rw [← List.drop_drop, hthirteen, List.drop_left]
  have hsize : (frame.toBytes ++ rest).length =
      29 + frame.payload.length + rest.length := by
    simp only [hbytes, List.length_append, List.length_cons, Framing.length_beBytes, htag]
    omega
  have htake : Framing.beValue ((frame.toBytes ++ rest).take 4) = frame.payload.length := by
    rw [hbytes, List.take_left' (Framing.length_beBytes 4 _), hvalue, hlength]
  rw [fromBytes, if_neg (by rw [hsize, headerSize]; omega)]
  simp only [htake]
  rw [if_neg (not_lt.mpr hmax), dif_neg (by rw [hsize]; omega)]
  refine congrArg Except.ok (ext_entries ?_ ?_ ?_ ?_ ?_)
  · show UInt32.ofNat frame.payload.length = frame.length
    rw [← hlength]
    exact UInt32.ofNat_toNat
  · show ((frame.toBytes ++ rest).drop 4).headD 0 = frame.frameType
    rw [hbytes, hfour]
    rfl
  · show UInt64.ofNat (Framing.beValue (((frame.toBytes ++ rest).drop 5).take 8)) = frame.sequence
    rw [hfive, List.take_left' (Framing.length_beBytes 8 _), hnumber]
    exact UInt64.ofNat_toNat
  · show ((frame.toBytes ++ rest).drop 13).take frame.payload.length = frame.payload
    rw [hthirteen, List.take_left]
  · show ((frame.toBytes ++ rest).drop (13 + frame.payload.length)).take 16 = frame.authTag
    rw [hend, List.take_left' htag]

/-- A part of a text, and what follows it. -/
lemma take_append_drop (bytes : List UInt8) (k n : ℕ) :
    (bytes.drop k).take n ++ bytes.drop (k + n) = bytes.drop k := by
  rw [← List.drop_drop, List.take_append_drop]

/-- A byte of a text, and what follows it. -/
lemma headD_cons_drop {bytes : List UInt8} {k : ℕ} (h : k < bytes.length) :
    (bytes.drop k).headD 0 :: bytes.drop (k + 1) = bytes.drop k := by
  rw [← List.drop_drop]
  cases hdrop : bytes.drop k with
  | nil => exact absurd (List.drop_eq_nil_iff.mp hdrop) (not_le.mpr h)
  | cons b tail => rfl

/-- A number that is read is written with the bytes it is read from. -/
lemma beBytes_beValue_part (bytes : List UInt8) {k n : ℕ} (h : k + n ≤ bytes.length) :
    Framing.beBytes n (Framing.beValue ((bytes.drop k).take n)) = (bytes.drop k).take n ∧
      Framing.beValue ((bytes.drop k).take n) < 256 ^ n := by
  have hlength : ((bytes.drop k).take n).length = n := by
    rw [List.length_take, List.length_drop]
    omega
  have hback := Framing.beBytes_beValue ((bytes.drop k).take n)
  have hlt := Framing.beValue_lt ((bytes.drop k).take n)
  rw [hlength] at hback hlt
  exact ⟨hback, hlt⟩

/-- What is read is well formed, and in front of the text. -/
lemma of_fromBytes_eq_ok {bytes : List UInt8} {frame : SecureFrame}
    (h : fromBytes bytes = .ok frame) :
    frame.WellFormed ∧ ∃ rest, bytes = frame.toBytes ++ rest := by
  rw [fromBytes] at h
  split at h
  · cases h
  rename_i hheader
  simp only at h
  split at h
  · cases h
  rename_i hmax
  split at h
  · cases h
  rename_i hlength
  obtain ⟨n, hn⟩ : ∃ n, n = Framing.beValue (bytes.take 4) := ⟨_, rfl⟩
  rw [← hn] at hmax hlength
  simp only [headerSize, maxFrameSize] at hheader hmax
  obtain rfl := (Except.ok.inj h).symm
  obtain ⟨hfour, hword⟩ := beBytes_beValue_part bytes (k := 0) (n := 4) (by omega)
  obtain ⟨height, hnumber⟩ := beBytes_beValue_part bytes (k := 5) (n := 8) (by omega)
  rw [List.drop_zero, ← hn] at hfour hword
  have hpayload : ((bytes.drop 13).take n).length = n := by
    rw [List.length_take, List.length_drop]
    omega
  refine ⟨⟨?_, ?_⟩, bytes.drop (13 + n + 16), ?_⟩
  · simp only [← hn]
    rw [UInt32.toNat_ofNat_of_lt' hword, hpayload]
  · simp only [← hn, maxFrameSize]
    omega
  · simp only [toBytes, ← hn, List.append_assoc, List.cons_append]
    rw [UInt32.toNat_ofNat_of_lt' hword, UInt64.toNat_ofNat_of_lt' hnumber, hfour, height,
      take_append_drop, take_append_drop, take_append_drop, headD_cons_drop (by omega),
      List.take_append_drop]

/-- **Which frame is read from which bytes**: the one that the text starts with, if its length is
that of its payload and at most 16 MB. -/
theorem fromBytes_eq_ok_iff (bytes : List UInt8) (frame : SecureFrame) :
    fromBytes bytes = .ok frame ↔ frame.WellFormed ∧ ∃ rest, bytes = frame.toBytes ++ rest := by
  refine ⟨of_fromBytes_eq_ok, ?_⟩
  rintro ⟨hwell, rest, rfl⟩
  exact fromBytes_toBytes_append hwell rest

end SecureFrame

/-! ## The transport -/

/-- Connection metadata: what differs between connections. -/
structure ConnectionMetadata where
  connectionId : String
  establishedAt : ℕ
  lastActivity : ℕ

/-- Transport statistics: what the transport changes. -/
structure TransportStats where
  totalConnections : ℕ
  activeConnections : ℕ

/-- The connections of a secure transport. -/
structure SecureTransport (Stream : Type) where
  maxConnections : ℕ
  /-- The address to which the listener is bound. -/
  listener : Option String
  /-- Active connections. -/
  connections : HashMap String Stream
  connectionMetadata : HashMap String ConnectionMetadata
  stats : TransportStats
  /-- Connection ID counter. -/
  connectionCounter : ℕ

/-- What comes of opening or accepting a TCP connection. -/
inductive TcpOutcome
  | opened
  | timedOut (millis : ℕ)
  | failed (reason : String)

namespace SecureTransport

variable {Stream : Type}

/-- Create a new secure transport. -/
def new (Stream : Type) (maxConnections : ℕ) : SecureTransport Stream :=
  ⟨maxConnections, none, ∅, ∅, ⟨0, 0⟩, 0⟩

/-- Start listening on the specified address. -/
def listen (outcome : Except String Unit) (addr : String) (transport : SecureTransport Stream) :
    Except TransportError Unit × SecureTransport Stream :=
  match outcome with
  | .ok () => (.ok (), { transport with listener := some addr })
  | .error e => (.error (.connectionFailed ("Failed to bind to " ++ addr ++ ": " ++ e)), transport)

/-- The name of a connection. -/
def connectionId (n : ℕ) : String := "conn_" ++ String.ofList (Framing.decimal n)

/-- Note a connection that has been opened, under a new name. -/
def register (now : ℕ) (transport : SecureTransport Stream) :
    ConnectionMetadata × SecureTransport Stream :=
  let connId := connectionId transport.connectionCounter
  let metadata := ⟨connId, now, now⟩
  (metadata, { transport with
    connectionCounter := transport.connectionCounter + 1
    connectionMetadata := transport.connectionMetadata.insert connId metadata
    stats := ⟨transport.stats.totalConnections + 1, transport.connections.keys.card⟩ })

/-- The error of a transport that holds too many connections. -/
def limitExceeded (transport : SecureTransport Stream) : TransportError :=
  .connectionLimitExceeded transport.connections.keys.card transport.maxConnections

/-- Create a new connection to a remote peer. -/
def connect (outcome : TcpOutcome) (now : ℕ) (transport : SecureTransport Stream) :
    Except TransportError ConnectionMetadata × SecureTransport Stream :=
  if transport.maxConnections ≤ transport.connections.keys.card then
    (.error transport.limitExceeded, transport)
  else
    match outcome with
    | .timedOut millis => (.error (.handshakeTimeout millis), transport)
    | .failed e => (.error (.connectionFailed ("TCP connection failed: " ++ e)), transport)
    | .opened =>
      let (metadata, transport) := transport.register now
      (.ok metadata, transport)

/-- Accept an incoming connection. It is accepted before the limit is checked. -/
def accept (outcome : Except String Unit) (now : ℕ) (transport : SecureTransport Stream) :
    Except TransportError ConnectionMetadata × SecureTransport Stream :=
  match transport.listener with
  | none => (.error (.configurationError "Transport not listening"), transport)
  | some _ =>
    match outcome with
    | .error e => (.error (.connectionFailed ("Failed to accept connection: " ++ e)), transport)
    | .ok () =>
      if transport.maxConnections ≤ transport.connections.keys.card then
        (.error transport.limitExceeded, transport)
      else
        let (metadata, transport) := transport.register now
        (.ok metadata, transport)

/-- Close a specific connection. -/
def closeConnection (connectionId : String) (transport : SecureTransport Stream) :
    SecureTransport Stream :=
  let connections := transport.connections.erase connectionId
  { transport with
    connections := connections
    connectionMetadata := transport.connectionMetadata.erase connectionId
    stats := { transport.stats with activeConnections := connections.keys.card } }

/-- Clean up inactive connections, after five minutes. -/
def cleanupConnections (it : HashMap.Iteration String ConnectionMetadata) (now : ℕ)
    (transport : SecureTransport Stream) : SecureTransport Stream :=
  let toRemove := ((it.order transport.connectionMetadata).filter fun entry =>
    300 * 10 ^ 9 < now - entry.2.lastActivity).map Prod.fst
  { transport with
    connections := toRemove.foldl (fun m connId => m.erase connId) transport.connections
    connectionMetadata :=
      toRemove.foldl (fun m connId => m.erase connId) transport.connectionMetadata }

/-- Shutdown the transport. -/
def shutdown (it : HashMap.Iteration String Stream) (transport : SecureTransport Stream) :
    SecureTransport Stream :=
  let closed := ((it.order transport.connections).map Prod.fst).foldl
    (fun transport connId => transport.closeConnection connId) transport
  { closed with listener := none }

/-- An operation of the transport. -/
inductive Op (Stream : Type)
  | listen (outcome : Except String Unit) (addr : String)
  | connect (outcome : TcpOutcome) (now : ℕ)
  | accept (outcome : Except String Unit) (now : ℕ)
  | close (connectionId : String)
  | cleanup (it : HashMap.Iteration String ConnectionMetadata) (now : ℕ)
  | shutdown (it : HashMap.Iteration String Stream)

/-- The transport after an operation. -/
def apply (transport : SecureTransport Stream) : Op Stream → SecureTransport Stream
  | .listen outcome addr => (transport.listen outcome addr).2
  | .connect outcome now => (transport.connect outcome now).2
  | .accept outcome now => (transport.accept outcome now).2
  | .close connId => transport.closeConnection connId
  | .cleanup it now => transport.cleanupConnections it now
  | .shutdown it => transport.shutdown it

/-! ## What is counted -/

lemma connectionId_injective : Function.Injective connectionId := by
  intro m n h
  have hchars := congrArg String.toList h
  simp only [connectionId, String.toList_append, String.toList_ofList] at hchars
  exact Framing.decimal_injective (List.append_cancel_left hchars)

/-- No connection is in the map that is counted, and the names are those of the counter. -/
structure Unfilled (max : ℕ) (transport : SecureTransport Stream) : Prop where
  maxConnections : transport.maxConnections = max
  connections : transport.connections = ∅
  activeConnections : transport.stats.activeConnections = 0
  totalConnections : transport.stats.totalConnections = transport.connectionCounter
  names : ∀ connId ∈ transport.connectionMetadata,
    ∃ n < transport.connectionCounter, connId = connectionId n

namespace Unfilled

variable {max : ℕ} {transport : SecureTransport Stream}

lemma new (Stream : Type) (max : ℕ) : Unfilled max (new Stream max) where
  maxConnections := rfl
  connections := rfl
  activeConnections := rfl
  totalConnections := rfl
  names _ hmem := absurd hmem Finmap.notMem_empty

lemma card_connections (h : Unfilled max transport) : transport.connections.keys.card = 0 := by
  rw [h.connections]
  rfl

/-- A new name is not in use. -/
lemma connectionId_not_mem (h : Unfilled max transport) :
    connectionId transport.connectionCounter ∉ transport.connectionMetadata := by
  intro hmem
  obtain ⟨n, hn, heq⟩ := h.names _ hmem
  exact absurd (connectionId_injective heq) hn.ne'

lemma register (h : Unfilled max transport) (now : ℕ) :
    Unfilled max (transport.register now).2 where
  maxConnections := h.maxConnections
  connections := h.connections
  activeConnections := h.card_connections
  totalConnections := congrArg (· + 1) h.totalConnections
  names connId hmem := by
    rcases Finmap.mem_insert.mp hmem with rfl | hold
    · exact ⟨_, Nat.lt_succ_self _, rfl⟩
    · obtain ⟨n, hn, heq⟩ := h.names connId hold
      exact ⟨n, hn.trans (Nat.lt_succ_self _), heq⟩

/-- The invariant of a transport that has forgotten some names. -/
lemma forget (h : Unfilled max transport) {transport' : SecureTransport Stream}
    (hmax : transport'.maxConnections = transport.maxConnections)
    (hconnections : transport'.connections = ∅) (hactive : transport'.stats.activeConnections = 0)
    (htotal : transport'.stats.totalConnections = transport.stats.totalConnections)
    (hcounter : transport'.connectionCounter = transport.connectionCounter)
    (hsub : ∀ connId ∈ transport'.connectionMetadata, connId ∈ transport.connectionMetadata) :
    Unfilled max transport' where
  maxConnections := hmax.trans h.maxConnections
  connections := hconnections
  activeConnections := hactive
  totalConnections := by rw [htotal, hcounter, h.totalConnections]
  names connId hmem := by
    rw [hcounter]
    exact h.names connId (hsub connId hmem)

/-- Whatever is closed, nothing was open. -/
lemma erase_connections (h : Unfilled max transport) (connId : String) :
    transport.connections.erase connId = ∅ := by
  rw [h.connections]
  exact Finmap.ext_lookup fun k => by rw [HashMap.lookup_erase_ite]; split_ifs <;> rfl

lemma closeConnection (h : Unfilled max transport) (connId : String) :
    Unfilled max (transport.closeConnection connId) := by
  refine h.forget rfl (h.erase_connections connId) ?_ rfl rfl fun name hmem => ?_
  · show (transport.connections.erase connId).keys.card = 0
    rw [h.erase_connections connId]
    rfl
  · exact (Finmap.mem_erase.mp hmem).2

lemma foldl_closeConnection (connIds : List String) : ∀ {transport : SecureTransport Stream},
    Unfilled max transport →
      Unfilled max (connIds.foldl (fun transport connId => transport.closeConnection connId)
        transport) := by
  induction connIds with
  | nil => exact fun h => h
  | cons connId connIds ih => exact fun h => ih (h.closeConnection connId)

/-- **Every operation** leaves the map that is counted empty. -/
theorem apply (h : Unfilled max transport) (op : Op Stream) :
    Unfilled max (transport.apply op) := by
  cases op with
  | listen outcome addr =>
    cases outcome with
    | ok _ => exact h.forget rfl h.connections h.activeConnections rfl rfl fun _ hmem => hmem
    | error e => exact h
  | connect outcome now =>
    show Unfilled max (transport.connect outcome now).2
    unfold connect
    split_ifs
    · exact h
    · cases outcome with
      | opened => exact h.register now
      | timedOut millis => exact h
      | failed e => exact h
  | accept outcome now =>
    show Unfilled max (transport.accept outcome now).2
    unfold accept
    cases transport.listener with
    | none => exact h
    | some addr =>
      cases outcome with
      | error e => exact h
      | ok _ =>
        simp only
        split_ifs
        · exact h
        · exact h.register now
  | close connId => exact h.closeConnection connId
  | cleanup it now =>
    have herase (connIds : List String) : ∀ {β : Type} {m : HashMap String β} {name : String},
        name ∈ connIds.foldl (fun m connId => m.erase connId) m → name ∈ m := by
      induction connIds with
      | nil => exact fun hmem => hmem
      | cons connId connIds ih => exact fun hmem => (Finmap.mem_erase.mp (ih hmem)).2
    refine h.forget rfl ?_ h.activeConnections rfl rfl fun name hmem => herase _ hmem
    refine Finmap.ext_lookup fun k => ?_
    rw [Finmap.lookup_empty, Finmap.lookup_eq_none]
    intro hmem
    have hold := herase _ hmem
    rw [h.connections] at hold
    exact Finmap.notMem_empty hold
  | shutdown it =>
    exact (h.foldl_closeConnection _).forget rfl (h.foldl_closeConnection _).connections
      (h.foldl_closeConnection _).activeConnections rfl rfl fun _ hmem => hmem

end Unfilled

/-- A connection is refused because of the limit. -/
def Refused (transport : SecureTransport Stream) : Op Stream → Prop
  | .connect outcome now =>
    (transport.connect outcome now).1 = .error transport.limitExceeded
  | .accept outcome now => (transport.accept outcome now).1 = .error transport.limitExceeded
  | _ => False

/-- What a transport counts over a run. -/
structure NeverLimits (max : ℕ) (ops : List (Op Stream)) : Prop where
  /-- Its statistics never show an active connection. -/
  idle : Runs.Always apply (Unfilled max) (new Stream max) ops
  /-- It refuses a connection because of the limit only if the limit is zero. -/
  admits : Runs.Steps apply (fun transport op => Refused transport op → max = 0)
    (new Stream max) ops
  /-- If it is not, and connections are opened afterwards, all of them are noted. -/
  grows : max ≠ 0 → ∀ times : List ℕ,
    (Runs.run apply (Runs.run apply (new Stream max) ops)
      (times.map fun now => .connect .opened now)).connectionMetadata.keys.card =
      (Runs.run apply (new Stream max) ops).connectionMetadata.keys.card + times.length

variable {max : ℕ} {transport : SecureTransport Stream}

lemma not_refused (h : Unfilled max transport) {op : Op Stream} (hop : Refused transport op) :
    max = 0 := by
  by_contra hpos
  have hroom : ¬ transport.maxConnections ≤ transport.connections.keys.card := by
    rw [h.maxConnections, h.card_connections]
    omega
  cases op with
  | connect outcome now =>
    cases outcome <;> simp [Refused, connect, hroom, limitExceeded] at hop
  | accept outcome now =>
    cases hlistener : transport.listener with
    | none => simp [Refused, accept, hlistener, limitExceeded] at hop
    | some addr => cases outcome <;> simp [Refused, accept, hlistener, hroom, limitExceeded] at hop
  | _ => exact hop

/-- Connections that are opened one after the other are all noted. -/
lemma card_run_connect (hpos : max ≠ 0) (times : List ℕ) : ∀ {transport : SecureTransport Stream},
    Unfilled max transport →
    (Runs.run apply transport
      (times.map fun now => .connect .opened now)).connectionMetadata.keys.card =
      transport.connectionMetadata.keys.card + times.length := by
  induction times with
  | nil => exact fun _ => rfl
  | cons now times ih =>
    intro transport h
    have hroom : ¬ transport.maxConnections ≤ transport.connections.keys.card := by
      rw [h.maxConnections, h.card_connections]
      omega
    have hstep : transport.apply (.connect .opened now) = (transport.register now).2 := by
      show (transport.connect .opened now).2 = _
      rw [connect, if_neg hroom]
    have hcard : (transport.register now).2.connectionMetadata.keys.card =
        transport.connectionMetadata.keys.card + 1 := by
      show (transport.connectionMetadata.insert _ _).keys.card = _
      rw [HashMap.keys_insert, Finset.card_insert_of_notMem]
      rw [Finmap.mem_keys]
      exact h.connectionId_not_mem
    rw [List.map_cons, Runs.run_cons, hstep, ih (h.register now), hcard, List.length_cons]
    omega

/-- **The limit is never reached**: over every run the transport counts no connection, and notes as
many as are opened. -/
theorem never_limits (max : ℕ) (ops : List (Op Stream)) : NeverLimits max ops where
  idle := Runs.always_rule (P := fun _ _ => True) (Unfilled max) (fun _ op h _ => h.apply op)
    (Runs.steps_of_forall fun _ _ => trivial) (Unfilled.new Stream max)
  admits := Runs.steps_rule (P := fun _ _ => True) (Unfilled max)
    (fun _ op h _ => ⟨h.apply op, not_refused h⟩) (Runs.steps_of_forall fun _ _ => trivial)
    (Unfilled.new Stream max)
  grows hpos times := card_run_connect hpos times
    (Runs.run_invariant (Unfilled max) (fun _ op h => h.apply op) (Unfilled.new Stream max))

end SecureTransport

end QuDAG.Network
