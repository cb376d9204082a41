import QuDAG.Dag.Voting
import QuDAG.Lib.Framing
import QuDAG.Lib.Runs
import QuDAG.Vault.Secret

/-!
# Secure connections (`connection.rs`)

A connection seals a message under the next value of its nonce counter, and puts it into the current
batch with its length in front. The receiver opens every message of a batch under the value of its
own nonce counter, which only its own messages move. So a batch is opened iff it holds the first
message alone, and the receiver has sent nothing yet.

A batch that leaves is taken off the queue size with the lengths and tags, which were never added
to it. The queue size wraps around, and every later message is refused by back pressure.

## Main definitions

* `ConnectionChannels`, with `send`, `flushBatch` and `receive`.
* `SecureLink` — two connections whose batches are delivered to each other.
* `SecureLink.RoundTrips` — what one side was handed is what the other one received.
* `SecureLink.Alone` — a message is the first one, and delivered to a receiver that has sent
  nothing.

## Main results

* `ConnectionChannels.receive_frames_eq_ok` — which batches are opened.
* `SecureLink.phase_run` — a connection fills a batch, and then refuses everything.
* `SecureLink.roundTrips_iff_alone` — the runs whose messages arrive.

## Implementation notes

The two halves of the channel of a connection are made together and kept together. Bringing a batch
from one connection to the other is left to a step of the system. While a message waits for back
pressure to end nothing else happens on its connection, so nothing ends it. Sealing is tried three
times with the same arguments. Numbers of type `usize` have 64 bits.
-/

namespace QuDAG.Network

open QuDAG.Vault (Nonce)

/-! ## Sealing and opening -/

/-- What the connection uses of ChaCha20-Poly1305. Opening works in place: it leaves the message and
after it the tag. -/
structure ChaChaPoly (Key : Type) where
  sealInPlaceAppendTag : Key → Nonce → List UInt8 → Option (List UInt8)
  openInPlace : Key → Nonce → List UInt8 → Option (List UInt8)

/-- Exactly what was sealed under the same key and nonce is opened. -/
structure ChaChaPoly.Lawful {Key : Type} (A : ChaChaPoly Key) (key : Key) : Prop where
  /-- A message of at most 1 MB is sealed, and gets a tag of 16 bytes. -/
  seals : ∀ nonce message, message.length ≤ 1024 * 1024 → ∃ sealed,
    A.sealInPlaceAppendTag key nonce message = some sealed ∧ sealed.length = message.length + 16
  opens : ∀ nonce message sealed, A.sealInPlaceAppendTag key nonce message = some sealed →
    ∃ tag, tag.length = 16 ∧ A.openInPlace key nonce sealed = some (message ++ tag)
  opens_only : ∀ nonce nonce' message sealed,
    A.sealInPlaceAppendTag key nonce message = some sealed →
      nonce' ≠ nonce → A.openInPlace key nonce' sealed = none

/-! ## Connections -/

/-- Errors of a connection. -/
inductive ConnectionFault
  | connectionError (reason : String)
  | messageError (reason : String)
  | encryptionError (reason : String)
  deriving DecidableEq, Repr

/-- High-performance connection message channels. -/
structure ConnectionChannels (Key : Type) where
  /-- The batches that were sent into the channel, the oldest first. -/
  tx : List (List UInt8)
  /-- Whether the receiving half of the channel is still there. -/
  receiving : Bool
  /-- Outbound batch buffer. -/
  batchBuffer : List UInt8
  /-- Message batch size. -/
  batchSize : ℕ
  /-- Batch timeout. -/
  batchTimeout : Duration
  /-- Last batch time. -/
  lastBatch : Instant
  /-- Queue high water mark. -/
  highWaterMark : UInt64
  /-- Current queue size in bytes. -/
  queueSize : UInt64
  /-- Encryption key cache. -/
  keyCache : Key
  /-- Nonce counter for unique nonces. -/
  nonceCounter : UInt64
  /-- Message counter for metrics. -/
  messageCount : UInt64
  /-- Bytes processed counter. -/
  bytesProcessed : UInt64

namespace ConnectionChannels

variable {Key : Type}

/-- The channels of a new connection. -/
def new (key : Key) (now : Instant) : ConnectionChannels Key where
  tx := []
  receiving := true
  batchBuffer := []
  batchSize := 128
  -- 50 ms
  batchTimeout := 50000000
  lastBatch := now
  highWaterMark := 64 * 1024 * 1024
  queueSize := 0
  keyCache := key
  nonceCounter := 1
  messageCount := 0
  bytesProcessed := 0

/-- The nonce of a value of the counter: its bytes, the lowest first, and zeros. -/
def nonceOf (value : UInt64) : Nonce where
  bytes := Codec.wordBytes 8 value.toNat ++ List.replicate 4 0
  length_eq := by rw [List.length_append, Framing.length_wordBytes, List.length_replicate]

/-- Flush current batch of messages. If the channel is closed the batch is put back. -/
def flushBatch (now : Instant) (self : ConnectionChannels Key) :
    Except ConnectionFault Unit × ConnectionChannels Key :=
  if self.batchBuffer = [] then (.ok (), self)
  else if self.receiving then
    (.ok (), { self with
      tx := self.tx ++ [self.batchBuffer]
      batchBuffer := []
      queueSize := self.queueSize - UInt64.ofNat self.batchBuffer.length
      lastBatch := now })
  else
    (.error (.connectionError "Batch send failed after 3 retries: channel closed"), self)

/-- Add a sealed message to the batch buffer, with its length in front, and update the metrics. -/
def enqueue (data encrypted : List UInt8) (self : ConnectionChannels Key) :
    ConnectionChannels Key :=
  { self with
    batchBuffer := self.batchBuffer ++ (Framing.beBytes 4 encrypted.length ++ encrypted)
    queueSize := self.queueSize + UInt64.ofNat data.length
    messageCount := self.messageCount + 1
    bytesProcessed := self.bytesProcessed + UInt64.ofNat data.length }

variable (A : ChaChaPoly Key)

/-- Send encrypted message, where the clock shows `now` when the batch is looked at and `flushed`
when it has left. -/
def send (data : List UInt8) (now flushed : Instant) (self : ConnectionChannels Key) :
    Except ConnectionFault Unit × ConnectionChannels Key :=
  if data = [] then (.error (.messageError "Empty message"), self)
  else if 1024 * 1024 < data.length then (.error (.messageError "Message too large"), self)
  else if self.highWaterMark ≤ self.queueSize then
    (.error (.connectionError "Back pressure timeout"), self)
  else
    let counted := { self with nonceCounter := self.nonceCounter + 1 }
    if self.nonceCounter = 0 then (.error (.encryptionError "Nonce overflow"), counted)
    else
      match A.sealInPlaceAppendTag self.keyCache (nonceOf self.nonceCounter) data with
      | none =>
        (.error (.encryptionError "Encryption failed after 3 retries: ring.Unspecified"), counted)
      | some encrypted =>
        let queued := counted.enqueue data encrypted
        if queued.batchSize * 1024 ≤ queued.batchBuffer.length ∨
            queued.batchTimeout ≤ Instant.elapsed queued.lastBatch now then
          queued.flushBatch flushed
        else (.ok (), queued)

/-- Parse the messages of a batch. -/
def receive (self : ConnectionChannels Key) (buf : List UInt8) :
    Except ConnectionFault (List (List UInt8)) :=
  if buf = [] then .ok []
  else if buf.length < 4 then .error (.encryptionError "Incomplete message length")
  else
    let length := Framing.beValue (buf.take 4)
    if (buf.drop 4).length < length then .error (.encryptionError "Incomplete message data")
    else
      -- The counter is read here, and moved by `send` alone.
      match A.openInPlace self.keyCache (nonceOf self.nonceCounter) ((buf.drop 4).take length) with
      | none => .error (.encryptionError "ring.Unspecified")
      | some opened =>
        let message := if 16 ≤ opened.length then opened.take (opened.length - 16) else opened
        match self.receive ((buf.drop 4).drop length) with
        | .ok messages => .ok (message :: messages)
        | .error e => .error e
termination_by buf.length
decreasing_by
  rw [List.length_drop, List.length_drop]
  omega

end ConnectionChannels

/-! ## Two connections -/

/-- The sides of a link. -/
inductive Side
  | near
  | far
  deriving DecidableEq, Repr

/-- The other side. -/
def Side.other : Side → Side
  | .near => .far
  | .far => .near

@[simp] lemma Side.other_ne (side : Side) : side.other ≠ side := by
  cases side <;> decide

@[simp] lemma Side.other_other (side : Side) : side.other.other = side := by
  cases side <;> rfl

/-- Every side is the given one or the other one. -/
lemma Side.eq_or_eq_other (side' side : Side) : side' = side ∨ side' = side.other := by
  cases side' <;> cases side <;> simp [Side.other]

/-- One side of a link. What the last two fields record is not seen by the connection. -/
structure LinkEnd (Key : Type) where
  channels : ConnectionChannels Key
  /-- The messages that `send` was called with. -/
  handed : List (List UInt8)
  /-- What `receive` returned. -/
  results : List (Except ConnectionFault (List (List UInt8)))

/-- Two connections. -/
abbrev SecureLink (Key : Type) : Type := Side → LinkEnd Key

/-- What happens next on a link. -/
inductive LinkStep
  /-- A side sends a message. -/
  | send (side : Side) (data : List UInt8) (now flushed : Instant)
  /-- The oldest batch of a side is delivered to the other one, which receives it. -/
  | deliver (side : Side)

/-- The side whose message or batch a step is about. -/
def LinkStep.sender : LinkStep → Side
  | .send side _ _ _ => side
  | .deliver side => side

/-- The messages of a side are not empty, and have at most 1 MB. -/
def LinkStep.Sendable (side : Side) : LinkStep → Prop
  | .send side' data _ _ => side' = side → data ≠ [] ∧ data.length ≤ 1024 * 1024
  | .deliver _ => True

namespace SecureLink

variable {Key : Type} (A : ChaChaPoly Key)

/-- Two new connections with the same key. -/
def start (key : Key) (now : Side → Instant) : SecureLink Key := fun side =>
  ⟨ConnectionChannels.new key (now side), [], []⟩

/-- Make a step. If there is no batch to deliver nothing changes. -/
def apply (link : SecureLink Key) : LinkStep → SecureLink Key
  | .send side data now flushed =>
    Function.update link side
      { link side with
        channels := ((link side).channels.send A data now flushed).2
        handed := (link side).handed ++ [data] }
  | .deliver side =>
    match (link side).channels.tx with
    | [] => link
    | batch :: rest =>
      let taken := Function.update link side
        { link side with channels := { (link side).channels with tx := rest } }
      Function.update taken side.other
        { link side.other with
          results := (link side.other).results ++
            [(link side.other).channels.receive A batch] }

/-- Every batch of a side was delivered. -/
def Delivered (link : SecureLink Key) (side : Side) : Prop :=
  (link side).channels.batchBuffer = [] ∧ (link side).channels.tx = []

/-- The other side has received the messages that a side was handed. -/
def RoundTrips (link : SecureLink Key) (side : Side) : Prop :=
  ∃ received : List (List (List UInt8)), (link side.other).results = received.map Except.ok ∧
    received.flatten = (link side).handed

/-- A side sends only its first message, and its batches are delivered only while the other side
has sent nothing. -/
def Alone (side : Side) (link : SecureLink Key) : LinkStep → Prop
  | .send side' _ _ _ => side' = side → (link side).channels.nonceCounter = 1
  | .deliver side' => side' = side → (link side).channels.tx ≠ [] →
    (link side.other).channels.nonceCounter = 1

end SecureLink

/-! ## Batches -/

namespace ConnectionChannels

variable {Key : Type} (A : ChaChaPoly Key) (key : Key)

/-- The bytes of the message after `i` others: its length when sealed, and the sealed message. -/
def sealedFrame (i : ℕ) (message : List UInt8) : List UInt8 :=
  let encrypted := (A.sealInPlaceAppendTag key (nonceOf (UInt64.ofNat (i + 1))) message).getD []
  Framing.beBytes 4 encrypted.length ++ encrypted

/-- The bytes of the first messages of a connection. -/
def frames (messages : List (List UInt8)) : List UInt8 :=
  (messages.mapIdx (sealedFrame A key)).flatten

lemma frames_concat (messages : List (List UInt8)) (message : List UInt8) :
    frames A key (messages ++ [message]) =
      frames A key messages ++ sealedFrame A key messages.length message := by
  simp [frames, List.mapIdx_append]

variable {A key}

/-- Different values of the counter make different nonces. -/
lemma nonceOf_injective : Function.Injective nonceOf := by
  intro a b h
  have hbytes : Codec.wordBytes 8 a.toNat = Codec.wordBytes 8 b.toNat :=
    List.append_cancel_right (congrArg Nonce.bytes h)
  have hvalue := congrArg (fun l => Framing.beValue l.reverse) hbytes
  change Framing.beValue (Framing.beBytes 8 a.toNat) =
    Framing.beValue (Framing.beBytes 8 b.toNat) at hvalue
  rw [Framing.beValue_beBytes a.toNat_lt, Framing.beValue_beBytes b.toNat_lt] at hvalue
  exact UInt64.toNat_inj.mp hvalue

section Lawful

variable (hA : A.Lawful key)

include hA

/-- A frame has 20 bytes more than its message. -/
lemma length_sealedFrame (i : ℕ) {message : List UInt8} (h : message.length ≤ 1024 * 1024) :
    (sealedFrame A key i message).length = message.length + 20 := by
  obtain ⟨encrypted, hsealed, hlength⟩ := hA.seals (nonceOf (UInt64.ofNat (i + 1))) message h
  rw [sealedFrame, hsealed, Option.getD_some, List.length_append, Framing.length_beBytes, hlength]
  omega

lemma length_frames {messages : List (List UInt8)}
    (h : ∀ message ∈ messages, message.length ≤ 1024 * 1024) :
    (frames A key messages).length = (messages.map List.length).sum + 20 * messages.length := by
  induction messages using List.reverseRecOn with
  | nil => rfl
  | append_singleton messages message ih =>
    rw [frames_concat, List.length_append, length_sealedFrame hA _ (h message (by simp)),
      ih fun m hm => h m (by simp [hm])]
    simp
    omega

/-- A frame is opened iff the counter shows the value that it was sealed under. -/
lemma receive_sealedFrame {self : ConnectionChannels Key} (hkey : self.keyCache = key) (i : ℕ)
    {message : List UInt8} (h : message.length ≤ 1024 * 1024) (rest : List UInt8) :
    self.receive A (sealedFrame A key i message ++ rest) =
      if self.nonceCounter = UInt64.ofNat (i + 1) then
        match self.receive A rest with
        | .ok messages => .ok (message :: messages)
        | .error e => .error e
      else .error (.encryptionError "ring.Unspecified") := by
  obtain ⟨encrypted, hsealed, hlength⟩ := hA.seals (nonceOf (UInt64.ofNat (i + 1))) message h
  have hframe : sealedFrame A key i message ++ rest =
      Framing.beBytes 4 encrypted.length ++ (encrypted ++ rest) := by
    rw [sealedFrame, hsealed, Option.getD_some, List.append_assoc]
  have hprefix : (Framing.beBytes 4 encrypted.length).length = 4 := Framing.length_beBytes _ _
  have hvalue : Framing.beValue (Framing.beBytes 4 encrypted.length) = encrypted.length :=
    Framing.beValue_beBytes (by omega)
  have hne : Framing.beBytes 4 encrypted.length ++ (encrypted ++ rest) ≠ [] := by
    intro hnil
    have := congrArg List.length hnil
    simp at this
  rw [hframe, receive, if_neg hne, if_neg (by simp), List.take_left' hprefix,
    List.drop_left' hprefix, hvalue]
  simp only [List.take_left, List.drop_left, hkey]
  rw [if_neg (by simp)]
  by_cases hcounter : self.nonceCounter = UInt64.ofNat (i + 1)
  · obtain ⟨tag, htag, hopen⟩ := hA.opens _ _ _ hsealed
    rw [if_pos hcounter, hcounter, hopen]
    simp [htag]
  · have hopen := hA.opens_only _ _ _ _ hsealed fun heq => hcounter (nonceOf_injective heq)
    rw [if_neg hcounter, hopen]

/-- **A batch is opened iff it holds the first message alone**, and the receiver has sent
nothing. -/
theorem receive_frames_eq_ok {self : ConnectionChannels Key} (hkey : self.keyCache = key)
    {message : List UInt8} {messages received : List (List UInt8)}
    (h : ∀ m ∈ message :: messages, m.length ≤ 1024 * 1024) :
    self.receive A (frames A key (message :: messages)) = .ok received ↔
      self.nonceCounter = 1 ∧ messages = [] ∧ received = [message] := by
  have hcons : frames A key (message :: messages) = sealedFrame A key 0 message ++
      (messages.mapIdx fun i => sealedFrame A key (i + 1)).flatten := by
    simp [frames, List.mapIdx_cons]
  have hone : UInt64.ofNat (0 + 1) = 1 := rfl
  rw [hcons, receive_sealedFrame hA hkey 0 (h message List.mem_cons_self), hone]
  by_cases hcounter : self.nonceCounter = 1
  · rw [if_pos hcounter]
    cases messages with
    | nil =>
      rw [List.mapIdx_nil, List.flatten_nil, receive, if_pos rfl]
      simp [hcounter, eq_comm]
    | cons second messages =>
      have hsecond : self.nonceCounter ≠ UInt64.ofNat (0 + 1 + 1) := by
        rw [hcounter]
        decide
      rw [List.mapIdx_cons, List.flatten_cons,
        receive_sealedFrame hA hkey _ (h second (by simp)), if_neg hsecond]
      simp
  · rw [if_neg hcounter]
    simp [hcounter]

end Lawful

/-! ## Sending -/

/-- What no message changes. -/
structure Configured (key : Key) (c : ConnectionChannels Key) : Prop where
  receiving : c.receiving = true
  batchSize : c.batchSize = 128
  highWaterMark : c.highWaterMark = 64 * 1024 * 1024
  keyCache : c.keyCache = key

lemma configured_flushBatch {self : ConnectionChannels Key} (h : self.Configured key)
    (now : Instant) : (self.flushBatch now).2.Configured key := by
  unfold flushBatch
  split_ifs
  · exact h
  · exact ⟨h.receiving, h.batchSize, h.highWaterMark, h.keyCache⟩
  · exact h

lemma configured_send {self : ConnectionChannels Key} (h : self.Configured key)
    (data : List UInt8) (now flushed : Instant) :
    (self.send A data now flushed).2.Configured key := by
  unfold send
  split_ifs
  · exact h
  · exact h
  · exact h
  · exact ⟨h.receiving, h.batchSize, h.highWaterMark, h.keyCache⟩
  · cases A.sealInPlaceAppendTag self.keyCache (nonceOf self.nonceCounter) data with
    | none => exact ⟨h.receiving, h.batchSize, h.highWaterMark, h.keyCache⟩
    | some encrypted =>
      dsimp only
      split_ifs
      · refine configured_flushBatch ?_ _
        exact ⟨h.receiving, h.batchSize, h.highWaterMark, h.keyCache⟩
      · exact ⟨h.receiving, h.batchSize, h.highWaterMark, h.keyCache⟩

/-- Back pressure refuses every message. -/
lemma send_of_le {self : ConnectionChannels Key} (h : self.highWaterMark ≤ self.queueSize)
    (data : List UInt8) (now flushed : Instant) : (self.send A data now flushed).2 = self := by
  unfold send
  split_ifs
  · rfl
  · rfl
  · rfl

/-- A message that is not refused is put into the batch, which may leave then. -/
lemma send_of_lt (hA : A.Lawful key) {self : ConnectionChannels Key} (hself : self.Configured key)
    {sent : ℕ} (hcounter : self.nonceCounter = UInt64.ofNat (sent + 1))
    (hsent : sent + 1 < 2 ^ 64) (hqueue : self.queueSize < self.highWaterMark)
    {data : List UInt8} (hne : data ≠ []) (hsize : data.length ≤ 1024 * 1024)
    (now flushed : Instant) :
    ∃ queued : ConnectionChannels Key, queued.Configured key ∧
      queued.batchBuffer = self.batchBuffer ++ sealedFrame A key sent data ∧
      queued.queueSize = self.queueSize + UInt64.ofNat data.length ∧
      queued.nonceCounter = self.nonceCounter + 1 ∧ queued.tx = self.tx ∧
      ((self.send A data now flushed).2 = queued ∧ queued.batchBuffer.length < 128 * 1024 ∨
        (self.send A data now flushed).2 = (queued.flushBatch flushed).2) := by
  obtain rfl := hself.keyCache
  obtain ⟨encrypted, hsealed, -⟩ := hA.seals (nonceOf self.nonceCounter) data hsize
  have hzero : self.nonceCounter ≠ 0 := by
    intro h
    have hnat := congrArg UInt64.toNat (hcounter.symm.trans h)
    rw [UInt64.toNat_ofNat_of_lt' hsent] at hnat
    exact absurd hnat (Nat.succ_ne_zero sent)
  have hframe :
      sealedFrame A self.keyCache sent data = Framing.beBytes 4 encrypted.length ++ encrypted := by
    rw [sealedFrame, ← hcounter, hsealed, Option.getD_some]
  rw [hframe]
  unfold send
  rw [if_neg hne, if_neg (Nat.not_lt.mpr hsize), if_neg (UInt64.not_le.mpr hqueue), hsealed]
  simp only [if_neg hzero]
  refine ⟨enqueue data encrypted { self with nonceCounter := self.nonceCounter + 1 },
    ⟨hself.receiving, hself.batchSize, hself.highWaterMark, rfl⟩, rfl, rfl, rfl, rfl, ?_⟩
  split_ifs with hfull
  · exact Or.inr rfl
  · have hshort := (not_or.mp hfull).1
    rw [hself.batchSize] at hshort
    exact Or.inl ⟨rfl, Nat.not_le.mp hshort⟩

end ConnectionChannels

/-! ## Phases of a connection -/

namespace ConnectionChannels

variable {Key : Type} (A : ChaChaPoly Key) (key : Key)

/-- How far a connection has come that was handed some messages, where the other side has received
some batches of it. -/
inductive Phase (c : ConnectionChannels Key) (handed : List (List UInt8))
    (results : List (Except ConnectionFault (List (List UInt8)))) : Prop
  /-- No batch has left so far. -/
  | filling (hbuffer : c.batchBuffer = frames A key handed)
      (hshort : c.batchBuffer.length < 128 * 1024)
      (hqueue : c.queueSize.toNat = (handed.map List.length).sum)
      (hcounter : c.nonceCounter = UInt64.ofNat (handed.length + 1))
      (htx : c.tx = []) (hresults : results = [])
  /-- A batch has left, and is about to be delivered. Later messages were refused. -/
  | leaving (message : List UInt8) (batch refused : List (List UInt8))
      (hhanded : handed = message :: batch ++ refused) (hbuffer : c.batchBuffer = [])
      (hqueue : c.highWaterMark ≤ c.queueSize) (hcounter : c.nonceCounter ≠ 1)
      (htx : c.tx = [frames A key (message :: batch)]) (hresults : results = [])
  /-- It was delivered. -/
  | left (message : List UInt8) (batch refused : List (List UInt8))
      (receiver : ConnectionChannels Key)
      (hhanded : handed = message :: batch ++ refused) (hbuffer : c.batchBuffer = [])
      (hqueue : c.highWaterMark ≤ c.queueSize) (hcounter : c.nonceCounter ≠ 1)
      (htx : c.tx = []) (hkey : receiver.keyCache = key)
      (hresults : results = [receiver.receive A (frames A key (message :: batch))])

variable {A key}

/-- The counter tells whether anything was sent. -/
lemma Phase.nonceCounter_eq_one (hA : A.Lawful key) {c : ConnectionChannels Key}
    {handed : List (List UInt8)} {results : List (Except ConnectionFault (List (List UInt8)))}
    (hsizes : ∀ m ∈ handed, m.length ≤ 1024 * 1024) (h : c.Phase A key handed results) :
    c.nonceCounter = 1 ↔ handed = [] := by
  cases h with
  | filling hbuffer hshort _ hcounter =>
    rw [hbuffer, length_frames hA hsizes] at hshort
    rw [hcounter, ← UInt64.toNat_inj, UInt64.toNat_ofNat_of_lt' (by
      simp only [UInt64.size]
      omega), ← List.length_eq_zero_iff]
    change handed.length + 1 = 1 ↔ _
    omega
  | leaving message batch refused hhanded _ _ hcounter =>
    exact iff_of_false hcounter (by rw [hhanded]; exact List.cons_ne_nil _ _)
  | left message batch refused _ hhanded _ _ hcounter =>
    exact iff_of_false hcounter (by rw [hhanded]; exact List.cons_ne_nil _ _)

/-- The batch that leaves takes more off the queue size than was added to it. -/
lemma highWaterMark_le_sub {queue : UInt64} {count length : ℕ} (hcount : 0 < count)
    (hbound : count < 10000) (hqueue : queue.toNat < 2 * 1024 * 1024)
    (hlength : length = queue.toNat + 20 * count) :
    (64 * 1024 * 1024 : UInt64) ≤ queue - UInt64.ofNat length := by
  have hsub : (UInt64.ofNat length).toNat = length := UInt64.toNat_ofNat_of_lt' (by
    simp only [UInt64.size]
    omega)
  rw [UInt64.le_iff_toNat_le, UInt64.toNat_sub, hsub]
  have hmark : (64 * 1024 * 1024 : UInt64).toNat = 64 * 1024 * 1024 := rfl
  have hdiff : 2 ^ 64 - length + queue.toNat = 2 ^ 64 - 20 * count := by omega
  rw [hmark, hdiff, Nat.mod_eq_of_lt (by omega)]
  omega

/-- **A message leads to the next phase**: it goes into the batch, and may make it leave, or it is
refused. -/
lemma phase_send (hA : A.Lawful key) {c : ConnectionChannels Key} (hc : c.Configured key)
    {handed : List (List UInt8)} {results : List (Except ConnectionFault (List (List UInt8)))}
    (hsizes : ∀ m ∈ handed, m.length ≤ 1024 * 1024) (hphase : c.Phase A key handed results)
    {data : List UInt8} (hne : data ≠ []) (hsize : data.length ≤ 1024 * 1024)
    (now flushed : Instant) :
    (c.send A data now flushed).2.Phase A key (handed ++ [data]) results := by
  cases hphase with
  | filling hbuffer hshort hqueue hcounter htx hresults =>
    have hlength := length_frames hA hsizes
    rw [hbuffer, hlength] at hshort
    have hbelow : c.queueSize < c.highWaterMark := by
      have hmark : (64 * 1024 * 1024 : UInt64).toNat = 64 * 1024 * 1024 := rfl
      rw [hc.highWaterMark, UInt64.lt_iff_toNat_lt, hqueue, hmark]
      omega
    obtain ⟨queued, hqueued, hbuffer', hqueue', hcounter', htx', hsent⟩ :=
      send_of_lt hA hc hcounter (by omega) hbelow hne hsize now flushed
    have hall : ∀ m ∈ handed ++ [data], m.length ≤ 1024 * 1024 := by
      intro m hm
      rcases List.mem_append.mp hm with h | h
      · exact hsizes m h
      · exact List.mem_singleton.mp h ▸ hsize
    have hframes : queued.batchBuffer = frames A key (handed ++ [data]) := by
      rw [hbuffer', hbuffer, frames_concat]
    have hnext : queued.nonceCounter = UInt64.ofNat ((handed ++ [data]).length + 1) := by
      rw [hcounter', hcounter, List.length_append, List.length_singleton]
      exact (UInt64.ofNat_add _ 1).symm
    have hadded : queued.queueSize.toNat = ((handed ++ [data]).map List.length).sum := by
      have hdata : (UInt64.ofNat data.length).toNat = data.length :=
        UInt64.toNat_ofNat_of_lt' (by
          simp only [UInt64.size]
          omega)
      rw [hqueue', UInt64.toNat_add, hdata, hqueue, List.map_append, List.sum_append]
      simp only [List.map_cons, List.map_nil, List.sum_cons, List.sum_nil]
      omega
    rcases hsent with ⟨hsent, hstill⟩ | hsent
    · rw [hsent]
      exact .filling hframes hstill hadded hnext (htx'.trans htx) hresults
    · have hall' := length_frames hA hall
      have hnonempty : queued.batchBuffer ≠ [] := by
        intro hnil
        rw [hframes] at hnil
        rw [hnil] at hall'
        simp at hall'
      have hwrapped : queued.highWaterMark ≤
          queued.queueSize - UInt64.ofNat queued.batchBuffer.length := by
        rw [hqueued.highWaterMark]
        refine @highWaterMark_le_sub _ (handed ++ [data]).length _ ?_ ?_ ?_ ?_
        · simp
        · simp
          omega
        · rw [hadded]
          simp
          omega
        · rw [hadded, hframes, hall']
      rw [hsent, flushBatch, if_neg hnonempty, if_pos hqueued.receiving]
      obtain ⟨message, batch, hcons⟩ : ∃ message batch, handed ++ [data] = message :: batch := by
        cases handed with
        | nil => exact ⟨data, [], rfl⟩
        | cons message rest => exact ⟨message, rest ++ [data], rfl⟩
      refine .leaving message batch [] (by rw [hcons, List.append_nil]) rfl hwrapped ?_ ?_ hresults
      · change queued.nonceCounter ≠ 1
        rw [hnext]
        intro hone
        have hnat := congrArg UInt64.toNat hone
        rw [UInt64.toNat_ofNat_of_lt' (by
          simp only [UInt64.size, List.length_append, List.length_singleton]
          omega)] at hnat
        simp at hnat
      · change queued.tx ++ [queued.batchBuffer] = _
        rw [htx', htx, hframes, hcons, List.nil_append]
  | leaving message batch refused hhanded hbuffer hqueue hcounter htx hresults =>
    rw [send_of_le hqueue]
    exact .leaving message batch (refused ++ [data]) (by rw [hhanded, List.append_assoc]) hbuffer
      hqueue hcounter htx hresults
  | left message batch refused receiver hhanded hbuffer hqueue hcounter htx hkey hresults =>
    rw [send_of_le hqueue]
    exact .left message batch (refused ++ [data]) receiver (by rw [hhanded, List.append_assoc])
      hbuffer hqueue hcounter htx hkey hresults

end ConnectionChannels

/-! ## Runs of a link -/

namespace SecureLink

open ConnectionChannels (Configured Phase)

variable {Key : Type} {A : ChaChaPoly Key} {key : Key} {side : Side}

/-- What holds of a link while a side sends messages of the allowed sizes. -/
structure InPhase (A : ChaChaPoly Key) (key : Key) (side : Side) (link : SecureLink Key) :
    Prop where
  configured : ∀ side', (link side').channels.Configured key
  sizes : ∀ m ∈ (link side).handed, m.length ≤ 1024 * 1024
  phase : (link side).channels.Phase A key (link side).handed (link side.other).results

/-- At most one message was handed over, and no batch was lost. -/
def Undamaged (side : Side) (link : SecureLink Key) : Prop :=
  (link side).handed.length ≤ 1 ∧ ∀ r ∈ (link side.other).results, ∃ received, r = .ok received

lemma inPhase_start (now : Side → Instant) : InPhase A key side (start key now) where
  configured _ := ⟨rfl, rfl, rfl, rfl⟩
  sizes _ h := nomatch h
  phase := .filling rfl (Nat.zero_lt_succ _) rfl rfl rfl rfl

lemma undamaged_start (now : Side → Instant) : Undamaged side (start key now) :=
  ⟨Nat.zero_le 1, fun _ h => nomatch h⟩

/-- A delivery changes what waits to be delivered, and what the other side received. -/
lemma deliver_of_cons {link : SecureLink Key} {batch : List UInt8} {rest : List (List UInt8)}
    (h : (link side).channels.tx = batch :: rest) :
    (link.apply A (.deliver side) side).channels = { (link side).channels with tx := rest } ∧
      (link.apply A (.deliver side) side).handed = (link side).handed ∧
      (link.apply A (.deliver side) side).results = (link side).results ∧
      (link.apply A (.deliver side) side.other).channels = (link side.other).channels ∧
      (link.apply A (.deliver side) side.other).handed = (link side.other).handed ∧
      (link.apply A (.deliver side) side.other).results = (link side.other).results ++
        [(link side.other).channels.receive A batch] := by
  simp only [apply, h, Function.update_self, Function.update_of_ne side.other_ne.symm, and_self]

lemma deliver_of_nil {link : SecureLink Key} (h : (link side).channels.tx = []) :
    link.apply A (.deliver side) = link := by
  rw [apply, h]

/-- What a side sends changes its own channels. -/
lemma send_self (side : Side) (link : SecureLink Key) (data : List UInt8) (now flushed : Instant) :
    link.apply A (.send side data now flushed) side =
      { link side with
        channels := ((link side).channels.send A data now flushed).2
        handed := (link side).handed ++ [data] } := by
  rw [apply, Function.update_self]

lemma send_other (side : Side) (link : SecureLink Key) (data : List UInt8) (now flushed : Instant) :
    link.apply A (.send side data now flushed) side.other = link side.other := by
  rw [apply, Function.update_of_ne side.other_ne]

/-- No step changes the configurations. -/
lemma configured_apply {link : SecureLink Key}
    (h : ∀ side', (link side').channels.Configured key) (step : LinkStep) :
    ∀ side', (link.apply A step side').channels.Configured key := by
  intro side'
  cases step with
  | send sender data now flushed =>
    rcases side'.eq_or_eq_other sender with rfl | rfl
    · rw [send_self]
      exact ConnectionChannels.configured_send (h side') data now flushed
    · rw [send_other]
      exact h _
  | deliver sender =>
    cases htx : (link sender).channels.tx with
    | nil =>
      rw [deliver_of_nil htx]
      exact h side'
    | cons batch rest =>
      obtain ⟨hself, -, -, hother, -, -⟩ := deliver_of_cons (A := A) htx
      rcases side'.eq_or_eq_other sender with rfl | rfl
      · rw [hself]
        exact ⟨(h side').receiving, (h side').batchSize, (h side').highWaterMark,
          (h side').keyCache⟩
      · rw [hother]
        exact h _

/-- A step of the other side changes nothing that the phase of a side is about. -/
lemma apply_other {link : SecureLink Key} {step : LinkStep} (h : step.sender = side.other) :
    (link.apply A step side).channels = (link side).channels ∧
      (link.apply A step side).handed = (link side).handed ∧
      (link.apply A step side.other).results = (link side.other).results := by
  cases step with
  | send sender data now flushed =>
    obtain rfl : sender = side.other := h
    have hside := send_other (A := A) side.other link data now flushed
    rw [Side.other_other] at hside
    rw [hside, send_self]
    exact ⟨rfl, rfl, rfl⟩
  | deliver sender =>
    obtain rfl : sender = side.other := h
    cases htx : (link side.other).channels.tx with
    | nil =>
      rw [deliver_of_nil htx]
      exact ⟨rfl, rfl, rfl⟩
    | cons batch rest =>
      obtain ⟨-, -, hresults, hchannels, hhanded, -⟩ := deliver_of_cons (A := A) htx
      rw [Side.other_other] at hchannels hhanded
      exact ⟨hchannels, hhanded, hresults⟩

/-- A message leaves the link undamaged iff it is the first one. -/
lemma inPhase_send (hA : A.Lawful key) {link : SecureLink Key} (h : InPhase A key side link)
    {data : List UInt8} (hne : data ≠ []) (hsize : data.length ≤ 1024 * 1024)
    (now flushed : Instant) :
    InPhase A key side (link.apply A (.send side data now flushed)) ∧
      (Undamaged side (link.apply A (.send side data now flushed)) ↔
        Undamaged side link ∧ Alone side link (.send side data now flushed)) := by
  have hself := send_self (A := A) side link data now flushed
  have hother := send_other (A := A) side link data now flushed
  have hcounter := h.phase.nonceCounter_eq_one hA h.sizes
  refine ⟨⟨configured_apply h.configured _, ?_, ?_⟩, ?_⟩
  · rw [hself]
    intro m hm
    rcases List.mem_append.mp hm with hm | hm
    · exact h.sizes m hm
    · exact List.mem_singleton.mp hm ▸ hsize
  · rw [hself, hother]
    exact ConnectionChannels.phase_send hA (h.configured side) h.sizes h.phase hne hsize _ _
  · rw [Undamaged, hself, hother, Undamaged, Alone]
    simp only [List.length_append, List.length_singleton, forall_const, hcounter,
      ← List.length_eq_zero_iff]
    constructor
    · rintro ⟨hlength, hresults⟩
      exact ⟨⟨by omega, hresults⟩, by omega⟩
    · rintro ⟨⟨-, hresults⟩, hlength⟩
      exact ⟨by omega, hresults⟩

/-- A delivery leaves the link undamaged iff the other side has sent nothing. -/
lemma inPhase_deliver (hA : A.Lawful key) {link : SecureLink Key} (h : InPhase A key side link) :
    InPhase A key side (link.apply A (.deliver side)) ∧
      (Undamaged side (link.apply A (.deliver side)) ↔
        Undamaged side link ∧ Alone side link (.deliver side)) := by
  have hnothing (htx : (link side).channels.tx = []) :
      InPhase A key side (link.apply A (.deliver side)) ∧
      (Undamaged side (link.apply A (.deliver side)) ↔
        Undamaged side link ∧ Alone side link (.deliver side)) := by
    rw [deliver_of_nil htx]
    exact ⟨h, ⟨fun hu => ⟨hu, fun _ hne => absurd htx hne⟩, And.left⟩⟩
  cases h.phase with
  | filling _ _ _ _ htx => exact hnothing htx
  | left _ _ _ _ _ _ _ _ htx => exact hnothing htx
  | leaving message batch refused hhanded hbuffer hqueue hcounter htx hresults =>
    obtain ⟨hchannels, hhanded', -, hother, -, hreceived⟩ := deliver_of_cons (A := A) htx
    have hkey := (h.configured side.other).keyCache
    have hsizes : ∀ m ∈ message :: batch, m.length ≤ 1024 * 1024 := fun m hm =>
      h.sizes m (by rw [hhanded]; exact List.mem_append_left refused hm)
    rw [hresults, List.nil_append] at hreceived
    refine ⟨⟨configured_apply h.configured _, ?_, ?_⟩, ?_⟩
    · rw [hhanded']
      exact h.sizes
    · rw [hchannels, hhanded', hreceived]
      exact .left message batch refused _ hhanded hbuffer hqueue hcounter rfl hkey rfl
    · rw [Undamaged, hhanded', hreceived, Undamaged, hresults, Alone]
      simp only [List.mem_singleton, forall_eq, List.not_mem_nil, false_imp_iff, implies_true,
        and_true, htx, ne_eq, List.cons_ne_nil, not_false_eq_true, forall_const]
      refine and_congr_right fun hlength => ?_
      have hbatch : batch = [] := by
        rw [hhanded] at hlength
        simp at hlength
        exact hlength.1
      constructor
      · rintro ⟨received, hok⟩
        exact ((ConnectionChannels.receive_frames_eq_ok hA hkey hsizes).mp hok).1
      · intro hone
        exact ⟨[message],
          (ConnectionChannels.receive_frames_eq_ok hA hkey hsizes).mpr ⟨hone, hbatch, rfl⟩⟩

/-- Every step of either side keeps the phase, and damages the link iff it is not alone. -/
lemma inPhase_apply (hA : A.Lawful key) (link : SecureLink Key) (step : LinkStep)
    (h : InPhase A key side link) (hstep : step.Sendable side) :
    InPhase A key side (link.apply A step) ∧
      (Undamaged side (link.apply A step) ↔ Undamaged side link ∧ Alone side link step) := by
  rcases step.sender.eq_or_eq_other side with hsender | hsender
  · cases step with
    | send sender data now flushed =>
      obtain rfl : sender = side := hsender
      exact inPhase_send hA h (hstep rfl).1 (hstep rfl).2 now flushed
    | deliver sender =>
      obtain rfl : sender = side := hsender
      exact inPhase_deliver hA h
  · obtain ⟨hchannels, hhanded, hresults⟩ := apply_other (A := A) hsender
    have halone : Alone side link step := by
      cases step with
      | send sender data now flushed =>
        exact fun hsame => absurd (hsame.symm.trans hsender).symm side.other_ne
      | deliver sender =>
        exact fun hsame => absurd (hsame.symm.trans hsender).symm side.other_ne
    refine ⟨⟨configured_apply h.configured step, ?_, ?_⟩, ?_⟩
    · rw [hhanded]
      exact h.sizes
    · rw [hchannels, hhanded, hresults]
      exact h.phase
    · rw [Undamaged, hhanded, hresults]
      exact ⟨fun hu => ⟨hu, halone⟩, And.left⟩

/-- When everything is delivered, the messages made the round trip iff nothing was damaged. -/
lemma roundTrips_iff_undamaged (hA : A.Lawful key) {link : SecureLink Key}
    (h : InPhase A key side link) (hdelivered : link.Delivered side) :
    link.RoundTrips side ↔ Undamaged side link := by
  cases h.phase with
  | filling hbuffer _ _ _ htx hresults =>
    have hlength := ConnectionChannels.length_frames hA h.sizes
    rw [← hbuffer, hdelivered.1] at hlength
    have hnil : (link side).handed = [] := by
      rw [List.length_nil] at hlength
      exact List.length_eq_zero_iff.mp (by omega)
    rw [RoundTrips, Undamaged, hresults, hnil]
    exact iff_of_true ⟨[], rfl, rfl⟩ ⟨Nat.zero_le 1, fun _ h => nomatch h⟩
  | leaving _ _ _ _ _ _ _ htx =>
    exact nomatch htx.symm.trans hdelivered.2
  | left message batch refused receiver hhanded _ _ _ _ hkey hresults =>
    have hsizes : ∀ m ∈ message :: batch, m.length ≤ 1024 * 1024 := fun m hm =>
      h.sizes m (by rw [hhanded]; exact List.mem_append_left refused hm)
    have hreceive := fun received =>
      @ConnectionChannels.receive_frames_eq_ok _ _ _ hA receiver hkey _ _ received hsizes
    rw [RoundTrips, Undamaged, hresults, hhanded]
    constructor
    · rintro ⟨received, hmap, hflatten⟩
      obtain ⟨one, rfl, hone⟩ : ∃ one, received = [one] ∧
          receiver.receive A (ConnectionChannels.frames A key (message :: batch)) = .ok one := by
        cases received with
        | nil => exact nomatch hmap
        | cons one more =>
          rw [List.map_cons, List.cons_eq_cons] at hmap
          exact ⟨one, by rw [List.map_eq_nil_iff.mp hmap.2.symm], hmap.1⟩
      obtain ⟨-, rfl, rfl⟩ := (hreceive one).mp hone
      rw [← hflatten]
      exact ⟨le_refl 1, fun r hr => ⟨[message], (List.mem_singleton.mp hr).trans hone⟩⟩
    · rintro ⟨hlength, hall⟩
      obtain ⟨one, hone⟩ := hall _ (List.mem_singleton_self _)
      obtain ⟨-, rfl, rfl⟩ := (hreceive one).mp hone
      have hrefused : refused = [] := by
        simp at hlength
        exact hlength
      exact ⟨[[message]], by rw [hone]; rfl, by rw [hrefused]; rfl⟩

/-- A link is in phase after every run of messages of allowed sizes, and undamaged iff every step
was alone. -/
theorem phase_run (hA : A.Lawful key) (now : Side → Instant) {steps : List LinkStep}
    (hsteps : ∀ step ∈ steps, step.Sendable side) :
    InPhase A key side (Runs.run (apply A) (start key now) steps) ∧
      (Undamaged side (Runs.run (apply A) (start key now) steps) ↔
        Runs.Steps (apply A) (Alone side) (start key now) steps) := by
  have hV :
      Runs.Steps (apply A) (fun _ step => LinkStep.Sendable side step) (start key now) steps :=
    Runs.steps_of_mem hsteps
  refine ⟨Runs.run_rule (InPhase A key side)
    (fun link step h hstep => (inPhase_apply hA link step h hstep).1) hV (inPhase_start now), ?_⟩
  rw [Runs.run_iff_steps (InPhase A key side) (inPhase_apply hA) hV (inPhase_start now),
    and_iff_right (undamaged_start now)]

/-- **The messages of a side make the round trip iff each of them is alone**: it is the first one,
and delivered before the other side has sent anything. -/
theorem roundTrips_iff_alone (hA : A.Lawful key) (now : Side → Instant) (steps : List LinkStep)
    (hsteps : ∀ step ∈ steps, step.Sendable side)
    (hdelivered : (Runs.run (apply A) (start key now) steps).Delivered side) :
    (Runs.run (apply A) (start key now) steps).RoundTrips side ↔
      Runs.Steps (apply A) (Alone side) (start key now) steps := by
  obtain ⟨hphase, hundamaged⟩ := phase_run hA now hsteps
  rw [← hundamaged]
  exact roundTrips_iff_undamaged hA hphase hdelivered

/-! ## A link -/

/-- A cipher whose tag holds the nonce. -/
def sampleCipher : ChaChaPoly Unit where
  sealInPlaceAppendTag _ nonce message := some (message ++ (nonce.bytes ++ List.replicate 4 0))
  openInPlace _ nonce sealed :=
    if sealed.drop (sealed.length - 16) = nonce.bytes ++ List.replicate 4 0 then some sealed
    else none

lemma lawful_sampleCipher : sampleCipher.Lawful () := by
  have hdrop (message : List UInt8) (nonce : Nonce) :
      (message ++ (nonce.bytes ++ List.replicate 4 0)).drop
        ((message ++ (nonce.bytes ++ List.replicate 4 0)).length - 16) =
          nonce.bytes ++ List.replicate 4 0 :=
    List.drop_left' (by simp [nonce.length_eq])
  refine ⟨fun nonce message _ => ⟨_, rfl, by simp [nonce.length_eq]⟩, ?_, ?_⟩
  · rintro nonce message _ ⟨⟩
    exact ⟨nonce.bytes ++ List.replicate 4 0, by simp [nonce.length_eq],
      if_pos (hdrop message nonce)⟩
  · rintro nonce nonce' message _ ⟨⟩ hne
    refine if_neg fun heq => hne ?_
    rw [hdrop] at heq
    have hbytes := List.append_cancel_right heq
    cases nonce
    cases nonce'
    simp_all

/-- Two messages, with 50 ms between them, and the batch that they make. -/
def sampleSteps : List LinkStep :=
  [.send .near [1] 0 0, .send .near [2] 50000000 50000000, .deliver .near]

theorem roundTrips_iff_alone_sample :
    (Runs.run (apply sampleCipher) (start () fun _ => 0)
        [.send .near [1] 50000000 50000000, .deliver .near]).RoundTrips .near ↔
      Runs.Steps (apply sampleCipher) (Alone .near) (start () fun _ => 0)
        [.send .near [1] 50000000 50000000, .deliver .near] :=
  roundTrips_iff_alone lawful_sampleCipher _ _
    (by simp [LinkStep.Sendable]) ⟨rfl, rfl⟩

/-- The second message of a batch is not opened. -/
theorem not_roundTrips_sampleSteps :
    (∀ step ∈ sampleSteps, step.Sendable .near) ∧
      (Runs.run (apply sampleCipher) (start () fun _ => 0) sampleSteps).Delivered .near ∧
      ¬(Runs.run (apply sampleCipher) (start () fun _ => 0) sampleSteps).RoundTrips .near := by
  have hsteps : ∀ step ∈ sampleSteps, step.Sendable .near := by
    simp [sampleSteps, LinkStep.Sendable]
  have hdelivered :
      (Runs.run (apply sampleCipher) (start () fun _ => 0) sampleSteps).Delivered .near :=
    ⟨rfl, rfl⟩
  refine ⟨hsteps, hdelivered, fun h => ?_⟩
  have hphase := (phase_run lawful_sampleCipher (fun _ => 0) hsteps).1
  have hlength := ((roundTrips_iff_undamaged lawful_sampleCipher hphase hdelivered).mp h).1
  exact absurd hlength (by decide)

end SecureLink

end QuDAG.Network
