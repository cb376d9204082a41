import QuDAG.Network.SecureChannel

/-!
# Back pressure of a connection (`connection.rs`)

A connection counts the bytes that wait in its batch, and refuses messages while there are too many.
A message adds its own length to the count. A batch that leaves takes its whole length off, with the
20 bytes of length and tag of every message. So the count is right until the first batch leaves.

## Main definitions

* `SendQueue` — a connection with the messages that wait in its batch.
* `SendQueue.Faithful` — the count and the batch are those of the waiting messages.
* `SendQueue.FaithfulStep` — the count does not wrap around, and nobody waits too early.
* `SendQueue.NothingLeaves` — no batch leaves with a step.

## Main results

* `SendQueue.faithful_iff_nothingLeaves` — the runs with faithful back pressure.

## Implementation notes

Every step says whether the receiving half of the channel is there, and so whether a batch can be
flushed.
-/

namespace QuDAG.Network

/-! ## The waiting messages -/

/-- A connection, and the messages that it has accepted and not flushed, the oldest first. The
messages are not seen by the connection. -/
structure SendQueue (Key : Type) where
  channels : ConnectionChannels Key
  pending : List (List UInt8)

/-- A call on a connection. `receiving` tells whether a batch can be flushed. -/
inductive QueueStep
  | send (data : List UInt8) (receiving : Bool) (now flushed : Instant)
  | flush (receiving : Bool) (now : Instant)

namespace ConnectionChannels

variable {Key : Type} (A : ChaChaPoly Key)

/-- What a call returns, and the connection after it. -/
def call (c : ConnectionChannels Key) :
    QueueStep → Except ConnectionFault Unit × ConnectionChannels Key
  | .send data receiving now flushed => send A data now flushed { c with receiving := receiving }
  | .flush receiving now => flushBatch now { c with receiving := receiving }

/-- The message that a call has added to the batch, which moves the message counter. -/
def accepted (c : ConnectionChannels Key) : QueueStep → List (List UInt8)
  | .send data receiving now flushed =>
    if (c.call A (.send data receiving now flushed)).2.messageCount = c.messageCount then []
    else [data]
  | .flush _ _ => []

/-- The connection takes a message in. -/
def Accepts (c : ConnectionChannels Key) (data : List UInt8) : Prop :=
  data ≠ [] ∧ data.length ≤ 1024 * 1024 ∧ c.queueSize < c.highWaterMark ∧ c.nonceCounter ≠ 0 ∧
    (A.sealInPlaceAppendTag c.keyCache (nonceOf c.nonceCounter) data).isSome

/-- The bytes of a message in a batch: its length when sealed, and the sealed message. -/
def IsFrame (key : Key) (message frame : List UInt8) : Prop :=
  ∃ nonce encrypted, A.sealInPlaceAppendTag key nonce message = some encrypted ∧
    frame = Framing.beBytes 4 encrypted.length ++ encrypted

/-- A batch holds some messages in their order. -/
def HoldsFrames (key : Key) (messages : List (List UInt8)) (buffer : List UInt8) : Prop :=
  ∃ frames, List.Forall₂ (IsFrame A key) messages frames ∧ buffer = frames.flatten

/-- Sealing adds a tag of 16 bytes. -/
def AppendsTag (key : Key) : Prop :=
  ∀ nonce message encrypted, A.sealInPlaceAppendTag key nonce message = some encrypted →
    encrypted.length = message.length + 16

end ConnectionChannels

namespace SendQueue

open ConnectionChannels (call accepted Accepts HoldsFrames AppendsTag)

variable {Key : Type} (A : ChaChaPoly Key)

/-- A new connection. -/
def start (key : Key) (now : Instant) : SendQueue Key := ⟨ConnectionChannels.new key now, []⟩

/-- Make a call. Nothing waits after a batch was sent into the channel. -/
def apply (queue : SendQueue Key) (step : QueueStep) : SendQueue Key where
  channels := (call A queue.channels step).2
  pending :=
    if (call A queue.channels step).2.tx = queue.channels.tx then
      queue.pending ++ accepted A queue.channels step
    else []

/-- The total size of the waiting messages. -/
def queued (queue : SendQueue Key) : ℕ := (queue.pending.map List.length).sum

/-- The queue size is that of the waiting messages, and the batch buffer holds them in order. -/
structure Faithful (key : Key) (queue : SendQueue Key) : Prop where
  queueSize : queue.channels.queueSize.toNat = queue.queued
  buffer : HoldsFrames A key queue.pending queue.channels.batchBuffer

/-- What a call may do to the queue size. -/
structure FaithfulStep (queue : SendQueue Key) (step : QueueStep) : Prop where
  /-- A call waits for back pressure only when enough bytes wait. -/
  waits : (call A queue.channels step).1 = .error (.connectionError "Back pressure timeout") →
    queue.channels.highWaterMark.toNat ≤ queue.queued
  /-- No more is taken off the queue size than it holds when the batch leaves. -/
  no_wrap : ∀ batch, (call A queue.channels step).2.tx = queue.channels.tx ++ [batch] →
    batch.length ≤ queue.channels.queueSize.toNat +
      ((accepted A queue.channels step).map List.length).sum

/-- No batch leaves with a call: there is none, it is not full and waits for less than the batch
timeout, or the channel is closed. -/
def NothingLeaves (queue : SendQueue Key) : QueueStep → Prop
  | .send data receiving now _ =>
    receiving = false ∨ ¬Accepts A queue.channels data ∨
      queue.channels.batchBuffer.length + (data.length + 20) < queue.channels.batchSize * 1024 ∧
        Instant.elapsed queue.channels.lastBatch now < queue.channels.batchTimeout
  | .flush receiving _ => receiving = false ∨ queue.channels.batchBuffer = []

end SendQueue

/-! ## Batches -/

namespace ConnectionChannels

variable {Key : Type} {A : ChaChaPoly Key} {key : Key}

lemma holdsFrames_nil : HoldsFrames A key [] [] := ⟨[], .nil, rfl⟩

/-- A message goes to the end of a batch. -/
lemma HoldsFrames.concat {messages : List (List UInt8)} {buffer message encrypted : List UInt8}
    {nonce : QuDAG.Vault.Nonce} (h : HoldsFrames A key messages buffer)
    (hsealed : A.sealInPlaceAppendTag key nonce message = some encrypted) :
    HoldsFrames A key (messages ++ [message])
      (buffer ++ (Framing.beBytes 4 encrypted.length ++ encrypted)) := by
  obtain ⟨frames, hframes, rfl⟩ := h
  refine ⟨frames ++ [Framing.beBytes 4 encrypted.length ++ encrypted], ?_, ?_⟩
  · exact List.rel_append hframes (.cons ⟨nonce, encrypted, hsealed, rfl⟩ .nil)
  · rw [List.flatten_append, List.flatten_singleton]

/-- A batch has 20 bytes more than the messages in it, for each of them. -/
lemma HoldsFrames.length_eq (hA : AppendsTag A key) {messages : List (List UInt8)}
    {buffer : List UInt8} (h : HoldsFrames A key messages buffer) :
    buffer.length = (messages.map List.length).sum + 20 * messages.length := by
  obtain ⟨frames, hframes, rfl⟩ := h
  induction hframes with
  | nil => rfl
  | @cons message frame messages frames hframe _ ih =>
    obtain ⟨nonce, encrypted, hsealed, rfl⟩ := hframe
    have hencrypted := hA nonce message encrypted hsealed
    simp only [List.flatten_cons, List.length_append, Framing.length_beBytes, ih, List.map_cons,
      List.sum_cons, List.length_cons]
    omega

/-! ## Calls -/

/-- Flushing does nothing to the messages that a closed channel keeps back. -/
lemma flushBatch_of_not_receiving {c : ConnectionChannels Key} (h : c.receiving = false)
    (now : Instant) : (c.flushBatch now).2 = c := by
  unfold flushBatch
  split_ifs with hnil hreceiving
  · rfl
  · exact absurd (h.symm.trans hreceiving) (by simp)
  · rfl

/-- A batch is sent into a channel that is not closed. -/
lemma flushBatch_of_receiving {c : ConnectionChannels Key} (h : c.receiving = true)
    (hne : c.batchBuffer ≠ []) (now : Instant) :
    (c.flushBatch now).2.tx = c.tx ++ [c.batchBuffer] ∧
      (c.flushBatch now).2.messageCount = c.messageCount := by
  rw [flushBatch, if_neg hne, if_pos h]
  exact ⟨rfl, rfl⟩

/-- A message that is not taken in changes at most the nonce counter. -/
lemma send_of_not_accepts {c : ConnectionChannels Key} {data : List UInt8}
    (h : ¬c.Accepts A data) (now flushed : Instant) :
    ∃ counter, (c.send A data now flushed).2 = { c with nonceCounter := counter } := by
  unfold send
  split_ifs with hempty hlarge hfull hoverflow
  · exact ⟨c.nonceCounter, rfl⟩
  · exact ⟨c.nonceCounter, rfl⟩
  · exact ⟨c.nonceCounter, rfl⟩
  · exact ⟨c.nonceCounter + 1, rfl⟩
  · cases hsealed : A.sealInPlaceAppendTag c.keyCache (nonceOf c.nonceCounter) data with
    | none => exact ⟨c.nonceCounter + 1, rfl⟩
    | some encrypted =>
      exact absurd ⟨hempty, Nat.not_lt.mp hlarge, UInt64.not_le.mp hfull, hoverflow,
        hsealed ▸ rfl⟩ h

/-- A message that is taken in is put into the batch, which leaves when it is full or too old. -/
lemma send_of_accepts {c : ConnectionChannels Key} {data : List UInt8} (h : c.Accepts A data)
    (now flushed : Instant) :
    ∃ encrypted, A.sealInPlaceAppendTag c.keyCache (nonceOf c.nonceCounter) data = some encrypted ∧
      c.send A data now flushed =
        let queued := enqueue data encrypted { c with nonceCounter := c.nonceCounter + 1 }
        if queued.batchSize * 1024 ≤ queued.batchBuffer.length ∨
            queued.batchTimeout ≤ Instant.elapsed queued.lastBatch now then
          queued.flushBatch flushed
        else (.ok (), queued) := by
  obtain ⟨hempty, hlarge, hfull, hoverflow, hsome⟩ := h
  obtain ⟨encrypted, hsealed⟩ := Option.isSome_iff_exists.mp hsome
  refine ⟨encrypted, hsealed, ?_⟩
  rw [send, if_neg hempty, if_neg (Nat.not_lt.mpr hlarge), if_neg (UInt64.not_le.mpr hfull)]
  simp only [if_neg hoverflow, hsealed]

/-- A message waits for back pressure only when the queue size says so. -/
lemma le_of_send_timeout {c : ConnectionChannels Key} {data : List UInt8} {now flushed : Instant}
    (h : (c.send A data now flushed).1 = .error (.connectionError "Back pressure timeout")) :
    c.highWaterMark ≤ c.queueSize := by
  by_contra hbelow
  have hflush (c' : ConnectionChannels Key) :
      (c'.flushBatch flushed).1 ≠ .error (.connectionError "Back pressure timeout") := by
    unfold flushBatch
    split_ifs <;> simp
  unfold send at h
  split_ifs at h with hempty hlarge
  · simp at h
  · simp at h
  · simp at h
  · cases hsealed : A.sealInPlaceAppendTag c.keyCache (nonceOf c.nonceCounter) data with
    | none => simp [hsealed] at h
    | some encrypted =>
      rw [hsealed] at h
      dsimp only at h
      split_ifs at h
      exact hflush _ h

end ConnectionChannels

/-! ## The queue size -/

namespace SendQueue

open ConnectionChannels (call accepted Accepts HoldsFrames AppendsTag enqueue flushBatch send
  send_of_accepts send_of_not_accepts flushBatch_of_receiving flushBatch_of_not_receiving)

variable {Key : Type} {A : ChaChaPoly Key} {key : Key}

/-- The queue size is right, and far from the bound of its type. -/
structure Intact (A : ChaChaPoly Key) (key : Key) (queue : SendQueue Key) : Prop extends
    Faithful A key queue where
  keyCache : queue.channels.keyCache = key
  highWaterMark : queue.channels.highWaterMark = 64 * 1024 * 1024
  queued_le : queue.queued ≤ 65 * 1024 * 1024

lemma intact_start (now : Instant) : Intact A key (start key now) where
  queueSize := rfl
  buffer := ConnectionChannels.holdsFrames_nil
  keyCache := rfl
  highWaterMark := rfl
  queued_le := Nat.zero_le _

/-- A call that leaves everything but the nonce counter and the channel as it is. -/
lemma Intact.of_unchanged {queue : SendQueue Key} (h : Intact A key queue) (receiving : Bool)
    (counter : UInt64) :
    Intact A key
      ⟨{ queue.channels with receiving := receiving, nonceCounter := counter }, queue.pending⟩ :=
  ⟨⟨h.queueSize, h.buffer⟩, h.keyCache, h.highWaterMark, h.queued_le⟩

/-- A message that is taken in is counted. -/
lemma Intact.enqueue {queue : SendQueue Key} (h : Intact A key queue) {data encrypted : List UInt8}
    (haccepts : queue.channels.Accepts A data)
    (hsealed : A.sealInPlaceAppendTag queue.channels.keyCache
      (ConnectionChannels.nonceOf queue.channels.nonceCounter) data = some encrypted)
    (receiving : Bool) (counter : UInt64) :
    Intact A key
      ⟨ConnectionChannels.enqueue data encrypted
        { queue.channels with receiving := receiving, nonceCounter := counter },
        queue.pending ++ [data]⟩ := by
  obtain ⟨-, hlarge, hfull, -, -⟩ := haccepts
  have hqueued : queued ⟨ConnectionChannels.enqueue data encrypted
      { queue.channels with receiving := receiving, nonceCounter := counter },
        queue.pending ++ [data]⟩ = queue.queued + data.length := by
    simp [queued]
  have hmark : (64 * 1024 * 1024 : UInt64).toNat = 64 * 1024 * 1024 := rfl
  have hbelow : queue.queued < 64 * 1024 * 1024 := by
    rwa [h.highWaterMark, UInt64.lt_iff_toNat_lt, h.queueSize, hmark] at hfull
  have hdata : (UInt64.ofNat data.length).toNat = data.length :=
    UInt64.toNat_ofNat_of_lt' (by
      simp only [UInt64.size]
      omega)
  refine ⟨⟨?_, h.buffer.concat (h.keyCache ▸ hsealed)⟩, h.keyCache, h.highWaterMark, by omega⟩
  rw [hqueued]
  change (queue.channels.queueSize + UInt64.ofNat data.length).toNat = _
  rw [UInt64.toNat_add, h.queueSize, hdata, Nat.mod_eq_of_lt (by omega)]

/-- While the queue size is right, nobody waits for back pressure too early. -/
lemma Faithful.waits {queue : SendQueue Key} (h : Faithful A key queue) (step : QueueStep)
    (htimeout : (call A queue.channels step).1 =
      .error (.connectionError "Back pressure timeout")) :
    queue.channels.highWaterMark.toNat ≤ queue.queued := by
  cases step with
  | send data receiving now flushed =>
    have hle := ConnectionChannels.le_of_send_timeout htimeout
    rwa [UInt64.le_iff_toNat_le, h.queueSize] at hle
  | flush receiving now =>
    exfalso
    unfold call flushBatch at htimeout
    dsimp only at htimeout
    split_ifs at htimeout
    simp at htimeout

/-- A call with which no batch leaves. -/
lemma faithfulStep_of_tx_eq {queue : SendQueue Key} (h : Faithful A key queue) {step : QueueStep}
    (htx : (call A queue.channels step).2.tx = queue.channels.tx) : FaithfulStep A queue step where
  waits := h.waits step
  no_wrap batch hbatch := by
    rw [htx] at hbatch
    simp at hbatch

/-- A batch that leaves takes more off the queue size than it holds. -/
lemma not_faithfulStep_of_leaves (hA : AppendsTag A key) {queue : SendQueue Key}
    {step : QueueStep} {batch : List UInt8} {messages : List (List UInt8)}
    (hqueue : Faithful A key queue)
    (htx : (call A queue.channels step).2.tx = queue.channels.tx ++ [batch])
    (hmessages : messages = queue.pending ++ accepted A queue.channels step)
    (hholds : HoldsFrames A key messages batch) (hne : messages ≠ []) :
    ¬FaithfulStep A queue step := by
  intro h
  have hle := h.no_wrap batch htx
  have hpos := List.length_pos_iff.mpr hne
  rw [hholds.length_eq hA, hqueue.queueSize, queued] at hle
  have hsum : (messages.map List.length).sum = (queue.pending.map List.length).sum +
      ((accepted A queue.channels step).map List.length).sum := by
    rw [hmessages, List.map_append, List.sum_append]
  omega

/-- A flush is as it should be iff nothing leaves. -/
lemma faithful_flush (hA : AppendsTag A key) {queue : SendQueue Key} (h : Intact A key queue)
    (receiving : Bool) (now : Instant) :
    (NothingLeaves A queue (.flush receiving now) →
        Intact A key (apply A queue (.flush receiving now)) ∧
          FaithfulStep A queue (.flush receiving now)) ∧
      (FaithfulStep A queue (.flush receiving now) →
        NothingLeaves A queue (.flush receiving now)) := by
  constructor
  · intro hnothing
    have hcall : (call A queue.channels (.flush receiving now)).2 =
        { queue.channels with receiving := receiving } := by
      rcases hnothing with rfl | hempty
      · exact flushBatch_of_not_receiving rfl now
      · exact congrArg Prod.snd (if_pos hempty)
    have htx : (call A queue.channels (.flush receiving now)).2.tx = queue.channels.tx := by
      rw [hcall]
    refine ⟨?_, faithfulStep_of_tx_eq h.toFaithful htx⟩
    rw [apply, if_pos htx, hcall, accepted, List.append_nil]
    exact h.of_unchanged receiving queue.channels.nonceCounter
  · intro hstep
    by_contra hleaves
    obtain ⟨hreceiving, hne⟩ := not_or.mp hleaves
    have htrue : receiving = true := by simpa using hreceiving
    have htx : (call A queue.channels (.flush receiving now)).2.tx =
        queue.channels.tx ++ [queue.channels.batchBuffer] := by
      subst htrue
      exact (@flushBatch_of_receiving _ { queue.channels with receiving := true } rfl hne now).1
    refine not_faithfulStep_of_leaves hA h.toFaithful htx rfl (by
      rw [accepted, List.append_nil]
      exact h.buffer) ?_ hstep
    rw [accepted, List.append_nil]
    rintro hpending
    obtain ⟨frames, hframes, hbuffer⟩ := h.buffer
    rw [hpending, List.forall₂_nil_left_iff] at hframes
    exact hne (by rw [hbuffer, hframes, List.flatten_nil])

/-- Sending a message is as it should be iff nothing leaves. -/
lemma faithful_send (hA : AppendsTag A key) {queue : SendQueue Key} (h : Intact A key queue)
    (data : List UInt8) (receiving : Bool) (now flushed : Instant) :
    (NothingLeaves A queue (.send data receiving now flushed) →
        Intact A key (apply A queue (.send data receiving now flushed)) ∧
          FaithfulStep A queue (.send data receiving now flushed)) ∧
      (FaithfulStep A queue (.send data receiving now flushed) →
        NothingLeaves A queue (.send data receiving now flushed)) := by
  by_cases haccepts : queue.channels.Accepts A data
  · have haccepts' : Accepts A { queue.channels with receiving := receiving } data := haccepts
    obtain ⟨encrypted, hsealed, hsend⟩ := send_of_accepts haccepts' now flushed
    have hencrypted : encrypted.length = data.length + 16 := by
      have hsealed' := hsealed
      rw [h.keyCache] at hsealed'
      exact hA _ _ _ hsealed'
    have hlength : (queue.channels.batchBuffer ++
        (Framing.beBytes 4 encrypted.length ++ encrypted)).length =
          queue.channels.batchBuffer.length + (data.length + 20) := by
      rw [List.length_append, List.length_append, Framing.length_beBytes,
        hencrypted]
      omega
    have hmoved : queue.channels.messageCount + 1 ≠ queue.channels.messageCount := by
      simp
    have hintact := h.enqueue haccepts hsealed receiving (queue.channels.nonceCounter + 1)
    constructor
    · intro hnothing
      have hcall : (call A queue.channels (.send data receiving now flushed)).2 =
          enqueue data encrypted { queue.channels with
            receiving := receiving, nonceCounter := queue.channels.nonceCounter + 1 } := by
        rw [call, hsend]
        dsimp only
        split_ifs with hfull
        · rcases hnothing with rfl | hnot | ⟨hshort, hearly⟩
          · exact flushBatch_of_not_receiving rfl flushed
          · exact absurd haccepts hnot
          · rcases hfull with hfull | hfull
            · exact absurd hfull (Nat.not_le.mpr (hlength.trans_lt hshort))
            · exact absurd hfull (Nat.not_le.mpr hearly)
        · rfl
      have htx : (call A queue.channels (.send data receiving now flushed)).2.tx =
          queue.channels.tx := by
        rw [hcall]
        rfl
      have haccepted : accepted A queue.channels (.send data receiving now flushed) = [data] := by
        rw [accepted, hcall]
        exact if_neg hmoved
      refine ⟨?_, faithfulStep_of_tx_eq h.toFaithful htx⟩
      rw [apply, if_pos htx, hcall, haccepted]
      exact hintact
    · intro hstep
      by_contra hleaves
      obtain ⟨hreceiving, hrest⟩ := not_or.mp hleaves
      have hlate := (not_or.mp hrest).2
      have htrue : receiving = true := by simpa using hreceiving
      subst htrue
      have hfull : queue.channels.batchSize * 1024 ≤ (queue.channels.batchBuffer ++
          (Framing.beBytes 4 encrypted.length ++ encrypted)).length ∨
            queue.channels.batchTimeout ≤ Instant.elapsed queue.channels.lastBatch now := by
        rw [hlength]
        by_contra hnot
        obtain ⟨hshort, hearly⟩ := not_or.mp hnot
        exact hlate ⟨Nat.not_le.mp hshort, Nat.not_le.mp hearly⟩
      have hcall : (call A queue.channels (.send data true now flushed)).2 =
          (flushBatch flushed (enqueue data encrypted { queue.channels with
            receiving := true, nonceCounter := queue.channels.nonceCounter + 1 })).2 := by
        rw [call, hsend]
        exact congrArg Prod.snd (if_pos hfull)
      have hne : queue.channels.batchBuffer ++
          (Framing.beBytes 4 encrypted.length ++ encrypted) ≠ [] := by
        intro hnil
        rw [hnil, List.length_nil] at hlength
        omega
      obtain ⟨htx, hcount⟩ := @flushBatch_of_receiving _ (enqueue data encrypted
        { queue.channels with
          receiving := true, nonceCounter := queue.channels.nonceCounter + 1 }) rfl hne flushed
      have haccepted : accepted A queue.channels (.send data true now flushed) = [data] := by
        rw [accepted, hcall, hcount]
        exact if_neg hmoved
      refine not_faithfulStep_of_leaves hA h.toFaithful (by rw [hcall, htx]; rfl) rfl ?_ ?_ hstep
      · rw [haccepted]
        exact hintact.buffer
      · rw [haccepted]
        simp
  · have haccepts' : ¬Accepts A { queue.channels with receiving := receiving } data := haccepts
    obtain ⟨counter, hsend⟩ := send_of_not_accepts haccepts' now flushed
    have hcall : (call A queue.channels (.send data receiving now flushed)).2 =
        { queue.channels with receiving := receiving, nonceCounter := counter } := hsend
    have htx : (call A queue.channels (.send data receiving now flushed)).2.tx =
        queue.channels.tx := by
      rw [hcall]
    have haccepted : accepted A queue.channels (.send data receiving now flushed) = [] := by
      rw [accepted, hcall, if_pos rfl]
    refine ⟨fun _ => ⟨?_, faithfulStep_of_tx_eq h.toFaithful htx⟩, fun _ => .inr (.inl haccepts)⟩
    rw [apply, if_pos htx, hcall, haccepted, List.append_nil]
    exact h.of_unchanged receiving counter

/-- **A call is as it should be iff no batch leaves with it.** -/
lemma faithful_step (hA : AppendsTag A key) (queue : SendQueue Key) (step : QueueStep)
    (h : Intact A key queue) :
    (NothingLeaves A queue step → Intact A key (apply A queue step) ∧ FaithfulStep A queue step) ∧
      (FaithfulStep A queue step → NothingLeaves A queue step) := by
  cases step with
  | send data receiving now flushed => exact faithful_send hA h data receiving now flushed
  | flush receiving now => exact faithful_flush hA h receiving now

/-- **Back pressure is faithful in the runs in which nothing leaves**: over a run from a new
connection, the queue size and the batch are those of the waiting messages, never wrap around and
make nobody wait too early iff no batch is ever flushed. -/
theorem faithful_iff_nothingLeaves (hA : AppendsTag A key) (now : Instant)
    (steps : List QueueStep) :
    (Runs.Always (apply A) (Faithful A key) (start key now) steps ∧
        Runs.Steps (apply A) (FaithfulStep A) (start key now) steps) ↔
      Runs.Steps (apply A) (NothingLeaves A) (start key now) steps := by
  have hiff : Runs.Steps (apply A) (FaithfulStep A) (start key now) steps ↔
      Runs.Steps (apply A) (NothingLeaves A) (start key now) steps := by
    refine Runs.steps_iff_steps (Intact A key) (fun queue step h => ?_)
      (fun queue step h hnothing => ((faithful_step hA queue step h).1 hnothing).1)
      (intact_start now)
    exact ⟨(faithful_step hA queue step h).2, fun hnothing =>
      ((faithful_step hA queue step h).1 hnothing).2⟩
  refine ⟨fun h => hiff.mp h.2, fun h => ⟨?_, hiff.mpr h⟩⟩
  have hintact : Runs.Always (apply A) (Intact A key) (start key now) steps :=
    Runs.always_rule (Intact A key)
      (fun queue step hqueue hnothing => ((faithful_step hA queue step hqueue).1 hnothing).1) h
      (intact_start now)
  exact hintact.imp fun _ hqueue => hqueue.toFaithful

/-! ## A batch that leaves -/

lemma appendsTag_sampleCipher : AppendsTag SecureLink.sampleCipher () := by
  rintro nonce message _ ⟨⟩
  simp [nonce.length_eq]

theorem faithful_iff_nothingLeaves_sample :
    (Runs.Always (apply SecureLink.sampleCipher) (Faithful SecureLink.sampleCipher ()) (start () 0)
          [.send [1] false 0 0, .flush false 1] ∧
        Runs.Steps (apply SecureLink.sampleCipher) (FaithfulStep SecureLink.sampleCipher)
          (start () 0) [.send [1] false 0 0, .flush false 1]) ↔
      Runs.Steps (apply SecureLink.sampleCipher) (NothingLeaves SecureLink.sampleCipher)
        (start () 0) [.send [1] false 0 0, .flush false 1] :=
  faithful_iff_nothingLeaves appendsTag_sampleCipher 0 _

/-- The flush of one message of one byte takes 21 bytes off the queue size, which wraps around. -/
theorem not_faithful_flushed :
    ¬(Runs.Always (apply SecureLink.sampleCipher) (Faithful SecureLink.sampleCipher ())
          (start () 0) [.send [1] true 0 0, .flush true 1] ∧
        Runs.Steps (apply SecureLink.sampleCipher) (FaithfulStep SecureLink.sampleCipher)
          (start () 0) [.send [1] true 0 0, .flush true 1]) := by
  rintro ⟨hall, -⟩
  have hend := Runs.always_iff.mp hall _ (List.prefix_refl _)
  exact absurd hend.queueSize (by decide)

end SendQueue

end QuDAG.Network
