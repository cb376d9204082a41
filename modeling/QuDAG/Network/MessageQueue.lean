import Mathlib.Tactic.IntervalCases
import QuDAG.Dag.StorageGraph
import QuDAG.Lib.PriorityFifo
import QuDAG.Network.Router

/-!
# The message queue (`message.rs`)

Messages are queued by priority: the oldest message of the highest priority is taken first. Messages
that are too old are purged. A message is too old when its timestamp and its time to live, added as
64-bit numbers, are not after the current time. For a long time to live this addition overflows.

## Main definitions

* `MessageEnvelope` — a message with its hash and its timestamp.
* `MessageQueue`, with `enqueue`, `dequeue`, `len` and `purgeExpired`.
* `QueueRun` — a queue, and the ledger of its messages.
* `QueueRun.Lawful` — over a run, messages leave the queue in order and by their age.
* `QueueRun.InRange` — no queued message lives too long.

## Main results

* `QueueRun.lawful_iff` — the runs that are lawful.

## Implementation notes

A system time is the number of whole seconds since the Unix epoch. The queue has no obfuscator. Its
locks are held for as long as a call needs them, so calls are atomic. `bincode` does not fail on a
message. What a panic in `retain` leaves of the queue is not modelled: here the queue stays as it
is.
-/

namespace QuDAG.Network

open RustStd

/-! ## Messages -/

/-- Message priority levels. -/
inductive MessagePriority
  /-- High priority messages. -/
  | high
  /-- Normal priority messages. -/
  | normal
  /-- Low priority messages. -/
  | low
  deriving DecidableEq, Repr

/-- The position of a priority. -/
def MessagePriority.index : MessagePriority → ℕ
  | .high => 0
  | .normal => 1
  | .low => 2

/-- A network message as it is queued. -/
structure QueuedMessage extends NetworkMessage where
  /-- Message identifier. -/
  id : String
  /-- Message priority. -/
  priority : MessagePriority
  /-- Time to live. -/
  ttl : Duration
  /-- Its seconds are a 64-bit number. -/
  ttl_lt : ttl < 2 ^ 64 * 10 ^ 9

namespace QueuedMessage

/-- The whole seconds of the time to live. -/
def ttlSecs (msg : QueuedMessage) : UInt64 := UInt64.ofNat (msg.ttl / 10 ^ 9)

/-- The bytes of a message. -/
def serialize (msg : QueuedMessage) : List UInt8 :=
  Codec.string.encode msg.id ++ Codec.byteVec.encode msg.source ++
    Codec.byteVec.encode msg.destination ++ Codec.byteVec.encode msg.payload ++
    (Codec.word 4).encode msg.priority.index ++ Codec.u64.encode msg.ttlSecs ++
    Codec.u32.encode (UInt32.ofNat (msg.ttl % 10 ^ 9))

end QueuedMessage

/-- A time: whole seconds since the Unix epoch, negative before it. -/
abbrev SystemTime : Type := Int64

/-- The seconds since the Unix epoch, if it is not before it. -/
def SystemTime.sinceEpoch (now : SystemTime) : Option UInt64 :=
  if now < 0 then none else some now.toUInt64

/-- What is hashed for a message. -/
abbrev Blake3 : Type := List UInt8 → SerializableHash

/-- A message with its hash and its timestamp. -/
structure MessageEnvelope where
  /-- The actual message. -/
  message : QueuedMessage
  /-- Message hash for integrity. -/
  hash : SerializableHash
  /-- Timestamp. -/
  timestamp : UInt64
  /-- Signature. -/
  signature : Option (List UInt8)

namespace MessageEnvelope

/-- A message with its hash. The timestamp is 0 before the Unix epoch. -/
def new (blake3 : Blake3) (now : SystemTime) (message : QueuedMessage) : MessageEnvelope :=
  let timestamp := now.sinceEpoch.getD 0
  { message
    hash := blake3 (message.serialize ++ Codec.u64.encode timestamp)
    timestamp
    signature := none }

/-- The hash is that of the message and the timestamp. -/
def verify (blake3 : Blake3) (self : MessageEnvelope) : Bool :=
  self.hash = blake3 (self.message.serialize ++ Codec.u64.encode self.timestamp)

@[simp] lemma verify_new (blake3 : Blake3) (now : SystemTime) (message : QueuedMessage) :
    (new blake3 now message).verify blake3 = true := decide_eq_true rfl

@[simp] lemma message_new (blake3 : Blake3) (now : SystemTime) (message : QueuedMessage) :
    (new blake3 now message).message = message := rfl

/-- Whether a message is kept. In a build with overflow checks the addition may panic. -/
def unexpired (checks : Bool) (now : UInt64) (self : MessageEnvelope) : Option Bool :=
  (addU64 checks self.message.ttlSecs self.timestamp).map fun expiry => now < expiry

/-- The second up to which a message is kept. -/
def expiry (self : MessageEnvelope) : ℕ := self.timestamp.toNat + self.message.ttlSecs.toNat

/-- The position of its priority. -/
def rank (self : MessageEnvelope) : ℕ := self.message.priority.index

end MessageEnvelope

/-! ## The queue -/

/-- The queues, and the channel for notifications. -/
structure MessageQueue where
  /-- High priority message queue. -/
  highPriority : List MessageEnvelope
  /-- Normal priority message queue. -/
  normalPriority : List MessageEnvelope
  /-- Low priority message queue. -/
  lowPriority : List MessageEnvelope
  /-- How many notifications were sent and not received, those that wait for a place in the channel
  included. There is none if the receiver is gone. -/
  notify : Option ℕ

/-- Errors of the queue. -/
inductive QueueError
  | internal (reason : String)
  deriving DecidableEq, Repr

/-- Keep the messages that pass a test. The test may panic. -/
def retain (keep : MessageEnvelope → Option Bool) (queue : List MessageEnvelope) :
    Option (List MessageEnvelope) :=
  match queue with
  | [] => some []
  | envelope :: queue =>
    (keep envelope).bind fun kept =>
      (retain keep queue).map fun queue => if kept then envelope :: queue else queue

namespace MessageQueue

/-- An empty queue, with a receiver of notifications. -/
def new : MessageQueue := ⟨[], [], [], some 0⟩

/-- Put an envelope at the end of the queue of its priority. -/
def pushBack (envelope : MessageEnvelope) (self : MessageQueue) : MessageQueue :=
  match envelope.message.priority with
  | .high => { self with highPriority := self.highPriority ++ [envelope] }
  | .normal => { self with normalPriority := self.normalPriority ++ [envelope] }
  | .low => { self with lowPriority := self.lowPriority ++ [envelope] }

/-- Enqueue a message with its priority. There is no result while the notification waits for a place
in the channel. -/
def enqueue (blake3 : Blake3) (now : SystemTime) (msg : QueuedMessage) (self : MessageQueue) :
    Option (Except QueueError Unit) × MessageQueue :=
  let envelope := MessageEnvelope.new blake3 now msg
  if envelope.verify blake3 then
    let queued := self.pushBack envelope
    match self.notify with
    | none => (some (.ok ()), queued)
    | some sent =>
      (if sent < 1000 then some (.ok ()) else none, { queued with notify := some (sent + 1) })
  else (some (.error (.internal "Message integrity check failed")), self)

/-- Dequeue the next message by priority. -/
def dequeue (self : MessageQueue) : Option MessageEnvelope × MessageQueue :=
  match self.highPriority with
  | msg :: highPriority => (some msg, { self with highPriority })
  | [] =>
    match self.normalPriority with
    | msg :: normalPriority => (some msg, { self with normalPriority })
    | [] =>
      match self.lowPriority with
      | msg :: lowPriority => (some msg, { self with lowPriority })
      | [] => (none, self)

/-- The total number of queued messages. -/
def len (self : MessageQueue) : ℕ :=
  self.highPriority.length + self.normalPriority.length + self.lowPriority.length

/-- Purge expired messages. It panics before the Unix epoch, and where an addition does. -/
def purgeExpired (checks : Bool) (now : SystemTime) (self : MessageQueue) :
    Option MessageQueue := do
  let now ← now.sinceEpoch
  let highPriority ← retain (MessageEnvelope.unexpired checks now) self.highPriority
  let normalPriority ← retain (MessageEnvelope.unexpired checks now) self.normalPriority
  let lowPriority ← retain (MessageEnvelope.unexpired checks now) self.lowPriority
  return { self with highPriority, normalPriority, lowPriority }

/-- All queued messages. -/
def messages (self : MessageQueue) : List MessageEnvelope :=
  self.highPriority ++ self.normalPriority ++ self.lowPriority

end MessageQueue

/-! ## Runs -/

/-- A queue over a run, with the ledger of its messages. -/
structure QueueRun where
  queue : MessageQueue
  ledger : PriorityFifo.Ledger MessageEnvelope

/-- Calls, and what the owner of the receiver does. -/
inductive QueueCall
  | enqueue (now : SystemTime) (msg : QueuedMessage)
  | dequeue
  | purgeExpired (now : SystemTime)
  | receive
  | closeReceiver

namespace QueueRun

variable (blake3 : Blake3) (checks : Bool)

/-- A new queue. -/
def start : QueueRun := ⟨.new, .empty⟩

/-- Make a call. The ledger is kept as it should be: the next message is served by priority, and
those that have expired by the clock are removed. -/
def apply (s : QueueRun) : QueueCall → QueueRun
  | .enqueue now msg =>
    ⟨(s.queue.enqueue blake3 now msg).2, s.ledger.arrive (.new blake3 now msg)⟩
  | .dequeue => ⟨s.queue.dequeue.2, s.ledger.serve MessageEnvelope.rank⟩
  | .purgeExpired now =>
    ⟨(s.queue.purgeExpired checks now).getD s.queue,
      s.ledger.retain fun envelope => now.toInt < envelope.expiry⟩
  | .receive => ⟨{ s.queue with notify := s.queue.notify.map (· - 1) }, s.ledger⟩
  | .closeReceiver => ⟨{ s.queue with notify := none }, s.ledger⟩

/-- The queue of a priority holds the messages of that priority that wait. -/
structure Holds (s : QueueRun) : Prop where
  high : s.queue.highPriority =
    PriorityFifo.queue MessageEnvelope.rank 0 s.ledger.contents
  normal : s.queue.normalPriority =
    PriorityFifo.queue MessageEnvelope.rank 1 s.ledger.contents
  low : s.queue.lowPriority =
    PriorityFifo.queue MessageEnvelope.rank 2 s.ledger.contents

/-- A message that is taken is the oldest of the highest priority. A purge returns, and no addition
overflows. -/
def Answers (s : QueueRun) : QueueCall → Prop
  | .dequeue =>
    s.queue.dequeue.1 =
      (PriorityFifo.serve MessageEnvelope.rank s.ledger.contents).1
  | .purgeExpired now =>
    (s.queue.purgeExpired checks now).isSome ∧
      ∀ envelope ∈ s.queue.messages, envelope.expiry < 2 ^ 64
  | _ => True

/-- Over the run every message is waiting, was taken once, or was removed when it expired; those
that wait are queued; and calls answer as they should. -/
structure Lawful (calls : List QueueCall) : Prop where
  holds : Runs.Always (apply blake3 checks) (fun s => s.Holds ∧ s.ledger.Balanced) start calls
  answers : Runs.Steps (apply blake3 checks) (Answers checks) start calls

/-- When messages are purged the clock is not before the Unix epoch, and no queued message has a
time to live that reaches second 2 ^ 64. -/
def InRange (s : QueueRun) : QueueCall → Prop
  | .purgeExpired now =>
    0 ≤ now ∧ ∀ envelope ∈ s.queue.messages,
      envelope.message.ttlSecs.toNat < 2 ^ 64 - envelope.timestamp.toNat
  | _ => True

/-! ## Enqueuing and dequeuing -/

/-- Enqueuing always puts the message at the end of its queue. -/
lemma enqueue_snd (now : SystemTime) (msg : QueuedMessage) (q : MessageQueue) :
    ∃ notify, (q.enqueue blake3 now msg).2 =
      { q.pushBack (.new blake3 now msg) with notify } := by
  simp only [MessageQueue.enqueue, MessageEnvelope.verify_new, if_true]
  cases q.notify with
  | none => exact ⟨_, rfl⟩
  | some sent => exact ⟨_, rfl⟩

variable {blake3 checks} {s : QueueRun}

/-- A message that is enqueued waits in the queue of its priority. -/
lemma holds_enqueue (h : s.Holds) (now : SystemTime) (msg : QueuedMessage) :
    (s.apply blake3 checks (.enqueue now msg)).Holds := by
  obtain ⟨hhigh, hnormal, hlow⟩ := h
  obtain ⟨notify, henqueue⟩ := enqueue_snd blake3 now msg s.queue
  simp only [apply, henqueue]
  constructor <;>
    rw [PriorityFifo.Ledger.contents_arrive, PriorityFifo.queue_append] <;>
    cases hpriority : msg.priority <;>
    simp [MessageQueue.pushBack, PriorityFifo.queue, MessageEnvelope.rank, hpriority,
      MessagePriority.index, hhigh, hnormal, hlow]

/-- A message is in one of three queues. -/
lemma rank_lt (envelope : MessageEnvelope) : envelope.rank < 3 := by
  unfold MessageEnvelope.rank
  cases envelope.message.priority <;> decide

/-- The first message of the first queue that is not empty is dequeued. -/
lemma dequeue_cases (q : MessageQueue) :
    (∃ msg rest, q.highPriority = msg :: rest ∧
      q.dequeue = (some msg, { q with highPriority := rest })) ∨
    (q.highPriority = [] ∧ ∃ msg rest, q.normalPriority = msg :: rest ∧
      q.dequeue = (some msg, { q with normalPriority := rest })) ∨
    (q.highPriority = [] ∧ q.normalPriority = [] ∧ ∃ msg rest, q.lowPriority = msg :: rest ∧
      q.dequeue = (some msg, { q with lowPriority := rest })) ∨
    (q.highPriority = [] ∧ q.normalPriority = [] ∧ q.lowPriority = [] ∧
      q.dequeue = (none, q)) := by
  obtain ⟨high, normal, low, notify⟩ := q
  cases high with
  | cons msg rest => exact .inl ⟨msg, rest, rfl, rfl⟩
  | nil =>
    cases normal with
    | cons msg rest => exact .inr (.inl ⟨rfl, msg, rest, rfl, rfl⟩)
    | nil =>
      cases low with
      | cons msg rest => exact .inr (.inr (.inl ⟨rfl, rfl, msg, rest, rfl, rfl⟩))
      | nil => exact .inr (.inr (.inr ⟨rfl, rfl, rfl, rfl⟩))

/-- If the queues are empty then no message waits. -/
lemma contents_eq_nil (h : s.Holds) (hhigh : s.queue.highPriority = [])
    (hnormal : s.queue.normalPriority = []) (hlow : s.queue.lowPriority = []) :
    s.ledger.contents = [] := by
  refine List.eq_nil_iff_forall_not_mem.mpr fun envelope henvelope => ?_
  have hmem : envelope ∈
      PriorityFifo.queue MessageEnvelope.rank envelope.rank s.ledger.contents := by
    simpa [PriorityFifo.queue] using henvelope
  have hrank := rank_lt envelope
  interval_cases envelope.rank
  · rw [← h.high, hhigh] at hmem
    cases hmem
  · rw [← h.normal, hnormal] at hmem
    cases hmem
  · rw [← h.low, hlow] at hmem
    cases hmem

/-- **What is dequeued** is the oldest message of the highest priority, and the queues then hold
those that are left. -/
lemma holds_dequeue (h : s.Holds) :
    (s.apply blake3 checks .dequeue).Holds ∧ s.Answers checks .dequeue := by
  obtain ⟨hhigh, hnormal, hlow⟩ := h
  simp only [apply, Answers]
  rcases dequeue_cases s.queue with ⟨msg, rest, hq, hdequeue⟩ | ⟨hnil, msg, rest, hq, hdequeue⟩ |
    ⟨hnil, hnil', msg, rest, hq, hdequeue⟩ | ⟨hnil, hnil', hnil'', hdequeue⟩ <;> rw [hdequeue]
  · obtain ⟨hmsg, hrest, hothers⟩ := PriorityFifo.serve_of_queue (by simp) (hhigh.symm.trans hq)
    refine ⟨⟨?_, ?_, ?_⟩, hmsg.symm⟩ <;> rw [PriorityFifo.Ledger.contents_serve]
    · exact hrest.symm
    · exact hnormal.trans (hothers 1 (by decide)).symm
    · exact hlow.trans (hothers 2 (by decide)).symm
  · have hlower : ∀ r < 1, PriorityFifo.queue MessageEnvelope.rank r s.ledger.contents = [] := by
      intro r hr
      interval_cases r
      exact hhigh.symm.trans hnil
    obtain ⟨hmsg, hrest, hothers⟩ := PriorityFifo.serve_of_queue hlower (hnormal.symm.trans hq)
    refine ⟨⟨?_, ?_, ?_⟩, hmsg.symm⟩ <;> rw [PriorityFifo.Ledger.contents_serve]
    · exact hhigh.trans (hothers 0 (by decide)).symm
    · exact hrest.symm
    · exact hlow.trans (hothers 2 (by decide)).symm
  · have hlower : ∀ r < 2, PriorityFifo.queue MessageEnvelope.rank r s.ledger.contents = [] := by
      intro r hr
      interval_cases r
      · exact hhigh.symm.trans hnil
      · exact hnormal.symm.trans hnil'
    obtain ⟨hmsg, hrest, hothers⟩ := PriorityFifo.serve_of_queue hlower (hlow.symm.trans hq)
    refine ⟨⟨?_, ?_, ?_⟩, hmsg.symm⟩ <;> rw [PriorityFifo.Ledger.contents_serve]
    · exact hhigh.trans (hothers 0 (by decide)).symm
    · exact hnormal.trans (hothers 1 (by decide)).symm
    · exact hrest.symm
  · have hempty := contents_eq_nil ⟨hhigh, hnormal, hlow⟩ hnil hnil' hnil''
    refine ⟨⟨?_, ?_, ?_⟩, ?_⟩
    · rw [PriorityFifo.Ledger.contents_serve, hempty]
      exact hnil
    · rw [PriorityFifo.Ledger.contents_serve, hempty]
      exact hnil'
    · rw [PriorityFifo.Ledger.contents_serve, hempty]
      exact hnil''
    · rw [hempty]
      rfl

/-! ## Purging -/

/-- The test of a message is exact where the sum fits. -/
lemma unexpired_of_fits {now : SystemTime} (hnow : 0 ≤ now) {envelope : MessageEnvelope}
    (hfits : envelope.expiry < 2 ^ 64) :
    envelope.unexpired checks now.toUInt64 = some (decide (now.toInt < envelope.expiry)) := by
  have hsum : envelope.message.ttlSecs.toNat + envelope.timestamp.toNat < 2 ^ 64 := by
    rw [Nat.add_comm]
    exact hfits
  rcases addU64_cases envelope.message.ttlSecs envelope.timestamp with
    ⟨-, sum, hsum, hnat⟩ | ⟨hnot, -⟩
  · have hsecs : (now.toUInt64.toNat : ℤ) = now.toInt := by
      rw [Int64.toNat_toUInt64_of_le hnow]
      exact Int.toNat_of_nonneg (by simpa using Int64.le_iff_toInt_le.mp hnow)
    rw [MessageEnvelope.unexpired, hsum checks, Option.map_some, ← hsecs]
    simp only [UInt64.lt_iff_toNat_lt, hnat, MessageEnvelope.expiry, Nat.cast_lt, Nat.add_comm]
  · exact absurd hsum hnot

/-- A test that does not panic filters the queue. -/
lemma retain_eq_filter {keep : MessageEnvelope → Option Bool} {p : MessageEnvelope → Bool} :
    ∀ {q : List MessageEnvelope}, (∀ envelope ∈ q, keep envelope = some (p envelope)) →
      retain keep q = some (q.filter p) := by
  intro q
  induction q with
  | nil => exact fun _ => rfl
  | cons envelope q ih =>
    intro h
    rw [retain, h envelope List.mem_cons_self, Option.bind_some,
      ih fun e he => h e (List.mem_cons_of_mem _ he), Option.map_some, List.filter_cons]

/-- **What is purged**: exactly the messages that have expired. -/
lemma purgeExpired_eq {q : MessageQueue} {now : SystemTime} (hnow : 0 ≤ now)
    (hfits : ∀ envelope ∈ q.messages, envelope.expiry < 2 ^ 64) :
    q.purgeExpired checks now = some
      { q with
        highPriority := q.highPriority.filter fun e => now.toInt < e.expiry
        normalPriority := q.normalPriority.filter fun e => now.toInt < e.expiry
        lowPriority := q.lowPriority.filter fun e => now.toInt < e.expiry } := by
  have hsecs : now.sinceEpoch = some now.toUInt64 := if_neg (by simpa using hnow)
  have hretain : ∀ l ⊆ q.messages, retain (MessageEnvelope.unexpired checks now.toUInt64) l =
      some (l.filter fun e => now.toInt < e.expiry) := fun l hl =>
    retain_eq_filter fun envelope hmem => unexpired_of_fits hnow (hfits envelope (hl hmem))
  rw [MessageQueue.purgeExpired, hsecs]
  simp only [Option.bind_eq_bind, Option.bind_some]
  rw [hretain q.highPriority (by simp [MessageQueue.messages]), Option.bind_some,
    hretain q.normalPriority (by simp [MessageQueue.messages]), Option.bind_some,
    hretain q.lowPriority (by simp [MessageQueue.messages]), Option.bind_some]
  rfl

/-- No purge panics that is in range, and only then are its additions exact. -/
lemma inRange_iff_answers (checks : Bool) (now : SystemTime) :
    s.InRange (.purgeExpired now) ↔ s.Answers checks (.purgeExpired now) := by
  have hexpiry : ∀ envelope : MessageEnvelope,
      envelope.message.ttlSecs.toNat < 2 ^ 64 - envelope.timestamp.toNat ↔
        envelope.expiry < 2 ^ 64 := by
    intro envelope
    have hlt := envelope.timestamp.toNat_lt
    unfold MessageEnvelope.expiry
    omega
  simp only [InRange, Answers, hexpiry]
  constructor
  · rintro ⟨hnow, hfits⟩
    exact ⟨by rw [purgeExpired_eq hnow hfits]; rfl, hfits⟩
  · rintro ⟨hsome, hfits⟩
    refine ⟨?_, hfits⟩
    by_contra hneg
    have hnone : now.sinceEpoch = none := if_pos (by simpa using hneg)
    rw [MessageQueue.purgeExpired, hnone] at hsome
    cases hsome

/-- A purge in range leaves what has not expired. -/
lemma holds_purgeExpired (h : s.Holds) {now : SystemTime} (hrange : s.InRange (.purgeExpired now)) :
    (s.apply blake3 checks (.purgeExpired now)).Holds := by
  obtain ⟨hhigh, hnormal, hlow⟩ := h
  have hfits := (inRange_iff_answers checks now).mp hrange
  have hcomm : ∀ r, PriorityFifo.queue MessageEnvelope.rank r
      (s.ledger.contents.filter fun e => now.toInt < e.expiry) =
        (PriorityFifo.queue MessageEnvelope.rank r s.ledger.contents).filter
          fun e => now.toInt < e.expiry := fun r => List.filter_comm _ _ _
  simp only [apply, purgeExpired_eq hrange.1 hfits.2, Option.getD_some]
  constructor <;> rw [PriorityFifo.Ledger.contents_retain, hcomm]
  · rw [← hhigh]
  · rw [← hnormal]
  · rw [← hlow]

/-! ## Runs -/

/-- **What a call does**: in range it answers as it should, and the queues hold what waits. -/
lemma holds_apply (h : s.Holds) (call : QueueCall) (hrange : s.InRange call) :
    (s.apply blake3 checks call).Holds ∧ s.Answers checks call := by
  cases call with
  | enqueue now msg => exact ⟨holds_enqueue h now msg, trivial⟩
  | dequeue => exact holds_dequeue h
  | purgeExpired now =>
    exact ⟨holds_purgeExpired h hrange, (inRange_iff_answers checks now).mp hrange⟩
  | receive => exact ⟨⟨h.high, h.normal, h.low⟩, trivial⟩
  | closeReceiver => exact ⟨⟨h.high, h.normal, h.low⟩, trivial⟩

/-- The ledger stays balanced. -/
lemma balanced_apply (h : s.ledger.Balanced) (call : QueueCall) :
    (s.apply blake3 checks call).ledger.Balanced := by
  cases call with
  | enqueue now msg => exact PriorityFifo.Ledger.balanced_arrive h _
  | dequeue => exact PriorityFifo.Ledger.balanced_serve h _
  | purgeExpired now =>
    exact PriorityFifo.Ledger.balanced_retain h fun envelope => now.toInt < envelope.expiry
  | receive => exact h
  | closeReceiver => exact h

/-- **The order and the expiry of messages**: a run is lawful iff all its purges are in range. -/
theorem lawful_iff (blake3 : Blake3) (checks : Bool) (calls : List QueueCall) :
    Lawful blake3 checks calls ↔ Runs.Steps (apply blake3 checks) InRange start calls := by
  constructor
  · intro h
    refine h.answers.imp fun s call hanswers => ?_
    cases call with
    | purgeExpired now => exact (inRange_iff_answers checks now).mpr hanswers
    | _ => trivial
  · intro h
    have hstart : start.Holds ∧ start.ledger.Balanced :=
      ⟨⟨rfl, rfl, rfl⟩, PriorityFifo.Ledger.balanced_empty⟩
    constructor
    · exact Runs.always_rule _ (fun s call hs hrange =>
        ⟨(holds_apply hs.1 call hrange).1, balanced_apply hs.2 call⟩) h hstart
    · exact Runs.steps_rule Holds (fun s call hs hrange => holds_apply hs call hrange) h hstart.1

/-- A message that lives for ever. -/
def sampleForever : QueuedMessage where
  source := [1]
  destination := [2]
  payload := []
  id := "1"
  priority := .low
  ttl := 2 ^ 64 * 10 ^ 9 - 1
  ttl_lt := by decide

/-- A purge one second after the Unix epoch overflows for a message that lives for ever, in every
build. -/
theorem not_lawful_sampleForever :
    ¬ (∃ checks, Lawful (fun _ => ⟨List.replicate 32 0, List.length_replicate⟩) checks
      [.enqueue 1 sampleForever, .purgeExpired 1]) := by
  rintro ⟨checks, h⟩
  have hfits := h.answers.2.1.2 _ (List.mem_cons_self (l := []))
  exact absurd hfits (by decide)

end QueueRun

end QuDAG.Network
