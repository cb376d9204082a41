import Mathlib.Algebra.Order.Sub.Basic
import Mathlib.Data.Multiset.OrderedMonoid
import QuDAG.Lib.Loop
import QuDAG.Lib.Runs
import QuDAG.Network.Onion

/-!
# Mix nodes (`onion.rs`)

A mix node collects messages into a batch, fills it up with dummy messages, and hands it out in a
random order. A caller gets a batch from `flushBatch`. But `addMessage` flushes as well, when the
batch is full or old, and drops the batch that it gets.

## Main definitions

* `MixNode`, with `addMessage` and `flushBatch`.
* `Mixing` — a node, and the messages that went in and came out.
* `Mixing.Conserved` — no message is lost or duplicated.

## Main results

* `MixNode.flushBatch_eq` — a batch is the buffer and dummies, in some order.
* `Mixing.conserved_iff` — the runs that lose nothing.

## Implementation notes

Delays are left out. Readings of the clock and random values are arguments, and a probability is a
rational number. The counters of the generator do not overflow.
-/

namespace QuDAG.Network

/-! ## Messages -/

/-- Type of message in mix network. -/
inductive MixMessageType
  /-- Real message with payload. -/
  | real
  /-- Dummy message for traffic analysis resistance. -/
  | dummy
  /-- Heartbeat message. -/
  | heartbeat
  deriving DecidableEq, Repr

/-- Message in the mix network. -/
structure MixMessage where
  /-- Message content (encrypted). -/
  content : List UInt8
  /-- Message priority. -/
  priority : UInt8
  /-- Creation timestamp. -/
  timestamp : UInt64
  /-- Message type indicator. -/
  messageType : MixMessageType
  /-- Normalized size for traffic analysis resistance. -/
  normalizedSize : ℕ
  deriving DecidableEq

/-- Configuration for mix node behavior. -/
structure MixConfig where
  /-- Batch size for message processing. -/
  batchSize : ℕ
  /-- Maximum batch wait time. -/
  batchTimeout : Duration
  /-- Dummy traffic probability (0.0 to 1.0). -/
  dummyProbability : ℚ

/-- The default configuration. -/
def MixConfig.default : MixConfig := ⟨100, 500 * 10 ^ 6, 1 / 10⟩

/-! ## Shuffling -/

/-- A way to shuffle a list, which depends on its length only. -/
structure Shuffle where
  /-- The positions of a list of `n`, in their new order. -/
  order : ℕ → List ℕ
  perm : ∀ n, (order n).Perm (List.range n)

namespace Shuffle

/-- Keep the order. -/
def keep : Shuffle := ⟨List.range, fun _ => List.Perm.refl _⟩

/-- Shuffle a list. -/
def shuffle {α : Type} (σ : Shuffle) (l : List α) : List α :=
  (σ.order l.length).filterMap (l[·]?)

/-- The elements at all positions of a list are the list. -/
lemma filterMap_range {α : Type} (l : List α) :
    (List.range l.length).filterMap (l[·]?) = l := by
  induction l with
  | nil => rfl
  | cons a l ih =>
    rw [List.length_cons, List.range_succ_eq_map, List.filterMap_cons]
    simpa [List.filterMap_map, Function.comp_def] using ih

/-- A list is shuffled into the same elements. -/
lemma shuffle_perm {α : Type} (σ : Shuffle) (l : List α) : (σ.shuffle l).Perm l := by
  have h := (σ.perm l.length).filterMap (l[·]?)
  rwa [filterMap_range] at h

end Shuffle

/-! ## Dummy traffic -/

/-- What generating a dummy message reads from outside. -/
structure DummyDraws where
  /-- The number that decides whether there is one. -/
  chance : ℚ
  size : UInt32
  bytes : ℕ → UInt8
  /-- The time, in milliseconds. -/
  created : UInt64

/-- Dummy traffic generator for anonymity. -/
structure DummyTrafficGenerator where
  /-- Probability of generating dummy traffic. -/
  probability : ℚ
  /-- Counter for statistics. -/
  dummyCount : ℕ
  /-- Total message count. -/
  totalCount : ℕ

namespace DummyTrafficGenerator

/-- A new generator. -/
def new (probability : ℚ) : DummyTrafficGenerator := ⟨max 0 (min probability 1), 0, 0⟩

/-- Generate a dummy message if probability allows. -/
def generateDummy (generator : DummyTrafficGenerator) (draws : DummyDraws) :
    Option MixMessage × DummyTrafficGenerator :=
  let generator := { generator with totalCount := generator.totalCount + 1 }
  if draws.chance < generator.probability then
    let content := (List.range (draws.size.toNat % 4096 + 256)).map draws.bytes
    (some ⟨content, 0, draws.created, .dummy, 0⟩,
      { generator with dummyCount := generator.dummyCount + 1 })
  else (none, generator)

/-- What is generated is a dummy. -/
lemma generateDummy_messageType {generator : DummyTrafficGenerator} {draws : DummyDraws}
    {message : MixMessage} (h : (generator.generateDummy draws).1 = some message) :
    message.messageType = .dummy := by
  simp only [generateDummy] at h
  split_ifs at h
  obtain rfl := Option.some.inj h
  rfl

end DummyTrafficGenerator

/-! ## Nodes -/

/-- Mix network node for batch processing and traffic shaping. -/
structure MixNode where
  /-- Node identifier. -/
  id : List UInt8
  /-- Batch configuration. -/
  config : MixConfig
  /-- Message buffer for batching. -/
  messageBuffer : List MixMessage
  /-- Last flush time. -/
  lastFlush : Instant
  /-- Dummy traffic generator. -/
  dummyGenerator : DummyTrafficGenerator

/-- What flushing a batch reads from outside. -/
structure FlushDraws where
  /-- For each dummy message that may be generated. -/
  dummies : ℕ → DummyDraws
  shuffle : Shuffle
  /-- When the batch is flushed. -/
  flushed : Instant

/-- What adding a message reads from outside. -/
structure AddDraws where
  /-- When it looks whether the batch is to be flushed. -/
  checked : Instant
  flush : FlushDraws

namespace MixNode

/-- A new mix node with custom configuration. -/
def withConfig (id : List UInt8) (config : MixConfig) (now : Instant) : MixNode :=
  ⟨id, config, [], now, .new config.dummyProbability⟩

/-- A new mix node with the default configuration. -/
def new (id : List UInt8) (now : Instant) : MixNode := withConfig id .default now

/-- Normalize message size for traffic analysis resistance. -/
def normalizeMessageSize (message : MixMessage) : ℕ :=
  match [512, 1024, 2048, 4096, 8192].find? (message.content.length ≤ ·) with
  | some size => size
  -- larger content is rounded up to the next kilobyte
  | none => (message.content.length + 1023) / 1024 * 1024

/-- A message as it is put into the buffer. -/
def normalize (message : MixMessage) : MixMessage :=
  { message with normalizedSize := normalizeMessageSize message }

/-- Put a message into the buffer. -/
def push (node : MixNode) (message : MixMessage) : MixNode :=
  { node with messageBuffer := node.messageBuffer ++ [message] }

/-- Check if batch should be flushed. -/
def shouldFlush (node : MixNode) (now : Instant) : Bool :=
  node.config.batchSize ≤ node.messageBuffer.length ||
    node.config.batchTimeout ≤ node.lastFlush.elapsed now

/-- One iteration of the loop that fills up the batch. -/
def fillBody (draws : ℕ → DummyDraws) (s : MixNode × ℕ) : (MixNode × ℕ) ⊕ MixNode :=
  if s.1.messageBuffer.length < s.1.config.batchSize then
    let generated := s.1.dummyGenerator.generateDummy (draws s.2)
    let node := { s.1 with dummyGenerator := generated.2 }
    match generated.1 with
    | some message => .inl (node.push message, s.2 + 1)
    -- no more dummies if the generator says no
    | none => .inr node
  else .inr s.1

/-- An iteration that goes on pushes a dummy. -/
lemma fillBody_inl {draws : ℕ → DummyDraws} {s s' : MixNode × ℕ}
    (h : fillBody draws s = .inl s') :
    s.1.messageBuffer.length < s.1.config.batchSize ∧ s'.1.config = s.1.config ∧
      ∃ message : MixMessage, message.messageType = .dummy ∧
        s'.1.messageBuffer = s.1.messageBuffer ++ [message] := by
  simp only [fillBody] at h
  split_ifs at h with hlt
  split at h
  · rename_i message hmessage
    obtain rfl := Sum.inl.inj h
    exact ⟨hlt, rfl, message, DummyTrafficGenerator.generateDummy_messageType hmessage, rfl⟩
  · cases h

/-- The last iteration leaves the buffer as it is. -/
lemma fillBody_inr {draws : ℕ → DummyDraws} {s : MixNode × ℕ} {node : MixNode}
    (h : fillBody draws s = .inr node) :
    node.config = s.1.config ∧ node.messageBuffer = s.1.messageBuffer := by
  simp only [fillBody] at h
  split_ifs at h
  · split at h
    · cases h
    · obtain rfl := Sum.inr.inj h
      exact ⟨rfl, rfl⟩
  · obtain rfl := Sum.inr.inj h
    exact ⟨rfl, rfl⟩

/-- An iteration that goes on leaves fewer to do. -/
lemma fillBody_decreases (draws : ℕ → DummyDraws) (s s' : MixNode × ℕ)
    (h : fillBody draws s = .inl s') :
    s'.1.config.batchSize - s'.1.messageBuffer.length <
      s.1.config.batchSize - s.1.messageBuffer.length := by
  obtain ⟨hlt, hconfig, message, -, hbuffer⟩ := fillBody_inl h
  rw [hconfig, hbuffer, List.length_append, List.length_singleton]
  omega

/-- Add dummy messages to maintain consistent batch sizes. -/
def addDummyMessages (node : MixNode) (draws : ℕ → DummyDraws) : MixNode :=
  Loop.whileLoop (fillBody draws) (fun s => s.1.config.batchSize - s.1.messageBuffer.length)
    (fillBody_decreases draws) (node, 0)

/-- Flush the current batch of messages. -/
def flushBatch (node : MixNode) (draws : FlushDraws) :
    Except OnionError (List MixMessage) × MixNode :=
  if node.messageBuffer = [] then (.ok [], node)
  else
    let node := node.addDummyMessages draws.dummies
    let batch := draws.shuffle.shuffle node.messageBuffer
    (.ok batch, { node with messageBuffer := [], lastFlush := draws.flushed })

/-- Add a message to the mix node buffer. -/
def addMessage (node : MixNode) (draws : AddDraws) (message : MixMessage) :
    Except OnionError Unit × MixNode :=
  let node := node.push (normalize message)
  if node.shouldFlush draws.checked then
    match node.flushBatch draws.flush with
    | (.error e, node) => (.error e, node)
    -- the batch is dropped
    | (.ok _, node) => (.ok (), node)
  else (.ok (), node)

/-! ## Batches -/

/-- Dummies are added at the end of the buffer. -/
lemma addDummyMessages_spec (node : MixNode) (draws : ℕ → DummyDraws) :
    (node.addDummyMessages draws).config = node.config ∧
      ∃ dummies : List MixMessage, (∀ message ∈ dummies, message.messageType = .dummy) ∧
        (node.addDummyMessages draws).messageBuffer = node.messageBuffer ++ dummies := by
  refine Loop.whileLoop_rule (fillBody_decreases draws)
    (fun s => s.1.config = node.config ∧
      ∃ dummies : List MixMessage, (∀ message ∈ dummies, message.messageType = .dummy) ∧
        s.1.messageBuffer = node.messageBuffer ++ dummies)
    (fun r => r.config = node.config ∧
      ∃ dummies : List MixMessage, (∀ message ∈ dummies, message.messageType = .dummy) ∧
        r.messageBuffer = node.messageBuffer ++ dummies) ?_ ?_ (node, 0) ?_
  · rintro s s' ⟨hconfig, dummies, htype, hbuffer⟩ h
    obtain ⟨-, hconfig', message, hmessage, hbuffer'⟩ := fillBody_inl h
    refine ⟨hconfig'.trans hconfig, dummies ++ [message], ?_, ?_⟩
    · simpa [or_imp, forall_and] using ⟨htype, hmessage⟩
    · rw [hbuffer', hbuffer, List.append_assoc]
  · rintro s r ⟨hconfig, dummies, htype, hbuffer⟩ h
    obtain ⟨hconfig', hbuffer'⟩ := fillBody_inr h
    exact ⟨hconfig'.trans hconfig, dummies, htype, hbuffer'.trans hbuffer⟩
  · exact ⟨rfl, [], by simp, by simp⟩

/-- The dummies that a flush adds to the batch. -/
def dummies (node : MixNode) (draws : FlushDraws) : List MixMessage :=
  if node.messageBuffer = [] then []
  else (node.addDummyMessages draws.dummies).messageBuffer.drop node.messageBuffer.length

/-- **A batch is the buffer and the dummies, in some order**; the buffer is empty afterwards. -/
theorem flushBatch_eq (node : MixNode) (draws : FlushDraws) :
    ∃ batch, (node.flushBatch draws).1 = .ok batch ∧
      batch.Perm (node.messageBuffer ++ node.dummies draws) ∧
      (node.flushBatch draws).2.messageBuffer = [] ∧
      (node.flushBatch draws).2.config = node.config := by
  obtain ⟨hconfig, dummies, -, hbuffer⟩ := node.addDummyMessages_spec draws.dummies
  rw [flushBatch, MixNode.dummies]
  split_ifs with hempty
  · exact ⟨[], rfl, by simp [hempty], hempty, rfl⟩
  · refine ⟨_, rfl, ?_, rfl, hconfig⟩
    rw [hbuffer, List.drop_left]
    exact draws.shuffle.shuffle_perm _

/-- A message does not fill the batch, and the batch is not old. -/
lemma shouldFlush_push_eq_false_iff {node : MixNode} {message : MixMessage} {now : Instant} :
    (node.push message).shouldFlush now = false ↔
      node.messageBuffer.length + 1 < node.config.batchSize ∧
        node.lastFlush.elapsed now < node.config.batchTimeout := by
  rw [shouldFlush, Bool.or_eq_false_iff, decide_eq_false_iff_not, decide_eq_false_iff_not,
    not_le, not_le]
  simp [push]

/-- Adding a message succeeds. It stays in the buffer, or the buffer is emptied. -/
lemma addMessage_eq (node : MixNode) (draws : AddDraws) (message : MixMessage) :
    (node.addMessage draws message).1 = .ok () ∧
      (node.addMessage draws message).2.config = node.config ∧
      (node.addMessage draws message).2.messageBuffer =
        if (node.push (normalize message)).shouldFlush draws.checked then []
        else node.messageBuffer ++ [normalize message] := by
  obtain ⟨batch, hok, -, hempty, hconfig⟩ :=
    (node.push (normalize message)).flushBatch_eq draws.flush
  generalize hflush : (node.push (normalize message)).flushBatch draws.flush = result
    at hok hempty hconfig
  obtain ⟨result, node'⟩ := result
  simp only at hok hempty hconfig
  subst hok
  rw [addMessage]
  split_ifs
  · rw [hflush]
    exact ⟨rfl, hconfig, hempty⟩
  · exact ⟨rfl, rfl, rfl⟩

end MixNode

/-! ## Runs -/

/-- A mix node, and the messages that went in and came out. -/
structure Mixing where
  node : MixNode
  /-- The messages that were added. -/
  added : Multiset MixMessage
  /-- The messages that were handed to the caller. -/
  handed : Multiset MixMessage
  /-- The dummies that were put into the batches of the caller. -/
  dummies : Multiset MixMessage

namespace Mixing

/-- What is asked of a node. -/
inductive Call
  | addMessage (draws : AddDraws) (message : MixMessage)
  | flushBatch (draws : FlushDraws)

/-- A new node. -/
def start (id : List UInt8) (config : MixConfig) (now : Instant) : Mixing :=
  ⟨.withConfig id config now, 0, 0, 0⟩

/-- Make a call. -/
def apply (s : Mixing) : Call → Mixing
  | .addMessage draws message =>
    match s.node.addMessage draws message with
    | (.ok _, node) =>
      { s with
        node := node
        added := s.added + {MixNode.normalize message} }
    | (.error _, node) => { s with node := node }
  | .flushBatch draws =>
    match s.node.flushBatch draws with
    | (.ok batch, node) =>
      { s with
        node := node
        handed := s.handed + batch
        dummies := s.dummies + s.node.dummies draws }
    | (.error _, node) => { s with node := node }

/-- **No message is lost or duplicated**: what was handed out or is in the buffer is what was added,
and dummies. -/
def Conserved (s : Mixing) : Prop :=
  s.handed + s.node.messageBuffer = s.added + s.dummies

/-- The call does not flush the batch on its own: it adds no message that fills the batch, and none
once the batch is old. -/
def NoImplicitFlush (s : Mixing) : Call → Prop
  | .addMessage draws _ =>
    s.node.messageBuffer.length + 1 < s.node.config.batchSize ∧
      s.node.lastFlush.elapsed draws.checked < s.node.config.batchTimeout
  | .flushBatch _ => True

/-- What was added, and is neither handed out nor in the buffer. -/
def lost (s : Mixing) : Multiset MixMessage :=
  s.added + s.dummies - (s.handed + s.node.messageBuffer)

/-- The invariant of all runs: nothing is handed out that was not added, or a dummy. -/
def Inv (s : Mixing) : Prop := s.handed + s.node.messageBuffer ≤ s.added + s.dummies

/-- What a call adds to the messages and dummies that went in goes to those that came out or are in
the buffer, but for a remainder that is lost. -/
lemma apply_effects (s : Mixing) (call : Call) :
    ∃ entered dropped : Multiset MixMessage,
      (s.apply call).added + (s.apply call).dummies = s.added + s.dummies + entered ∧
      (s.apply call).handed + (s.apply call).node.messageBuffer + dropped =
        s.handed + s.node.messageBuffer + entered ∧
      (dropped = 0 ↔ s.NoImplicitFlush call) := by
  cases call with
  | addMessage draws message =>
    obtain ⟨hok, -, hbuffer⟩ := s.node.addMessage_eq draws message
    generalize hresult : s.node.addMessage draws message = result at hok hbuffer
    obtain ⟨result, node⟩ := result
    simp only at hok hbuffer
    subst hok
    rw [apply, hresult]
    have hflush : (s.node.push (MixNode.normalize message)).shouldFlush draws.checked = false ↔
        s.NoImplicitFlush (.addMessage draws message) := MixNode.shouldFlush_push_eq_false_iff
    split_ifs at hbuffer with h
    · refine ⟨{MixNode.normalize message}, s.node.messageBuffer + {MixNode.normalize message},
        add_right_comm _ _ _, ?_, ?_⟩
      · rw [hbuffer]
        simp [add_assoc]
      · simp [← hflush, h]
    · refine ⟨{MixNode.normalize message}, 0, add_right_comm _ _ _, ?_, ?_⟩
      · rw [hbuffer, add_zero, add_assoc]
        rfl
      · simpa [← hflush] using h
  | flushBatch draws =>
    obtain ⟨batch, hok, hperm, hempty, -⟩ := s.node.flushBatch_eq draws
    generalize hresult : s.node.flushBatch draws = result at hok hempty
    obtain ⟨result, node⟩ := result
    simp only at hok hempty
    subst hok
    rw [apply, hresult]
    refine ⟨s.node.dummies draws, 0, (add_assoc _ _ _).symm, ?_, by simp [NoImplicitFlush]⟩
    have hbatch : (batch : Multiset MixMessage) = s.node.messageBuffer + s.node.dummies draws :=
      (Multiset.coe_eq_coe.mpr hperm).trans (Multiset.coe_add _ _).symm
    simp only [hempty, hbatch, add_assoc]
    simp

/-- A call loses nothing exactly if it does not flush on its own; what is lost stays lost. -/
lemma apply_lost (s : Mixing) (call : Call) (h : s.Inv) :
    (s.apply call).Inv ∧ s.lost ≤ (s.apply call).lost ∧
      ((s.apply call).lost = s.lost ↔ s.NoImplicitFlush call) := by
  obtain ⟨entered, dropped, hin, hout, hdropped⟩ := s.apply_effects call
  have hbalance : (s.apply call).handed + (s.apply call).node.messageBuffer + (s.lost + dropped) =
      (s.apply call).added + (s.apply call).dummies := by
    rw [hin, add_comm s.lost, ← add_assoc, hout, add_right_comm, lost, add_tsub_cancel_of_le h]
  have hlost : (s.apply call).lost = s.lost + dropped := by
    rw [lost, ← hbalance, add_tsub_cancel_left]
  refine ⟨?_, ?_, ?_⟩
  · rw [Inv, ← hbalance]
    exact Multiset.le_add_right _ _
  · rw [hlost]
    exact Multiset.le_add_right _ _
  · rw [hlost, ← hdropped, add_eq_left]

/-- A run conserves the messages iff it has lost none. -/
lemma conserved_iff_lost {s : Mixing} (h : s.Inv) : s.Conserved ↔ s.lost = 0 := by
  rw [Conserved, lost, tsub_eq_zero_iff_le]
  exact ⟨fun heq => heq.ge, fun hle => le_antisymm h hle⟩

/-- What comes out of a new node went in. -/
lemma inv_run (id : List UInt8) (config : MixConfig) (now : Instant) (calls : List Call) :
    (Runs.run apply (start id config now) calls).Inv :=
  Runs.run_invariant Inv (fun s call h => (apply_lost s call h).1) (le_refl _)

/-- **A run conserves the messages exactly if no call to add one flushes the batch.** -/
theorem conserved_iff (id : List UInt8) (config : MixConfig) (now : Instant) (calls : List Call) :
    (Runs.run apply (start id config now) calls).Conserved ↔
      Runs.Steps apply NoImplicitFlush (start id config now) calls := by
  rw [conserved_iff_lost (inv_run id config now calls)]
  exact Runs.run_eq_iff_steps lost Inv apply_lost (inv_run id config now [])

/-- Draws for a flush that adds no dummies and keeps the order. -/
def plainFlush (flushed : Instant) : FlushDraws :=
  ⟨fun _ => ⟨1, 0, fun _ => 0, 0⟩, .keep, flushed⟩

/-- A real message of three bytes, added to a new node with the default configuration after half a
second, is lost: the next flush hands out nothing. -/
theorem not_conserved_lateMessage :
    ¬ (Runs.run apply (start [1] .default 0)
      [.addMessage ⟨500 * 10 ^ 6, plainFlush (500 * 10 ^ 6)⟩ ⟨[1, 2, 3], 5, 0, .real, 0⟩,
        .flushBatch (plainFlush (600 * 10 ^ 6))]).Conserved := by
  rw [Conserved]
  decide +kernel

end Mixing

end QuDAG.Network
