import QuDAG.Dag.Avalanche
import QuDAG.Lib.Loop

/-!
# Sampling and consensus rounds (`consensus.rs`)

`query_sample` asks the participants closest to a vertex, and the two round functions repeat it
until the smoothed share of positive votes crosses a threshold, the rounds are used up or the
time is over.

## Main definitions

* `QRAvalanche.querySample` — one query, with `Sample` for its counts.
* `QRAvalanche.runConsensusRound`, `QRAvalanche.runFastConsensusRound`.

## Implementation notes

Integers of 64 bits wrap around, as in a release build. The set of participants does not change
during a round, so every query of a round iterates it in the same order. A `Sample` also names
the voters it counted; nothing computes with them, they let a statement say whose votes stand
behind a decision. The clock of a round is an arbitrary function: `RoundClock` has one reading
for each place and round at which the source reads it.
-/

namespace QuDAG

open RustStd

/-- The counts of a query, with the voters counted. -/
structure Sample where
  positive : ℕ
  negative : ℕ
  /-- Ghost: the participants whose votes were counted. -/
  voters : List VertexId
  deriving DecidableEq, Repr

namespace Sample

/-- No votes. -/
def empty : Sample := ⟨0, 0, []⟩

/-- Count the vote of a participant. -/
def count (self : Sample) (participant : VertexId) (vote : Bool) : Sample where
  positive := if vote then self.positive + 1 else self.positive
  negative := if vote then self.negative else self.negative + 1
  voters := self.voters ++ [participant]

/-- The number of votes. -/
def total (self : Sample) : ℕ := self.positive + self.negative

/-- The share of positive votes. -/
def share (self : Sample) : ℚ := (self.positive : ℚ) / (self.total : ℚ)

end Sample

/-- The clock readings of a round function. -/
structure RoundClock where
  /-- When the function starts. -/
  start : Instant
  /-- At the time limit's test, in each round. -/
  check : ℕ → Instant
  /-- When the votes are counted, in each round. -/
  update : ℕ → Instant
  /-- When the vertex is finalized, in each round. -/
  finalize : ℕ → Instant
  /-- When the vertex is finalized after the last round. -/
  finish : Instant

namespace QRAvalanche

/-! ## Sampling -/

/-- The distance of a participant from a vertex: the sum of the squared byte differences. -/
def distance (vertexId participant : VertexId) : UInt64 :=
  (vertexId.asBytes.zip participant.asBytes).foldl (fun distance (byte, pByte) =>
    let difference := byte.toUInt64 - pByte.toUInt64
    distance + difference * difference) 0

/-- Simulate a participant's vote: positive iff a sum of byte products is even. -/
def simulateParticipantVote (vertexId participantId : VertexId) : Bool :=
  let hashValue : UInt64 :=
    (vertexId.asBytes.zip participantId.asBytes).foldl (fun hashValue (vByte, pByte) =>
      hashValue + vByte.toUInt64 * pByte.toUInt64) 0
  hashValue % 2 = 0

/-- The participants to ask, the closest first: a stable sort of the order they come in. -/
def sampleParticipants (vertexId : VertexId) (order : List VertexId) (sampleSize : ℕ) :
    List VertexId :=
  (order.insertionSort fun p q => distance vertexId p ≤ distance vertexId q).take sampleSize

/-- Ask the participants of a sample one after the other. -/
def askParticipants (vertexId : VertexId) :
    List VertexId → Sample → QRAvalanche → Sample × QRAvalanche
  | [], sample, self => (sample, self)
  | participant :: participants, sample, self =>
    -- skip Byzantine voters
    if participant ∈ self.votingRecord.byzantineVoters then
      askParticipants vertexId participants sample self
    else
      let vote := simulateParticipantVote vertexId participant
      let sample := sample.count participant vote
      match self.votingRecord.recordVote vertexId participant vote with
      | (.error _, votingRecord) =>
        -- the voter is flagged, but the vote has been counted
        askParticipants vertexId participants sample
          { self with
            votingRecord := votingRecord
            metrics := self.metrics.recordByzantineBehavior }
      | (.ok (), votingRecord) =>
        askParticipants vertexId participants sample { self with votingRecord := votingRecord }

/-- Query a sample of the participants, iterated over in the given order. -/
def querySample (self : QRAvalanche) (vertexId : VertexId) (order : List VertexId) :
    Except ConsensusError Sample × QRAvalanche :=
  let sampleSize := min self.config.querySampleSize self.participants.card
  if sampleSize = 0 then (.ok .empty, self)
  else
    let (sample, self) :=
      askParticipants vertexId (sampleParticipants vertexId order sampleSize) .empty self
    (.ok sample, self)

/-! ## The loops -/

/-- What a round function carries from round to round. -/
structure RoundState where
  engine : QRAvalanche
  currentConfidence : ℚ
  consecutiveStrongRounds : ℤ
  /-- Ghost: the sample behind the current confidence. -/
  sample : Sample

/-- How a round function ends. -/
structure RoundExit where
  result : Except ConsensusError ConsensusStatus
  engine : QRAvalanche
  /-- Ghost: the sample the exit was decided on. -/
  sample : Sample

/-- The state a round function starts from. -/
def RoundState.start (self : QRAvalanche) : RoundState := ⟨self, 0, 0, .empty⟩

/-- Finalize the vertex and return `Final`. -/
def finalExit (self : QRAvalanche) (vertexId : VertexId) (now : Instant) (sample : Sample) :
    RoundExit :=
  match self.finalizeVertex vertexId now with
  | (.error e, self) => ⟨.error e, self, sample⟩
  | (.ok (), self) => ⟨.ok .final, self, sample⟩

/-- Reject the vertex and return `Rejected`. -/
def rejectedExit (self : QRAvalanche) (vertexId : VertexId) (sample : Sample) : RoundExit :=
  ⟨.ok .rejected, self.rejectVertex vertexId, sample⟩

/-- Update the confidence entry of the vertex, if there is one, and read its new value. -/
def updateConfidence (self : QRAvalanche) (vertexId : VertexId)
    (update : Confidence → Confidence) (currentConfidence : ℚ) : QRAvalanche × ℚ :=
  match self.confidence.lookup vertexId with
  | some confidence =>
    ({ self with confidence := self.confidence.insert vertexId (update confidence) },
      (update confidence).value)
  | none => (self, currentConfidence)

/-- Update the votes of a confidence and smooth its value with a momentum of ten percent. -/
def smoothVotes (sample : Sample) (now : Instant) (confidence : Confidence) : Confidence :=
  let updated := confidence.updateVotes sample.positive sample.negative now
  { updated with value := updated.value * (1 - 1 / 10) + confidence.value * (1 / 10) }

/-- The end of `run_consensus_round` when its rounds or its time are used up. -/
def consensusExhausted (s : RoundState) : RoundExit :=
  if s.engine.config.beta ≤ s.currentConfidence then ⟨.ok .accepted, s.engine, s.sample⟩
  else ⟨.error .timeout, s.engine, s.sample⟩

/-- One round of `run_consensus_round`. -/
def consensusRound (vertexId : VertexId) (order : List VertexId) (clock : RoundClock)
    (round : ℕ) (s : RoundState) : RoundState ⊕ RoundExit :=
  let config := s.engine.config
  if config.roundTimeout * (config.maxRounds % 2 ^ 32) <
      clock.start.elapsed (clock.check round) then .inr (consensusExhausted s)
  else
    match s.engine.querySample vertexId order with
    | (.error e, engine) => .inr ⟨.error e, engine, s.sample⟩
    | (.ok sample, engine) =>
      if sample.total = 0 then .inr ⟨.error .insufficientVotes, engine, sample⟩
      else
        let (engine, currentConfidence) := engine.updateConfidence vertexId
          (smoothVotes sample (clock.update round)) s.currentConfidence
        if config.alpha ≤ sample.share then
          let consecutiveStrongRounds := s.consecutiveStrongRounds + 1
          let adaptiveThreshold :=
            if 2 ≤ consecutiveStrongRounds then config.beta * (95 / 100) else config.beta
          if adaptiveThreshold ≤ currentConfidence then
            .inr (engine.finalExit vertexId (clock.finalize round) sample)
          else .inl ⟨engine, currentConfidence, consecutiveStrongRounds, sample⟩
        else if sample.share ≤ 1 - config.alpha then
          if currentConfidence ≤ 1 - config.beta ∨ 10 < round then
            .inr (engine.rejectedExit vertexId sample)
          else .inl ⟨engine, currentConfidence, 0, sample⟩
        else .inl ⟨engine, currentConfidence, max 0 (s.consecutiveStrongRounds - 1), sample⟩

/-- `run_consensus_round`, with the sample its exit was decided on. -/
def consensusExit (self : QRAvalanche) (vertexId : VertexId) (order : List VertexId)
    (clock : RoundClock) : RoundExit :=
  Loop.forLoop (consensusRound vertexId order clock) consensusExhausted self.config.maxRounds 0
    (.start self)

/-- Run a full consensus round. -/
def runConsensusRound (self : QRAvalanche) (vertexId : VertexId) (order : List VertexId)
    (clock : RoundClock) : Except ConsensusError ConsensusStatus × QRAvalanche :=
  let exit := self.consensusExit vertexId order clock
  (exit.result, exit.engine)

/-- Set the sample size of the configuration. -/
def setSampleSize (self : QRAvalanche) (size : ℕ) : QRAvalanche :=
  { self with config := { self.config with querySampleSize := size } }

/-- The final decision of `run_fast_consensus_round`, after its rounds or its time. -/
def fastExhausted (vertexId : VertexId) (clock : RoundClock) (s : RoundState) : RoundExit :=
  if s.engine.config.beta * (85 / 100) ≤ s.currentConfidence then
    s.engine.finalExit vertexId clock.finish s.sample
  else if s.engine.config.beta * (7 / 10) ≤ s.currentConfidence then
    ⟨.ok .accepted, s.engine, s.sample⟩
  else ⟨.error .timeout, s.engine, s.sample⟩

/-- One round of `run_fast_consensus_round`, with a target of 500 ms. -/
def fastRound (vertexId : VertexId) (order : List VertexId) (clock : RoundClock)
    (round : ℕ) (s : RoundState) : RoundState ⊕ RoundExit :=
  if ¬ clock.start.elapsed (clock.check round) < 500 * 1000000 then
    .inr (fastExhausted vertexId clock s)
  else
    let config := s.engine.config
    let dynamicSampleSize :=
      if round < 5 then min 10 config.querySampleSize else config.querySampleSize
    match (s.engine.setSampleSize dynamicSampleSize).querySample vertexId order with
    | (.error e, engine) => .inr ⟨.error e, engine, s.sample⟩
    | (.ok sample, engine) =>
      let engine := engine.setSampleSize config.querySampleSize
      if sample.total = 0 then .inl { s with engine := engine }
      else
        let (engine, currentConfidence) := engine.updateConfidence vertexId
          (fun c => c.updateVotes sample.positive sample.negative (clock.update round))
          s.currentConfidence
        if config.alpha * (95 / 100) ≤ sample.share then
          let consecutiveStrongRounds := s.consecutiveStrongRounds + 1
          if config.beta * (9 / 10) ≤ currentConfidence ∧ 2 ≤ consecutiveStrongRounds then
            .inr (engine.finalExit vertexId (clock.finalize round) sample)
          else .inl ⟨engine, currentConfidence, consecutiveStrongRounds, sample⟩
        else if sample.share ≤ 1 - config.alpha * (95 / 100) ∧
            currentConfidence ≤ 1 - config.beta * (9 / 10) then
          .inr (engine.rejectedExit vertexId sample)
        else .inl ⟨engine, currentConfidence, s.consecutiveStrongRounds, sample⟩

/-- `run_fast_consensus_round`, with the sample its exit was decided on. -/
def fastExit (self : QRAvalanche) (vertexId : VertexId) (order : List VertexId)
    (clock : RoundClock) : RoundExit :=
  Loop.forLoop (fastRound vertexId order clock) (fastExhausted vertexId clock)
    self.config.maxRounds 0 (.start self)

/-- Run a consensus round with smaller first samples and lower thresholds. -/
def runFastConsensusRound (self : QRAvalanche) (vertexId : VertexId) (order : List VertexId)
    (clock : RoundClock) : Except ConsensusError ConsensusStatus × QRAvalanche :=
  let exit := self.fastExit vertexId order clock
  (exit.result, exit.engine)

end QRAvalanche

end QuDAG
