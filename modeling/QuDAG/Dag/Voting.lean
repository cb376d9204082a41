import Mathlib.Algebra.Order.Ring.Rat
import QuDAG.Dag.Vertex

/-!
# Votes, confidence and metrics (`consensus.rs`)

The records the consensus engine keeps: the vote table with the voters caught equivocating, the
confidence of a vertex, the configuration and the metrics. Floating-point numbers are read as
exact rationals, instants and durations as nanoseconds, and one clock reading `now` stands for
all the readings a call makes without awaiting.

## Main definitions

* `ConsensusStatus`, `Confidence`, `QRAvalancheConfig`, `ConsensusMetrics`.
* `VotingRecord`, `VotingRecord.recordVote`, `VotingRecord.getVoteCounts`.

## Main results

* `VotingRecord.recordVote_cases` — what recording a vote can do.
-/

namespace QuDAG

open RustStd

/-- A point in time, in nanoseconds. -/
abbrev Instant : Type := ℕ

/-- A span of time, in nanoseconds. -/
abbrev Duration : Type := ℕ

/-- The time from `start` to `now`, zero if the clock went backwards. -/
def Instant.elapsed (start now : Instant) : Duration := now - start

/-- Consensus status for a vertex. -/
inductive ConsensusStatus
  | pending
  | accepted
  | rejected
  | final
  deriving DecidableEq, Repr

/-! ## Confidence -/

/-- Confidence level for a vertex. -/
structure Confidence where
  value : ℚ
  positiveVotes : ℕ
  negativeVotes : ℕ
  lastUpdated : Instant
  deriving DecidableEq, Repr

namespace Confidence

/-- A confidence with no votes. -/
def new (now : Instant) : Confidence := ⟨0, 0, 0, now⟩

/-- Update the vote counts and recalculate the confidence value. -/
def updateVotes (self : Confidence) (positive negative : ℕ) (now : Instant) : Confidence where
  value := if 0 < positive + negative then (positive : ℚ) / ((positive + negative : ℕ) : ℚ)
    else self.value
  positiveVotes := positive
  negativeVotes := negative
  lastUpdated := now

end Confidence

/-! ## Configuration -/

/-- Configuration parameters of the engine. -/
structure QRAvalancheConfig where
  beta : ℚ
  alpha : ℚ
  querySampleSize : ℕ
  maxRounds : ℕ
  finalityThreshold : ℚ
  roundTimeout : Duration
  deriving DecidableEq, Repr

namespace QRAvalancheConfig

/-- The default configuration. -/
def default : QRAvalancheConfig where
  beta := 8 / 10
  alpha := 6 / 10
  querySampleSize := 20
  maxRounds := 100
  finalityThreshold := 9 / 10
  roundTimeout := 100 * 1000000

end QRAvalancheConfig

/-! ## Voting record -/

/-- The votes recorded for each vertex, the voters caught equivocating and the conflicts found. -/
structure VotingRecord where
  votes : HashMap VertexId (HashMap VertexId Bool)
  byzantineVoters : HashSet VertexId
  conflicts : HashMap VertexId (HashSet VertexId)

namespace VotingRecord

/-- The empty voting record. -/
def new : VotingRecord := ⟨∅, ∅, ∅⟩

/-- The votes recorded for a vertex, none if it has no entry. -/
def votesFor (self : VotingRecord) (vertexId : VertexId) : HashMap VertexId Bool :=
  (self.votes.lookup vertexId).getD ∅

/-- The text of the error for a voter who changes a vote. -/
def changedVote (voterId vertexId : VertexId) : String :=
  "Voter " ++ voterId.debug ++ " changed vote for vertex " ++ vertexId.debug

/-- Write a vote into the table. -/
def insertVote (self : VotingRecord) (vertexId voterId : VertexId) (vote : Bool) :
    VotingRecord :=
  { self with votes := self.votes.insert vertexId ((self.votesFor vertexId).insert voterId vote) }

/-- Record a vote for a vertex and detect Byzantine behavior: a vote that contradicts the
voter's earlier one flags the voter and is refused. -/
def recordVote (self : VotingRecord) (vertexId voterId : VertexId) (vote : Bool) :
    Except ConsensusError Unit × VotingRecord :=
  match (self.votes.lookup vertexId).bind fun vertexVotes => vertexVotes.lookup voterId with
  | some previousVote =>
    if previousVote ≠ vote then
      (.error (.byzantineBehavior (changedVote voterId vertexId)),
        { self with byzantineVoters := insert voterId self.byzantineVoters })
    else (.ok (), self.insertVote vertexId voterId vote)
  | none => (.ok (), self.insertVote vertexId voterId vote)

/-- The number of recorded votes for a vertex with the given value. -/
def countVotes (vertexVotes : HashMap VertexId Bool) (vote : Bool) : ℕ :=
  (vertexVotes.keys.filter fun voter => vertexVotes.lookup voter = some vote).card

/-- The positive and negative vote counts for a vertex. -/
def getVoteCounts (self : VotingRecord) (vertexId : VertexId) : ℕ × ℕ :=
  match self.votes.lookup vertexId with
  | some vertexVotes => (countVotes vertexVotes true, countVotes vertexVotes false)
  | none => (0, 0)

variable {self : VotingRecord} {vertexId voterId : VertexId} {vote : Bool}

/-- The votes of the voted vertex gain the vote. -/
@[simp] lemma votesFor_insertVote_self :
    (self.insertVote vertexId voterId vote).votesFor vertexId =
      (self.votesFor vertexId).insert voterId vote := by
  simp [votesFor, insertVote]

/-- The counts are those of the votes recorded for the vertex. -/
lemma getVoteCounts_eq : self.getVoteCounts vertexId =
    (countVotes (self.votesFor vertexId) true, countVotes (self.votesFor vertexId) false) := by
  unfold getVoteCounts votesFor
  cases self.votes.lookup vertexId with
  | none => simp [countVotes]
  | some vertexVotes => rfl

/-- The voter's earlier vote is looked up in the votes of the vertex. -/
lemma lookup_votesFor : (self.votesFor vertexId).lookup voterId =
    (self.votes.lookup vertexId).bind fun vertexVotes => vertexVotes.lookup voterId := by
  unfold votesFor
  cases self.votes.lookup vertexId with
  | none => simp
  | some vertexVotes => rfl

/-- **What recording a vote can do**: a voter who contradicts an earlier vote on the vertex is
flagged and the table stays; any other vote is written into the table. -/
lemma recordVote_cases (self : VotingRecord) (vertexId voterId : VertexId) (vote : Bool) :
    ((self.votesFor vertexId).lookup voterId = some (!vote) ∧
      self.recordVote vertexId voterId vote =
        (.error (.byzantineBehavior (changedVote voterId vertexId)),
          { self with byzantineVoters := insert voterId self.byzantineVoters })) ∨
    ((self.votesFor vertexId).lookup voterId ≠ some (!vote) ∧
      self.recordVote vertexId voterId vote =
        (.ok (), self.insertVote vertexId voterId vote)) := by
  unfold recordVote
  rw [← lookup_votesFor]
  cases h : (self.votesFor vertexId).lookup voterId with
  | none => exact .inr ⟨by simp, rfl⟩
  | some previousVote =>
    by_cases hv : previousVote = vote
    · refine .inr ⟨?_, ?_⟩
      · cases vote <;> simp [hv]
      · simp [hv]
    · refine .inl ⟨?_, ?_⟩
      · cases vote <;> cases previousVote <;> simp_all
      · simp [hv]

end VotingRecord

/-! ## Metrics -/

/-- Consensus metrics for monitoring performance. -/
structure ConsensusMetrics where
  totalVerticesProcessed : ℕ
  averageFinalityTime : Duration
  totalFinalityTime : Duration
  finalizedCount : ℕ
  byzantineBehaviorsDetected : ℕ
  forksResolved : ℕ
  currentThroughput : ℚ
  startTime : Instant
  deriving DecidableEq, Repr

namespace ConsensusMetrics

/-- New metrics, started at `now`. -/
def new (now : Instant) : ConsensusMetrics := ⟨0, 0, 0, 0, 0, 0, 0, now⟩

/-- Record that a vertex has been processed. -/
def recordVertexProcessed (self : ConsensusMetrics) (now : Instant) : ConsensusMetrics :=
  let elapsed := self.startTime.elapsed now
  { self with
    totalVerticesProcessed := self.totalVerticesProcessed + 1
    -- the throughput is refreshed once a whole second has passed
    currentThroughput := if 0 < elapsed / 1000000000 then
        ((self.totalVerticesProcessed + 1 : ℕ) : ℚ) / ((elapsed : ℚ) / 1000000000)
      else self.currentThroughput }

/-- Record finality achievement for a vertex. The count is truncated to 32 bits before it
divides the total. -/
def recordFinality (self : ConsensusMetrics) (finalityTime : Duration) : ConsensusMetrics :=
  { self with
    finalizedCount := self.finalizedCount + 1
    totalFinalityTime := self.totalFinalityTime + finalityTime
    averageFinalityTime :=
      (self.totalFinalityTime + finalityTime) / ((self.finalizedCount + 1) % 2 ^ 32) }

/-- Record detection of Byzantine behavior. -/
def recordByzantineBehavior (self : ConsensusMetrics) : ConsensusMetrics :=
  { self with byzantineBehaviorsDetected := self.byzantineBehaviorsDetected + 1 }

/-- Record resolution of a fork. -/
def recordForkResolved (self : ConsensusMetrics) : ConsensusMetrics :=
  { self with forksResolved := self.forksResolved + 1 }

end ConsensusMetrics

end QuDAG
