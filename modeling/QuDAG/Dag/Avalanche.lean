import QuDAG.Dag.Voting

/-!
# The consensus engine (`consensus.rs`)

The state of `QRAvalanche` and its methods that do not run rounds. A method that returns a
`Result` and may change the engine returns both, so that what an error leaves behind can be
stated.

## Main definitions

* `QRAvalanche` — the engine; `QRAvalanche.withConfig` and `QRAvalanche.new`.
* `QRAvalanche.processVertex`, `QRAvalanche.recordVote`, `QRAvalanche.finalizeVertex`,
  `QRAvalanche.addParticipant`.
* `QRAvalanche.detectAndResolveForks` and its parts.
* `QRAvalanche.detectByzantinePatterns`.

## Implementation notes

Every loop over a hashed collection takes the order it sees as a list argument. The two
statements that reject a vertex stand four times in the source; here they are
`QRAvalanche.rejectVertex`.
-/

namespace QuDAG

open RustStd

/-- The consensus engine. -/
structure QRAvalanche where
  /-- Vertices and their consensus status. -/
  vertices : HashMap VertexId ConsensusStatus
  /-- Tip set (vertices with no children). -/
  tips : HashSet VertexId
  confidence : HashMap VertexId Confidence
  config : QRAvalancheConfig
  votingRecord : VotingRecord
  metrics : ConsensusMetrics
  vertexStartTimes : HashMap VertexId Instant
  participants : HashSet VertexId

namespace QRAvalanche

/-- A new engine with the given configuration, created at time `now`. -/
def withConfig (config : QRAvalancheConfig) (now : Instant) : QRAvalanche where
  vertices := ∅
  tips := ∅
  confidence := ∅
  config := config
  votingRecord := .new
  metrics := .new now
  vertexStartTimes := ∅
  participants := ∅

/-- A new engine with the default configuration. -/
def new (now : Instant) : QRAvalanche := withConfig .default now

/-- The stored status of a vertex. -/
def status (self : QRAvalanche) (vertexId : VertexId) : Option ConsensusStatus :=
  self.vertices.lookup vertexId

/-- Process a vertex id for consensus. -/
def processVertex (self : QRAvalanche) (vertexId : VertexId) (now : Instant) :
    Except ConsensusError ConsensusStatus × QRAvalanche :=
  (.ok .pending, { self with
    vertexStartTimes := self.vertexStartTimes.insert vertexId now
    confidence := self.confidence.insert vertexId (.new now)
    vertices := self.vertices.insert vertexId .pending
    tips := insert vertexId self.tips
    metrics := self.metrics.recordVertexProcessed now })

/-- Finalize a vertex. -/
def finalizeVertex (self : QRAvalanche) (vertexId : VertexId) (now : Instant) :
    Except ConsensusError Unit × QRAvalanche :=
  (.ok (), { self with
    vertices := self.vertices.insert vertexId .final
    metrics := match self.vertexStartTimes.lookup vertexId with
      | some startTime => self.metrics.recordFinality (startTime.elapsed now)
      | none => self.metrics
    tips := self.tips.erase vertexId })

/-- Write the status `Rejected` and drop the vertex from the tips. -/
def rejectVertex (self : QRAvalanche) (vertexId : VertexId) : QRAvalanche :=
  { self with
    vertices := self.vertices.insert vertexId .rejected
    tips := self.tips.erase vertexId }

/-- Record a vote for a vertex. A vertex with a confidence entry is decided at once, on the
counts that include the vote. -/
def recordVote (self : QRAvalanche) (vertexId voterId : VertexId) (vote : Bool)
    (now : Instant) : Except ConsensusError Unit × QRAvalanche :=
  match self.votingRecord.recordVote vertexId voterId vote with
  | (.error e, votingRecord) => (.error e, { self with votingRecord := votingRecord })
  | (.ok (), votingRecord) =>
    let self := { self with votingRecord := votingRecord }
    let (positive, negative) := votingRecord.getVoteCounts vertexId
    match self.confidence.lookup vertexId with
    | none => (.ok (), self)
    | some confidence =>
      let confidence := confidence.updateVotes positive negative now
      let self := { self with confidence := self.confidence.insert vertexId confidence }
      if self.config.beta ≤ confidence.value then self.finalizeVertex vertexId now
      else if confidence.value ≤ 1 - self.config.beta then (.ok (), self.rejectVertex vertexId)
      else (.ok (), self)

/-- Add a participant to the network. -/
def addParticipant (self : QRAvalanche) (participantId : VertexId) : QRAvalanche :=
  { self with participants := insert participantId self.participants }

/-! ## Forks -/

/-- Two ids conflict if they have one length and differ in at most a quarter of their bytes. -/
def verticesConflict (vertex1 vertex2 : VertexId) : Bool :=
  let bytes1 := vertex1.asBytes
  let bytes2 := vertex2.asBytes
  if bytes1.length ≠ bytes2.length then false
  else
    let differences := (bytes1.zip bytes2).countP fun b => b.1 ≠ b.2
    differences ≤ bytes1.length / 4

/-- The inner loop of `detectForkConflicts`: gather the vertices not visited yet that conflict
with `vertexId`. -/
def gatherConflicts (vertexId : VertexId) (pending : List VertexId)
    (conflictSet : List VertexId) (visited : HashSet VertexId) :
    List VertexId × HashSet VertexId :=
  pending.foldl (fun (conflictSet, visited) other =>
    if other ≠ vertexId ∧ other ∉ visited ∧ verticesConflict vertexId other then
      (conflictSet ++ [other], insert other visited)
    else (conflictSet, visited)) (conflictSet, visited)

/-- The outer loop of `detectForkConflicts`, over the vertices `todo` still to come. -/
def groupConflicts (pending : List VertexId) :
    (todo : List VertexId) → HashSet VertexId → List (List VertexId) → List (List VertexId)
  | [], _, conflicts => conflicts
  | vertexId :: todo, visited, conflicts =>
    if vertexId ∈ visited then groupConflicts pending todo visited conflicts
    else
      let (conflictSet, visited) :=
        gatherConflicts vertexId pending [vertexId] (insert vertexId visited)
      groupConflicts pending todo visited
        (if 1 < conflictSet.length then conflicts ++ [conflictSet] else conflicts)

/-- The pending vertices in the order `entries` the status map is iterated in. -/
def pendingVertices (entries : List (VertexId × ConsensusStatus)) : List VertexId :=
  (entries.filter fun e => e.2 = .pending).map Prod.fst

/-- Detect fork conflicts among the pending vertices. -/
def detectForkConflicts (entries : List (VertexId × ConsensusStatus)) : List (List VertexId) :=
  let pending := pendingVertices entries
  groupConflicts pending pending ∅ []

/-- The confidence value of a vertex, zero if it has no entry. -/
def confidenceValue (self : QRAvalanche) (vertexId : VertexId) : ℚ :=
  ((self.confidence.lookup vertexId).map Confidence.value).getD 0

/-- Resolve a conflict set by choosing the first vertex with the highest confidence. -/
def resolveConflictSet (self : QRAvalanche) :
    List VertexId → Except ConsensusError VertexId
  | [] => .error .invalidState
  | [vertexId] => .ok vertexId
  | first :: rest =>
    .ok (rest.foldl (fun (bestVertex, bestConfidence) vertexId =>
      let confidence := self.confidenceValue vertexId
      if bestConfidence < confidence then (vertexId, confidence)
      else (bestVertex, bestConfidence)) (first, self.confidenceValue first)).1

/-- Record that `loser` lost a conflict against `winner`. -/
def recordConflict (self : QRAvalanche) (winner loser : VertexId) : QRAvalanche :=
  { self with votingRecord := { self.votingRecord with
      conflicts := self.votingRecord.conflicts.insert winner
        (insert loser ((self.votingRecord.conflicts.lookup winner).getD ∅)) } }

/-- Reject every vertex of a conflict set but the winner. -/
def rejectLosers (self : QRAvalanche) (winner : VertexId) (resolvedForks : List VertexId) :
    List VertexId → List VertexId × QRAvalanche
  | [] => (resolvedForks, self)
  | vertexId :: conflictSet =>
    if vertexId ≠ winner then
      ((self.rejectVertex vertexId).recordConflict winner vertexId).rejectLosers winner
        (resolvedForks ++ [vertexId]) conflictSet
    else self.rejectLosers winner resolvedForks conflictSet

/-- Resolve the conflict sets one after the other. -/
def resolveForks (self : QRAvalanche) (resolvedForks : List VertexId) :
    List (List VertexId) → Except ConsensusError (List VertexId) × QRAvalanche
  | [] => (.ok resolvedForks, self)
  | conflictSet :: conflicts =>
    if 1 < conflictSet.length then
      match self.resolveConflictSet conflictSet with
      | .error e => (.error e, self)
      | .ok winner =>
        let (resolvedForks, self) := self.rejectLosers winner resolvedForks conflictSet
        self.resolveForks resolvedForks conflicts
    else self.resolveForks resolvedForks conflicts

/-- Detect and resolve forks, with the status map iterated in the order `entries`. -/
def detectAndResolveForks (self : QRAvalanche) (entries : List (VertexId × ConsensusStatus)) :
    Except ConsensusError (List VertexId) × QRAvalanche :=
  match self.resolveForks [] (detectForkConflicts entries) with
  | (.error e, self) => (.error e, self)
  | (.ok resolvedForks, self) =>
    let metrics := resolvedForks.foldl (fun metrics _ => metrics.recordForkResolved) self.metrics
    (.ok resolvedForks, { self with metrics := metrics })

/-! ## Byzantine patterns -/

/-- A voter with more than ten votes, between 40 and 60 percent of them positive. The votes
tables are iterated over in the order `vertices`. -/
def hasConflictingVotePattern (self : QRAvalanche) (vertices : List VertexId)
    (voterId : VertexId) : Bool :=
  let voterVotes := vertices.filterMap fun vertexId =>
    (self.votingRecord.votesFor vertexId).lookup voterId
  if voterVotes.length < 5 then false
  else
    let positiveCount := voterVotes.countP (· = true)
    let positiveRatio : ℚ := (positiveCount : ℚ) / (voterVotes.length : ℚ)
    decide (4 / 10 < positiveRatio) && decide (positiveRatio < 6 / 10) &&
      decide (10 < voterVotes.length)

/-- Flag a voter with a conflicting pattern who is not flagged yet. -/
def flagPattern (vertices : List VertexId) (detected : List VertexId × QRAvalanche)
    (voterId : VertexId) : List VertexId × QRAvalanche :=
  let (detectedByzantine, self) := detected
  if self.hasConflictingVotePattern vertices voterId ∧
      voterId ∉ self.votingRecord.byzantineVoters then
    (detectedByzantine ++ [voterId],
      { self with
        votingRecord := { self.votingRecord with
          byzantineVoters := insert voterId self.votingRecord.byzantineVoters }
        metrics := self.metrics.recordByzantineBehavior })
  else (detectedByzantine, self)

/-- Flag the voters with a conflicting pattern. The votes are visited in the order `entries`, a
list of vertices with their voters. -/
def detectByzantinePatterns (self : QRAvalanche) (entries : List (VertexId × List VertexId)) :
    List VertexId × QRAvalanche :=
  (entries.flatMap Prod.snd).foldl (flagPattern (entries.map Prod.fst)) ([], self)

end QRAvalanche

end QuDAG
