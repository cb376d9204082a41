import QuDAG.Dag.Rounds

/-!
# What the consensus rounds do

One specification for both round functions, whatever the clock and the order in which the
participants are iterated.

## Main definitions

* `Sample.Counts` — the counts of a sample are those of the voters it names.
* `QRAvalanche.RoundInv` — what the loops keep of the engine they started from.
* `QRAvalanche.RoundSpec` — how a round function may end.

## Main results

* `QRAvalanche.querySample_spec` — a query counts voters who are not flagged.
* `QRAvalanche.consensusExit_spec`, `QRAvalanche.fastExit_spec` — both round functions meet the
  specification.
-/

namespace QuDAG

open RustStd

/-- The counts are those of the votes that the named voters cast on the vertex. -/
def Sample.Counts (sample : Sample) (vertexId : VertexId) : Prop :=
  sample.positive =
      sample.voters.countP (fun u => QRAvalanche.simulateParticipantVote vertexId u = true) ∧
    sample.negative =
      sample.voters.countP (fun u => QRAvalanche.simulateParticipantVote vertexId u = false)

/-- Nobody was asked. -/
lemma Sample.Counts.empty (vertexId : VertexId) : Sample.empty.Counts vertexId := ⟨rfl, rfl⟩

/-- Counting the vote of one more participant. -/
lemma Sample.Counts.count {sample : Sample} {vertexId : VertexId} (h : sample.Counts vertexId)
    (participant : VertexId) :
    (sample.count participant
      (QRAvalanche.simulateParticipantVote vertexId participant)).Counts vertexId := by
  obtain ⟨hpos, hneg⟩ := h
  unfold Sample.Counts Sample.count
  rw [List.countP_append, List.countP_append, ← hpos, ← hneg]
  cases hvote : QRAvalanche.simulateParticipantVote vertexId participant <;> simp [hvote]

namespace QRAvalanche

/-! ## Invariants of a query -/

/-- `engine` has the statuses, the tips, the configuration, the participants and the confidence
keys of `start`, and every voter flagged in `start` is still flagged. -/
structure Kept (start engine : QRAvalanche) : Prop where
  vertices : engine.vertices = start.vertices
  tips : engine.tips = start.tips
  confidence : ∀ id, id ∈ engine.confidence ↔ id ∈ start.confidence
  config : engine.config = start.config
  participants : engine.participants = start.participants
  flagged : start.votingRecord.byzantineVoters ⊆ engine.votingRecord.byzantineVoters

namespace Kept

variable {self engine engine' : QRAvalanche}

/-- Nothing has happened. -/
lemma refl (self : QRAvalanche) : Kept self self :=
  ⟨rfl, rfl, fun _ => Iff.rfl, rfl, rfl, Finset.Subset.refl _⟩

/-- One thing after the other. -/
lemma trans (h : Kept self engine) (h' : Kept engine engine') : Kept self engine' where
  vertices := h'.vertices.trans h.vertices
  tips := h'.tips.trans h.tips
  confidence id := (h'.confidence id).trans (h.confidence id)
  config := h'.config.trans h.config
  participants := h'.participants.trans h.participants
  flagged := h.flagged.trans h'.flagged

end Kept

/-- Recording a vote in the table keeps the flagged voters flagged. -/
lemma flagged_recordVote (self : VotingRecord) (vertexId voterId : VertexId) (vote : Bool) :
    self.byzantineVoters ⊆ (self.recordVote vertexId voterId vote).2.byzantineVoters := by
  rcases self.recordVote_cases vertexId voterId vote with ⟨-, heq⟩ | ⟨-, heq⟩
  · rw [heq]
    exact Finset.subset_insert _ _
  · rw [heq]
    exact Finset.Subset.refl _

/-- Changing the voting record and the metrics keeps the rest. -/
lemma kept_of_flagged {self : QRAvalanche} {votingRecord : VotingRecord}
    (h : self.votingRecord.byzantineVoters ⊆ votingRecord.byzantineVoters)
    (metrics : ConsensusMetrics) :
    Kept self { self with votingRecord := votingRecord, metrics := metrics } :=
  ⟨rfl, rfl, fun _ => Iff.rfl, rfl, rfl, h⟩

/-- **Asking participants**: the votes counted are those of participants who were not flagged
before, and only the vote table, the flags and the metrics change. -/
lemma askParticipants_spec (vertexId : VertexId) (flagged : HashSet VertexId) :
    ∀ (participants : List VertexId) (sample sample' : Sample) (self self' : QRAvalanche),
      askParticipants vertexId participants sample self = (sample', self') →
      flagged ⊆ self.votingRecord.byzantineVoters →
      sample.Counts vertexId → (∀ u ∈ sample.voters, u ∉ flagged) →
      Kept self self' ∧ sample'.Counts vertexId ∧ ∀ u ∈ sample'.voters, u ∉ flagged := by
  intro participants
  induction participants with
  | nil =>
    intro sample sample' self self' h _ hcounts hvoters
    obtain ⟨rfl, rfl⟩ := Prod.mk.inj h
    exact ⟨.refl self, hcounts, hvoters⟩
  | cons participant participants ih =>
    intro sample sample' self self' h hflagged hcounts hvoters
    rw [askParticipants] at h
    by_cases hbyz : participant ∈ self.votingRecord.byzantineVoters
    · rw [if_pos hbyz] at h
      exact ih sample sample' self self' h hflagged hcounts hvoters
    · rw [if_neg hbyz] at h
      have hcounts' := hcounts.count participant
      have hvoters' : ∀ u ∈ (sample.count participant
          (simulateParticipantVote vertexId participant)).voters, u ∉ flagged := by
        intro u hu
        rcases List.mem_append.mp hu with hu | hu
        · exact hvoters u hu
        · exact List.mem_singleton.mp hu ▸ fun hmem => hbyz (hflagged hmem)
      have hmono := flagged_recordVote self.votingRecord vertexId participant
        (simulateParticipantVote vertexId participant)
      simp only at h
      split at h <;> rename_i heq <;> rw [heq] at hmono
      · obtain ⟨hkept, hrest⟩ := ih _ _ _ _ h (hflagged.trans hmono) hcounts' hvoters'
        exact ⟨(kept_of_flagged hmono _).trans hkept, hrest⟩
      · obtain ⟨hkept, hrest⟩ := ih _ _ _ _ h (hflagged.trans hmono) hcounts' hvoters'
        exact ⟨(kept_of_flagged hmono _).trans hkept, hrest⟩

/-- **A query** never fails. It counts the votes of participants who were not flagged, and keeps
everything but the vote table, the flags and the metrics. -/
lemma querySample_spec (self : QRAvalanche) (vertexId : VertexId) (order : List VertexId) :
    ∃ sample engine, self.querySample vertexId order = (.ok sample, engine) ∧
      Kept self engine ∧ sample.Counts vertexId ∧
      ∀ u ∈ sample.voters, u ∉ self.votingRecord.byzantineVoters := by
  unfold querySample
  simp only
  split_ifs with hzero
  · exact ⟨.empty, self, rfl, .refl self, .empty vertexId, by simp [Sample.empty]⟩
  · refine ⟨_, _, rfl, ?_⟩
    exact askParticipants_spec vertexId self.votingRecord.byzantineVoters _ .empty _ self _ rfl
      (Finset.Subset.refl _) (.empty vertexId) (by simp [Sample.empty])

/-! ## Invariants of the loops -/

/-- The loop state of a round function that was started on `start`: the engine is kept, and the
sample behind the current confidence counts voters who were not flagged at the start. -/
structure RoundInv (start : QRAvalanche) (vertexId : VertexId) (s : RoundState) : Prop where
  kept : Kept start s.engine
  counts : s.sample.Counts vertexId
  voters : ∀ u ∈ s.sample.voters, u ∉ start.votingRecord.byzantineVoters

/-- How a round function that was started on `start` may end: with `Final` or `Rejected`, which
is then the stored status of the vertex, or with the stored statuses unchanged, on `Accepted` or
an error. -/
structure RoundSpec (start : QRAvalanche) (vertexId : VertexId) (e : RoundExit) : Prop where
  outcome :
    (e.result = .ok .final ∧ e.engine.vertices = start.vertices.insert vertexId .final) ∨
    (e.result = .ok .rejected ∧ e.engine.vertices = start.vertices.insert vertexId .rejected) ∨
    ((e.result = .ok .accepted ∨ ∃ error, e.result = .error error) ∧
      e.engine.vertices = start.vertices)
  confidence : ∀ id, id ∈ e.engine.confidence ↔ id ∈ start.confidence
  config : e.engine.config = start.config
  participants : e.engine.participants = start.participants
  flagged : start.votingRecord.byzantineVoters ⊆ e.engine.votingRecord.byzantineVoters
  counts : e.sample.Counts vertexId
  voters : ∀ u ∈ e.sample.voters, u ∉ start.votingRecord.byzantineVoters

section Exits

variable {self engine : QRAvalanche} {vertexId : VertexId} {sample : Sample}
  (hkept : Kept self engine) (hcounts : sample.Counts vertexId)
  (hvoters : ∀ u ∈ sample.voters, u ∉ self.votingRecord.byzantineVoters)

include hkept hcounts hvoters

/-- Ending on `Final`. -/
lemma roundSpec_finalExit (now : Instant) :
    RoundSpec self vertexId (engine.finalExit vertexId now sample) where
  outcome := .inl ⟨rfl, by rw [← hkept.vertices]; rfl⟩
  confidence := hkept.confidence
  config := hkept.config
  participants := hkept.participants
  flagged := hkept.flagged
  counts := hcounts
  voters := hvoters

/-- Ending on `Rejected`. -/
lemma roundSpec_rejectedExit : RoundSpec self vertexId (engine.rejectedExit vertexId sample) where
  outcome := .inr (.inl ⟨rfl, by rw [← hkept.vertices]; rfl⟩)
  confidence := hkept.confidence
  config := hkept.config
  participants := hkept.participants
  flagged := hkept.flagged
  counts := hcounts
  voters := hvoters

/-- Ending without a decision. -/
lemma roundSpec_undecided {result : Except ConsensusError ConsensusStatus}
    (hresult : result = .ok .accepted ∨ ∃ error, result = .error error) :
    RoundSpec self vertexId ⟨result, engine, sample⟩ where
  outcome := .inr (.inr ⟨hresult, hkept.vertices⟩)
  confidence := hkept.confidence
  config := hkept.config
  participants := hkept.participants
  flagged := hkept.flagged
  counts := hcounts
  voters := hvoters

end Exits

/-- Updating a confidence entry keeps the engine. -/
lemma kept_updateConfidence (self : QRAvalanche) (vertexId : VertexId)
    (update : Confidence → Confidence) (currentConfidence : ℚ) :
    Kept self (self.updateConfidence vertexId update currentConfidence).1 := by
  unfold updateConfidence
  split
  · rename_i confidence hconfidence
    refine ⟨rfl, rfl, fun id => ?_, rfl, rfl, Finset.Subset.refl _⟩
    rw [Finmap.mem_insert]
    exact or_iff_right_of_imp fun hid => hid ▸ HashMap.mem_of_lookup hconfidence
  · exact .refl self

section Rounds

variable {self : QRAvalanche} {vertexId : VertexId} {order : List VertexId} {clock : RoundClock}

/-- The loops start from the engine itself. -/
lemma roundInv_start (self : QRAvalanche) (vertexId : VertexId) :
    RoundInv self vertexId (.start self) :=
  ⟨.refl self, .empty vertexId, by simp [RoundState.start, Sample.empty]⟩

/-- A query in the middle of a loop. -/
lemma RoundInv.querySample {s : RoundState} (h : RoundInv self vertexId s)
    (order : List VertexId) :
    ∃ sample engine, s.engine.querySample vertexId order = (.ok sample, engine) ∧
      Kept self engine ∧ sample.Counts vertexId ∧
      ∀ u ∈ sample.voters, u ∉ self.votingRecord.byzantineVoters := by
  obtain ⟨sample, engine, hquery, hkept, hcounts, hvoters⟩ :=
    s.engine.querySample_spec vertexId order
  exact ⟨sample, engine, hquery, h.kept.trans hkept, hcounts,
    fun u hu hbyz => hvoters u hu (h.kept.flagged hbyz)⟩

/-! ## `run_consensus_round` -/

/-- Running out of rounds or time. -/
lemma RoundInv.consensusExhausted {s : RoundState} (h : RoundInv self vertexId s) :
    RoundSpec self vertexId (consensusExhausted s) := by
  unfold QRAvalanche.consensusExhausted
  split_ifs
  · exact roundSpec_undecided h.kept h.counts h.voters (.inl rfl)
  · exact roundSpec_undecided h.kept h.counts h.voters (.inr ⟨_, rfl⟩)

/-- **One round** keeps the invariant if it continues and meets the specification if it ends. -/
lemma RoundInv.consensusRound {s : RoundState} (h : RoundInv self vertexId s) (round : ℕ) :
    (∀ s', consensusRound vertexId order clock round s = .inl s' → RoundInv self vertexId s') ∧
    ∀ e, consensusRound vertexId order clock round s = .inr e → RoundSpec self vertexId e := by
  obtain ⟨sample, engine, hquery, hkept, hcounts, hvoters⟩ := h.querySample order
  have hkept' := hkept.trans (engine.kept_updateConfidence vertexId
    (smoothVotes sample (clock.update round)) s.currentConfidence)
  simp only [QRAvalanche.consensusRound, hquery]
  split_ifs
  all_goals simp only [false_implies, implies_true, true_and, and_true,
    Sum.inl.injEq, Sum.inr.injEq, forall_eq']
  · exact h.consensusExhausted
  · exact roundSpec_undecided hkept hcounts hvoters (.inr ⟨_, rfl⟩)
  all_goals first
    | exact roundSpec_finalExit hkept' hcounts hvoters _
    | exact roundSpec_rejectedExit hkept' hcounts hvoters
    | exact ⟨hkept', hcounts, hvoters⟩

/-- **`run_consensus_round` meets the specification.** -/
lemma consensusExit_spec (self : QRAvalanche) (vertexId : VertexId) (order : List VertexId)
    (clock : RoundClock) :
    RoundSpec self vertexId (self.consensusExit vertexId order clock) :=
  Loop.forLoop_rule _ _ (RoundInv self vertexId) (RoundSpec self vertexId)
    (fun round _ s' h => (h.consensusRound round).1 s')
    (fun round _ e h => (h.consensusRound round).2 e)
    (fun _ h => h.consensusExhausted) _ _ _ (roundInv_start self vertexId)

/-! ## `run_fast_consensus_round` -/

/-- The final decision. -/
lemma RoundInv.fastExhausted {s : RoundState} (h : RoundInv self vertexId s) :
    RoundSpec self vertexId (fastExhausted vertexId clock s) := by
  unfold QRAvalanche.fastExhausted
  split_ifs
  · exact roundSpec_finalExit h.kept h.counts h.voters _
  · exact roundSpec_undecided h.kept h.counts h.voters (.inl rfl)
  · exact roundSpec_undecided h.kept h.counts h.voters (.inr ⟨_, rfl⟩)

/-- A query with another sample size, which is restored after it. -/
lemma RoundInv.querySample_setSampleSize {s : RoundState} (h : RoundInv self vertexId s)
    (order : List VertexId) (size : ℕ) :
    ∃ sample engine, (s.engine.setSampleSize size).querySample vertexId order =
        (.ok sample, engine) ∧
      Kept self (engine.setSampleSize s.engine.config.querySampleSize) ∧
      sample.Counts vertexId ∧ ∀ u ∈ sample.voters, u ∉ self.votingRecord.byzantineVoters := by
  obtain ⟨sample, engine, hquery, hkept, hcounts, hvoters⟩ :=
    (s.engine.setSampleSize size).querySample_spec vertexId order
  have hrestored : Kept s.engine (engine.setSampleSize s.engine.config.querySampleSize) := by
    refine ⟨hkept.vertices, hkept.tips, hkept.confidence, ?_, hkept.participants, hkept.flagged⟩
    simp only [setSampleSize, hkept.config]
  exact ⟨sample, engine, hquery, h.kept.trans hrestored, hcounts,
    fun u hu hbyz => hvoters u hu (h.kept.flagged hbyz)⟩

/-- **One fast round** keeps the invariant if it continues and meets the specification if it
ends. -/
lemma RoundInv.fastRound {s : RoundState} (h : RoundInv self vertexId s) (round : ℕ) :
    (∀ s', fastRound vertexId order clock round s = .inl s' → RoundInv self vertexId s') ∧
    ∀ e, fastRound vertexId order clock round s = .inr e → RoundSpec self vertexId e := by
  obtain ⟨sample, engine, hquery, hkept, hcounts, hvoters⟩ :=
    h.querySample_setSampleSize order
      (if round < 5 then min 10 s.engine.config.querySampleSize
        else s.engine.config.querySampleSize)
  have hkept' := hkept.trans ((engine.setSampleSize
    s.engine.config.querySampleSize).kept_updateConfidence vertexId
    (fun c => c.updateVotes sample.positive sample.negative (clock.update round))
    s.currentConfidence)
  simp only [QRAvalanche.fastRound, hquery]
  split_ifs
  all_goals simp only [false_implies, implies_true, true_and, and_true,
    Sum.inl.injEq, Sum.inr.injEq, forall_eq']
  all_goals first
    | exact h.fastExhausted
    | exact ⟨hkept, h.counts, h.voters⟩
    | exact roundSpec_finalExit hkept' hcounts hvoters _
    | exact roundSpec_rejectedExit hkept' hcounts hvoters
    | exact ⟨hkept', hcounts, hvoters⟩

/-- **`run_fast_consensus_round` meets the specification.** -/
lemma fastExit_spec (self : QRAvalanche) (vertexId : VertexId) (order : List VertexId)
    (clock : RoundClock) : RoundSpec self vertexId (self.fastExit vertexId order clock) :=
  Loop.forLoop_rule _ _ (RoundInv self vertexId) (RoundSpec self vertexId)
    (fun round _ s' h => (h.fastRound round).1 s') (fun round _ e h => (h.fastRound round).2 e)
    (fun _ h => h.fastExhausted) _ _ _ (roundInv_start self vertexId)

end Rounds

end QRAvalanche

end QuDAG
