import QuDAG.Dag.Decisions

/-!
# The count of finalized vertices

The metrics of the engine count finality. The count goes up whenever a vertex is finalized that was
once processed, also if it was final before, and not if it was never processed.

## Main definitions

* `QRAvalanche.Watched` — an engine and the vertices that have ever been `Final`.
* `QRAvalanche.Watched.CountsFinalized` — the count is their number.
* `QRAvalanche.Op.finalizes` — the vertex that a call finalizes.
* `QRAvalanche.Watched.FinalizesNew` — a call finalizes only a processed vertex that was never
  `Final`.

## Main results

* `QRAvalanche.finalizesSpec_apply` — what one call does to the count.
* `QRAvalanche.Watched.countsFinalized_iff` — the runs in which vertices are counted once.
-/

namespace QuDAG

open RustStd

namespace QRAvalanche

/-! ## What leaves the count alone -/

/-- The count of finalized vertices and the processed vertices are the same. -/
def Uncounted (start engine : QRAvalanche) : Prop :=
  engine.metrics.finalizedCount = start.metrics.finalizedCount ∧
    engine.vertexStartTimes = start.vertexStartTimes

variable {self engine engine' : QRAvalanche} {vertexId : VertexId}

/-- Nothing has happened. -/
lemma Uncounted.refl (self : QRAvalanche) : Uncounted self self := ⟨rfl, rfl⟩

/-- One thing after the other. -/
lemma Uncounted.trans (h : Uncounted self engine) (h' : Uncounted engine engine') :
    Uncounted self engine' := ⟨h'.1.trans h.1, h'.2.trans h.2⟩

/-- Asking participants leaves the count alone. -/
lemma uncounted_askParticipants (vertexId : VertexId) :
    ∀ (participants : List VertexId) (sample : Sample) (self : QRAvalanche),
      Uncounted self (askParticipants vertexId participants sample self).2 := by
  intro participants
  induction participants with
  | nil => exact fun _ self => .refl self
  | cons participant participants ih =>
    intro sample self
    rw [askParticipants]
    split_ifs
    · exact ih sample self
    · dsimp only
      split
      · exact Uncounted.trans ⟨rfl, rfl⟩ (ih _ _)
      · exact Uncounted.trans ⟨rfl, rfl⟩ (ih _ _)

/-- A query leaves the count alone. -/
lemma uncounted_querySample (self : QRAvalanche) (vertexId : VertexId) (order : List VertexId) :
    Uncounted self (self.querySample vertexId order).2 := by
  unfold querySample
  dsimp only
  split_ifs
  · exact .refl self
  · exact uncounted_askParticipants vertexId _ _ self

/-- Updating a confidence leaves the count alone. -/
lemma uncounted_updateConfidence (self : QRAvalanche) (vertexId : VertexId)
    (update : Confidence → Confidence) (currentConfidence : ℚ) :
    Uncounted self (self.updateConfidence vertexId update currentConfidence).1 := by
  unfold updateConfidence
  split
  · exact ⟨rfl, rfl⟩
  · exact .refl self

/-- Rejecting the losers of a conflict leaves the count alone. -/
lemma uncounted_rejectLosers (winner : VertexId) :
    ∀ (conflictSet resolvedForks : List VertexId) (self : QRAvalanche),
      Uncounted self (self.rejectLosers winner resolvedForks conflictSet).2 := by
  intro conflictSet
  induction conflictSet with
  | nil => exact fun _ self => .refl self
  | cons id conflictSet ih =>
    intro resolvedForks self
    rw [rejectLosers]
    split_ifs
    · exact Uncounted.trans ⟨rfl, rfl⟩ (ih _ _)
    · exact ih _ _

/-- Resolving forks leaves the count alone and makes no vertex `Final`. -/
lemma uncounted_resolveForks : ∀ (conflicts : List (List VertexId)) (resolvedForks : List VertexId)
    (self : QRAvalanche), Uncounted self (self.resolveForks resolvedForks conflicts).2 ∧
      ∀ id, (self.resolveForks resolvedForks conflicts).2.status id = some .final →
        self.status id = some .final := by
  intro conflicts
  induction conflicts with
  | nil => exact fun _ self => ⟨.refl self, fun _ h => h⟩
  | cons conflictSet conflicts ih =>
    intro resolvedForks self
    rw [resolveForks]
    split_ifs
    · cases self.resolveConflictSet conflictSet with
      | error e => exact ⟨.refl self, fun _ h => h⟩
      | ok winner =>
        obtain ⟨hcount, hfinal⟩ := ih (self.rejectLosers winner resolvedForks conflictSet).1
          (self.rejectLosers winner resolvedForks conflictSet).2
        refine ⟨(uncounted_rejectLosers winner conflictSet resolvedForks self).trans hcount,
          fun id h => ?_⟩
        have hrejected := hfinal id h
        rw [(rejectLosers_vertices winner conflictSet resolvedForks self).2] at hrejected
        split_ifs at hrejected
        · simp at hrejected
        · exact hrejected
    · exact ih _ _

/-- Looking for Byzantine patterns leaves the count alone. -/
lemma uncounted_detectByzantinePatterns (self : QRAvalanche)
    (entries : List (VertexId × List VertexId)) :
    Uncounted self (self.detectByzantinePatterns entries).2 := by
  have hfold : ∀ (vertices voters : List VertexId) (detected : List VertexId × QRAvalanche),
      Uncounted detected.2 (voters.foldl (flagPattern vertices) detected).2 := by
    intro vertices voters
    induction voters with
    | nil => exact fun detected => .refl detected.2
    | cons voterId voters ih =>
      intro detected
      have hflag : Uncounted detected.2 (flagPattern vertices detected voterId).2 := by
        obtain ⟨detectedByzantine, engine⟩ := detected
        simp only [flagPattern]
        split_ifs
        · exact ⟨rfl, rfl⟩
        · exact .refl engine
      exact hflag.trans (ih _)
  exact hfold _ _ ([], self)

/-! ## What a finalization counts -/

/-- A vertex is counted when it is finalized, if it was processed. -/
def finalityIncrement (self : QRAvalanche) (vertexId : VertexId) : ℕ :=
  if vertexId ∈ self.vertexStartTimes then 1 else 0

/-- Finalizing a vertex. -/
lemma finalizeVertex_count (self : QRAvalanche) (vertexId : VertexId) (now : Instant) :
    (self.finalizeVertex vertexId now).2.metrics.finalizedCount =
      self.metrics.finalizedCount + self.finalityIncrement vertexId := by
  unfold finalizeVertex finalityIncrement
  cases hstart : self.vertexStartTimes.lookup vertexId with
  | none => rw [if_neg (Finmap.lookup_eq_none.mp hstart)]; rfl
  | some startTime => rw [if_pos (HashMap.mem_of_lookup hstart)]; rfl

/-- How a round function that was started on `start` leaves the count: it finalizes the vertex iff
it returns `Final`. -/
structure RoundCount (start : QRAvalanche) (vertexId : VertexId) (e : RoundExit) : Prop where
  count : e.engine.metrics.finalizedCount = start.metrics.finalizedCount +
    if e.result = .ok .final then start.finalityIncrement vertexId else 0
  startTimes : e.engine.vertexStartTimes = start.vertexStartTimes

/-- Ending on `Final`. -/
lemma roundCount_finalExit (h : Uncounted self engine) (now : Instant) (sample : Sample) :
    RoundCount self vertexId (engine.finalExit vertexId now sample) where
  count := by
    have hcount := engine.finalizeVertex_count vertexId now
    unfold finalityIncrement at hcount ⊢
    rw [h.1, h.2] at hcount
    exact hcount.trans (congrArg _ (if_pos rfl).symm)
  startTimes := h.2

/-- Ending on something else. -/
lemma roundCount_of_ne (h : Uncounted self engine) {e : RoundExit} (he : Uncounted engine e.engine)
    (hne : e.result ≠ .ok .final) : RoundCount self vertexId e where
  count := by rw [if_neg hne, Nat.add_zero, (h.trans he).1]
  startTimes := (h.trans he).2

section Rounds

variable {order : List VertexId} {clock : RoundClock} {s : RoundState}

/-- Running out of rounds or time. -/
lemma roundCount_consensusExhausted (h : Uncounted self s.engine) :
    RoundCount self vertexId (consensusExhausted s) := by
  unfold consensusExhausted
  split_ifs
  · exact roundCount_of_ne h (.refl _) (by simp)
  · exact roundCount_of_ne h (.refl _) (by simp)

/-- **One round.** -/
lemma roundCount_consensusRound (h : Uncounted self s.engine) (round : ℕ) :
    (∀ s', consensusRound vertexId order clock round s = .inl s' → Uncounted self s'.engine) ∧
    ∀ e, consensusRound vertexId order clock round s = .inr e → RoundCount self vertexId e := by
  obtain ⟨sample, engine, hquery, -⟩ := s.engine.querySample_spec vertexId order
  have hengine : Uncounted self engine := by
    have hcount := s.engine.uncounted_querySample vertexId order
    rw [hquery] at hcount
    exact h.trans hcount
  have hupdated := hengine.trans (engine.uncounted_updateConfidence vertexId
    (smoothVotes sample (clock.update round)) s.currentConfidence)
  simp only [consensusRound, hquery]
  split_ifs
  all_goals simp only [false_implies, implies_true, true_and, and_true,
    Sum.inl.injEq, Sum.inr.injEq, forall_eq']
  all_goals first
    | exact roundCount_consensusExhausted h
    | exact roundCount_finalExit hupdated _ _
    | exact roundCount_of_ne hengine (.refl _) (by simp)
    | exact roundCount_of_ne hupdated ⟨rfl, rfl⟩ (by simp [rejectedExit])
    | exact hupdated

/-- `run_consensus_round` counts a vertex that it finalizes. -/
lemma roundCount_consensusExit (self : QRAvalanche) (vertexId : VertexId) (order : List VertexId)
    (clock : RoundClock) : RoundCount self vertexId (self.consensusExit vertexId order clock) :=
  Loop.forLoop_rule _ _ (fun s => Uncounted self s.engine) (RoundCount self vertexId)
    (fun round _ s' h => (roundCount_consensusRound h round).1 s')
    (fun round _ e h => (roundCount_consensusRound h round).2 e)
    (fun _ h => roundCount_consensusExhausted h) _ _ _ (.refl self)

/-- The final decision of the fast round. -/
lemma roundCount_fastExhausted (h : Uncounted self s.engine) :
    RoundCount self vertexId (fastExhausted vertexId clock s) := by
  unfold fastExhausted
  split_ifs
  · exact roundCount_finalExit h _ _
  · exact roundCount_of_ne h (.refl _) (by simp)
  · exact roundCount_of_ne h (.refl _) (by simp)

/-- **One fast round.** -/
lemma roundCount_fastRound (h : Uncounted self s.engine) (round : ℕ) :
    (∀ s', fastRound vertexId order clock round s = .inl s' → Uncounted self s'.engine) ∧
    ∀ e, fastRound vertexId order clock round s = .inr e → RoundCount self vertexId e := by
  generalize hsize : (if round < 5 then min 10 s.engine.config.querySampleSize
    else s.engine.config.querySampleSize) = size
  obtain ⟨sample, engine, hquery, -⟩ :=
    (s.engine.setSampleSize size).querySample_spec vertexId order
  have hengine : Uncounted self (engine.setSampleSize s.engine.config.querySampleSize) := by
    have hcount := (s.engine.setSampleSize size).uncounted_querySample vertexId order
    rw [hquery] at hcount
    exact h.trans (Uncounted.trans ⟨rfl, rfl⟩ (hcount.trans ⟨rfl, rfl⟩))
  have hupdated := hengine.trans
    ((engine.setSampleSize s.engine.config.querySampleSize).uncounted_updateConfidence vertexId
      (fun c => c.updateVotes sample.positive sample.negative (clock.update round))
      s.currentConfidence)
  simp only [fastRound, hsize, hquery]
  split_ifs
  all_goals simp only [false_implies, implies_true, true_and, and_true,
    Sum.inl.injEq, Sum.inr.injEq, forall_eq']
  all_goals first
    | exact roundCount_fastExhausted h
    | exact roundCount_finalExit hupdated _ _
    | exact roundCount_of_ne hupdated ⟨rfl, rfl⟩ (by simp [rejectedExit])
    | exact hengine
    | exact hupdated

/-- `run_fast_consensus_round` counts a vertex that it finalizes. -/
lemma roundCount_fastExit (self : QRAvalanche) (vertexId : VertexId) (order : List VertexId)
    (clock : RoundClock) : RoundCount self vertexId (self.fastExit vertexId order clock) :=
  Loop.forLoop_rule _ _ (fun s => Uncounted self s.engine) (RoundCount self vertexId)
    (fun round _ s' h => (roundCount_fastRound h round).1 s')
    (fun round _ e h => (roundCount_fastRound h round).2 e)
    (fun _ h => roundCount_fastExhausted h) _ _ _ (.refl self)

end Rounds

/-! ## What a call counts -/

/-- The vertex that a call finalizes: the one whose vote decides on `Final`, or whose round returns
`Final`. -/
def Op.finalizes (self : QRAvalanche) : Op → Option VertexId
  | .recordVote vertexId voterId vote _ =>
    if self.decision vertexId voterId vote = some .final then some vertexId else none
  | .runConsensusRound vertexId order clock =>
    if (self.consensusExit vertexId order clock).result = .ok .final then some vertexId else none
  | .runFastConsensusRound vertexId order clock =>
    if (self.fastExit vertexId order clock).result = .ok .final then some vertexId else none
  | _ => none

/-- What a call that finalizes `finalized` does to the count and to the stored statuses. -/
structure FinalizesSpec (before after : QRAvalanche) (finalized : Option VertexId) : Prop where
  count : after.metrics.finalizedCount =
    before.metrics.finalizedCount + (finalized.map before.finalityIncrement).getD 0
  startTimes : ∀ id ∈ before.vertexStartTimes, id ∈ after.vertexStartTimes
  final : ∀ id ∈ finalized, after.status id = some .final
  others : ∀ id, after.status id = some .final →
    before.status id = some .final ∨ id ∈ finalized

/-- A call that counts nothing and makes no vertex `Final`. -/
lemma finalizesSpec_none (h : Uncounted self engine)
    (hstatus : ∀ id, engine.status id = some .final → self.status id = some .final) :
    FinalizesSpec self engine none where
  count := by simp [h.1]
  startTimes id hid := h.2 ▸ hid
  final id hid := by simp at hid
  others id hid := .inl (hstatus id hid)

/-- A round. -/
lemma finalizesSpec_round {e : RoundExit} (h : RoundSpec self vertexId e)
    (hcount : RoundCount self vertexId e) :
    FinalizesSpec self e.engine (if e.result = .ok .final then some vertexId else none) := by
  have hothers : ∀ id, id ≠ vertexId → e.engine.status id = some .final →
      self.status id = some .final := fun id hid hfinal => (h.status hid).symm.trans hfinal
  have hstatus : e.result = .ok .final → e.engine.status vertexId = some .final := fun hres =>
    h.stores.stored .final hres (by simp)
  refine ⟨?_, fun id hid => hcount.startTimes ▸ hid, fun id hid => ?_, fun id hid => ?_⟩
  · rw [hcount.count]
    split_ifs <;> rfl
  · split_ifs at hid with hres
    · obtain rfl := Option.some.inj hid
      exact hstatus hres
    · simp at hid
  · by_cases hne : id = vertexId
    · subst hne
      rcases h.outcome with ⟨hres, -⟩ | ⟨hres, hver⟩ | ⟨-, hver⟩
      · exact .inr (by rw [if_pos hres]; rfl)
      · unfold status at hid
        rw [hver, Finmap.lookup_insert] at hid
        simp at hid
      · unfold status at hid
        rw [hver] at hid
        exact .inl hid
    · exact .inl (hothers id hne hid)

/-- A vote counts the vertex that it finalizes. -/
lemma recordVote_count (self : QRAvalanche) (vertexId voterId : VertexId) (vote : Bool)
    (now : Instant) :
    (self.recordVote vertexId voterId vote now).2.metrics.finalizedCount =
        self.metrics.finalizedCount +
          (if self.decision vertexId voterId vote = some .final then
            self.finalityIncrement vertexId else 0) ∧
      (self.recordVote vertexId voterId vote now).2.vertexStartTimes = self.vertexStartTimes := by
  rcases self.votingRecord.recordVote_cases vertexId voterId vote with ⟨hprev, heq⟩ | ⟨hprev, heq⟩
  · simp [QRAvalanche.recordVote, heq, decision, hprev]
  · cases hconf : self.confidence.lookup vertexId with
    | none =>
      have hnotMem : vertexId ∉ self.confidence := Finmap.lookup_eq_none.mp hconf
      simp [QRAvalanche.recordVote, heq, hconf, decision, hnotMem]
    | some confidence =>
      have hmem : vertexId ∈ self.confidence := HashMap.mem_of_lookup hconf
      have hvalue := self.value_updateVotes vertexId voterId vote confidence now
      simp only [QRAvalanche.recordVote, heq, hconf, decision, hprev, hmem, not_true_eq_false,
        or_self, if_false, hvalue]
      by_cases hbeta : self.config.beta ≤ self.shareWith vertexId voterId vote
      · rw [if_pos hbeta, if_pos hbeta, if_pos rfl]
        exact ⟨finalizeVertex_count _ vertexId now, rfl⟩
      · rw [if_neg hbeta, if_neg hbeta]
        split_ifs <;> simp_all [rejectVertex]

/-- A new vertex is pending, so none is finalized. -/
lemma finalizesSpec_processVertex (self : QRAvalanche) (id : VertexId) (now : Instant) :
    FinalizesSpec self ((Op.processVertex id now).apply self)
      ((Op.processVertex id now).finalizes self) := by
  refine ⟨rfl, fun id' hid => Finmap.mem_insert.mpr (.inr hid), by simp [Op.finalizes],
    fun id' hid => ?_⟩
  have hstatus : (Op.apply self (.processVertex id now)).status id' =
      if id' = id then some .pending else self.status id' := HashMap.lookup_insert_ite _ _ _ _
  rw [hstatus] at hid
  split_ifs at hid
  · simp at hid
  · exact .inl hid

/-- A vote finalizes its vertex exactly if it decides to accept it. -/
lemma finalizesSpec_recordVote (self : QRAvalanche) (id voterId : VertexId)
    (vote : Bool) (now : Instant) :
    FinalizesSpec self ((Op.recordVote id voterId vote now).apply self)
      ((Op.recordVote id voterId vote now).finalizes self) := by
  obtain ⟨hcount, hstart⟩ := self.recordVote_count id voterId vote now
  have hstatus := self.recordVote_status id voterId vote now
  refine ⟨?_, fun id' hid => (congrArg (id' ∈ ·) hstart).mpr hid, fun id' hid => ?_,
    fun id' hid => ?_⟩
  · refine hcount.trans ?_
    dsimp only [Op.finalizes]
    split_ifs <;> rfl
  · dsimp only [Op.finalizes] at hid
    split_ifs at hid with hdecision
    · obtain rfl := Option.some.inj hid
      exact (hstatus id).trans (by rw [if_pos rfl, hdecision, Option.some_or])
    · simp at hid
  · have hid' := (hstatus id').symm.trans hid
    split_ifs at hid' with hne
    · subst hne
      cases hdecision : self.decision id' voterId vote with
      | none =>
        rw [hdecision, Option.none_or] at hid'
        exact .inl hid'
      | some decided =>
        rw [hdecision, Option.some_or] at hid'
        refine .inr ?_
        rw [Op.finalizes, hdecision, if_pos hid']
        rfl
    · exact .inl hid'

/-- Counting resolved forks leaves the count of finalized vertices alone. -/
lemma finalizedCount_foldl_recordForkResolved : ∀ (l : List VertexId)
    (metrics : ConsensusMetrics),
    (l.foldl (fun metrics _ => metrics.recordForkResolved) metrics).finalizedCount =
      metrics.finalizedCount
  | [], _ => rfl
  | _ :: l, metrics =>
    (finalizedCount_foldl_recordForkResolved l metrics.recordForkResolved).trans rfl

/-- **What one call counts.** -/
lemma finalizesSpec_apply (self : QRAvalanche) (op : Op) :
    FinalizesSpec self (op.apply self) (op.finalizes self) := by
  cases op with
  | processVertex id now => exact self.finalizesSpec_processVertex id now
  | recordVote id voterId vote now => exact self.finalizesSpec_recordVote id voterId vote now
  | addParticipant participantId => exact finalizesSpec_none ⟨rfl, rfl⟩ fun _ h => h
  | querySample id order =>
    obtain ⟨sample, engine, heq, hkept, -⟩ := self.querySample_spec id order
    refine finalizesSpec_none (self.uncounted_querySample id order) fun id' h => ?_
    simpa [Op.apply, heq, status, hkept.vertices] using h
  | detectAndResolveForks entries =>
    obtain ⟨hcount, hfinal⟩ := uncounted_resolveForks (detectForkConflicts entries) [] self
    simp only [Op.apply, Op.finalizes, detectAndResolveForks]
    rcases hres : self.resolveForks [] (detectForkConflicts entries) with
      ⟨_ | resolvedForks, engine⟩ <;> rw [hres] at hcount hfinal
    · exact finalizesSpec_none hcount hfinal
    · exact finalizesSpec_none
        ⟨(finalizedCount_foldl_recordForkResolved _ _).trans hcount.1, hcount.2⟩ hfinal
  | detectByzantinePatterns entries =>
    refine finalizesSpec_none (self.uncounted_detectByzantinePatterns entries) fun id h => ?_
    simpa [Op.apply, status, detectByzantinePatterns_vertices] using h
  | runConsensusRound id order clock =>
    exact finalizesSpec_round (self.consensusExit_spec id order clock)
      (self.roundCount_consensusExit id order clock)
  | runFastConsensusRound id order clock =>
    exact finalizesSpec_round (self.fastExit_spec id order clock)
      (self.roundCount_fastExit id order clock)

/-! ## Runs -/

/-- An engine, with the vertices that have ever been `Final`. -/
structure Watched where
  engine : QRAvalanche
  finalized : HashSet VertexId

namespace Watched

/-- The vertices that are `Final`. -/
def finals (engine : QRAvalanche) : HashSet VertexId :=
  engine.vertices.keys.filter fun id => engine.status id = some .final

/-- A call, after which the vertices that are `Final` are noted. -/
def apply (s : Watched) (op : Op) : Watched :=
  ⟨op.apply s.engine, s.finalized ∪ finals (op.apply s.engine)⟩

/-- A new engine. -/
def start (config : QRAvalancheConfig) (now : Instant) : Watched := ⟨withConfig config now, ∅⟩

/-- The count is the number of vertices that have ever been `Final`. -/
def CountsFinalized (s : Watched) : Prop :=
  s.engine.metrics.finalizedCount = s.finalized.card

/-- The call finalizes no vertex, or a processed one that has never been `Final`. -/
def FinalizesNew (s : Watched) (op : Op) : Prop :=
  ∀ id ∈ op.finalizes s.engine, id ∉ s.finalized ∧ id ∈ s.engine.vertexStartTimes

/-- The vertices that have ever been `Final` are counted, and were processed. -/
structure Inv (s : Watched) : Prop where
  counts : s.CountsFinalized
  processed : ∀ id ∈ s.finalized, id ∈ s.engine.vertexStartTimes
  finals : finals s.engine ⊆ s.finalized

@[simp] lemma mem_finals {engine : QRAvalanche} {id : VertexId} :
    id ∈ finals engine ↔ engine.status id = some .final := by
  unfold finals
  rw [Finset.mem_filter, and_iff_right_iff_imp]
  exact fun h => Finmap.mem_keys.mpr (HashMap.mem_of_lookup h)

/-- The finalized vertices after a call. -/
lemma Inv.finalized_apply {s : Watched} (h : s.Inv) (op : Op) :
    (s.apply op).finalized = s.finalized ∪ (op.finalizes s.engine).toFinset := by
  have hspec := finalizesSpec_apply s.engine op
  ext id
  simp only [apply, Finset.mem_union, mem_finals, Option.mem_toFinset]
  constructor
  · rintro (hid | hid)
    · exact .inl hid
    · rcases hspec.others id hid with hid | hid
      · exact .inl (h.finals (mem_finals.mpr hid))
      · exact .inr hid
  · exact Or.imp_right (hspec.final id)

/-- **One call** counts the finalized vertices iff it finalizes nothing, or a new vertex. -/
lemma Inv.apply_iff {s : Watched} (h : s.Inv) (op : Op) :
    (s.FinalizesNew op → (s.apply op).Inv) ∧
      ((s.apply op).CountsFinalized → s.FinalizesNew op) := by
  have hspec := finalizesSpec_apply s.engine op
  have hfinalized := h.finalized_apply op
  have hcount : (s.apply op).engine.metrics.finalizedCount =
      s.finalized.card + ((op.finalizes s.engine).map s.engine.finalityIncrement).getD 0 := by
    rw [← h.counts]
    exact hspec.count
  have hfinals : Watched.finals (s.apply op).engine ⊆ (s.apply op).finalized :=
    Finset.subset_union_right
  unfold FinalizesNew CountsFinalized
  cases hop : op.finalizes s.engine with
  | none =>
    rw [hop] at hfinalized hcount
    simp only [Option.toFinset_none, Finset.union_empty] at hfinalized
    refine ⟨fun _ => ⟨?_, fun id hid => ?_, hfinals⟩, by simp⟩
    · unfold CountsFinalized
      rw [hcount, hfinalized]
      rfl
    · exact hspec.startTimes id (h.processed id (hfinalized ▸ hid))
  | some id =>
    rw [hop] at hfinalized hcount
    simp only [Option.toFinset_some, Finset.union_singleton] at hfinalized
    simp only [Option.map_some, Option.getD_some, finalityIncrement] at hcount
    simp only [Option.mem_def, Option.some.injEq, forall_eq']
    constructor
    · rintro ⟨hnew, hstart⟩
      refine ⟨?_, fun id' hid => ?_, hfinals⟩
      · unfold CountsFinalized
        rw [hcount, if_pos hstart, hfinalized, Finset.card_insert_of_notMem hnew]
      · rw [hfinalized] at hid
        rcases Finset.mem_insert.mp hid with rfl | hid
        · exact hspec.startTimes id' hstart
        · exact hspec.startTimes id' (h.processed id' hid)
    · intro heq
      rw [hcount, hfinalized] at heq
      by_cases hmem : id ∈ s.finalized
      · rw [if_pos (h.processed id hmem), Finset.insert_eq_of_mem hmem] at heq
        omega
      · rw [Finset.card_insert_of_notMem hmem] at heq
        refine ⟨hmem, ?_⟩
        by_contra hstart
        rw [if_neg hstart] at heq
        omega

/-- Nothing is `Final` in a new engine. -/
lemma inv_start (config : QRAvalancheConfig) (now : Instant) : (start config now).Inv where
  counts := rfl
  processed id hid := by simp [start] at hid
  finals id hid := by simp [start, status, withConfig] at hid

/-- **Exactly when finality is counted once**: in a run of a new engine, the count of the metrics is
the number of vertices that have ever been `Final`, at every point, iff every call that finalizes a
vertex finalizes a processed one for the first time. -/
theorem countsFinalized_iff (config : QRAvalancheConfig) (now : Instant) (ops : List Op) :
    Runs.Always apply CountsFinalized (start config now) ops ↔
      Runs.Steps apply FinalizesNew (start config now) ops :=
  Runs.always_iff_steps (V := fun _ _ => True) Inv (fun _ h => h.counts)
    (fun _ op h _ hnew => (h.apply_iff op).1 hnew)
    (fun _ op h _ hcounts => (h.apply_iff op).2 hcounts)
    (Runs.steps_of_forall fun _ _ => trivial) (inv_start config now)

/-- Two positive votes on a vertex: both finalize it, and both are counted. -/
theorem not_countsFinalized_twoVotes :
    ¬ Runs.Always apply CountsFinalized (start .default 0)
      [.processVertex (.fromBytes [9]) 0,
        .recordVote (.fromBytes [9]) (.fromBytes [0]) true 0,
        .recordVote (.fromBytes [9]) (.fromBytes [1]) true 0] := by
  intro h
  have hend := Runs.always_iff.mp h _ (List.prefix_refl _)
  revert hend
  unfold CountsFinalized
  decide +kernel

end Watched

end QRAvalanche

end QuDAG
