import QuDAG.Dag.Decisions
import QuDAG.Lib.RunningShare

/-!
# Votes in different orders

A vertex is processed and then voted on, each voter once. Its status is the tally of the votes in
the order of delivery, so that two engines agree in all orders iff the tally does not depend on
the order.

## Main definitions

* `QRAvalanche.deliver` — record votes on a vertex one after the other.
* `QRAvalanche.ofVerdict` — the status that a verdict stands for.

## Main results

* `QRAvalanche.deliver_status` — the status after the votes is that of their tally.
* `QRAvalanche.deliver_agree_iff` — when engines agree whatever the order of delivery.
-/

namespace QuDAG

open RustStd

namespace QRAvalanche

/-- Record votes on a vertex one after the other, each with its time of arrival. -/
def deliver (self : QRAvalanche) (vertexId : VertexId)
    (votes : List (VertexId × Bool × Instant)) : QRAvalanche :=
  votes.foldl (fun self (voterId, vote, now) => (self.recordVote vertexId voterId vote now).2) self

/-- The status that a verdict stands for. -/
def ofVerdict : Option Bool → ConsensusStatus
  | none => .pending
  | some true => .final
  | some false => .rejected

/-- The counts of a table after a new voter's vote. -/
lemma countVotes_insert {votes : HashMap VertexId Bool} {voterId : VertexId}
    (hnew : voterId ∉ votes) (vote value : Bool) :
    VotingRecord.countVotes (votes.insert voterId vote) value =
      VotingRecord.countVotes votes value + if vote = value then 1 else 0 := by
  have hkeys : (votes.insert voterId vote).keys = insert voterId votes.keys := by
    ext u
    simp [Finmap.mem_keys, Finmap.mem_insert]
  have hnotMem : voterId ∉ votes.keys := fun h => hnew (Finmap.mem_keys.mp h)
  have hold : (votes.keys.filter fun u => (votes.insert voterId vote).lookup u = some value) =
      votes.keys.filter fun u => votes.lookup u = some value := by
    refine Finset.filter_congr fun u hu => ?_
    have hne : u ≠ voterId := fun heq => hnotMem (heq ▸ hu)
    rw [Finmap.lookup_insert_of_ne _ hne]
  unfold VotingRecord.countVotes
  rw [hkeys, Finset.filter_insert, Finmap.lookup_insert, hold]
  by_cases hvote : vote = value
  · rw [if_pos (congrArg some hvote), if_pos hvote, Finset.card_insert_of_notMem]
    exact fun h => hnotMem (Finset.mem_filter.mp h).1
  · rw [if_neg fun h => hvote (Option.some.inj h), if_neg hvote, Nat.add_zero]

/-- A vertex under vote: it has a confidence entry, `p` positive and `n` negative votes are
recorded, and its status is that of the verdict `w`. -/
structure UnderVote (engine : QRAvalanche) (vertexId : VertexId) (p n : ℕ) (w : Option Bool) :
    Prop where
  confidence : vertexId ∈ engine.confidence
  positive : VotingRecord.countVotes (engine.votingRecord.votesFor vertexId) true = p
  negative : VotingRecord.countVotes (engine.votingRecord.votesFor vertexId) false = n
  status : engine.status vertexId = some (ofVerdict w)

section Delivery

variable {self : QRAvalanche} {vertexId : VertexId} {p n : ℕ} {w : Option Bool}

/-- The share of positive votes once a new voter's vote is in the table. -/
lemma UnderVote.shareWith (h : UnderVote self vertexId p n w) {voterId : VertexId}
    (hnew : voterId ∉ self.votingRecord.votesFor vertexId) (vote : Bool) :
    self.shareWith vertexId voterId vote =
      RunningShare.share (p + if vote = true then 1 else 0)
        (n + if vote = false then 1 else 0) := by
  unfold QRAvalanche.shareWith RunningShare.share
  rw [VotingRecord.getVoteCounts_eq, VotingRecord.votesFor_insertVote_self,
    countVotes_insert hnew, countVotes_insert hnew, h.positive, h.negative]

/-- What a new voter's vote decides is the verdict of the counts with it. -/
lemma UnderVote.decision (h : UnderVote self vertexId p n w) {voterId : VertexId}
    (hnew : voterId ∉ self.votingRecord.votesFor vertexId) (vote : Bool) :
    self.decision vertexId voterId vote =
      (RunningShare.verdict self.config.beta (p + if vote = true then 1 else 0)
        (n + if vote = false then 1 else 0)).map fun b => ofVerdict (some b) := by
  have hprev : ¬ ((self.votingRecord.votesFor vertexId).lookup voterId = some (!vote) ∨
      vertexId ∉ self.confidence) := by
    rw [Finmap.lookup_eq_none.mpr hnew]
    simp [h.confidence]
  rw [QRAvalanche.decision, if_neg hprev, h.shareWith hnew, RunningShare.verdict]
  split_ifs <;> rfl

/-- What a call to `record_vote` by a new voter leaves: the vote is in the table, the confidence
entry is there and the configuration is the same. -/
lemma recordVote_kept (self : QRAvalanche) (vertexId voterId : VertexId) (vote : Bool)
    (now : Instant) (hnew : voterId ∉ self.votingRecord.votesFor vertexId)
    (hconf : vertexId ∈ self.confidence) :
    (self.recordVote vertexId voterId vote now).2.votingRecord =
        self.votingRecord.insertVote vertexId voterId vote ∧
      vertexId ∈ (self.recordVote vertexId voterId vote now).2.confidence ∧
      (self.recordVote vertexId voterId vote now).2.config = self.config := by
  obtain ⟨confidence, hlookup⟩ := HashMap.mem_iff_exists.mp hconf
  have hnone := Finmap.lookup_eq_none.mpr hnew
  rcases self.votingRecord.recordVote_cases vertexId voterId vote with ⟨hprev, -⟩ | ⟨-, heq⟩
  · rw [hnone] at hprev
    simp at hprev
  · unfold QRAvalanche.recordVote
    simp only [heq, hlookup]
    split_ifs
    · exact ⟨rfl, Finmap.mem_insert.mpr (.inl rfl), rfl⟩
    · exact ⟨rfl, Finmap.mem_insert.mpr (.inl rfl), rfl⟩
    · exact ⟨rfl, Finmap.mem_insert.mpr (.inl rfl), rfl⟩

/-- **One vote** of a new voter moves the counts and the verdict as in a tally. -/
lemma UnderVote.recordVote (h : UnderVote self vertexId p n w) {voterId : VertexId}
    (hnew : voterId ∉ self.votingRecord.votesFor vertexId) (vote : Bool) (now : Instant) :
    UnderVote (self.recordVote vertexId voterId vote now).2 vertexId
      (p + if vote = true then 1 else 0) (n + if vote = false then 1 else 0)
      ((RunningShare.verdict self.config.beta (p + if vote = true then 1 else 0)
        (n + if vote = false then 1 else 0)).or w) := by
  obtain ⟨hrecord, hconf, -⟩ := self.recordVote_kept vertexId voterId vote now hnew h.confidence
  refine ⟨hconf, ?_, ?_, ?_⟩
  · rw [hrecord, VotingRecord.votesFor_insertVote_self, countVotes_insert hnew, h.positive]
  · rw [hrecord, VotingRecord.votesFor_insertVote_self, countVotes_insert hnew, h.negative]
  · rw [recordVote_status, if_pos rfl, h.decision hnew, h.status]
    cases RunningShare.verdict self.config.beta (p + if vote = true then 1 else 0)
      (n + if vote = false then 1 else 0) <;> rfl

/-- **All votes**: after votes of new voters, each voting once, the status of the vertex is that
of the tally of the votes in the order of delivery. -/
lemma deliver_status {votes : List (VertexId × Bool × Instant)} :
    ∀ {self : QRAvalanche} {p n : ℕ} {w : Option Bool}, UnderVote self vertexId p n w →
      (votes.map Prod.fst).Nodup →
      (∀ voter ∈ votes.map Prod.fst, voter ∉ self.votingRecord.votesFor vertexId) →
      (self.deliver vertexId votes).status vertexId = some (ofVerdict
        (RunningShare.tally self.config.beta p n w (votes.map fun d => d.2.1))) := by
  induction votes with
  | nil => exact fun h _ _ => h.status
  | cons d votes ih =>
    obtain ⟨voterId, vote, now⟩ := d
    intro self p n w h hnodup hnew
    rw [List.map_cons, List.nodup_cons] at hnodup
    have hvoter := hnew voterId List.mem_cons_self
    obtain ⟨hrecord, -, hconfig⟩ :=
      self.recordVote_kept vertexId voterId vote now hvoter h.confidence
    have hnew' : ∀ u ∈ votes.map Prod.fst,
        u ∉ (self.recordVote vertexId voterId vote now).2.votingRecord.votesFor vertexId := by
      intro u hu
      rw [hrecord, VotingRecord.votesFor_insertVote_self, Finmap.mem_insert, not_or]
      exact ⟨fun heq => hnodup.1 (heq ▸ hu), hnew u (List.mem_cons_of_mem _ hu)⟩
    have hrest := ih (h.recordVote hvoter vote now) hnodup.2 hnew'
    rw [hconfig] at hrest
    rw [deliver, List.foldl_cons]
    refine hrest.trans ?_
    cases vote <;> rfl

/-- A vertex that has just been processed, with no recorded votes, is under vote. -/
lemma underVote_processVertex (self : QRAvalanche) (vertexId : VertexId) (now : Instant)
    (hnone : self.votingRecord.votesFor vertexId = ∅) :
    UnderVote (self.processVertex vertexId now).2 vertexId 0 0 none where
  confidence := Finmap.mem_insert.mpr (.inl rfl)
  positive := by
    have hrecord : (self.processVertex vertexId now).2.votingRecord = self.votingRecord := rfl
    rw [hrecord, hnone]
    rfl
  negative := by
    have hrecord : (self.processVertex vertexId now).2.votingRecord = self.votingRecord := rfl
    rw [hrecord, hnone]
    rfl
  status := Finmap.lookup_insert _

end Delivery

/-! ## Agreement -/

/-- The votes of a delivery, without the times of arrival. -/
def ballots (votes : List (VertexId × Bool × Instant)) : List (VertexId × Bool) :=
  votes.map fun d => (d.1, d.2.1)

/-- Process a vertex and record votes on it. -/
def processAndDeliver (self : QRAvalanche) (vertexId : VertexId) (now : Instant)
    (votes : List (VertexId × Bool × Instant)) : QRAvalanche :=
  (self.processVertex vertexId now).2.deliver vertexId votes

/-- The status of a vertex that is processed and then voted on is that of the tally. -/
lemma processAndDeliver_status (self : QRAvalanche) (vertexId : VertexId) (now : Instant)
    (hnone : self.votingRecord.votesFor vertexId = ∅) {d : List (VertexId × Bool × Instant)}
    (hvoters : ((ballots d).map Prod.fst).Nodup) :
    (self.processAndDeliver vertexId now d).status vertexId = some (ofVerdict
      (RunningShare.tally self.config.beta 0 0 none ((ballots d).map Prod.snd))) := by
  have hvoters' : (d.map Prod.fst).Nodup := by
    simpa [ballots, List.map_map, Function.comp_def] using hvoters
  have hnew : ∀ voter ∈ d.map Prod.fst,
      voter ∉ (self.processVertex vertexId now).2.votingRecord.votesFor vertexId := by
    intro voter _
    have hrecord : (self.processVertex vertexId now).2.votingRecord = self.votingRecord := rfl
    rw [hrecord, hnone]
    exact Finmap.notMem_empty
  have hvotes : (ballots d).map Prod.snd = d.map fun d => d.2.1 := by
    simp [ballots, List.map_map, Function.comp_def]
  rw [processAndDeliver, hvotes]
  exact deliver_status (self.underVote_processVertex vertexId now hnone) hvoters' hnew

/-- Statuses of verdicts are different for different verdicts. -/
lemma ofVerdict_injective : Function.Injective ofVerdict := by
  intro w w' h
  rcases w with _ | _ | _ <;> rcases w' with _ | _ | _ <;> simp [ofVerdict] at h ⊢

/-- Any two engines with the configuration that process the vertex, on which they have no votes,
and then record the given votes in any two orders end with the same status. -/
def AgreesInAllOrders (config : QRAvalancheConfig) (vertexId : VertexId)
    (votes : List (VertexId × Bool)) : Prop :=
  ∀ (e₁ e₂ : QRAvalanche) (now₁ now₂ : Instant) (d₁ d₂ : List (VertexId × Bool × Instant)),
    e₁.config = config → e₂.config = config →
    e₁.votingRecord.votesFor vertexId = ∅ → e₂.votingRecord.votesFor vertexId = ∅ →
    (ballots d₁).Perm votes → (ballots d₂).Perm votes →
    (e₁.processAndDeliver vertexId now₁ d₁).status vertexId =
      (e₂.processAndDeliver vertexId now₂ d₂).status vertexId

/-- There is no vote, the threshold `β` is out of reach, or the share of positive votes among all
of them is at least `β` or at most `1 - β`. -/
def Settled (config : QRAvalancheConfig) (votes : List (VertexId × Bool)) : Prop :=
  votes = [] ∨ 1 < config.beta ∨
    config.beta ≤ ((votes.map Prod.snd).count true : ℚ) / (votes.length : ℚ) ∨
    ((votes.map Prod.snd).count true : ℚ) / (votes.length : ℚ) ≤ 1 - config.beta

/-- **When the order of delivery does not matter**: engines that record the same votes of
different voters in any orders always agree iff the votes are settled as a whole.

**Proof sketch.** The status is that of the tally in the order of delivery, and every order of
the yes and no votes is that of some delivery. -/
theorem deliver_agree_iff (config : QRAvalancheConfig) (vertexId : VertexId)
    (votes : List (VertexId × Bool)) (hvoters : (votes.map Prod.fst).Nodup) :
    AgreesInAllOrders config vertexId votes ↔ Settled config votes := by
  set p := (votes.map Prod.snd).count true with hp
  set n := (votes.map Prod.snd).count false with hn
  have hlength : p + n = votes.length := by
    rw [hp, hn, List.count_true_add_count_false, List.length_map]
  have hnil : votes = [] ↔ p + n = 0 := by rw [hlength, List.length_eq_zero_iff]
  have hcond := RunningShare.tally_independent_iff config.beta p n
  rw [RunningShare.share, ← hnil] at hcond
  rw [Settled, ← hlength, ← hcond]
  have hnodup : ∀ {d}, (ballots d).Perm votes → ((ballots d).map Prod.fst).Nodup :=
    fun hd => ((hd.map Prod.fst).nodup_iff).mpr hvoters
  constructor
  · intro h l₁ l₂ hp₁ hn₁ hp₂ hn₂
    -- every order of the yes and no votes is that of some delivery
    have horder : ∀ l : List Bool, l.count true = p → l.count false = n →
        ∃ d, (ballots d).Perm votes ∧ (ballots d).map Prod.snd = l := by
      intro l hlp hln
      have hperm : l.Perm (votes.map Prod.snd) := by
        rw [List.perm_iff_count]
        intro b
        cases b
        · exact hln
        · exact hlp
      obtain ⟨votes', heq, hvotes'⟩ :=
        (congrFun (congrFun (List.eq_map_comp_perm Prod.snd) l) votes).mpr hperm
      refine ⟨votes'.map fun b => (b.1, b.2, 0), ?_, ?_⟩
      · simpa [ballots, List.map_map, Function.comp_def] using hvotes'
      · simpa [ballots, List.map_map, Function.comp_def] using heq.symm
    obtain ⟨d₁, hd₁, rfl⟩ := horder l₁ hp₁ hn₁
    obtain ⟨d₂, hd₂, rfl⟩ := horder l₂ hp₂ hn₂
    have hsame := h (withConfig config 0) (withConfig config 0) 0 0 d₁ d₂ rfl rfl rfl rfl hd₁ hd₂
    rw [processAndDeliver_status _ vertexId 0 rfl (hnodup hd₁),
      processAndDeliver_status _ vertexId 0 rfl (hnodup hd₂)] at hsame
    exact ofVerdict_injective (Option.some.inj hsame)
  · intro h e₁ e₂ now₁ now₂ d₁ d₂ hc₁ hc₂ hnone₁ hnone₂ hd₁ hd₂
    have hcount : ∀ {d}, (ballots d).Perm votes → ∀ b,
        ((ballots d).map Prod.snd).count b = (votes.map Prod.snd).count b :=
      fun hd b => (hd.map Prod.snd).count_eq b
    rw [processAndDeliver_status _ vertexId now₁ hnone₁ (hnodup hd₁),
      processAndDeliver_status _ vertexId now₂ hnone₂ (hnodup hd₂), hc₁, hc₂]
    rw [h _ _ (hcount hd₁ true) (hcount hd₁ false) (hcount hd₂ true) (hcount hd₂ false)]

/-- The condition for two voters who are of one mind. -/
theorem deliver_agree_iff_unanimous :
    AgreesInAllOrders .default (.fromBytes [9])
        [(.fromBytes [0], true), (.fromBytes [1], true)] ↔
      Settled .default [(.fromBytes [0], true), (.fromBytes [1], true)] :=
  deliver_agree_iff .default (.fromBytes [9]) [(.fromBytes [0], true), (.fromBytes [1], true)]
    (by decide)

/-- Engines do not agree in general: of two opposite votes, the one that is delivered first
decides the vertex. -/
theorem not_deliver_agree :
    ¬ ∀ (config : QRAvalancheConfig) (vertexId : VertexId) (votes : List (VertexId × Bool)),
      (votes.map Prod.fst).Nodup → AgreesInAllOrders config vertexId votes := by
  intro h
  have hsame := h .default (.fromBytes [9]) [(.fromBytes [0], true), (.fromBytes [1], false)]
    (by decide) (new 0) (new 0) 0 0
    [(.fromBytes [0], true, 0), (.fromBytes [1], false, 0)]
    [(.fromBytes [1], false, 0), (.fromBytes [0], true, 0)] rfl rfl rfl rfl
    (List.Perm.refl _) (List.Perm.swap _ _ _)
  revert hsame
  decide +kernel

end QRAvalanche

end QuDAG
