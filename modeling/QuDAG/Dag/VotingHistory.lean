import QuDAG.Dag.Voting
import QuDAG.Lib.Runs

/-!
# The history behind a voting record

A voting record is a summary of the calls that made it: of every voter it keeps the first vote on a
vertex, and it flags the voters who contradicted themselves.

## Main definitions

* `VotingRecord.VoteCall`, `VotingRecord.after` — calls, and the record after them.
* `VotingRecord.firstVote`, `VotingRecord.Contradicted` — what the calls say of a voter.
* `VotingRecord.Summarizes` — the record says the same.

## Main results

* `VotingRecord.summarizes_after` — every record summarizes the calls that made it.
-/

namespace QuDAG

open RustStd

namespace VotingRecord

/-! ## Calls -/

/-- A call of `record_vote`. -/
structure VoteCall where
  vertexId : VertexId
  voterId : VertexId
  vote : Bool
  deriving DecidableEq

/-- The record after a call. -/
def apply (record : VotingRecord) (call : VoteCall) : VotingRecord :=
  (record.recordVote call.vertexId call.voterId call.vote).2

/-- The record after the calls of a list. -/
def after (calls : List VoteCall) : VotingRecord := Runs.run apply new calls

/-- The first vote of a voter on a vertex. -/
def firstVote (calls : List VoteCall) (vertexId voterId : VertexId) : Option Bool :=
  (calls.find? fun call => call.vertexId = vertexId ∧ call.voterId = voterId).map VoteCall.vote

/-- The number of voters whose first vote on a vertex has the given value. -/
def countFirst (calls : List VoteCall) (vertexId : VertexId) (vote : Bool) : ℕ :=
  ((calls.map VoteCall.voterId).toFinset.filter fun voterId =>
    firstVote calls vertexId voterId = some vote).card

/-- The call contradicts an earlier vote of the voter on the vertex. -/
def Contradicts (voterId : VertexId) (past : List VoteCall) (call : VoteCall) : Prop :=
  call.voterId = voterId ∧ ∃ earlier ∈ past, earlier.vertexId = call.vertexId ∧
    earlier.voterId = voterId ∧ earlier.vote ≠ call.vote

/-- Some call of the voter contradicted an earlier vote. -/
def Contradicted (calls : List VoteCall) (voterId : VertexId) : Prop :=
  Runs.Happened (Contradicts voterId) calls

/-- What a record says of the calls that made it. -/
structure Summarizes (record : VotingRecord) (calls : List VoteCall) : Prop where
  /-- The table holds the first vote of every voter on a vertex. -/
  table : ∀ vertexId voterId,
    (record.votes.lookup vertexId).bind (fun vertexVotes => vertexVotes.lookup voterId) =
      firstVote calls vertexId voterId
  /-- The counts are those of the first votes. -/
  counts : ∀ vertexId, record.getVoteCounts vertexId =
    (countFirst calls vertexId true, countFirst calls vertexId false)
  /-- The voters who contradicted themselves are flagged. -/
  byzantine : ∀ voterId, voterId ∈ record.byzantineVoters ↔ Contradicted calls voterId

/-- A call that fails changes the flags only. -/
def KeepsTables (record : VotingRecord) (call : VoteCall) : Prop :=
  (record.recordVote call.vertexId call.voterId call.vote).1 ≠ .ok () →
    ∃ flagged, apply record call = { record with byzantineVoters := flagged }

/-! ## First votes -/

variable {calls : List VoteCall} {call : VoteCall} {vertexId voterId : VertexId} {vote : Bool}

/-- One more call gives a voter without a vote on the vertex a first one. -/
lemma firstVote_concat : firstVote (calls ++ [call]) vertexId voterId =
    (firstVote calls vertexId voterId).or
      (if call.vertexId = vertexId ∧ call.voterId = voterId then some call.vote else none) := by
  unfold firstVote
  rw [List.find?_append, List.find?_singleton]
  cases calls.find? fun call => call.vertexId = vertexId ∧ call.voterId = voterId with
  | some first => rfl
  | none =>
    by_cases h : call.vertexId = vertexId ∧ call.voterId = voterId
    · simp [h]
    · simp [h]

/-- A first vote is a vote. -/
lemma exists_of_firstVote (h : firstVote calls vertexId voterId = some vote) :
    ∃ call ∈ calls, call.vertexId = vertexId ∧ call.voterId = voterId ∧ call.vote = vote := by
  obtain ⟨call, hfind, hvote⟩ := Option.map_eq_some_iff.mp h
  have hcall := List.find?_some hfind
  simp only [decide_eq_true_eq] at hcall
  exact ⟨call, List.mem_of_find?_eq_some hfind, hcall.1, hcall.2, hvote⟩

/-- Whoever has voted on a vertex has a first vote on it. -/
lemma firstVote_isSome (hcall : call ∈ calls) :
    (firstVote calls call.vertexId call.voterId).isSome = true := by
  rw [firstVote, Option.isSome_map, List.find?_isSome]
  exact ⟨call, hcall, by simp⟩

/-- A voter who has voted against the own first vote has contradicted it.

**Proof sketch.** Induction on the calls. If it is the last one that votes against the first vote,
the first vote comes before it. -/
lemma contradicted_of_mem (hfirst : firstVote calls vertexId voterId = some (!vote))
    (hcall : ⟨vertexId, voterId, vote⟩ ∈ calls) : Contradicted calls voterId := by
  induction calls using List.reverseRecOn with
  | nil => cases hcall
  | append_singleton calls last ih =>
    rw [Contradicted, Runs.happened_concat]
    cases hpast : firstVote calls vertexId voterId with
    | none =>
      rw [firstVote_concat, hpast, Option.none_or] at hfirst
      split_ifs at hfirst with hlast
      rcases List.mem_append.mp hcall with hmem | hmem
      · have hsome := firstVote_isSome hmem
        rw [hpast] at hsome
        cases hsome
      · obtain rfl := List.mem_singleton.mp hmem
        cases vote <;> cases hfirst
    | some first =>
      rw [firstVote_concat, hpast, Option.some_or, Option.some.injEq] at hfirst
      subst hfirst
      rcases List.mem_append.mp hcall with hmem | hmem
      · exact Or.inl (ih hpast hmem)
      · obtain rfl := List.mem_singleton.mp hmem
        obtain ⟨earlier, hearlier, hvertex, hvoter, hvote⟩ := exists_of_firstVote hpast
        refine Or.inr ⟨rfl, earlier, hearlier, hvertex, hvoter, ?_⟩
        rw [hvote]
        exact Bool.not_ne_self vote

/-! ## The record -/

/-- What holds of the record after the calls. -/
structure Inv (calls : List VoteCall) (record : VotingRecord) : Prop where
  table : ∀ vertexId voterId,
    (record.votesFor vertexId).lookup voterId = firstVote calls vertexId voterId
  byzantine : ∀ voterId, voterId ∈ record.byzantineVoters ↔ Contradicted calls voterId

variable {record : VotingRecord}

/-- The votes of all vertices after a vote is written. -/
lemma lookup_votesFor_insertVote (vertexId' voterId' : VertexId) :
    ((record.insertVote vertexId voterId vote).votesFor vertexId').lookup voterId' =
      if vertexId = vertexId' ∧ voterId = voterId' then some vote
      else (record.votesFor vertexId').lookup voterId' := by
  by_cases hvertex : vertexId = vertexId'
  · subst hvertex
    rw [votesFor_insertVote_self, HashMap.lookup_insert_ite]
    by_cases hvoter : voterId = voterId'
    · simp [hvoter]
    · simp [hvoter, Ne.symm hvoter]
  · rw [if_neg fun h => hvertex h.1, votesFor, votesFor, insertVote,
      Finmap.lookup_insert_of_ne _ (Ne.symm hvertex)]

/-- Every call keeps the invariant. -/
lemma Inv.step (hinv : Inv calls record) : Inv (calls ++ [call]) (record.apply call) := by
  rcases recordVote_cases record call.vertexId call.voterId call.vote with
    ⟨hold, hrecord⟩ | ⟨hnew, hrecord⟩
  · rw [apply, hrecord]
    rw [hinv.table] at hold
    refine ⟨fun vertexId voterId => ?_, fun voterId => ?_⟩
    · -- the voter has a first vote already
      rw [firstVote_concat, ← hinv.table]
      split_ifs with hcall
      · obtain ⟨rfl, rfl⟩ := hcall
        rw [hinv.table, hold, Option.some_or]
        exact (hinv.table _ _).trans hold
      · rw [Option.or_none]
        rfl
    · rw [Finset.mem_insert, hinv.byzantine, Contradicted, Contradicted, Runs.happened_concat,
        or_comm]
      refine or_congr_right ⟨?_, fun h => h.1.symm⟩
      rintro rfl
      obtain ⟨earlier, hearlier, hvertex, hvoter, hvote⟩ := exists_of_firstVote hold
      refine ⟨rfl, earlier, hearlier, hvertex, hvoter, ?_⟩
      rw [hvote]
      exact Bool.not_ne_self call.vote
  · rw [apply, hrecord]
    rw [hinv.table] at hnew
    refine ⟨fun vertexId voterId => ?_, fun voterId => ?_⟩
    · rw [lookup_votesFor_insertVote, hinv.table, firstVote_concat]
      split_ifs with hcall
      · obtain ⟨rfl, rfl⟩ := hcall
        cases hfirst : firstVote calls call.vertexId call.voterId with
        | none => rw [Option.none_or]
        | some first =>
          have hsame : first = call.vote := by simpa [hfirst] using hnew
          rw [Option.some_or, hsame]
      · rw [Option.or_none]
    · rw [Contradicted, Runs.happened_concat]
      refine (hinv.byzantine voterId).trans ⟨Or.inl, fun h => h.elim id ?_⟩
      -- another vote came first, and the earlier call contradicted that one
      rintro ⟨rfl, earlier, hearlier, hvertex, hvoter, hvote⟩
      obtain ⟨first, hfirst⟩ := Option.isSome_iff_exists.mp (firstVote_isSome hearlier)
      have hsame : first = call.vote := by
        rw [hvertex, hvoter] at hfirst
        simpa [hfirst] using hnew
      have hnot : first = !earlier.vote := by
        rw [hsame]
        exact Bool.eq_not.mpr (Ne.symm hvote)
      rw [hnot] at hfirst
      rw [← hvoter]
      exact contradicted_of_mem hfirst hearlier

/-- Every record satisfies the invariant. -/
lemma inv_after (calls : List VoteCall) : Inv calls (after calls) := by
  induction calls using List.reverseRecOn with
  | nil =>
    refine ⟨fun _ _ => rfl, fun voterId => iff_of_false (Finset.notMem_empty _) ?_⟩
    exact Runs.not_happened_nil
  | append_singleton calls call ih =>
    rw [after, Runs.run_concat]
    exact ih.step

/-- The votes of the table with a value are the first votes with that value. -/
lemma Inv.countVotes_eq (hinv : Inv calls record) (vertexId : VertexId) (vote : Bool) :
    countVotes (record.votesFor vertexId) vote = countFirst calls vertexId vote := by
  unfold countVotes countFirst
  congr 1
  ext voterId
  rw [Finset.mem_filter, Finset.mem_filter, hinv.table]
  refine and_congr_left fun hfirst => ?_
  obtain ⟨call, hcall, -, rfl, -⟩ := exists_of_firstVote hfirst
  refine iff_of_true ?_ (List.mem_toFinset.mpr (List.mem_map_of_mem hcall))
  rw [Finmap.mem_keys]
  exact HashMap.mem_of_lookup ((hinv.table _ _).trans hfirst)

/-- **The voting record summarizes its history**: after every sequence of calls the table holds the
first vote of every voter on a vertex, the counts are those of the first votes, and the voters who
contradicted themselves are flagged; every call that fails has changed the flags only. -/
theorem summarizes_after (calls : List VoteCall) :
    (after calls).Summarizes calls ∧ Runs.Steps apply KeepsTables new calls := by
  have hinv := inv_after calls
  refine ⟨⟨fun vertexId voterId => ?_, fun vertexId => ?_, hinv.byzantine⟩,
    Runs.steps_of_forall fun record call hfails => ?_⟩
  · rw [← lookup_votesFor, hinv.table]
  · rw [getVoteCounts_eq, hinv.countVotes_eq, hinv.countVotes_eq]
  · rcases recordVote_cases record call.vertexId call.voterId call.vote with
      ⟨-, hrecord⟩ | ⟨-, hrecord⟩
    · exact ⟨insert call.voterId record.byzantineVoters, by rw [apply, hrecord]⟩
    · rw [hrecord] at hfails
      exact absurd rfl hfails

/-- A voter who changes a vote keeps the first one, and is flagged. -/
example : (after [⟨⟨[1]⟩, ⟨[7]⟩, true⟩, ⟨⟨[1]⟩, ⟨[7]⟩, false⟩]).getVoteCounts ⟨[1]⟩ = (1, 0) := by
  decide

end VotingRecord

end QuDAG
