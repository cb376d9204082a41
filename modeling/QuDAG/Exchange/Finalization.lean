import QuDAG.Exchange.Atomicity
import QuDAG.Exchange.Consensus
import QuDAG.Lib.Runs

/-!
# How often a transaction is finalized

A round of the simulated consensus skips transactions that are confirmed or rejected. An expired
transaction is finalized as well, with an event, but it is voted on again in the next round, and
so it is finalized again.

## Main definitions

* `ConsensusAdapter.Call` — a submission or a round, with its effect and its events.
* `ConsensusAdapter.SingleFinalization` — in a run a transaction is finalized at most once, and
  keeps the status of its finalization.

## Main results

* `ConsensusAdapter.applyCall_pending` — what a call does to a pending transaction.
* `ConsensusAdapter.singleFinalization_iff` — a transaction is finalized once iff no round finds it
  expired.

## Implementation notes

A run starts with the submission of the transaction to any adapter, and other transactions may be
submitted on the way. Vote counts are unbounded numbers here.
-/

namespace QuDAG.Exchange

open RustStd

/-- The status is one that finalization leads to. -/
def TransactionStatus.Terminal (s : TransactionStatus) : Prop :=
  s = .confirmed ∨ s = .rejected ∨ s = .expired

instance instDecidableTerminal (s : TransactionStatus) : Decidable s.Terminal :=
  inferInstanceAs (Decidable (_ ∨ _ ∨ _))

/-- The number of finalization events of a transaction. -/
def finalizations (txId : TransactionId) (events : List ConsensusEvent) : ℕ :=
  events.countP fun
    | .transactionFinalized id _ => id = txId
    | _ => false

lemma finalizations_append (txId : TransactionId) (events events' : List ConsensusEvent) :
    finalizations txId (events ++ events') =
      finalizations txId events + finalizations txId events' := List.countP_append

namespace PendingTransaction

/-- A pending transaction after its turn in a round. -/
def afterRound (config : ConsensusConfig) (now : Timestamp) (p : PendingTransaction) :
    PendingTransaction :=
  if p.status = .confirmed ∨ p.status = .rejected then p
  else
    let p' := p.vote (ConsensusAdapter.simulateVote p.transaction now)
    { p' with status := p'.finalStatus config }

variable {config : ConsensusConfig} {now : Timestamp} {p : PendingTransaction}
  {txId id : TransactionId}

/-- A vote counts the round. -/
lemma vote_eq (p : PendingTransaction) (voteFor : Bool) :
    (p.vote voteFor).status = .processing ∧ (p.vote voteFor).rounds = p.rounds + 1 := by
  unfold vote
  cases voteFor with
  | false =>
    simp only [Bool.false_eq_true, if_false]
    split_ifs
    · exact ⟨rfl, rfl⟩
    · exact ⟨rfl, rfl⟩
  | true =>
    simp only [if_true]
    split_ifs
    · exact ⟨rfl, rfl⟩
    · exact ⟨rfl, rfl⟩

/-- The events of a vote finalize the transaction once iff the vote leads to a final status. -/
lemma finalizations_voteEvents (p : PendingTransaction) :
    finalizations txId (p.voteEvents id config) =
      if id = txId ∧ (p.finalStatus config).Terminal then 1 else 0 := by
  have hupdated : finalizations txId
      (if 0 < p.totalVotes then [.confidenceUpdated id p.confidence] else []) = 0 := by
    split_ifs
    · rfl
    · rfl
  unfold voteEvents
  simp only [finalizations_append, hupdated, Nat.zero_add]
  cases p.finalStatus config with
  | pending => simp [finalizations, TransactionStatus.Terminal]
  | processing => simp [finalizations, TransactionStatus.Terminal]
  | confirmed => by_cases h : id = txId <;> simp [finalizations, TransactionStatus.Terminal, h]
  | rejected => by_cases h : id = txId <;> simp [finalizations, TransactionStatus.Terminal, h]
  | expired => by_cases h : id = txId <;> simp [finalizations, TransactionStatus.Terminal, h]

/-- The votes decide, or the transaction expires after the last round, or its status stays. -/
lemma finalStatus_cases (config : ConsensusConfig) (p : PendingTransaction) :
    p.finalStatus config = .confirmed ∨ p.finalStatus config = .rejected ∨
      (config.maxRounds ≤ p.rounds ∧ p.finalStatus config = .expired) ∨
      (p.rounds < config.maxRounds ∧ p.finalStatus config = p.status) := by
  unfold finalStatus
  by_cases hconfirmed : config.confidenceThreshold ≤ p.confidence ∧
      config.sampleSize % 2 ^ 32 ≤ p.totalVotes
  · exact .inl (if_pos hconfirmed)
  by_cases hrejected : config.confidenceThreshold ≤ 1 - p.confidence ∧
      config.sampleSize % 2 ^ 32 ≤ p.totalVotes
  · exact .inr (.inl ((if_neg hconfirmed).trans (if_pos hrejected)))
  rcases Nat.lt_or_ge p.rounds config.maxRounds with hlt | hge
  · refine .inr (.inr (.inr ⟨hlt, ?_⟩))
    exact (if_neg hconfirmed).trans ((if_neg hrejected).trans (if_neg (Nat.not_le.mpr hlt)))
  · refine .inr (.inr (.inl ⟨hge, ?_⟩))
    exact (if_neg hconfirmed).trans ((if_neg hrejected).trans (if_pos hge))

/-- A vote leads to expiry only after the last round, and after it to a final status. -/
lemma finalStatus_vote (p : PendingTransaction) (voteFor : Bool) :
    ((p.vote voteFor).finalStatus config = .expired → config.maxRounds ≤ p.rounds + 1) ∧
      (config.maxRounds ≤ p.rounds + 1 → ((p.vote voteFor).finalStatus config).Terminal) := by
  obtain ⟨hstatus, hrounds⟩ := vote_eq p voteFor
  rcases finalStatus_cases config (p.vote voteFor) with h | h | ⟨hlast, h⟩ | ⟨hlt, h⟩
  · exact ⟨fun h' => (nomatch h.symm.trans h'), fun _ => .inl h⟩
  · exact ⟨fun h' => (nomatch h.symm.trans h'), fun _ => .inr (.inl h)⟩
  · exact ⟨fun _ => hrounds ▸ hlast, fun _ => .inr (.inr h)⟩
  · rw [hstatus] at h
    rw [hrounds] at hlt
    exact ⟨fun h' => (nomatch h.symm.trans h'), fun h' => absurd h' (Nat.not_le.mpr hlt)⟩

end PendingTransaction

namespace ConsensusAdapter

/-- A call on the adapter. -/
inductive Call
  /-- Submit a transaction. -/
  | submitTransaction (transaction : Transaction) (now : Timestamp)
  /-- Simulate a consensus round. -/
  | simulateConsensusRound (schedule : List (TransactionId × Timestamp))

/-- The adapter after a call. -/
def applyCall (P : Primitives) (adapter : ConsensusAdapter) : Call → ConsensusAdapter
  | .submitTransaction transaction now => ((submitTransaction P transaction now).run adapter).2
  | .simulateConsensusRound schedule => (adapter.simulateConsensusRound schedule).2

/-- The events of a call. -/
def callEvents (adapter : ConsensusAdapter) : Call → List ConsensusEvent
  | .submitTransaction _ _ => []
  | .simulateConsensusRound schedule => (adapter.simulateConsensusRound schedule).1

/-- The events of a run. -/
def runEvents (P : Primitives) : ConsensusAdapter → List Call → List ConsensusEvent
  | _, [] => []
  | adapter, call :: calls =>
    adapter.callEvents call ++ runEvents P (adapter.applyCall P call) calls

/-- The status of a transaction, if it is pending. -/
def statusOf (adapter : ConsensusAdapter) (txId : TransactionId) : Option TransactionStatus :=
  (adapter.pendingTransactions.lookup txId).map PendingTransaction.status

/-- A round goes once through the pending transactions, and the transaction is not submitted
again. -/
def ValidCall (P : Primitives) (txId : TransactionId) (adapter : ConsensusAdapter) : Call → Prop
  | .submitTransaction transaction _ => transaction.id P ≠ txId
  | .simulateConsensusRound schedule => (schedule.map Prod.fst).Nodup ∧
      (schedule.map Prod.fst).toFinset = adapter.pendingTransactions.keys

instance instDecidableValidCall (P : Primitives) (txId : TransactionId)
    (adapter : ConsensusAdapter) : (call : Call) → Decidable (ValidCall P txId adapter call)
  | .submitTransaction _ _ => instDecidableNot
  | .simulateConsensusRound _ => instDecidableAnd

/-- The call leaves the status of the transaction if it is final. -/
def KeepsFinalStatus (P : Primitives) (txId : TransactionId) (adapter : ConsensusAdapter)
    (call : Call) : Prop :=
  ∀ status, adapter.statusOf txId = some status → status.Terminal →
    (adapter.applyCall P call).statusOf txId = some status

/-- **Single finalization**: in the run the transaction is finalized at most once, and a final
status never changes again. -/
def SingleFinalization (P : Primitives) (txId : TransactionId) (adapter : ConsensusAdapter)
    (calls : List Call) : Prop :=
  finalizations txId (runEvents P adapter calls) ≤ 1 ∧
    Runs.Steps (applyCall P) (KeepsFinalStatus P txId) adapter calls

/-- The call is no round that finds the transaction expired. -/
def NotExpiredInRound (txId : TransactionId) (adapter : ConsensusAdapter) (call : Call) : Prop :=
  ∀ schedule, call = .simulateConsensusRound schedule → adapter.statusOf txId ≠ some .expired

variable {P : Primitives} {adapter : ConsensusAdapter} {txId id : TransactionId}
  {now : Timestamp} {call : Call} {calls : List Call} {p : PendingTransaction}

/-! ## One round -/

/-- What the turn of a transaction does to the pending transactions. -/
lemma lookup_processTransactionRound_eq (txId : TransactionId) (now : Timestamp)
    (adapter : ConsensusAdapter) (id : TransactionId) :
    (processTransactionRound txId now adapter).2.config = adapter.config ∧
      (processTransactionRound txId now adapter).2.pendingTransactions.lookup id =
        if id = txId then
          (adapter.pendingTransactions.lookup id).map (.afterRound adapter.config now)
        else adapter.pendingTransactions.lookup id := by
  unfold processTransactionRound
  cases hp : adapter.pendingTransactions.lookup txId with
  | none =>
    refine ⟨rfl, ?_⟩
    split_ifs with heq
    · rw [heq, hp]
      rfl
    · rfl
  | some p =>
    simp only
    split_ifs with hdone heq heq
    · refine ⟨rfl, ?_⟩
      rw [heq, hp, Option.map_some, PendingTransaction.afterRound, if_pos hdone]
    · exact ⟨rfl, rfl⟩
    · refine ⟨rfl, ?_⟩
      show (adapter.pendingTransactions.insert txId _).lookup id = _
      rw [HashMap.lookup_insert_ite, if_pos heq, heq, hp, Option.map_some,
        PendingTransaction.afterRound, if_neg hdone]
    · refine ⟨rfl, ?_⟩
      show (adapter.pendingTransactions.insert txId _).lookup id = _
      rw [HashMap.lookup_insert_ite, if_neg heq]

/-- A turn finalizes the transaction whose turn it is, if it leads to a final status. -/
lemma finalizations_processTransactionRound (txId id : TransactionId) (now : Timestamp)
    (adapter : ConsensusAdapter) :
    finalizations txId (processTransactionRound id now adapter).1 =
      match adapter.pendingTransactions.lookup id with
      | none => 0
      | some p =>
        if id = txId ∧ ¬ (p.status = .confirmed ∨ p.status = .rejected) ∧
          (p.afterRound adapter.config now).status.Terminal then 1 else 0 := by
  unfold processTransactionRound
  cases adapter.pendingTransactions.lookup id with
  | none => rfl
  | some p =>
    simp only
    by_cases hdone : p.status = .confirmed ∨ p.status = .rejected
    · rw [if_pos hdone, if_neg (fun h => h.2.1 hdone)]
      rfl
    · rw [if_neg hdone, PendingTransaction.finalizations_voteEvents, PendingTransaction.afterRound,
        if_neg hdone]
      simp only [hdone, not_false_eq_true, true_and]

/-- The turns of other transactions do not matter. -/
lemma processRounds_of_not_mem {schedule : List (TransactionId × Timestamp)} :
    ∀ adapter : ConsensusAdapter, txId ∉ schedule.map Prod.fst →
    (processRounds schedule adapter).2.config = adapter.config ∧
    (processRounds schedule adapter).2.pendingTransactions.lookup txId =
        adapter.pendingTransactions.lookup txId ∧
      finalizations txId (processRounds schedule adapter).1 = 0 := by
  induction schedule with
  | nil => exact fun _ _ => ⟨rfl, rfl, rfl⟩
  | cons turn schedule ih =>
    intro adapter hnot
    rw [List.map_cons, List.mem_cons, not_or] at hnot
    obtain ⟨hconfig, hlookup⟩ := lookup_processTransactionRound_eq turn.1 turn.2 adapter txId
    rw [if_neg hnot.1] at hlookup
    have hzero : finalizations txId (processTransactionRound turn.1 turn.2 adapter).1 = 0 := by
      rw [finalizations_processTransactionRound]
      cases adapter.pendingTransactions.lookup turn.1 with
      | none => rfl
      | some q => exact if_neg fun h => hnot.1 h.1.symm
    obtain ⟨hconfig', hlookup', hzero'⟩ :=
      ih (processTransactionRound turn.1 turn.2 adapter).2 hnot.2
    refine ⟨hconfig'.trans hconfig, hlookup'.trans hlookup, ?_⟩
    exact (finalizations_append _ _ _).trans (by rw [hzero, hzero'])

/-- What a round does to a transaction, and how often it finalizes it. -/
lemma processRounds_of_mem {schedule : List (TransactionId × Timestamp)}
    (hnodup : (schedule.map Prod.fst).Nodup) : ∀ adapter : ConsensusAdapter,
    txId ∈ schedule.map Prod.fst → adapter.pendingTransactions.lookup txId = some p →
    (processRounds schedule adapter).2.config = adapter.config ∧
    ∃ now, (processRounds schedule adapter).2.pendingTransactions.lookup txId =
        some (p.afterRound adapter.config now) ∧
      finalizations txId (processRounds schedule adapter).1 =
        if ¬ (p.status = .confirmed ∨ p.status = .rejected) ∧
          (p.afterRound adapter.config now).status.Terminal then 1 else 0 := by
  induction schedule with
  | nil => exact fun _ h => absurd h (by simp)
  | cons turn schedule ih =>
    intro adapter hmem hp
    rw [List.map_cons, List.nodup_cons] at hnodup
    obtain ⟨hconfig, hlookup⟩ := lookup_processTransactionRound_eq turn.1 turn.2 adapter txId
    have hfin := finalizations_processTransactionRound txId turn.1 turn.2 adapter
    have hevents : finalizations txId (processRounds (turn :: schedule) adapter).1 =
        finalizations txId (processTransactionRound turn.1 turn.2 adapter).1 +
          finalizations txId
            (processRounds schedule (processTransactionRound turn.1 turn.2 adapter).2).1 :=
      finalizations_append _ _ _
    rw [hevents, hfin]
    by_cases hturn : txId = turn.1
    · subst hturn
      rw [if_pos rfl, hp, Option.map_some] at hlookup
      obtain ⟨hconfig', hlookup', hzero⟩ := processRounds_of_not_mem
        (processTransactionRound turn.1 turn.2 adapter).2 hnodup.1
      refine ⟨hconfig'.trans hconfig, turn.2, hlookup'.trans hlookup, ?_⟩
      rw [hzero, hp, Nat.add_zero]
      simp only [true_and]
    · rw [if_neg hturn] at hlookup
      have hzero : finalizations txId (processTransactionRound turn.1 turn.2 adapter).1 = 0 := by
        rw [hfin]
        cases adapter.pendingTransactions.lookup turn.1 with
        | none => rfl
        | some q => exact if_neg fun h => hturn h.1.symm
      obtain ⟨hconfig', now, hlookup', hcount⟩ := ih hnodup.2 _
        ((List.mem_cons.mp hmem).resolve_left hturn) (hlookup.trans hp)
      rw [hconfig] at hlookup' hcount
      rw [← hfin, hzero, Nat.zero_add]
      exact ⟨hconfig'.trans hconfig, now, hlookup', hcount⟩

/-! ## Runs -/

/-- What is always true of the pending transaction: it is there, and it has expired only after
the last round. -/
def PendingOrLate (txId : TransactionId) (adapter : ConsensusAdapter) : Prop :=
  ∃ p, adapter.pendingTransactions.lookup txId = some p ∧
    (p.status = .expired → adapter.config.maxRounds ≤ p.rounds)

/-- **What a call does to a pending transaction**: nothing, or it votes on one that is neither
confirmed nor rejected, and finalizes it if the vote leads to a final status. -/
lemma applyCall_pending (h : PendingOrLate txId adapter) (hvalid : ValidCall P txId adapter call) :
    PendingOrLate txId (adapter.applyCall P call) ∧
    ∃ before after, adapter.statusOf txId = some before ∧
      (adapter.applyCall P call).statusOf txId = some after ∧
      ((after = before ∧ finalizations txId (adapter.callEvents call) = 0 ∧
          ((∀ schedule, call ≠ .simulateConsensusRound schedule) ∨
            before = .confirmed ∨ before = .rejected)) ∨
        ((∃ schedule, call = .simulateConsensusRound schedule) ∧
          (before = .expired → after.Terminal) ∧ before ≠ .confirmed ∧ before ≠ .rejected ∧
          finalizations txId (adapter.callEvents call) = if after.Terminal then 1 else 0)) := by
  obtain ⟨p, hp, hlate⟩ := h
  have hbefore : adapter.statusOf txId = some p.status := by rw [statusOf, hp]; rfl
  cases call with
  | submitTransaction transaction now =>
    have hsame : (adapter.applyCall P (.submitTransaction transaction now)).config =
          adapter.config ∧
        (adapter.applyCall P (.submitTransaction transaction now)).pendingTransactions.lookup txId =
          some p := by
      show ((submitTransaction P transaction now).run adapter).2.config = _ ∧
        ((submitTransaction P transaction now).run adapter).2.pendingTransactions.lookup txId = _
      rcases Fallible.run_cases (submitTransaction P transaction now) adapter with
        ⟨id, adapter', hok⟩ | ⟨e, adapter', herr⟩
      · obtain ⟨-, rfl, rfl⟩ := submitTransaction_ok hok
        rw [hok]
        refine ⟨rfl, ?_⟩
        rw [put, HashMap.lookup_insert_ite, if_neg (Ne.symm hvalid), hp]
      · rw [herr, submitTransaction_atomicAt e adapter' herr]
        exact ⟨rfl, hp⟩
    refine ⟨⟨p, hsame.2, by rw [hsame.1]; exact hlate⟩, p.status, p.status, hbefore, ?_,
      .inl ⟨rfl, rfl, .inl fun _ h => by cases h⟩⟩
    rw [statusOf, hsame.2]
    rfl
  | simulateConsensusRound schedule =>
    have hmem : txId ∈ schedule.map Prod.fst := by
      rw [← List.mem_toFinset, hvalid.2, Finmap.mem_keys]
      exact HashMap.mem_of_lookup hp
    obtain ⟨hconfig, now, hlookup, hcount⟩ := processRounds_of_mem hvalid.1
      { adapter with currentRound := adapter.currentRound + 1 } hmem hp
    have hfin : finalizations txId (adapter.callEvents (.simulateConsensusRound schedule)) =
        if ¬ (p.status = .confirmed ∨ p.status = .rejected) ∧
          (p.afterRound adapter.config now).status.Terminal then 1 else 0 := by
      refine (finalizations_append _ _ _).trans ?_
      rw [hcount]
      rfl
    have hafter : (adapter.applyCall P (.simulateConsensusRound schedule)).statusOf txId =
        some (p.afterRound adapter.config now).status := by
      show Option.map _ ((processRounds schedule _).2.pendingTransactions.lookup txId) = _
      rw [hlookup]
      rfl
    have hlate' : PendingOrLate txId (adapter.applyCall P (.simulateConsensusRound schedule)) := by
      refine ⟨p.afterRound adapter.config now, hlookup, fun hexpired => ?_⟩
      refine le_of_eq_of_le (congrArg ConsensusConfig.maxRounds hconfig) ?_
      unfold PendingTransaction.afterRound at hexpired ⊢
      split_ifs at hexpired ⊢ with hdone
      · exact hlate hexpired
      · have hround := (PendingTransaction.vote_eq p (simulateVote p.transaction now)).2
        exact hround ▸ (PendingTransaction.finalStatus_vote p _).1 hexpired
    refine ⟨hlate', p.status, _, hbefore, hafter, ?_⟩
    by_cases hdone : p.status = .confirmed ∨ p.status = .rejected
    · left
      refine ⟨by rw [PendingTransaction.afterRound, if_pos hdone], ?_, .inr hdone⟩
      rw [hfin, if_neg fun h => h.1 hdone]
    · right
      refine ⟨⟨schedule, rfl⟩, fun hexpired => ?_, fun h => hdone (.inl h), fun h => hdone (.inr h),
        ?_⟩
      · rw [PendingTransaction.afterRound, if_neg hdone]
        exact (PendingTransaction.finalStatus_vote p _).2 ((hlate hexpired).trans (Nat.le_succ _))
      · rw [hfin]
        simp only [hdone, not_false_eq_true, true_and]

/-- While no round finds the transaction expired, it is finalized once more at most, and not at all
after it was finalized. -/
lemma singleFinalization_of_steps : ∀ {adapter : ConsensusAdapter} {status : TransactionStatus},
    PendingOrLate txId adapter → adapter.statusOf txId = some status →
    Runs.Steps (applyCall P) (ValidCall P txId) adapter calls →
    Runs.Steps (applyCall P) (NotExpiredInRound txId) adapter calls →
    finalizations txId (runEvents P adapter calls) + (if status.Terminal then 1 else 0) ≤ 1 ∧
      Runs.Steps (applyCall P) (KeepsFinalStatus P txId) adapter calls := by
  induction calls with
  | nil =>
    intro adapter status _ _ _ _
    refine ⟨?_, trivial⟩
    show 0 + _ ≤ 1
    split_ifs
    · exact le_refl 1
    · exact Nat.zero_le 1
  | cons call calls ih =>
    intro adapter status hpending hstatus hvalid hgood
    obtain ⟨hpending', before, after, hbefore, hafter, hcases⟩ :=
      applyCall_pending hpending hvalid.1
    obtain rfl : before = status := Option.some.inj (hbefore.symm.trans hstatus)
    obtain ⟨hcount, hkeeps⟩ := ih hpending' hafter hvalid.2 hgood.2
    have hevents : finalizations txId (runEvents P adapter (call :: calls)) = _ :=
      finalizations_append _ _ _
    rw [hevents]
    rcases hcases with ⟨rfl, hzero, -⟩ | ⟨⟨schedule, rfl⟩, -, hconfirmed, hrejected, hfin⟩
    · refine ⟨by omega, fun status h _ => ?_, hkeeps⟩
      rw [hafter, ← hbefore, h]
    · have hnot : ¬ before.Terminal := by
        rintro (h | h | h)
        · exact hconfirmed h
        · exact hrejected h
        · exact hgood.1 schedule rfl (h ▸ hbefore)
      refine ⟨?_, fun status h hterminal => ?_, hkeeps⟩
      · rw [hfin, if_neg hnot]
        omega
      · obtain rfl : before = status := Option.some.inj (hbefore.symm.trans h)
        exact absurd hterminal hnot

/-- A round that finds the transaction expired finalizes it once more. -/
lemma steps_of_finalizations : ∀ {adapter : ConsensusAdapter} {status : TransactionStatus},
    PendingOrLate txId adapter → adapter.statusOf txId = some status →
    Runs.Steps (applyCall P) (ValidCall P txId) adapter calls →
    finalizations txId (runEvents P adapter calls) + (if status.Terminal then 1 else 0) ≤ 1 →
    Runs.Steps (applyCall P) (NotExpiredInRound txId) adapter calls := by
  induction calls with
  | nil => exact fun _ _ _ _ => trivial
  | cons call calls ih =>
    intro adapter status hpending hstatus hvalid hcount
    obtain ⟨hpending', before, after, hbefore, hafter, hcases⟩ :=
      applyCall_pending hpending hvalid.1
    obtain rfl : before = status := Option.some.inj (hbefore.symm.trans hstatus)
    have hevents : finalizations txId (runEvents P adapter (call :: calls)) = _ :=
      finalizations_append _ _ _
    rw [hevents] at hcount
    rcases hcases with ⟨rfl, hzero, hidle⟩ | ⟨-, hlate, -, -, hfin⟩
    · refine ⟨fun schedule hcall hexpired => ?_, ih hpending' hafter hvalid.2 (by omega)⟩
      rw [hbefore] at hexpired
      obtain rfl := Option.some.inj hexpired
      rcases hidle with hround | h | h
      · exact hround schedule hcall
      · cases h
      · cases h
    · rw [hfin] at hcount
      refine ⟨fun schedule _ hexpired => ?_, ih hpending' hafter hvalid.2 (by omega)⟩
      rw [hbefore] at hexpired
      obtain rfl := Option.some.inj hexpired
      rw [if_pos (hlate rfl), if_pos (.inr (.inr rfl))] at hcount
      omega

/-- **Single finalization**: after its submission a transaction is finalized at most once and
keeps its final status iff no round finds it expired. -/
theorem singleFinalization_iff {adapter₀ adapter : ConsensusAdapter} {transaction : Transaction}
    {now : Timestamp} {calls : List Call}
    (hsubmit : (submitTransaction P transaction now).run adapter₀ = (.ok txId, adapter))
    (hvalid : Runs.Steps (applyCall P) (ValidCall P txId) adapter calls) :
    SingleFinalization P txId adapter calls ↔
      Runs.Steps (applyCall P) (NotExpiredInRound txId) adapter calls := by
  obtain ⟨-, rfl, rfl⟩ := submitTransaction_ok hsubmit
  have hlookup : (adapter₀.put (transaction.id P)
      (.submitted transaction now)).pendingTransactions.lookup (transaction.id P) =
      some (.submitted transaction now) := Finmap.lookup_insert _
  have hpending : PendingOrLate (transaction.id P)
      (adapter₀.put (transaction.id P) (.submitted transaction now)) :=
    ⟨_, hlookup, fun h => nomatch h⟩
  have hstatus : (adapter₀.put (transaction.id P) (.submitted transaction now)).statusOf
      (transaction.id P) = some .pending := by
    rw [statusOf, hlookup]
    rfl
  constructor
  · exact fun h => steps_of_finalizations hpending hstatus hvalid h.1
  · intro h
    obtain ⟨hcount, hkeeps⟩ := singleFinalization_of_steps hpending hstatus hvalid h
    exact ⟨le_of_add_le_left hcount, hkeeps⟩

/-- A transfer that was submitted to an adapter that confirms with two votes. -/
def submittedTransfer (maxRounds : ℕ) : ConsensusAdapter :=
  ((submitTransaction Primitives.toy LedgerState.strayTransfer ⟨0⟩).run
    (.withConfig ⟨95 / 100, maxRounds, 2⟩)).2

/-- A number of rounds for the transfer. -/
def transferRounds (rounds : ℕ) : List Call :=
  List.replicate rounds
    (.simulateConsensusRound [(LedgerState.strayTransfer.id Primitives.toy, ⟨0⟩)])

/-- With two rounds allowed, the transfer is confirmed once. -/
theorem singleFinalization_iff_confirmed :
    SingleFinalization Primitives.toy (LedgerState.strayTransfer.id Primitives.toy)
        (submittedTransfer 2) (transferRounds 3) ↔
      Runs.Steps (applyCall Primitives.toy)
        (NotExpiredInRound (LedgerState.strayTransfer.id Primitives.toy))
        (submittedTransfer 2) (transferRounds 3) :=
  have hsubmit : (submitTransaction Primitives.toy LedgerState.strayTransfer ⟨0⟩).run
      (.withConfig ⟨95 / 100, 2, 2⟩) =
        (.ok (LedgerState.strayTransfer.id Primitives.toy), submittedTransfer 2) := rfl
  singleFinalization_iff hsubmit (by decide +kernel)

/-- With one round allowed, the transfer expires first and is confirmed afterwards. -/
theorem not_singleFinalization :
    ¬ ∀ (P : Primitives) (config : ConsensusConfig) (adapter : ConsensusAdapter)
      (transaction : Transaction) (now : Timestamp) (txId : TransactionId) (calls : List Call),
      (submitTransaction P transaction now).run (.withConfig config) = (.ok txId, adapter) →
      Runs.Steps (applyCall P) (ValidCall P txId) adapter calls →
      SingleFinalization P txId adapter calls := by
  intro h
  have hsingle := h Primitives.toy ⟨95 / 100, 1, 2⟩ (submittedTransfer 1)
    LedgerState.strayTransfer ⟨0⟩ _ (transferRounds 2) rfl (by decide +kernel)
  exact absurd hsingle.1 (by decide +kernel)

end ConsensusAdapter

end QuDAG.Exchange
