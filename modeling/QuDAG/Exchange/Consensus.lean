import Mathlib.Algebra.Order.Field.Rat
import QuDAG.Exchange.State

/-!
# The consensus adapter and the state manager

Transactions wait in the adapter (`consensus.rs`) until enough rounds of a simulated vote have
confirmed, rejected or expired them; the state manager (`state.rs`) then applies the confirmed
ones and forgets all that are settled. The adapter checks a signature that is present and no
other thing about a transaction.

## Main definitions

* `ConsensusAdapter`, with `submitTransaction`, `simulateConsensusRound` and `clearFinalized`.
* `StateManager`, with `processConsensusTransactions`.
* `StateManager.Operation` — a call on the adapter or on the manager.
* `Application`, `StateManager.applications` — the applications of transactions to the state that a
  call makes.

## Main results

* `ConsensusAdapter.submitTransaction_ok` — what a submission that is accepted does.
* `ConsensusAdapter.lookup_simulateConsensusRound` — a round changes no transaction.
* `StateManager.lookup_applyOperation` — what a call leaves pending.

## Implementation notes

Each loop over the map of pending transactions takes the order in which it happens to go, and
each reading of the clock is an argument. The confidence is an exact ratio of votes. The manager
and its adapter change together here, as they do when a manager is made anew from the state of
the last one and an adapter.
-/

namespace QuDAG.Exchange

open RustStd

/-- Configuration for the consensus adapter. -/
structure ConsensusConfig where
  /-- Confidence threshold for transaction finalization. -/
  confidenceThreshold : ℚ
  /-- Maximum rounds before a transaction expires. -/
  maxRounds : ℕ
  /-- Sample size for consensus queries. -/
  sampleSize : ℕ
  deriving DecidableEq

/-- The default configuration. -/
def ConsensusConfig.default : ConsensusConfig := ⟨95 / 100, 100, 20⟩

/-- Transaction pending consensus. -/
structure PendingTransaction where
  /-- The transaction. -/
  transaction : Transaction
  /-- Current status. -/
  status : TransactionStatus
  /-- Time of the submission. -/
  submittedAt : Timestamp
  /-- Current confidence level. -/
  confidence : ℚ
  /-- Number of consensus rounds. -/
  rounds : ℕ
  /-- Votes for the transaction. -/
  votesFor : ℕ
  /-- Votes against it. -/
  votesAgainst : ℕ
  deriving DecidableEq

/-- Consensus events of a round. -/
inductive ConsensusEvent
  /-- Transaction confidence updated. -/
  | confidenceUpdated (txId : TransactionId) (confidence : ℚ)
  /-- Transaction finalized. -/
  | transactionFinalized (txId : TransactionId) (accepted : Bool)
  /-- Consensus round completed. -/
  | roundCompleted (round : ℕ)
  deriving DecidableEq

/-- Consensus adapter. -/
structure ConsensusAdapter where
  /-- Configuration for consensus. -/
  config : ConsensusConfig
  /-- Pending transactions awaiting consensus. -/
  pendingTransactions : HashMap TransactionId PendingTransaction
  /-- Current consensus round. -/
  currentRound : ℕ

namespace PendingTransaction

/-- A transaction that has just been submitted. -/
def submitted (transaction : Transaction) (now : Timestamp) : PendingTransaction :=
  ⟨transaction, .pending, now, 0, 0, 0, 0⟩

/-- The number of votes. -/
def totalVotes (p : PendingTransaction) : ℕ := p.votesFor + p.votesAgainst

/-- One more round with one more vote. -/
def vote (p : PendingTransaction) (voteFor : Bool) : PendingTransaction :=
  let p := { p with status := .processing, rounds := p.rounds + 1 }
  let p :=
    if voteFor then { p with votesFor := p.votesFor + 1 }
    else { p with votesAgainst := p.votesAgainst + 1 }
  if 0 < p.totalVotes then { p with confidence := p.votesFor / p.totalVotes } else p

/-- The status that the votes lead to. -/
def finalStatus (config : ConsensusConfig) (p : PendingTransaction) : TransactionStatus :=
  let enough := config.sampleSize % 2 ^ 32 ≤ p.totalVotes
  if config.confidenceThreshold ≤ p.confidence ∧ enough then .confirmed
  else if config.confidenceThreshold ≤ 1 - p.confidence ∧ enough then .rejected
  else if config.maxRounds ≤ p.rounds then .expired
  else p.status

/-- The events of a vote. -/
def voteEvents (txId : TransactionId) (config : ConsensusConfig) (p : PendingTransaction) :
    List ConsensusEvent :=
  let updated := if 0 < p.totalVotes then [.confidenceUpdated txId p.confidence] else []
  let finalized : List ConsensusEvent :=
    match p.finalStatus config with
    | .confirmed => [.transactionFinalized txId true]
    | .rejected => [.transactionFinalized txId false]
    | .expired => [.transactionFinalized txId false]
    | _ => []
  updated ++ finalized

end PendingTransaction

namespace ConsensusAdapter

/-- A new adapter without transactions. -/
def withConfig (config : ConsensusConfig) : ConsensusAdapter := ⟨config, ∅, 0⟩

/-- The adapter with a pending transaction written. -/
def put (txId : TransactionId) (p : PendingTransaction) (adapter : ConsensusAdapter) :
    ConsensusAdapter :=
  { adapter with pendingTransactions := adapter.pendingTransactions.insert txId p }

/-- Submit a transaction for consensus. A signature is verified if it is present. -/
def submitTransaction (P : Primitives) (transaction : Transaction) (now : Timestamp) :
    Fallible Error ConsensusAdapter TransactionId := do
  if transaction.signature.isSome then
    let valid ← Fallible.ofExcept (transaction.verifySignature P)
    if !valid then Fallible.fail .signatureVerificationFailed
    else
      Fallible.modify (put (transaction.id P) (.submitted transaction now))
      pure (transaction.id P)
  else
    Fallible.modify (put (transaction.id P) (.submitted transaction now))
    pure (transaction.id P)

/-- Simulate a vote: the fee is at least one and the transaction is not expired. -/
def simulateVote (transaction : Transaction) (now : Timestamp) : Bool :=
  if transaction.fee < RUv.one then false
  else if transaction.expiresAt.isSome ∧ transaction.isExpired now then false
  else true

/-- Process a single transaction in the consensus round. Confirmed and rejected ones are skipped,
expired ones are not. -/
def processTransactionRound (txId : TransactionId) (now : Timestamp)
    (adapter : ConsensusAdapter) : List ConsensusEvent × ConsensusAdapter :=
  match adapter.pendingTransactions.lookup txId with
  | none => ([], adapter)
  | some p =>
    if p.status = .confirmed ∨ p.status = .rejected then ([], adapter)
    else
      let p' := p.vote (simulateVote p.transaction now)
      (p'.voteEvents txId adapter.config,
        adapter.put txId { p' with status := p'.finalStatus adapter.config })

/-- Process the transactions one after the other. -/
def processRounds : List (TransactionId × Timestamp) → ConsensusAdapter →
    List ConsensusEvent × ConsensusAdapter
  | [], adapter => ([], adapter)
  | (txId, now) :: rest, adapter =>
    let outcome := processTransactionRound txId now adapter
    let outcome' := processRounds rest outcome.2
    (outcome.1 ++ outcome'.1, outcome'.2)

/-- Simulate a consensus round. The schedule has the transactions in the order of the iteration,
each with the time at which its vote reads the clock. -/
def simulateConsensusRound (schedule : List (TransactionId × Timestamp))
    (adapter : ConsensusAdapter) : List ConsensusEvent × ConsensusAdapter :=
  let outcome := processRounds schedule { adapter with currentRound := adapter.currentRound + 1 }
  (outcome.1 ++ [.roundCompleted outcome.2.currentRound], outcome.2)

/-- Get finalized transactions: the confirmed ones of the pending transactions, in the order of
the iteration. -/
def finalizedTransactions (order : List (TransactionId × PendingTransaction)) :
    List (TransactionId × Transaction) :=
  (order.filter fun e => e.2.status = .confirmed).map fun e => (e.1, e.2.transaction)

/-- The transaction is settled: confirmed, rejected or expired. -/
def settled (p : PendingTransaction) : Bool :=
  p.status = .confirmed ∨ p.status = .rejected ∨ p.status = .expired

/-- Clear finalized transactions. -/
def clearFinalized (adapter : ConsensusAdapter) : ConsensusAdapter :=
  { adapter with
    pendingTransactions := HashMap.retain (fun _ p => !settled p) adapter.pendingTransactions }

end ConsensusAdapter

/-- State manager for coordinating state operations. -/
structure StateManager where
  /-- Current state. -/
  state : LedgerState
  /-- Consensus adapter. -/
  consensus : ConsensusAdapter
  /-- Checkpoint interval. -/
  checkpointInterval : ℕ

/-- The application of a transaction to a state. -/
structure Application where
  /-- The transaction. -/
  transaction : Transaction
  /-- When its execution started. -/
  startTime : Timestamp
  /-- The state before. -/
  before : LedgerState
  /-- The state after. -/
  after : LedgerState

namespace StateManager

/-- Apply finalized transactions one after the other, and collect the records of those that
succeed. The clock is read twice for each of them. -/
def applyFinalized (P : Primitives) (clock : TransactionId → Timestamp × Timestamp) :
    List (TransactionId × Transaction) → List TransactionRecord → LedgerState →
      List TransactionRecord × LedgerState
  | [], records, s => (records, s)
  | (txId, transaction) :: rest, records, s =>
    let outcome :=
      (LedgerState.applyTransaction P transaction (clock txId).1 (clock txId).2).run s
    match outcome.1 with
    | .ok record => applyFinalized P clock rest (records ++ [record]) outcome.2
    | .error _ => applyFinalized P clock rest records outcome.2

/-- Process finalized transactions from consensus: apply them, clear what is settled, and create
a checkpoint when the height is a multiple of the interval. -/
def processConsensusTransactions (P : Primitives)
    (order : List (TransactionId × PendingTransaction))
    (clock : TransactionId → Timestamp × Timestamp) (checkpointTime : Timestamp)
    (m : StateManager) : List TransactionRecord × StateManager :=
  let outcome :=
    applyFinalized P clock (ConsensusAdapter.finalizedTransactions order) [] m.state
  let state :=
    if m.checkpointInterval ∣ outcome.2.metadata.height then
      (outcome.2.createCheckpoint P checkpointTime).2
    else outcome.2
  (outcome.1, { m with state := state, consensus := m.consensus.clearFinalized })

/-- A call on the adapter or on the manager. -/
inductive Operation
  /-- Submit a transaction. -/
  | submitTransaction (transaction : Transaction) (now : Timestamp)
  /-- Simulate a consensus round. -/
  | simulateConsensusRound (schedule : List (TransactionId × Timestamp))
  /-- Process the finalized transactions. -/
  | processConsensusTransactions (order : List (TransactionId × PendingTransaction))
      (clock : TransactionId → Timestamp × Timestamp) (checkpointTime : Timestamp)

/-- The manager after a call. -/
def applyOperation (P : Primitives) (m : StateManager) : Operation → StateManager
  | .submitTransaction transaction now =>
    { m with consensus := ((ConsensusAdapter.submitTransaction P transaction now).run
        m.consensus).2 }
  | .simulateConsensusRound schedule =>
    { m with consensus := (m.consensus.simulateConsensusRound schedule).2 }
  | .processConsensusTransactions order clock checkpointTime =>
    (m.processConsensusTransactions P order clock checkpointTime).2

/-- The orders of iteration are those of the map of pending transactions. -/
def Valid (m : StateManager) : Operation → Prop
  | .submitTransaction _ _ => True
  | .simulateConsensusRound schedule => (schedule.map Prod.fst).Nodup ∧
      (schedule.map Prod.fst).toFinset = m.consensus.pendingTransactions.keys
  | .processConsensusTransactions order _ _ => m.consensus.pendingTransactions.Enumerates order

instance instDecidableValid (m : StateManager) : (op : Operation) → Decidable (m.Valid op)
  | .submitTransaction _ _ => instDecidableTrue
  | .simulateConsensusRound _ => instDecidableAnd
  | .processConsensusTransactions _ _ _ => HashMap.instDecidableEnumerates _ _

/-- The applications of a list of transactions. -/
def applicationsOf (P : Primitives) (clock : TransactionId → Timestamp × Timestamp) :
    List (TransactionId × Transaction) → LedgerState → List Application
  | [], _ => []
  | (txId, transaction) :: rest, s =>
    let after :=
      ((LedgerState.applyTransaction P transaction (clock txId).1 (clock txId).2).run s).2
    ⟨transaction, (clock txId).1, s, after⟩ :: applicationsOf P clock rest after

/-- The applications that a call makes. -/
def applications (P : Primitives) (m : StateManager) : Operation → List Application
  | .submitTransaction _ _ => []
  | .simulateConsensusRound _ => []
  | .processConsensusTransactions order clock _ =>
    applicationsOf P clock (ConsensusAdapter.finalizedTransactions order) m.state

end StateManager

/-- A manager with the applications that led to its state. -/
structure Logged where
  /-- The manager. -/
  manager : StateManager
  /-- The applications so far, the oldest first. -/
  log : List Application

namespace Logged

/-- The manager and its applications after a call. -/
def applyOperation (P : Primitives) (s : Logged) (op : StateManager.Operation) : Logged :=
  ⟨s.manager.applyOperation P op, s.log ++ s.manager.applications P op⟩

/-- A new manager of a state, with an adapter without transactions. -/
def new (state : LedgerState) (config : ConsensusConfig) (checkpointInterval : ℕ) : Logged :=
  ⟨⟨state, .withConfig config, checkpointInterval⟩, []⟩

/-- The orders of iteration of a call are those of the map. -/
def Valid (s : Logged) (op : StateManager.Operation) : Prop := s.manager.Valid op

instance instDecidableLoggedValid (s : Logged) (op : StateManager.Operation) :
    Decidable (s.Valid op) := StateManager.instDecidableValid s.manager op

/-- Submit a transaction, confirm it in some rounds and apply it. -/
def confirmAndApply (tx : Transaction) (rounds : ℕ) : List StateManager.Operation :=
  let id := tx.id Primitives.toy
  .submitTransaction tx ⟨0⟩ ::
    (List.replicate rounds (.simulateConsensusRound [(id, ⟨0⟩)]) ++
      [.processConsensusTransactions [(id, ⟨tx, .confirmed, ⟨0⟩, 1, rounds, rounds, 0⟩)]
        (fun _ => (⟨0⟩, ⟨0⟩)) ⟨0⟩])

end Logged

/-! ## What the adapter does to a transaction -/

/-- The submission is not refused: there is no signature, or it is valid. -/
def Admissible (P : Primitives) (tx : Transaction) : Prop :=
  tx.signature = none ∨ tx.verifySignature P = .ok true

namespace ConsensusAdapter

variable {P : Primitives} {adapter adapter' : ConsensusAdapter} {transaction : Transaction}
  {now : Timestamp} {txId : TransactionId}

/-- A submission that is accepted has no signature or a valid one, and writes the transaction
under its id. -/
lemma submitTransaction_ok
    (h : (submitTransaction P transaction now).run adapter = (.ok txId, adapter')) :
    Admissible P transaction ∧ txId = transaction.id P ∧
      adapter' = adapter.put txId (.submitted transaction now) := by
  unfold submitTransaction at h
  split_ifs at h with hsigned
  · obtain ⟨valid, a, hverify, h⟩ := Fallible.run_bind_ok.mp h
    obtain ⟨hvalid, rfl⟩ := Prod.mk.inj hverify
    cases valid with
    | false => simp at h
    | true =>
      obtain ⟨hid, rfl⟩ := Prod.mk.inj h
      obtain rfl := Except.ok.inj hid
      exact ⟨.inr hvalid, rfl, rfl⟩
  · obtain ⟨hid, rfl⟩ := Prod.mk.inj h
    obtain rfl := Except.ok.inj hid
    exact ⟨.inl (by simpa using hsigned), rfl, rfl⟩

/-- A submission that is refused changes nothing. -/
lemma submitTransaction_atomicAt : (submitTransaction P transaction now).AtomicAt adapter := by
  unfold submitTransaction
  split_ifs
  · refine Fallible.atomicAt_bind_of_run_eq rfl fun valid => ?_
    split_ifs
    · exact Fallible.atomicAt_fail _ _
    · exact Fallible.atomicAt_bind_of_total (Fallible.atomicAt_modify _ _) fun _ _ _ => ⟨_, rfl⟩
  · exact Fallible.atomicAt_bind_of_total (Fallible.atomicAt_modify _ _) fun _ _ _ => ⟨_, rfl⟩

/-- A vote does not change the transaction. -/
lemma transaction_vote (p : PendingTransaction) (voteFor : Bool) :
    (p.vote voteFor).transaction = p.transaction := by
  cases voteFor with
  | false => simp [PendingTransaction.vote, PendingTransaction.totalVotes]
  | true => simp [PendingTransaction.vote, PendingTransaction.totalVotes]

/-- Processing a transaction changes no transaction. -/
lemma lookup_processTransactionRound (txId : TransactionId) (now : Timestamp)
    (adapter : ConsensusAdapter) (id : TransactionId) :
    ((processTransactionRound txId now adapter).2.pendingTransactions.lookup id).map
        PendingTransaction.transaction =
      (adapter.pendingTransactions.lookup id).map PendingTransaction.transaction := by
  unfold processTransactionRound
  cases hp : adapter.pendingTransactions.lookup txId with
  | none => rfl
  | some p =>
    simp only
    split_ifs
    · rfl
    · show ((adapter.pendingTransactions.insert txId _).lookup id).map _ = _
      rw [HashMap.lookup_insert_ite]
      split_ifs with heq
      · rw [heq, hp]
        exact congrArg some (transaction_vote p _)
      · rfl

/-- A round changes no transaction. -/
lemma lookup_simulateConsensusRound (schedule : List (TransactionId × Timestamp))
    (adapter : ConsensusAdapter) (id : TransactionId) :
    ((simulateConsensusRound schedule adapter).2.pendingTransactions.lookup id).map
        PendingTransaction.transaction =
      (adapter.pendingTransactions.lookup id).map PendingTransaction.transaction := by
  have hrounds : ∀ (l : List (TransactionId × Timestamp)) (a : ConsensusAdapter),
      ((processRounds l a).2.pendingTransactions.lookup id).map PendingTransaction.transaction =
        (a.pendingTransactions.lookup id).map PendingTransaction.transaction := by
    intro l
    induction l with
    | nil => exact fun _ => rfl
    | cons entry l ih =>
      intro a
      exact (ih _).trans (lookup_processTransactionRound entry.1 entry.2 a id)
  exact hrounds schedule { adapter with currentRound := adapter.currentRound + 1 }

/-- What is pending after clearing is what was not settled. -/
lemma lookup_clearFinalized {p : PendingTransaction} :
    adapter.clearFinalized.pendingTransactions.lookup txId = some p ↔
      adapter.pendingTransactions.lookup txId = some p ∧ settled p = false := by
  rw [show adapter.clearFinalized.pendingTransactions =
    HashMap.retain (fun _ p => !settled p) adapter.pendingTransactions from rfl,
    HashMap.lookup_retain, Bool.not_eq_true']

/-- The finalized transactions are the confirmed ones. -/
lemma mem_finalizedTransactions {order : List (TransactionId × PendingTransaction)}
    (horder : adapter.pendingTransactions.Enumerates order) {e : TransactionId × Transaction} :
    e ∈ finalizedTransactions order ↔ ∃ p, adapter.pendingTransactions.lookup e.1 = some p ∧
      p.status = .confirmed ∧ p.transaction = e.2 := by
  unfold finalizedTransactions
  simp only [List.mem_map, List.mem_filter, decide_eq_true_eq]
  constructor
  · rintro ⟨⟨id, p⟩, ⟨hmem, hstatus⟩, rfl⟩
    exact ⟨p, (horder.2 id p).mp hmem, hstatus, rfl⟩
  · rintro ⟨p, hp, hstatus, htransaction⟩
    exact ⟨(e.1, p), ⟨(horder.2 e.1 p).mpr hp, hstatus⟩, Prod.ext rfl htransaction⟩

/-- Every finalized transaction occurs once. -/
lemma nodup_finalizedTransactions {order : List (TransactionId × PendingTransaction)}
    (horder : adapter.pendingTransactions.Enumerates order) :
    ((finalizedTransactions order).map Prod.fst).Nodup := by
  unfold finalizedTransactions
  rw [List.map_map]
  exact horder.1.sublist (List.filter_sublist.map _)

end ConsensusAdapter

namespace StateManager

variable {P : Primitives} {m : StateManager} {op : Operation} {id : TransactionId}
  {p : PendingTransaction}

/-- **What a call leaves pending**: a transaction that was just submitted and not refused, or one
that was pending before; after processing none that was confirmed. -/
lemma lookup_applyOperation
    (h : (m.applyOperation P op).consensus.pendingTransactions.lookup id = some p) :
    (∃ now, op = .submitTransaction p.transaction now ∧ Admissible P p.transaction ∧
      id = p.transaction.id P) ∨
    ∃ p₀, m.consensus.pendingTransactions.lookup id = some p₀ ∧
      p.transaction = p₀.transaction ∧
      ∀ order clock checkpointTime,
        op = .processConsensusTransactions order clock checkpointTime → p₀.status ≠ .confirmed := by
  cases op with
  | submitTransaction transaction now =>
    have hrun : (((ConsensusAdapter.submitTransaction P transaction now).run
        m.consensus).2.pendingTransactions).lookup id = some p := h
    rcases Fallible.run_cases (ConsensusAdapter.submitTransaction P transaction now)
      m.consensus with ⟨txId, adapter, hok⟩ | ⟨e, adapter, herr⟩
    · obtain ⟨hadmissible, rfl, rfl⟩ := ConsensusAdapter.submitTransaction_ok hok
      rw [hok, ConsensusAdapter.put, HashMap.lookup_insert_ite] at hrun
      split_ifs at hrun with heq
      · obtain rfl := Option.some.inj hrun
        exact .inl ⟨now, rfl, hadmissible, heq⟩
      · exact .inr ⟨p, hrun, rfl, fun _ _ _ hop => nomatch hop⟩
    · rw [herr, ConsensusAdapter.submitTransaction_atomicAt e adapter herr] at hrun
      exact .inr ⟨p, hrun, rfl, fun _ _ _ hop => nomatch hop⟩
  | simulateConsensusRound schedule =>
    have hround := ConsensusAdapter.lookup_simulateConsensusRound schedule m.consensus id
    have hrun : (m.consensus.simulateConsensusRound schedule).2.pendingTransactions.lookup id =
        some p := h
    rw [hrun, Option.map_some] at hround
    obtain ⟨p₀, hp₀, htransaction⟩ := Option.map_eq_some_iff.mp hround.symm
    exact .inr ⟨p₀, hp₀, htransaction.symm, fun _ _ _ hop => nomatch hop⟩
  | processConsensusTransactions order clock checkpointTime =>
    have hrun : m.consensus.clearFinalized.pendingTransactions.lookup id = some p := h
    obtain ⟨hp, hsettled⟩ := ConsensusAdapter.lookup_clearFinalized.mp hrun
    refine .inr ⟨p, hp, rfl, fun _ _ _ _ hstatus => ?_⟩
    simp [ConsensusAdapter.settled, hstatus] at hsettled

end StateManager

end QuDAG.Exchange
