import QuDAG.Exchange.Consensus
import QuDAG.Exchange.Semantics

/-!
# Replay

A transaction is applied when it is confirmed and is then forgotten: its nonce is never compared
and no list of the applied ones is kept. While it waits a second submission only starts its vote
again, but after it was applied the same transaction can be submitted and applied once more.

## Main definitions

* `Application.Changes` — the application changed the ledger.
* `Logged.Fresh` — the call submits nothing that was already applied.
* `Logged.Once` — the invariant: what was applied is not pending.

## Main results

* `Logged.Once.applyOperation` — calls that submit nothing that was already applied keep the
  invariant.
* `Logged.no_replay_of_fresh` — in a run of such calls every transaction changes the ledger at most
  once.
-/

namespace QuDAG.Exchange

open RustStd

/-- The application changed the ledger. -/
def Application.Changes (e : Application) : Prop := e.after.ledger ≠ e.before.ledger

namespace StateManager

/-- The transactions of the applications are those of the list. -/
lemma transactions_applicationsOf (P : Primitives)
    (clock : TransactionId → Timestamp × Timestamp) :
    ∀ (finalized : List (TransactionId × Transaction)) (s : LedgerState),
      (applicationsOf P clock finalized s).map Application.transaction =
        finalized.map Prod.snd := by
  intro finalized
  induction finalized with
  | nil => exact fun _ => rfl
  | cons e rest ih => exact fun s => congrArg (e.2 :: ·) (ih _)

end StateManager

namespace Logged

variable {P : Primitives} {s : Logged} {op : StateManager.Operation}

/-- The ids of the transactions that were applied. -/
def appliedIds (P : Primitives) (s : Logged) : List TransactionId :=
  s.log.map fun e => e.transaction.id P

/-- What the call submits, if it is not refused, was not yet applied. -/
def Fresh (P : Primitives) (s : Logged) : StateManager.Operation → Prop
  | .submitTransaction tx _ => Admissible P tx → tx.id P ∉ s.appliedIds P
  | .simulateConsensusRound _ => True
  | .processConsensusTransactions _ _ _ => True

/-- No transaction has changed the ledger twice. -/
def NoReplay (P : Primitives) (s : Logged) : Prop :=
  s.log.Pairwise fun e e' => e.Changes → e'.Changes → e.transaction.id P ≠ e'.transaction.id P

/-- The invariant of fresh submissions. -/
structure Once (P : Primitives) (s : Logged) : Prop where
  /-- A transaction is pending under its id. -/
  keyed : ∀ id p, s.manager.consensus.pendingTransactions.lookup id = some p →
    p.transaction.id P = id
  /-- Every transaction was applied at most once. -/
  nodup : (s.appliedIds P).Nodup
  /-- What was applied is not pending. -/
  disjoint : ∀ id p, s.manager.consensus.pendingTransactions.lookup id = some p →
    id ∉ s.appliedIds P

/-- The ids of the applications that processing makes are those of the finalized transactions. -/
lemma Once.ids_applications (h : s.Once P) {order : List (TransactionId × PendingTransaction)}
    (horder : s.manager.consensus.pendingTransactions.Enumerates order)
    (clock : TransactionId → Timestamp × Timestamp) (checkpointTime : Timestamp) :
    (s.manager.applications P (.processConsensusTransactions order clock checkpointTime)).map
        (fun e => e.transaction.id P) =
      (ConsensusAdapter.finalizedTransactions order).map Prod.fst := by
  have hmap := congrArg (List.map fun tx : Transaction => tx.id P)
    (StateManager.transactions_applicationsOf P clock
      (ConsensusAdapter.finalizedTransactions order) s.manager.state)
  rw [List.map_map, List.map_map] at hmap
  refine hmap.trans (List.map_congr_left fun e he => ?_)
  obtain ⟨p, hp, -, htransaction⟩ := (ConsensusAdapter.mem_finalizedTransactions horder).mp he
  rw [Function.comp_apply, ← htransaction]
  exact h.keyed e.1 p hp

/-- Calls that apply nothing leave the applied ids as they were. -/
lemma appliedIds_applyOperation (P : Primitives) (s : Logged) (op : StateManager.Operation) :
    (s.applyOperation P op).appliedIds P =
      s.appliedIds P ++ (s.manager.applications P op).map fun e => e.transaction.id P :=
  List.map_append

/-- A call that submits nothing that was already applied keeps the invariant.

**Proof sketch.** Only processing applies transactions, and each of them was pending, so it was
not applied before. It was confirmed, so it is not pending afterwards. -/
lemma Once.applyOperation (h : s.Once P) (hvalid : s.Valid op) (hfresh : s.Fresh P op) :
    (s.applyOperation P op).Once P := by
  have happlied := appliedIds_applyOperation P s op
  refine ⟨fun id p hp => ?_, ?_, fun id p hp => ?_⟩
  · rcases StateManager.lookup_applyOperation hp with
      ⟨now, -, -, hid⟩ | ⟨p₀, hp₀, htransaction, -⟩
    · exact hid.symm
    · rw [htransaction]
      exact h.keyed id p₀ hp₀
  · rw [happlied]
    cases op with
    | submitTransaction transaction now => simpa [StateManager.applications] using h.nodup
    | simulateConsensusRound schedule => simpa [StateManager.applications] using h.nodup
    | processConsensusTransactions order clock checkpointTime =>
      rw [h.ids_applications hvalid]
      refine List.Nodup.append h.nodup (ConsensusAdapter.nodup_finalizedTransactions hvalid) ?_
      intro id hid hmem
      obtain ⟨e, he, rfl⟩ := List.mem_map.mp hmem
      obtain ⟨p, hp, -, -⟩ := (ConsensusAdapter.mem_finalizedTransactions hvalid).mp he
      exact h.disjoint e.1 p hp hid
  · rw [happlied, List.mem_append, not_or]
    rcases StateManager.lookup_applyOperation hp with
      ⟨now, rfl, hadmissible, rfl⟩ | ⟨p₀, hp₀, -, hconfirmed⟩
    · exact ⟨hfresh hadmissible, by simp [StateManager.applications]⟩
    · refine ⟨h.disjoint id p₀ hp₀, ?_⟩
      cases op with
      | submitTransaction transaction now => simp [StateManager.applications]
      | simulateConsensusRound schedule => simp [StateManager.applications]
      | processConsensusTransactions order clock checkpointTime =>
        rw [h.ids_applications hvalid]
        intro hmem
        obtain ⟨e, he, rfl⟩ := List.mem_map.mp hmem
        obtain ⟨p, hp, hstatus, -⟩ :=
          (ConsensusAdapter.mem_finalizedTransactions hvalid).mp he
        rw [hp₀] at hp
        obtain rfl := Option.some.inj hp
        exact hconfirmed order clock checkpointTime rfl hstatus

/-- **Replay**: in every run from a new manager that submits nothing that was already applied,
every transaction changes the ledger at most once. -/
theorem no_replay_of_fresh {state : LedgerState} {config : ConsensusConfig}
    {checkpointInterval : ℕ} {ops : List StateManager.Operation}
    (hvalid : Runs.Steps (Logged.applyOperation P) Logged.Valid
      (new state config checkpointInterval) ops)
    (hfresh : Runs.Steps (Logged.applyOperation P) (Logged.Fresh P)
      (new state config checkpointInterval) ops) :
    NoReplay P (Runs.run (Logged.applyOperation P) (new state config checkpointInterval) ops) := by
  have hstart : (new state config checkpointInterval).Once P := by
    refine ⟨fun id p hp => ?_, List.nodup_nil, fun id p hp => ?_⟩
    · simp [new, ConsensusAdapter.withConfig] at hp
    · simp [new, ConsensusAdapter.withConfig] at hp
  have honce := Runs.run_rule (Once P) (fun s op h hstep => h.applyOperation hstep.1 hstep.2)
    (hvalid.and hfresh) hstart
  exact (List.pairwise_map.mp honce.nodup).imp fun hne _ _ => hne

/-- A manager of the genesis state that confirms in one round. -/
def quickManager : Logged := new LedgerState.fundedGenesis ⟨95 / 100, 100, 1⟩ 100

/-- One submission of a burn. -/
theorem no_replay_of_fresh_once :
    NoReplay Primitives.toy (Runs.run (Logged.applyOperation Primitives.toy) quickManager
      (confirmAndApply LedgerState.tokenBurn 1)) := by
  refine no_replay_of_fresh (by decide +kernel) ⟨fun _ => ?_, trivial, trivial, trivial⟩
  simp [appliedIds, new]

/-- A burn that is submitted again after it was applied burns twice. -/
theorem not_noReplay :
    ¬ ∀ (P : Primitives) (state : LedgerState) (config : ConsensusConfig)
      (checkpointInterval : ℕ) (ops : List StateManager.Operation),
      Runs.Steps (Logged.applyOperation P) Logged.Valid (new state config checkpointInterval)
        ops →
      NoReplay P
        (Runs.run (Logged.applyOperation P) (new state config checkpointInterval) ops) := by
  intro h
  have hnoReplay := h Primitives.toy LedgerState.fundedGenesis .default 100
    (confirmAndApply LedgerState.tokenBurn 20 ++ confirmAndApply LedgerState.tokenBurn 20)
    (by decide +kernel)
  have hlog : (Runs.run (Logged.applyOperation Primitives.toy)
      (new LedgerState.fundedGenesis .default 100) (confirmAndApply LedgerState.tokenBurn 20 ++
        confirmAndApply LedgerState.tokenBurn 20)).log.map (fun e => (e.transaction,
          e.before.ledger.totalSupply, e.after.ledger.totalSupply)) =
      [(LedgerState.tokenBurn, ⟨1000⟩, ⟨895⟩), (LedgerState.tokenBurn, ⟨895⟩, ⟨790⟩)] := by
    decide +kernel
  obtain ⟨e, rest, hlist, hfacts, hrest⟩ := List.map_eq_cons_iff.mp hlog
  obtain ⟨e', rfl, hfacts'⟩ := List.map_eq_singleton_iff.mp hrest
  simp only [Prod.mk.injEq] at hfacts hfacts'
  have hchanges : e.Changes := fun heq => by
    rw [heq, hfacts.2.1] at hfacts
    simp at hfacts
  have hchanges' : e'.Changes := fun heq => by
    rw [heq, hfacts'.2.1] at hfacts'
    simp at hfacts'
  unfold NoReplay at hnoReplay
  rw [hlist, List.pairwise_pair] at hnoReplay
  exact hnoReplay hchanges hchanges' (by rw [hfacts.1, hfacts'.1])

end Logged

end QuDAG.Exchange
