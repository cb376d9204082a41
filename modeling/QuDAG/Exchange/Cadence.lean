import Mathlib.Data.Nat.Factorization.Basic
import QuDAG.Exchange.Consensus
import QuDAG.Lib.Runs

/-!
# When checkpoints are created

The manager looks at the height after a whole batch of transactions and creates a checkpoint if it
is a multiple of the interval. A batch that jumps over a multiple creates none for it, and a call
that applies nothing while the height is a multiple creates one more. There is one checkpoint for
every multiple that is passed iff no call does either.

## Main definitions

* `multiplesPassed` — the number of multiples between two heights.
* `Recorded` — a manager with the checkpoints that its calls have created.
* `StateManager.Regular` — the condition on a call.

## Main results

* `Recorded.checkpoints_run` — the stored checkpoints are the last ones created.
* `Recorded.cadence_iff` — the exact runs with one checkpoint for every multiple.
-/

namespace QuDAG.Exchange

open RustStd

/-! ## Multiples -/

/-- The number of multiples of the interval that a count from `a` to `b` reaches or passes. -/
def multiplesPassed (interval a b : ℕ) : ℕ := ((Finset.Ioc a b).filter (interval ∣ ·)).card

/-- Counting on from where a count has ended. -/
lemma multiplesPassed_add {interval a b c : ℕ} (hab : a ≤ b) (hbc : b ≤ c) :
    multiplesPassed interval a c = multiplesPassed interval a b + multiplesPassed interval b c := by
  unfold multiplesPassed
  rw [← Finset.Ioc_union_Ioc_eq_Ioc hab hbc, Finset.filter_union]
  refine Finset.card_union_of_disjoint (Finset.disjoint_filter_filter ?_)
  exact Finset.Ioc_disjoint_Ioc_of_le (le_refl b)

/-- A count that stays passes nothing. -/
@[simp] lemma multiplesPassed_self (interval a : ℕ) : multiplesPassed interval a a = 0 := by
  simp [multiplesPassed]

/-- Zero has no positive multiple. -/
lemma multiplesPassed_zero (a b : ℕ) : multiplesPassed 0 a b = 0 := by
  unfold multiplesPassed
  rw [Finset.card_eq_zero, Finset.filter_eq_empty_iff]
  intro x hx hdvd
  have hpos := (Finset.mem_Ioc.mp hx).1
  have hzero := Nat.eq_zero_of_zero_dvd hdvd
  omega

/-- A count from `a` to `a + n` passes the multiples that its remainder and `n` make up. -/
lemma multiplesPassed_eq {interval : ℕ} (h : 0 < interval) (a n : ℕ) :
    multiplesPassed interval a (a + n) = (a % interval + n) / interval := by
  have hcard : ∀ m, multiplesPassed interval 0 m = m / interval := fun m =>
    Nat.Ioc_filter_dvd_card_eq_div m interval
  have hadd := @multiplesPassed_add interval _ _ _ (Nat.zero_le a) (Nat.le_add_right a n)
  have hdiv : (a + n) / interval = a / interval + (a % interval + n) / interval := by
    rw [← Nat.mul_add_div h, ← Nat.add_assoc, Nat.div_add_mod]
  rw [hcard, hcard, hdiv] at hadd
  omega

/-- **One checkpoint at the end of a batch** is right iff the batch is empty away from a multiple,
or it ends at the next multiple at the latest.

**Proof sketch.** With the remainder `r` of the count, `(r + n) / interval` multiples are passed.
This is one or less only below twice the interval, and the batch ends at a multiple only if
`r + n` is one. -/
lemma one_iff (interval h n : ℕ) :
    (if interval ∣ h + n then 1 else 0) = multiplesPassed interval h (h + n) ↔
      if n = 0 then ¬ interval ∣ h else interval = 0 ∨ h % interval + n ≤ interval := by
  rcases Nat.eq_zero_or_pos interval with rfl | hpos
  · rw [multiplesPassed_zero]
    by_cases hn : n = 0
    · simp [hn]
    · simp [hn]
  · rw [multiplesPassed_eq hpos]
    have hr : h % interval < interval := Nat.mod_lt h hpos
    have hdvd : interval ∣ h + n ↔ interval ∣ h % interval + n := by
      rw [Nat.dvd_iff_mod_eq_zero, Nat.dvd_iff_mod_eq_zero, Nat.mod_add_mod]
    have hself : interval ∣ h ↔ interval ∣ h % interval := by
      rw [Nat.dvd_iff_mod_eq_zero, Nat.dvd_iff_mod_eq_zero, Nat.mod_mod]
    simp only [hdvd, hself]
    generalize h % interval = r at hr ⊢
    by_cases hn : n = 0
    · rw [hn, Nat.add_zero, Nat.div_eq_of_lt hr]
      simp
    rw [if_neg hn]
    constructor
    · intro heq
      right
      by_contra hlt
      have hone : 1 ≤ (r + n) / interval := (Nat.one_le_div_iff hpos).mpr (by omega)
      split_ifs at heq with hmul
      · obtain ⟨k, hk⟩ := hmul
        rw [hk, Nat.mul_div_cancel_left _ hpos] at heq
        rw [hk, ← heq] at hlt
        omega
      · omega
    · rintro (hzero | hle)
      · omega
      · rcases Nat.lt_or_eq_of_le hle with hlt | heq
        · have hnot : ¬ interval ∣ r + n := fun hmul =>
            absurd (Nat.le_of_dvd (by omega) hmul) (by omega)
          rw [if_neg hnot, Nat.div_eq_of_lt hlt]
        · rw [heq, if_pos (dvd_refl interval), Nat.div_self hpos]

/-! ## Calls -/

namespace StateManager

variable {P : Primitives} {m : StateManager}

/-- The number of transactions of a list that have a cost: those that are counted. -/
def counted (s : LedgerState) (finalized : List (TransactionId × Transaction)) : ℕ :=
  (finalized.filter fun e => (s.calculateTransactionCost e.2).isOk).length

/-- The height counts the transactions that have a cost. Applying transactions changes neither the
costs nor the checkpoints. -/
lemma height_applyFinalized (P : Primitives) (clock : TransactionId → Timestamp × Timestamp)
    {s₀ : LedgerState} : ∀ (finalized : List (TransactionId × Transaction))
      (records : List TransactionRecord) (s : LedgerState), s.meter = s₀.meter →
      (applyFinalized P clock finalized records s).2.metadata.height =
        s.metadata.height + counted s₀ finalized ∧
      (applyFinalized P clock finalized records s).2.checkpoints = s.checkpoints := by
  intro finalized
  induction finalized with
  | nil => exact fun _ _ _ => ⟨rfl, rfl⟩
  | cons e rest ih =>
    intro records s hmeter
    have hmeter' := (s.frame_applyTransaction P e.2 (clock e.1).1 (clock e.1).2).1.trans hmeter
    have hcost : s.calculateTransactionCost e.2 = s₀.calculateTransactionCost e.2 := by
      unfold LedgerState.calculateTransactionCost
      rw [hmeter]
    have hstep : ((LedgerState.applyTransaction P e.2 (clock e.1).1 (clock e.1).2).run
          s).2.metadata.height = s.metadata.height + counted s₀ [e] ∧
        ((LedgerState.applyTransaction P e.2 (clock e.1).1 (clock e.1).2).run s).2.checkpoints =
          s.checkpoints := by
      cases hc : s.calculateTransactionCost e.2 with
      | error err =>
        have hcount : counted s₀ [e] = 0 := by
          simp [counted, ← hcost, hc, Except.isOk, Except.toBool]
        rw [LedgerState.run_applyTransaction_error hc, hcount]
        exact ⟨rfl, rfl⟩
      | ok cost =>
        have hcount : counted s₀ [e] = 1 := by
          simp [counted, ← hcost, hc, Except.isOk, Except.toBool]
        rw [LedgerState.run_applyTransaction hc, hcount]
        exact ⟨rfl, rfl⟩
    have hcount : counted s₀ (e :: rest) = counted s₀ [e] + counted s₀ rest := by
      unfold counted
      rw [← List.length_append, ← List.filter_append]
      rfl
    unfold applyFinalized
    simp only
    split
    · obtain ⟨hheight, hpoints⟩ := ih _ _ hmeter'
      exact ⟨by rw [hheight, hstep.1, hcount, Nat.add_assoc], hpoints.trans hstep.2⟩
    · obtain ⟨hheight, hpoints⟩ := ih _ _ hmeter'
      exact ⟨by rw [hheight, hstep.1, hcount, Nat.add_assoc], hpoints.trans hstep.2⟩

/-- The checkpoint that a call creates, if it creates one. -/
def createdBy (P : Primitives) (m : StateManager) : Operation → List StateCheckpoint
  | .processConsensusTransactions order clock checkpointTime =>
    let outcome := applyFinalized P clock (ConsensusAdapter.finalizedTransactions order) [] m.state
    if m.checkpointInterval ∣ outcome.2.metadata.height then
      [(outcome.2.createCheckpoint P checkpointTime).1]
    else []
  | _ => []

/-- A call that processes the finalized transactions either counts some and ends at the next
multiple of the interval at the latest, or counts none while the height is not a multiple. -/
def Regular (m : StateManager) : Operation → Prop
  | .processConsensusTransactions order _ _ =>
    let n := counted m.state (ConsensusAdapter.finalizedTransactions order)
    if n = 0 then ¬ m.checkpointInterval ∣ m.state.metadata.height
    else m.checkpointInterval = 0 ∨
      m.state.metadata.height % m.checkpointInterval + n ≤ m.checkpointInterval
  | _ => True

/-- **A call** raises the height by the transactions that it counts, and it creates one checkpoint
if that is a multiple of the interval. -/
lemma height_processConsensusTransactions (order : List (TransactionId × PendingTransaction))
    (clock : TransactionId → Timestamp × Timestamp) (checkpointTime : Timestamp) :
    (m.applyOperation P
        (.processConsensusTransactions order clock checkpointTime)).state.metadata.height =
        m.state.metadata.height +
          counted m.state (ConsensusAdapter.finalizedTransactions order) ∧
      (m.createdBy P (.processConsensusTransactions order clock checkpointTime)).length =
        if m.checkpointInterval ∣ m.state.metadata.height +
          counted m.state (ConsensusAdapter.finalizedTransactions order) then 1 else 0 := by
  obtain ⟨hheight, -⟩ := height_applyFinalized P clock
    (ConsensusAdapter.finalizedTransactions order) [] m.state rfl
  constructor
  · show (m.processConsensusTransactions P order clock checkpointTime).2.state.metadata.height = _
    unfold processConsensusTransactions
    dsimp only
    split_ifs
    · exact hheight
    · exact hheight
  · unfold createdBy
    simp only [hheight]
    split_ifs
    · rfl
    · rfl

/-- **The checkpoints of the state** after a call: those before and the one that it created, up to
the limit. -/
lemma checkpoints_applyOperation (P : Primitives) (m : StateManager) (op : Operation) :
    (m.createdBy P op = [] ∧ (m.applyOperation P op).state.checkpoints = m.state.checkpoints) ∨
      ∃ c, m.createdBy P op = [c] ∧ (m.applyOperation P op).state.checkpoints =
        (m.state.checkpoints ++ [c]).drop
          ((m.state.checkpoints ++ [c]).length - LedgerState.maxCheckpoints) := by
  cases op with
  | submitTransaction transaction now => exact .inl ⟨rfl, rfl⟩
  | simulateConsensusRound schedule => exact .inl ⟨rfl, rfl⟩
  | processConsensusTransactions order clock checkpointTime =>
    obtain ⟨-, hpoints⟩ := height_applyFinalized P clock
      (ConsensusAdapter.finalizedTransactions order) [] m.state rfl
    have happly : m.applyOperation P (.processConsensusTransactions order clock checkpointTime) =
        (m.processConsensusTransactions P order clock checkpointTime).2 := rfl
    rw [happly, processConsensusTransactions, createdBy]
    dsimp only
    split_ifs with hdvd
    · refine .inr ⟨_, rfl, ?_⟩
      rw [← hpoints]
      rfl
    · exact .inl ⟨rfl, hpoints⟩

end StateManager

/-! ## Runs -/

/-- A manager with the checkpoints that its calls have created. -/
structure Recorded where
  /-- The manager. -/
  manager : StateManager
  /-- The checkpoints created so far, the oldest first. -/
  created : List StateCheckpoint

namespace Recorded

/-- The manager and the created checkpoints after a call. -/
def applyOperation (P : Primitives) (s : Recorded) (op : StateManager.Operation) : Recorded :=
  ⟨s.manager.applyOperation P op, s.created ++ s.manager.createdBy P op⟩

/-- One checkpoint was created for every multiple of the interval that the height has reached or
passed since it was `h₀`. -/
def OnePerMultiple (h₀ : ℕ) (s : Recorded) : Prop :=
  s.created.length =
    multiplesPassed s.manager.checkpointInterval h₀ s.manager.state.metadata.height

instance (h₀ : ℕ) (s : Recorded) : Decidable (s.OnePerMultiple h₀) :=
  inferInstanceAs (Decidable (_ = _))

variable {P : Primitives} {s : Recorded} {h₀ : ℕ}

/-- The last entries of a list with a new one are those of its last entries with the new one. -/
lemma drop_append_singleton {α : Type} (l : List α) (a : α) (n : ℕ) :
    (l.drop (l.length - n) ++ [a]).drop ((l.drop (l.length - n) ++ [a]).length - n) =
      (l ++ [a]).drop ((l ++ [a]).length - n) := by
  have hdrop : l.drop (l.length - n) ++ [a] = (l ++ [a]).drop (l.length - n) := by
    rw [List.drop_append_of_le_length (Nat.sub_le _ _)]
  rw [hdrop, List.drop_drop]
  congr 1
  simp only [List.length_drop, List.length_append, List.length_singleton]
  omega

/-- **The stored checkpoints are the last ones created**, in every run from a state without
checkpoints. -/
theorem checkpoints_run {m : StateManager} (h : m.state.checkpoints = [])
    (ops : List StateManager.Operation) :
    (Runs.run (applyOperation P) ⟨m, []⟩ ops).manager.state.checkpoints =
      (Runs.run (applyOperation P) ⟨m, []⟩ ops).created.drop
        ((Runs.run (applyOperation P) ⟨m, []⟩ ops).created.length -
          LedgerState.maxCheckpoints) := by
  refine Runs.run_invariant (fun s : Recorded => s.manager.state.checkpoints =
    s.created.drop (s.created.length - LedgerState.maxCheckpoints)) (fun s op hs => ?_) h
  rcases StateManager.checkpoints_applyOperation P s.manager op with ⟨hnone, heq⟩ | ⟨c, hone, heq⟩
  · show (s.manager.applyOperation P op).state.checkpoints =
      (s.created ++ s.manager.createdBy P op).drop
        ((s.created ++ s.manager.createdBy P op).length - _)
    rw [heq, hnone, List.append_nil]
    exact hs
  · show (s.manager.applyOperation P op).state.checkpoints =
      (s.created ++ s.manager.createdBy P op).drop
        ((s.created ++ s.manager.createdBy P op).length - _)
    rw [heq, hone, hs, drop_append_singleton]

/-- A new manager that processes nothing, three times. -/
theorem checkpoints_run_idle :
    let s := Runs.run (applyOperation Primitives.toy)
      ⟨⟨LedgerState.new 1 ⟨0⟩, .withConfig .default, 100⟩, []⟩
      (List.replicate 3 (.processConsensusTransactions [] (fun _ => (⟨0⟩, ⟨0⟩)) ⟨0⟩))
    s.manager.state.checkpoints =
      s.created.drop (s.created.length - LedgerState.maxCheckpoints) :=
  checkpoints_run rfl _

/-- After a call there is one checkpoint for every multiple iff the call is regular. -/
lemma onePerMultiple_applyOperation (hle : h₀ ≤ s.manager.state.metadata.height)
    (h : s.OnePerMultiple h₀) (op : StateManager.Operation) :
    (s.applyOperation P op).OnePerMultiple h₀ ↔ s.manager.Regular op := by
  cases op with
  | submitTransaction transaction now =>
    have hsame : (s.applyOperation P (.submitTransaction transaction now)).OnePerMultiple h₀ := by
      show (s.created ++ []).length = _
      rw [List.append_nil]
      exact h
    exact iff_of_true hsame trivial
  | simulateConsensusRound schedule =>
    have hsame : (s.applyOperation P (.simulateConsensusRound schedule)).OnePerMultiple h₀ := by
      show (s.created ++ []).length = _
      rw [List.append_nil]
      exact h
    exact iff_of_true hsame trivial
  | processConsensusTransactions order clock checkpointTime =>
    obtain ⟨hheight, hcreated⟩ := StateManager.height_processConsensusTransactions (P := P)
      (m := s.manager) order clock checkpointTime
    unfold StateManager.Regular
    dsimp only
    rw [← one_iff, ← hcreated]
    unfold OnePerMultiple at h ⊢
    show (s.created ++ s.manager.createdBy P _).length = multiplesPassed
      s.manager.checkpointInterval h₀ (s.manager.applyOperation P _).state.metadata.height ↔ _
    rw [hheight, multiplesPassed_add hle (Nat.le_add_right _ _), List.length_append, h]
    exact Nat.add_left_cancel_iff

/-- The height never falls. -/
lemma height_le_applyOperation (P : Primitives) (s : Recorded) (op : StateManager.Operation) :
    s.manager.state.metadata.height ≤
      (s.applyOperation P op).manager.state.metadata.height := by
  cases op with
  | submitTransaction transaction now => exact le_refl _
  | simulateConsensusRound schedule => exact le_refl _
  | processConsensusTransactions order clock checkpointTime =>
    obtain ⟨hheight, -⟩ := StateManager.height_processConsensusTransactions (P := P)
      (m := s.manager) order clock checkpointTime
    show _ ≤ (s.manager.applyOperation P _).state.metadata.height
    rw [hheight]
    exact Nat.le_add_right _ _

/-- **Checkpoint cadence**: in a run of any manager, one checkpoint is created for every multiple of
the interval that the height reaches or passes, at every point of the run, iff every call is
regular. -/
theorem cadence_iff (P : Primitives) (m : StateManager) (ops : List StateManager.Operation) :
    Runs.Always (applyOperation P) (OnePerMultiple m.state.metadata.height) ⟨m, []⟩ ops ↔
      Runs.Steps (applyOperation P) (fun s op => s.manager.Regular op) ⟨m, []⟩ ops := by
  have hinit : OnePerMultiple m.state.metadata.height ⟨m, []⟩ :=
    (multiplesPassed_self _ _).symm
  refine Runs.always_iff_steps (V := fun _ _ => True)
    (fun s : Recorded => s.OnePerMultiple m.state.metadata.height ∧
      m.state.metadata.height ≤ s.manager.state.metadata.height) (fun s h => h.1) ?_ ?_
    (Runs.steps_of_forall fun _ _ => trivial) ⟨hinit, le_refl _⟩
  · intro s op h _ hregular
    exact ⟨(onePerMultiple_applyOperation h.2 h.1 op).mpr hregular,
      h.2.trans (height_le_applyOperation P s op)⟩
  · intro s op h _ hone
    exact (onePerMultiple_applyOperation h.2 h.1 op).mp hone

/-- A call on a new manager, without a transaction to process, creates a checkpoint. -/
theorem not_cadence_idle :
    ¬ Runs.Always (applyOperation Primitives.toy) (OnePerMultiple 0)
      ⟨⟨LedgerState.new 1 ⟨0⟩, .withConfig .default, 100⟩, []⟩
      [.processConsensusTransactions [] (fun _ => (⟨0⟩, ⟨0⟩)) ⟨0⟩] := by
  rintro ⟨-, h⟩
  rw [Runs.Always] at h
  exact absurd h (by decide +kernel)

end Recorded

end QuDAG.Exchange
