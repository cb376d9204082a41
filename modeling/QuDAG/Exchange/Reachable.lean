import QuDAG.Exchange.Conservation
import QuDAG.Exchange.State

/-!
# Reachable states

What holds of every state that the operations lead to, from a new state or from genesis. An
invariant of the ledger is kept by the state machine as soon as the four calls that a transaction
is made of keep it.

## Main definitions

* `Ledger.CallsKeep` — the calls on the ledger keep an invariant.
* `LedgerState.Sound` — the invariant of the state machine.
* `LedgerState.Initial`, `LedgerState.Reached` — the first states, and the states reached from
  genesis.

## Main results

* `Ledger.CallsKeep.executeTransaction` — what the calls keep, a transaction keeps.
* `LedgerState.sound_applyOperation` — every operation keeps the invariant.
* `LedgerState.Reached.sound`, `LedgerState.Reached.rooted` — states reached from genesis satisfy it
  and have a root.
-/

namespace QuDAG.Exchange

open RustStd

namespace Ledger

/-- The calls that transactions are made of keep the invariant, whether they succeed or fail. -/
structure CallsKeep (Inv : Ledger → Prop) : Prop where
  createAccount : ∀ id, Fallible.Keeps Inv (createAccount id)
  mint : ∀ id amount, Fallible.Keeps Inv (mint id amount)
  burn : ∀ id amount, Fallible.Keeps Inv (burn id amount)
  transfer : ∀ sender recipient amount, Fallible.Keeps Inv (transfer sender recipient amount)

/-- The calls keep that the balances add up to the supply. -/
lemma callsKeep_conserves : CallsKeep Conserves where
  createAccount _ := keeps_createAccount
  mint _ _ := keeps_mint
  burn _ _ := keeps_burn
  transfer _ _ _ := keeps_transfer

/-- The calls keep what every elementary write keeps. -/
lemma Stable.callsKeep {Inv : Ledger → Prop} (h : Stable Inv) : CallsKeep Inv where
  createAccount _ := h.createAccount
  mint _ _ := h.mint
  burn _ _ := h.burn
  transfer _ _ _ := h.transfer

/-- No account has a public key. -/
def Keyless (l : Ledger) : Prop := ∀ id a, l.accounts.lookup id = some a → a.publicKey = none

/-- No write sets a public key. -/
lemma stable_keyless : Stable Keyless where
  put l id a balance h ha id' a' ha' := by
    rw [accounts_put, HashMap.lookup_insert_ite] at ha'
    split_ifs at ha' with heq
    · rw [← Option.some.inj ha']
      exact h id a ha
    · exact h id' a' ha'
  create l id h _ id' a' ha' := by
    rw [accounts_put, HashMap.lookup_insert_ite] at ha'
    split_ifs at ha' with heq
    · rw [← Option.some.inj ha']
      rfl
    · exact h id' a' ha'
  setSupply _ _ h := h

namespace CallsKeep

variable {Inv : Ledger → Prop}

/-- The execution of a transaction keeps what the calls keep. -/
lemma executeTransaction (h : CallsKeep Inv) (tx : Transaction) (cost : RUv) :
    Fallible.Keeps Inv (LedgerState.executeTransaction tx cost) := by
  have hfee : Fallible.Keeps Inv (LedgerState.deductFee tx cost) := by
    unfold LedgerState.deductFee
    split
    · exact h.burn _ _
    · exact fun _ hl => hl
  refine Fallible.keeps_bind hfee fun _ => ?_
  cases tx.txType with
  | transfer sender recipient amount => exact h.transfer sender recipient amount
  | mint recipient amount => exact h.mint recipient amount
  | burn sender amount => exact h.burn sender amount
  | createAccount account initialBalance =>
    refine Fallible.keeps_bind (h.createAccount account) fun _ => ?_
    split_ifs
    · exact h.mint account initialBalance
    · exact fun _ hl => hl
  | updateAccount account publicKey =>
    refine Fallible.keeps_bind (fun _ hl => hl) fun l => ?_
    exact Fallible.keeps_bind (Fallible.keeps_ofExcept _) fun _ _ hl => hl

/-- The creation of the initial accounts keeps what the calls keep. -/
lemma createAccounts (h : CallsKeep Inv) (initialAccounts : List (AccountId × RUv)) :
    Fallible.Keeps Inv (LedgerState.createAccounts initialAccounts) := by
  induction initialAccounts with
  | nil => exact fun _ hl => hl
  | cons entry rest ih =>
    refine Fallible.keeps_bind (h.createAccount entry.1) fun _ => ?_
    split_ifs
    · exact Fallible.keeps_bind (h.mint entry.1 entry.2) fun _ => ih
    · exact ih

end CallsKeep

end Ledger

namespace LedgerState

variable {P : Primitives} {s s' : LedgerState}

/-- The invariant of the state machine. -/
structure Sound (s : LedgerState) : Prop where
  /-- The balances add up to the supply. -/
  conserves : s.ledger.Conserves
  /-- No account has a public key. -/
  keyless : s.ledger.Keyless
  /-- There is a history as soon as a transaction was applied. -/
  history : s.recentTransactions = [] ↔ s.metadata.height = 0
  /-- The history is limited. -/
  length_le : s.recentTransactions.length ≤ maxHistory

/-- A new state is sound. -/
lemma sound_new (chainId : UInt64) (now : Timestamp) : (new chainId now).Sound where
  conserves := ⟨HashMap.sumBy_empty, Nat.zero_le _⟩
  keyless id a ha := by simp [new, Ledger.new, Ledger.withConfig] at ha
  history := iff_of_true rfl rfl
  length_le := Nat.zero_le _

lemma recentTransactions_afterTransaction (record : TransactionRecord) (now : Timestamp)
    (l : Ledger) (s : LedgerState) :
    (s.afterTransaction record now l).recentTransactions =
      (s.recentTransactions ++ [record]).drop
        ((s.recentTransactions ++ [record]).length - maxHistory) := by
  simp only [afterTransaction, addTransactionRecord]

/-- The newest of the records are a final part of the old ones with the new one. -/
lemma exists_dropped (record : TransactionRecord) (now : Timestamp) (l : Ledger)
    (s : LedgerState) :
    ∃ dropped, dropped ++ (s.afterTransaction record now l).recentTransactions =
      s.recentTransactions ++ [record] := by
  rw [recentTransactions_afterTransaction]
  exact ⟨_, List.take_append_drop _ _⟩

/-- A record more, up to the limit. -/
lemma length_recentTransactions_afterTransaction (record : TransactionRecord) (now : Timestamp)
    (l : Ledger) (s : LedgerState) :
    (s.afterTransaction record now l).recentTransactions.length =
      min maxHistory (s.recentTransactions.length + 1) := by
  rw [recentTransactions_afterTransaction, List.length_drop, List.length_append,
    List.length_singleton]
  generalize maxHistory = limit
  omega

/-- Adding a record to a sound state and raising its height keeps it sound. -/
lemma sound_afterTransaction (record : TransactionRecord) (now : Timestamp)
    {l : Ledger} (hconserves : l.Conserves) (hkeyless : l.Keyless) :
    (s.afterTransaction record now l).Sound := by
  have hlen := length_recentTransactions_afterTransaction record now l s
  have hpos : 0 < maxHistory := by decide
  refine ⟨hconserves, hkeyless, iff_of_false ?_ (Nat.succ_ne_zero _), ?_⟩
  · intro hnil
    rw [hnil, List.length_nil] at hlen
    omega
  · rw [hlen]
    exact Nat.min_le_left _ _

/-- Every operation keeps a state sound. -/
lemma sound_applyOperation (op : Operation) (h : s.Sound) : (applyOperation P s op).Sound := by
  cases op with
  | applyTransaction tx startTime now =>
    show ((applyTransaction P tx startTime now).run s).2.Sound
    cases hcost : s.calculateTransactionCost tx with
    | error e =>
      rw [run_applyTransaction_error hcost]
      exact h
    | ok cost =>
      rw [run_applyTransaction hcost]
      exact sound_afterTransaction _ _
        (Ledger.callsKeep_conserves.executeTransaction tx cost _ h.conserves)
        (Ledger.stable_keyless.callsKeep.executeTransaction tx cost _ h.keyless)
  | updateStateRoot => exact ⟨h.conserves, h.keyless, h.history, h.length_le⟩
  | createCheckpoint now => exact ⟨h.conserves, h.keyless, h.history, h.length_le⟩

/-- The ledger of a genesis state, and its root. -/
lemma genesis_eq_ok {chainId : UInt64} {initialAccounts : List (AccountId × RUv)}
    {now : Timestamp} (h : genesis P chainId initialAccounts now = .ok s) :
    ∃ l, (createAccounts initialAccounts).run Ledger.new = (.ok (), l) ∧
      s = updateStateRoot P { new chainId now with ledger := l } := by
  have hrun : (new chainId now).ledger = Ledger.new := rfl
  unfold genesis at h
  simp only [hrun] at h
  rcases Fallible.run_cases (createAccounts initialAccounts) Ledger.new with
    ⟨_, l, hl⟩ | ⟨e, l, hl⟩
  · rw [hl] at h
    exact ⟨l, hl, (Except.ok.inj h).symm⟩
  · rw [hl] at h
    simp at h

/-- The first states of the exchange: a new one, or one with initial accounts. -/
inductive Initial (P : Primitives) : LedgerState → Prop
  | new (chainId : UInt64) (now : Timestamp) : Initial P (new chainId now)
  | genesis {chainId : UInt64} {initialAccounts : List (AccountId × RUv)} {now : Timestamp}
      {s : LedgerState} (h : genesis P chainId initialAccounts now = .ok s) : Initial P s

/-- The first states are sound. -/
lemma Initial.sound (h : Initial P s) : s.Sound := by
  cases h with
  | new chainId now => exact sound_new chainId now
  | @genesis chainId initialAccounts now _ h =>
    obtain ⟨l, hl, rfl⟩ := genesis_eq_ok h
    have hnew : (LedgerState.new 0 ⟨0⟩).Sound := sound_new 0 ⟨0⟩
    have hconserves := Ledger.callsKeep_conserves.createAccounts initialAccounts Ledger.new
      hnew.conserves
    have hkeyless := Ledger.stable_keyless.callsKeep.createAccounts initialAccounts Ledger.new
      hnew.keyless
    rw [hl] at hconserves hkeyless
    exact ⟨hconserves, hkeyless, iff_of_true rfl rfl, Nat.zero_le _⟩

/-- What the operations lead to from a first state is sound. -/
lemma sound_run (h : Initial P s) (ops : List Operation) :
    (Runs.run (applyOperation P) s ops).Sound :=
  Runs.run_invariant Sound (fun _ op hs => sound_applyOperation op hs) h.sound

/-- The state is reached from genesis by operations on it. -/
def Reached (P : Primitives) (s : LedgerState) : Prop :=
  ∃ chainId initialAccounts now s₀ ops, genesis P chainId initialAccounts now = .ok s₀ ∧
    s = Runs.run (applyOperation P) s₀ ops

namespace Reached

/-- A state reached from genesis is sound. -/
lemma sound (h : Reached P s) : s.Sound := by
  obtain ⟨chainId, initialAccounts, now, s₀, ops, hgenesis, rfl⟩ := h
  exact sound_run (.genesis hgenesis) ops

/-- A state reached from genesis has a root. -/
lemma rooted (h : Reached P s) : s.metadata.stateRoot.isSome := by
  obtain ⟨chainId, initialAccounts, now, s₀, ops, hgenesis, rfl⟩ := h
  obtain ⟨l, -, rfl⟩ := genesis_eq_ok hgenesis
  refine Runs.run_invariant (fun s : LedgerState => s.metadata.stateRoot.isSome) ?_ rfl
  intro s op hs
  cases op with
  | applyTransaction tx startTime now =>
    show ((applyTransaction P tx startTime now).run s).2.metadata.stateRoot.isSome
    cases hcost : s.calculateTransactionCost tx with
    | error e =>
      rw [run_applyTransaction_error hcost]
      exact hs
    | ok cost =>
      rw [run_applyTransaction hcost]
      exact hs
  | updateStateRoot => rfl
  | createCheckpoint now => rfl

end Reached

end LedgerState

end QuDAG.Exchange
