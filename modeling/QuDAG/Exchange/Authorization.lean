import QuDAG.Exchange.Consensus
import QuDAG.Exchange.Semantics

/-!
# Authorization

A transaction that lowers a balance should carry a valid signature under a key of that account,
name the chain of the ledger and be applied before it expires; one that raises the supply should
be signed for a privileged account. Of this the code checks that a signature, if there is one, is
valid under the key next to it. The rest is up to those who submit: where they keep to it, every
application on the way is lawful.

## Main definitions

* `BoundTo`, `SignedFor` — keys and signatures of an account.
* `Application.Lawful` — the law for one application of a transaction.
* `Authorized` — what the submitter has to see to.
* `Logged.Careful` — the condition on a call.

## Main results

* `LedgerState.sender_of_lowers`, `LedgerState.raises_of_lt` — who pays for a transaction, and which
  transactions raise the supply.
* `Logged.lawful_of_careful` — in a run of careful calls all applications are lawful.
-/

namespace QuDAG.Exchange

open RustStd

/-- The key is bound to the account: it is registered there, or the id is made from it. -/
def BoundTo (P : Primitives) (l : Ledger) (publicKey : List UInt8) (id : AccountId) : Prop :=
  (∃ a, l.accounts.lookup id = some a ∧ a.publicKey = some publicKey) ∨
    AccountId.fromPublicKey P.blake3 publicKey = id

/-- The transaction carries a signature with a key that is bound to the account. -/
def CarriesKeyOf (P : Primitives) (l : Ledger) (tx : Transaction) (id : AccountId) : Prop :=
  ∃ signature, tx.signature = some signature ∧ BoundTo P l signature.publicKey id

/-- The transaction is signed for the account: the signature is accepted under such a key. -/
def SignedFor (P : Primitives) (l : Ledger) (tx : Transaction) (id : AccountId) : Prop :=
  CarriesKeyOf P l tx id ∧ tx.verifySignature P = .ok true

/-- The transaction raises the supply. -/
def Transaction.Raises (tx : Transaction) : Prop :=
  match tx.txType with
  | .mint _ amount => amount.val ≠ 0
  | .createAccount _ initialBalance => initialBalance.val ≠ 0
  | _ => False

namespace Application

/-- The application lowered the balance of an account. -/
def Lowers (e : Application) (id : AccountId) : Prop :=
  ∃ a, e.before.ledger.accounts.lookup id = some a ∧
    ∀ a', e.after.ledger.accounts.lookup id = some a' → a'.balance.val < a.balance.val

/-- The law for the application of a transaction. -/
structure Lawful (P : Primitives) (e : Application) : Prop where
  /-- If it lowered a balance, it is signed for that account, names the chain of the ledger and
  had not expired. -/
  lowers : ∀ id, e.Lowers id → SignedFor P e.before.ledger e.transaction id ∧
    e.transaction.metadata.chainId = e.before.metadata.chainId ∧
    e.transaction.isExpired e.startTime = false
  /-- If it raised the supply, it is signed for a privileged account. -/
  raises : e.before.ledger.totalSupply.val < e.after.ledger.totalSupply.val →
    ∃ id a, e.before.ledger.accounts.lookup id = some a ∧ a.metadata.flags.privileged = true ∧
      SignedFor P e.before.ledger e.transaction id

end Application

/-- What the submitter has to see to: the transaction carries a key of its sender and names the
chain of the ledger; if it raises the supply, it carries a key of a privileged account. -/
structure Authorized (P : Primitives) (s : LedgerState) (tx : Transaction) : Prop where
  /-- The sender's key and the chain. -/
  sender : ∀ id, tx.sender = some id →
    CarriesKeyOf P s.ledger tx id ∧ tx.metadata.chainId = s.metadata.chainId
  /-- A privileged account's key. -/
  raises : tx.Raises → ∃ id a, s.ledger.accounts.lookup id = some a ∧
    a.metadata.flags.privileged = true ∧ CarriesKeyOf P s.ledger tx id

/-- The condition on a call: what is submitted and not refused is authorized, and what is applied
and has a sender has not expired. -/
def Logged.Careful (P : Primitives) (s : Logged) : StateManager.Operation → Prop
  | .submitTransaction tx _ => Admissible P tx → Authorized P s.manager.state tx
  | .simulateConsensusRound _ => True
  | .processConsensusTransactions order clock _ =>
    ∀ e ∈ order, e.2.status = .confirmed → e.2.transaction.sender ≠ none →
      e.2.transaction.isExpired (clock e.1).1 = false

/-! ## Who pays and what raises the supply -/

namespace Ledger

variable {id sender recipient : AccountId} {amount : RUv} {b : ℕ}

/-- The account holds at least an amount. -/
def Holds (id : AccountId) (b : ℕ) (l : Ledger) : Prop :=
  ∃ a, l.accounts.lookup id = some a ∧ b ≤ a.balance.val

/-- A write of another account, or of more to this one, keeps what the account holds. -/
lemma Holds.put {l : Ledger} {id' : AccountId} (a' : Account) (h : Holds id b l)
    (h' : id' = id → b ≤ a'.balance.val) : Holds id b (l.put id' a') := by
  obtain ⟨a, ha, hb⟩ := h
  by_cases heq : id' = id
  · subst heq
    exact ⟨a', Finmap.lookup_insert _, h' rfl⟩
  · exact ⟨a, (lookup_put_of_ne a' (Ne.symm heq)).trans ha, hb⟩

/-- A creation keeps what other accounts hold. -/
lemma keeps_holds_createAccount : Fallible.Keeps (Holds id b) (createAccount recipient) := by
  refine Fallible.keeps_of_atomicAt (fun _ _ => createAccount_atomicAt) fun l _ l' hl hok => ?_
  obtain ⟨hfree, rfl⟩ := createAccount_ok_iff.mp hok
  refine hl.put _ fun heq => absurd ?_ hfree
  obtain ⟨a, ha, -⟩ := hl
  rw [heq]
  exact HashMap.mem_of_lookup ha

/-- An update of another account keeps what the account holds. -/
lemma keeps_holds_updateAccount (hne : sender ≠ id) (f : Fallible Error Account Unit) :
    Fallible.Keeps (Holds id b) (updateAccount sender f) := by
  intro l hl
  cases ha : l.accounts.lookup sender with
  | none =>
    rw [run_updateAccount_none f ha]
    exact hl
  | some a =>
    rw [run_updateAccount f ha]
    exact hl.put _ fun heq => absurd heq hne

/-- A credit lowers no balance. -/
lemma keeps_holds_credit :
    Fallible.Keeps (Holds id b) (updateAccount recipient (Account.credit amount)) := by
  refine Fallible.keeps_of_atomicAt (fun _ _ => credit_atomicAt) fun l _ l' hl hok => ?_
  obtain ⟨a, balance, ha, hval, rfl⟩ := credit_ok_iff.mp hok
  refine hl.put (a.setBalance balance) fun heq => ?_
  obtain ⟨a', ha', hb⟩ := hl
  rw [heq, ha'] at ha
  obtain rfl := Option.some.inj ha
  rw [Account.balance_setBalance]
  omega

/-- A mint lowers no balance. -/
lemma keeps_holds_mint : Fallible.Keeps (Holds id b) (mint recipient amount) :=
  keeps_mint_of_writes keeps_holds_credit fun _ _ hl => hl

/-- A burn lowers no balance but its payer's. -/
lemma keeps_holds_burn (hne : sender ≠ id) : Fallible.Keeps (Holds id b) (burn sender amount) :=
  keeps_burn_of_writes (keeps_holds_updateAccount hne _) fun _ hl => hl

/-- A transfer lowers no balance but its sender's, even if it fails. -/
lemma keeps_holds_transfer (hne : sender ≠ id) :
    Fallible.Keeps (Holds id b) (transfer sender recipient amount) :=
  keeps_transfer_of_writes (keeps_holds_updateAccount hne _) keeps_holds_credit

/-- The supply is at most an amount. -/
def SupplyLe (b : ℕ) (l : Ledger) : Prop := l.totalSupply.val ≤ b

/-- A creation does not change the supply. -/
lemma keeps_supplyLe_createAccount : Fallible.Keeps (SupplyLe b) (createAccount id) := by
  refine Fallible.keeps_of_atomicAt (fun _ _ => createAccount_atomicAt) fun l _ l' hl hok => ?_
  obtain ⟨-, rfl⟩ := createAccount_ok_iff.mp hok
  exact hl

/-- An update of an account does not change the supply. -/
lemma keeps_supplyLe_updateAccount (f : Fallible Error Account Unit) :
    Fallible.Keeps (SupplyLe b) (updateAccount id f) := by
  intro l hl
  cases ha : l.accounts.lookup id with
  | none =>
    rw [run_updateAccount_none f ha]
    exact hl
  | some a =>
    rw [run_updateAccount f ha]
    exact hl

/-- A mint of nothing does not change the supply. -/
lemma keeps_supplyLe_mint (hz : amount.val = 0) : Fallible.Keeps (SupplyLe b) (mint id amount) := by
  refine Fallible.keeps_of_atomicAt (fun _ _ => mint_atomicAt) fun l _ l' hl hok => ?_
  obtain ⟨a, balance, supply, -, -, hsupply, -, rfl⟩ := mint_ok_iff.mp hok
  unfold SupplyLe at hl ⊢
  rw [totalSupply_setSupply]
  omega

/-- A burn does not raise the supply. -/
lemma keeps_supplyLe_burn : Fallible.Keeps (SupplyLe b) (burn id amount) := by
  refine keeps_burn_of_writes (keeps_supplyLe_updateAccount _) fun l hl => ?_
  unfold SupplyLe at hl ⊢
  rw [totalSupply_setSupply, RUv.val_saturatingSub]
  omega

/-- A transfer does not change the supply. -/
lemma keeps_supplyLe_transfer :
    Fallible.Keeps (SupplyLe b) (transfer sender recipient amount) :=
  keeps_transfer_of_writes (keeps_supplyLe_updateAccount _) (keeps_supplyLe_updateAccount _)

/-- Every account of the first ledger is still there, with its key and its metadata. -/
def Identities (l l' : Ledger) : Prop :=
  ∀ id a, l.accounts.lookup id = some a → ∃ a', l'.accounts.lookup id = some a' ∧
    a'.publicKey = a.publicKey ∧ a'.metadata = a.metadata

/-- No write removes an account or changes its key or its metadata. -/
lemma stable_identities (l₀ : Ledger) : Stable (Identities l₀) where
  put l id a balance h ha id' a₀ ha₀ := by
    obtain ⟨a', ha', hkey, hmetadata⟩ := h id' a₀ ha₀
    by_cases heq : id' = id
    · subst heq
      rw [ha] at ha'
      obtain rfl := Option.some.inj ha'
      exact ⟨a.setBalance balance, Finmap.lookup_insert _, hkey, hmetadata⟩
    · exact ⟨a', (lookup_put_of_ne _ heq).trans ha', hkey, hmetadata⟩
  create l id h hfree id' a₀ ha₀ := by
    obtain ⟨a', ha', hrest⟩ := h id' a₀ ha₀
    have hne : id' ≠ id := fun heq => hfree (heq ▸ HashMap.mem_of_lookup ha')
    exact ⟨a', (lookup_put_of_ne _ hne).trans ha', hrest⟩
  setSupply _ _ h := h

end Ledger

namespace LedgerState

variable {P : Primitives} {tx : Transaction} {startTime now : Timestamp} {s s' : LedgerState}
  {cost : RUv} {id : AccountId} {b : ℕ}

/-- What every execution at any cost keeps, an application of the transaction keeps. -/
lemma applyTransaction_keeps {Inv : Ledger → Prop}
    (h : ∀ cost, Fallible.Keeps Inv (executeTransaction tx cost)) (hs : Inv s.ledger) :
    Inv ((applyTransaction P tx startTime now).run s).2.ledger := by
  cases hcost : s.calculateTransactionCost tx with
  | error e =>
    rw [run_applyTransaction_error hcost]
    exact hs
  | ok cost =>
    rw [ledger_applyTransaction hcost]
    exact h cost s.ledger hs

/-- An execution lowers no balance but its sender's. -/
lemma keeps_holds_executeTransaction (hne : tx.sender ≠ some id) (cost : RUv) :
    Fallible.Keeps (Ledger.Holds id b) (executeTransaction tx cost) := by
  unfold executeTransaction deductFee
  unfold Transaction.sender at hne ⊢
  cases htype : tx.txType with
  | transfer sender recipient amount =>
    rw [htype] at hne
    have hsender : sender ≠ id := fun heq => hne (congrArg some heq)
    exact Fallible.keeps_bind (Ledger.keeps_holds_burn hsender) fun _ =>
      Ledger.keeps_holds_transfer hsender
  | mint recipient amount =>
    exact Fallible.keeps_bind (fun _ h => h) fun _ => Ledger.keeps_holds_mint
  | burn sender amount =>
    rw [htype] at hne
    have hsender : sender ≠ id := fun heq => hne (congrArg some heq)
    exact Fallible.keeps_bind (Ledger.keeps_holds_burn hsender) fun _ =>
      Ledger.keeps_holds_burn hsender
  | createAccount account initialBalance =>
    refine Fallible.keeps_bind (fun _ h => h) fun _ => ?_
    refine Fallible.keeps_bind Ledger.keeps_holds_createAccount fun _ => ?_
    split_ifs
    · exact Ledger.keeps_holds_mint
    · exact fun _ h => h
  | updateAccount account publicKey =>
    rw [htype] at hne
    have hsender : account ≠ id := fun heq => hne (congrArg some heq)
    refine Fallible.keeps_bind (Ledger.keeps_holds_burn hsender) fun _ => ?_
    refine Fallible.keeps_bind (fun _ h => h) fun l => ?_
    exact Fallible.keeps_bind (Fallible.keeps_ofExcept _) fun _ _ h => h

/-- An execution raises the supply only if the transaction does. -/
lemma keeps_supplyLe_executeTransaction (h : ¬ tx.Raises) (cost : RUv) :
    Fallible.Keeps (Ledger.SupplyLe b) (executeTransaction tx cost) := by
  have hfee : Fallible.Keeps (Ledger.SupplyLe b) (deductFee tx cost) := by
    unfold deductFee
    split
    · exact Ledger.keeps_supplyLe_burn
    · exact fun _ h => h
  unfold Transaction.Raises at h
  refine Fallible.keeps_bind hfee fun _ => ?_
  cases htype : tx.txType with
  | transfer sender recipient amount => exact Ledger.keeps_supplyLe_transfer
  | mint recipient amount =>
    rw [htype] at h
    exact Ledger.keeps_supplyLe_mint (not_not.mp h)
  | burn sender amount => exact Ledger.keeps_supplyLe_burn
  | createAccount account initialBalance =>
    rw [htype] at h
    refine Fallible.keeps_bind Ledger.keeps_supplyLe_createAccount fun _ => ?_
    split_ifs
    · exact Ledger.keeps_supplyLe_mint (not_not.mp h)
    · exact fun _ h => h
  | updateAccount account publicKey =>
    refine Fallible.keeps_bind (fun _ h => h) fun l => ?_
    exact Fallible.keeps_bind (Fallible.keeps_ofExcept _) fun _ _ h => h

/-- Only the sender of a transaction is left with less. -/
lemma sender_of_lowers (h : (Application.mk tx startTime s
    ((applyTransaction P tx startTime now).run s).2).Lowers id) : tx.sender = some id := by
  by_contra hne
  obtain ⟨a, ha, hlower⟩ := h
  have hholds : s.ledger.Holds id a.balance.val := ⟨a, ha, le_rfl⟩
  obtain ⟨a', ha', hle⟩ := @applyTransaction_keeps P tx startTime now s _
    (keeps_holds_executeTransaction hne) hholds
  have := hlower a' ha'
  omega

/-- Only a transaction that raises the supply leaves a higher one. -/
lemma raises_of_lt (h : s.ledger.totalSupply.val <
    ((applyTransaction P tx startTime now).run s).2.ledger.totalSupply.val) : tx.Raises := by
  by_contra hraises
  have hle : Ledger.SupplyLe s.ledger.totalSupply.val
      ((applyTransaction P tx startTime now).run s).2.ledger :=
    applyTransaction_keeps (keeps_supplyLe_executeTransaction hraises) le_rfl
  unfold Ledger.SupplyLe at hle
  omega

/-- The state still has the accounts of the first one and its chain id. -/
def Continues (s s' : LedgerState) : Prop :=
  Ledger.Identities s.ledger s'.ledger ∧ s'.metadata.chainId = s.metadata.chainId

/-- An application of a transaction continues the state. -/
lemma continues_applyTransaction {s₀ : LedgerState} (h : Continues s₀ s) :
    Continues s₀ ((applyTransaction P tx startTime now).run s).2 := by
  refine ⟨applyTransaction_keeps (fun cost => (Ledger.stable_identities
    s₀.ledger).callsKeep.executeTransaction tx cost) h.1, ?_⟩
  exact (frame_applyTransaction P tx startTime now s).2.trans h.2

/-- What is authorized in a state is so in one that continues it. -/
lemma Continues.authorized (h : Continues s s') (htx : Authorized P s tx) :
    Authorized P s' tx := by
  have hkey : ∀ id, CarriesKeyOf P s.ledger tx id → CarriesKeyOf P s'.ledger tx id := by
    rintro id ⟨signature, hsignature, ⟨a, ha, hpk⟩ | hid⟩
    · obtain ⟨a', ha', hpk', -⟩ := h.1 id a ha
      exact ⟨signature, hsignature, .inl ⟨a', ha', hpk'.trans hpk⟩⟩
    · exact ⟨signature, hsignature, .inr hid⟩
  constructor
  · intro id hid
    obtain ⟨hcarries, hchain⟩ := htx.sender id hid
    exact ⟨hkey id hcarries, hchain.trans h.2.symm⟩
  · intro hraises
    obtain ⟨id, a, ha, hprivileged, hcarries⟩ := htx.raises hraises
    obtain ⟨a', ha', -, hmetadata⟩ := h.1 id a ha
    exact ⟨id, a', ha', hmetadata ▸ hprivileged, hkey id hcarries⟩

/-- The application of an authorized transaction whose signature is valid, before it expires, is
lawful. -/
lemma lawful_of_authorized (htx : Authorized P s tx) (hadmissible : Admissible P tx)
    (hexpiry : tx.sender ≠ none → tx.isExpired startTime = false) :
    (Application.mk tx startTime s ((applyTransaction P tx startTime now).run s).2).Lawful P := by
  have hverify : ∀ id, CarriesKeyOf P s.ledger tx id → tx.verifySignature P = .ok true := by
    rintro id ⟨signature, hsignature, -⟩
    rcases hadmissible with hnone | hvalid
    · rw [hsignature] at hnone
      simp at hnone
    · exact hvalid
  constructor
  · intro id hlowers
    have hsender := sender_of_lowers hlowers
    obtain ⟨hcarries, hchain⟩ := htx.sender id hsender
    exact ⟨⟨hcarries, hverify id hcarries⟩, hchain, hexpiry (by simp [hsender])⟩
  · intro hlt
    obtain ⟨id, a, ha, hprivileged, hcarries⟩ := htx.raises (raises_of_lt hlt)
    exact ⟨id, a, ha, hprivileged, hcarries, hverify id hcarries⟩

end LedgerState

namespace StateManager

variable {P : Primitives} {m : StateManager} {clock : TransactionId → Timestamp × Timestamp}
  {s s₀ : LedgerState} {finalized : List (TransactionId × Transaction)}

/-- Every application starts from a state that continues the first one. -/
lemma lawful_applicationsOf : ∀ {s : LedgerState}, LedgerState.Continues s₀ s →
    (∀ e ∈ finalized, Authorized P s₀ e.2 ∧ Admissible P e.2 ∧
      (e.2.sender ≠ none → e.2.isExpired (clock e.1).1 = false)) →
    ∀ a ∈ applicationsOf P clock finalized s, a.Lawful P := by
  induction finalized with
  | nil =>
    intro s _ _ a ha
    simp [applicationsOf] at ha
  | cons e rest ih =>
    intro s hs hall a ha
    rw [List.forall_mem_cons] at hall
    obtain ⟨⟨hauthorized, hadmissible, hexpiry⟩, hrest⟩ := hall
    rcases List.mem_cons.mp ha with rfl | ha
    · exact LedgerState.lawful_of_authorized (hs.authorized hauthorized) hadmissible hexpiry
    · exact ih (LedgerState.continues_applyTransaction hs) hrest a ha

/-- Applying transactions continues the state. -/
lemma continues_applyFinalized : ∀ {s : LedgerState} {records : List TransactionRecord},
    LedgerState.Continues s₀ s →
      LedgerState.Continues s₀ (applyFinalized P clock finalized records s).2 := by
  induction finalized with
  | nil => exact fun h => h
  | cons e rest ih =>
    intro s records h
    have hnext := @LedgerState.continues_applyTransaction P e.2 (clock e.1).1 (clock e.1).2 s s₀ h
    rw [applyFinalized]
    split
    · exact ih hnext
    · exact ih hnext

/-- A call continues the state. -/
lemma continues_applyOperation (op : Operation) :
    LedgerState.Continues m.state (m.applyOperation P op).state := by
  have hrefl : LedgerState.Continues m.state m.state :=
    ⟨fun _ a ha => ⟨a, ha, rfl, rfl⟩, rfl⟩
  cases op with
  | submitTransaction transaction now => exact hrefl
  | simulateConsensusRound schedule => exact hrefl
  | processConsensusTransactions order clock checkpointTime =>
    have happlied := @continues_applyFinalized P clock m.state
      (ConsensusAdapter.finalizedTransactions order) m.state [] hrefl
    show LedgerState.Continues m.state
      (m.processConsensusTransactions P order clock checkpointTime).2.state
    unfold processConsensusTransactions
    simp only
    split_ifs
    · exact happlied
    · exact happlied

end StateManager

namespace Logged

variable {P : Primitives} {s : Logged} {op : StateManager.Operation}

/-- What careful calls keep: all that is pending was authorized and not refused, and all
applications were lawful. -/
structure Lawful (P : Primitives) (s : Logged) : Prop where
  /-- What is pending was authorized and not refused. -/
  pending : ∀ id p, s.manager.consensus.pendingTransactions.lookup id = some p →
    Authorized P s.manager.state p.transaction ∧ Admissible P p.transaction
  /-- What was applied was lawful. -/
  log : ∀ e ∈ s.log, e.Lawful P

/-- A careful call keeps the invariant. -/
lemma Lawful.applyOperation (h : s.Lawful P) (hvalid : s.Valid op) (hcareful : s.Careful P op) :
    (s.applyOperation P op).Lawful P := by
  constructor
  · intro id p hp
    have hcontinues := @StateManager.continues_applyOperation P s.manager op
    rcases StateManager.lookup_applyOperation hp with
      ⟨now, rfl, hadmissible, -⟩ | ⟨p₀, hp₀, htransaction, -⟩
    · exact ⟨hcontinues.authorized (hcareful hadmissible), hadmissible⟩
    · rw [htransaction]
      obtain ⟨hauthorized, hadmissible⟩ := h.pending id p₀ hp₀
      exact ⟨hcontinues.authorized hauthorized, hadmissible⟩
  · intro e he
    rcases List.mem_append.mp he with he | he
    · exact h.log e he
    · cases op with
      | submitTransaction transaction now => simp [StateManager.applications] at he
      | simulateConsensusRound schedule => simp [StateManager.applications] at he
      | processConsensusTransactions order clock checkpointTime =>
        have hrefl : LedgerState.Continues s.manager.state s.manager.state :=
          ⟨fun _ a ha => ⟨a, ha, rfl, rfl⟩, rfl⟩
        refine StateManager.lawful_applicationsOf hrefl (fun entry hentry => ?_) e he
        obtain ⟨p, hp, hstatus, htransaction⟩ :=
          (ConsensusAdapter.mem_finalizedTransactions hvalid).mp hentry
        obtain ⟨hauthorized, hadmissible⟩ := h.pending entry.1 p hp
        rw [← htransaction]
        exact ⟨hauthorized, hadmissible, hcareful (entry.1, p) ((hvalid.2 _ _).mpr hp) hstatus⟩

/-- **Authorization**: in every run of careful calls from a new manager, every application of a
transaction is lawful: if it lowered a balance, the transaction carries a signature that is
accepted under a key bound to that account, names the chain of the ledger and had not expired; if
it raised the supply, such a signature for a privileged account.

**Proof sketch.** Only the sender of a transaction is left with less, and only mints and funded
creations leave a higher supply. What is pending was authorized when it was submitted; accounts
keep their keys and their privileges, and the ledger its chain id, so it still is when it is
applied. That a signature is valid is what the adapter has checked. -/
theorem lawful_of_careful {state : LedgerState} {config : ConsensusConfig}
    {checkpointInterval : ℕ} {ops : List StateManager.Operation}
    (hvalid : Runs.Steps (Logged.applyOperation P) Logged.Valid
      (new state config checkpointInterval) ops)
    (hcareful : Runs.Steps (Logged.applyOperation P) (Logged.Careful P)
      (new state config checkpointInterval) ops) :
    ∀ e ∈ (Runs.run (Logged.applyOperation P) (new state config checkpointInterval) ops).log,
      e.Lawful P := by
  refine (Runs.run_rule (Lawful P) (fun s op h hstep => h.applyOperation hstep.1 hstep.2)
    (hvalid.and hcareful) ⟨?_, ?_⟩).log
  · intro id p hp
    simp [new, ConsensusAdapter.withConfig] at hp
  · intro e he
    simp [new] at he

/-! ## Runs with and without a signature -/

/-- The account of a public key. -/
def keyAccount : AccountId := AccountId.fromPublicKey Primitives.toy.blake3 [1]

/-- The genesis state with that account. -/
def keyGenesis : LedgerState :=
  LedgerState.updateStateRoot Primitives.toy { LedgerState.new 1 ⟨0⟩ with
    ledger := ((LedgerState.createAccounts [(keyAccount, ⟨1000⟩)]).run Ledger.new).2 }

/-- A burn of 100 that its sender has signed. -/
def signedBurn : Transaction :=
  let tx := { LedgerState.tokenBurn with txType := .burn keyAccount ⟨100⟩ }
  { tx with signature := some ⟨"ML-DSA-87", [1], [1] ++ tx.toBytes⟩ }

/-- A manager that confirms in one round. -/
def keyManager : Logged := new keyGenesis ⟨95 / 100, 100, 1⟩ 100

/-- The signed burn is applied lawfully. -/
theorem lawful_of_careful_signedBurn :
    ∃ e, (Runs.run (Logged.applyOperation Primitives.toy) keyManager
      (confirmAndApply signedBurn 1)).log = [e] ∧ e.Lawful Primitives.toy := by
  have hvalid : Runs.Steps (Logged.applyOperation Primitives.toy) Logged.Valid keyManager
      (confirmAndApply signedBurn 1) := by
    decide +kernel
  have hcareful : Runs.Steps (Logged.applyOperation Primitives.toy)
      (Logged.Careful Primitives.toy) keyManager (confirmAndApply signedBurn 1) := by
    refine ⟨fun _ => ⟨?_, ?_⟩, trivial, ?_, trivial⟩
    · intro id hid
      obtain rfl := Option.some.inj hid
      exact ⟨⟨_, rfl, .inr rfl⟩, rfl⟩
    · intro hraises
      exact hraises.elim
    · intro e he _ _
      rw [List.mem_singleton.mp he]
      rfl
  have hlength : (Runs.run (Logged.applyOperation Primitives.toy) keyManager
      (confirmAndApply signedBurn 1)).log.length = 1 := by
    decide +kernel
  obtain ⟨e, he⟩ := List.length_eq_one_iff.mp hlength
  have hmem : e ∈ (Runs.run (Logged.applyOperation Primitives.toy) keyManager
      (confirmAndApply signedBurn 1)).log := by
    rw [he]
    exact List.mem_singleton_self e
  exact ⟨e, he, lawful_of_careful hvalid hcareful e hmem⟩

/-- Anyone can burn the tokens of an account: an unsigned transaction is applied. -/
theorem not_lawful :
    ¬ ∀ (P : Primitives) (state : LedgerState) (config : ConsensusConfig)
      (checkpointInterval : ℕ) (ops : List StateManager.Operation),
      Runs.Steps (Logged.applyOperation P) Logged.Valid (new state config checkpointInterval)
        ops →
      ∀ e ∈ (Runs.run (Logged.applyOperation P) (new state config checkpointInterval) ops).log,
        e.Lawful P := by
  intro h
  have hlog : (Runs.run (Logged.applyOperation Primitives.toy)
      (new LedgerState.fundedGenesis .default 100) (confirmAndApply LedgerState.tokenBurn
        20)).log.map (fun e => (e.transaction.signature,
          (e.before.ledger.accounts.lookup ⟨"alice"⟩).map fun a => a.balance.val,
          (e.after.ledger.accounts.lookup ⟨"alice"⟩).map fun a => a.balance.val)) =
      [(none, some 1000, some 895)] := by
    decide +kernel
  obtain ⟨e, he, hfacts⟩ := List.map_eq_singleton_iff.mp hlog
  obtain ⟨hunsigned, hfacts⟩ := Prod.mk.inj hfacts
  obtain ⟨hbefore, hafter⟩ := Prod.mk.inj hfacts
  have hlawful := h Primitives.toy LedgerState.fundedGenesis .default 100
    (confirmAndApply LedgerState.tokenBurn 20) (by decide +kernel) e (by rw [he]; simp)
  obtain ⟨a, ha, hval⟩ := Option.map_eq_some_iff.mp hbefore
  have hlowers : e.Lowers ⟨"alice"⟩ := by
    refine ⟨a, ha, fun a' ha' => ?_⟩
    rw [ha', Option.map_some] at hafter
    have := Option.some.inj hafter
    omega
  obtain ⟨⟨⟨signature, hsigned, -⟩, -⟩, -⟩ := hlawful.lowers _ hlowers
  rw [hunsigned] at hsigned
  simp at hsigned

end Logged

end QuDAG.Exchange
