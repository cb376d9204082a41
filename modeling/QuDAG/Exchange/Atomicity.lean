import QuDAG.Exchange.State

/-!
# Failed transactions

A transaction is executed in several steps and nothing is taken back when a later one fails: the
fee has been burned, or the account has been created. A failure leaves the ledger as it was
exactly when no step succeeded before it, or when what succeeded changed nothing.

## Main definitions

* `LedgerState.Undivided` — no step of the transaction can fail after another one changed the
  ledger.

## Main results

* `LedgerState.executeTransaction_atomicAt_iff` — the execution is atomic iff the transaction is
  undivided.
* `LedgerState.applyTransaction_atomic_iff` — the same for `applyTransaction`.
-/

namespace QuDAG.Exchange

open RustStd

namespace LedgerState

variable {P : Primitives} {tx : Transaction} {startTime now : Timestamp} {s : LedgerState}
  {l l₁ l' : Ledger} {id sender recipient : AccountId} {cost amount : RUv} {a : Account}
  {e : Error}

/-- The transfer goes through after its sender, the account `a`, has paid the cost. -/
def CanTransfer (l : Ledger) (cost amount : RUv) (sender recipient : AccountId) (a : Account) :
    Prop :=
  sender ≠ recipient ∧ amount.val ≠ 0 ∧ cost.val + amount.val ≤ a.balance.val ∧
    ∃ b, l.accounts.lookup recipient = some b ∧ b.balance.val + amount.val < 2 ^ 64

/-- The transfer debits its sender, the account `a`, and then overflows its recipient. -/
def TransferOverflows (l : Ledger) (amount : RUv) (sender recipient : AccountId) (a : Account) :
    Prop :=
  sender ≠ recipient ∧ amount.val ≠ 0 ∧ amount.val ≤ a.balance.val ∧
    ∃ b, l.accounts.lookup recipient = some b ∧ 2 ^ 64 ≤ b.balance.val + amount.val

/-- No step of the transaction can fail after another one changed the ledger. A sender that
cannot pay the cost is turned away at once; otherwise the rest has to go through as well, or the
cost has to be zero. -/
def Undivided (l : Ledger) (cost : RUv) : TransactionType → Prop
  | .transfer sender recipient amount =>
    ∀ a, l.accounts.lookup sender = some a → a.canAfford cost = true →
      if cost.val = 0 then ¬ TransferOverflows l amount sender recipient a
      else CanTransfer l cost amount sender recipient a
  | .mint _ _ => True
  | .burn sender amount =>
    ∀ a, l.accounts.lookup sender = some a → a.canAfford cost = true → cost.val ≠ 0 →
      cost.val + amount.val ≤ a.balance.val
  | .createAccount account initialBalance =>
    account ∉ l.accounts → initialBalance.val ≠ 0 →
      l.totalSupply.val + initialBalance.val ≤ l.config.maxSupply.val
  | .updateAccount _ _ => True

/-! ## After the fee -/

/-- Burning nothing changes nothing. -/
lemma burn_zero (h : (Ledger.burn id amount).run l = (.ok (), l')) (hz : amount.val = 0) :
    l' = l := by
  obtain ⟨a, ha, -, rfl⟩ := Ledger.burn_ok_iff.mp h
  have hbalance : a.balance.saturatingSub amount = a.balance :=
    RUv.ext_val (by rw [RUv.val_saturatingSub]; omega)
  have hsupply : l.totalSupply.saturatingSub amount = l.totalSupply :=
    RUv.ext_val (by rw [RUv.val_saturatingSub]; omega)
  have hput : l.put id (a.setBalance a.balance) = l := Ledger.put_of_lookup ha
  rw [hbalance, hsupply, hput]
  rfl

/-- The payer's account after a burn. -/
lemma lookup_of_burn (ha : l.accounts.lookup id = some a)
    (h : (Ledger.burn id amount).run l = (.ok (), l')) :
    a.canAfford amount = true ∧
      l'.accounts.lookup id = some (a.setBalance (a.balance.saturatingSub amount)) := by
  obtain ⟨a', ha', hc, rfl⟩ := Ledger.burn_ok_iff.mp h
  rw [ha] at ha'
  obtain rfl := Option.some.inj ha'
  exact ⟨hc, Finmap.lookup_insert _⟩

/-- Other accounts after a burn. -/
lemma lookup_of_burn_of_ne {id' : AccountId} (hne : id' ≠ id)
    (h : (Ledger.burn id amount).run l = (.ok (), l')) :
    l'.accounts.lookup id' = l.accounts.lookup id' := by
  obtain ⟨a, -, -, rfl⟩ := Ledger.burn_ok_iff.mp h
  exact Ledger.lookup_put_of_ne _ hne

/-- A ledger in which the account holds less is another ledger. -/
lemma ne_of_lookup_lt {a' : Account} (ha : l.accounts.lookup id = some a)
    (ha' : l'.accounts.lookup id = some a') (hlt : a'.balance.val < a.balance.val) : l' ≠ l := by
  rintro rfl
  rw [ha] at ha'
  obtain rfl := Option.some.inj ha'
  omega

/-- After the fee the transfer succeeds iff it goes through. -/
lemma transfer_after_burn (ha : l.accounts.lookup sender = some a)
    (hburn : (Ledger.burn sender cost).run l = (.ok (), l₁)) :
    (∃ l₂, (Ledger.transfer sender recipient amount).run l₁ = (.ok (), l₂)) ↔
      CanTransfer l cost amount sender recipient a := by
  obtain ⟨hc, ha₁⟩ := lookup_of_burn ha hburn
  obtain ⟨hfrozen, hcost⟩ := Account.canAfford_iff.mp hc
  constructor
  · rintro ⟨l₂, hok⟩
    obtain ⟨hne, hz, a', b, balance, ha', hb, hc', hval, -⟩ := Ledger.transfer_ok_iff.mp hok
    rw [ha₁] at ha'
    obtain rfl := Option.some.inj ha'
    have hafford := (Account.canAfford_iff.mp hc').2
    rw [Account.balance_setBalance, RUv.val_saturatingSub] at hafford
    rw [lookup_of_burn_of_ne hne.symm hburn] at hb
    have hlt := balance.val_lt
    exact ⟨hne, hz, by omega, b, hb, by omega⟩
  · rintro ⟨hne, hz, hafford, b, hb, hlt⟩
    obtain ⟨balance, hval⟩ := RUv.exists_val hlt
    refine ⟨_, Ledger.transfer_ok_iff.mpr ⟨hne, hz, _, b, balance, ha₁, ?_, ?_, hval, rfl⟩⟩
    · rw [lookup_of_burn_of_ne hne.symm hburn, hb]
    · refine Account.canAfford_iff.mpr ⟨hfrozen, ?_⟩
      rw [Account.balance_setBalance, RUv.val_saturatingSub]
      omega

/-- After the fee the second burn succeeds iff the balance covers both. -/
lemma burn_after_burn (ha : l.accounts.lookup sender = some a)
    (hburn : (Ledger.burn sender cost).run l = (.ok (), l₁)) :
    (∃ l₂, (Ledger.burn sender amount).run l₁ = (.ok (), l₂)) ↔
      cost.val + amount.val ≤ a.balance.val := by
  obtain ⟨hc, ha₁⟩ := lookup_of_burn ha hburn
  obtain ⟨hfrozen, hcost⟩ := Account.canAfford_iff.mp hc
  constructor
  · rintro ⟨l₂, hok⟩
    have hafford := (Account.canAfford_iff.mp (lookup_of_burn ha₁ hok).1).2
    rw [Account.balance_setBalance, RUv.val_saturatingSub] at hafford
    omega
  · intro hle
    refine ⟨_, Ledger.burn_ok_iff.mpr ⟨_, ha₁, Account.canAfford_iff.mpr ⟨hfrozen, ?_⟩, rfl⟩⟩
    rw [Account.balance_setBalance, RUv.val_saturatingSub]
    omega

/-- A step after the fee is atomic with it iff its failures restore the ledger from before. -/
lemma atomicAt_fee_iff {k : Fallible Error Ledger Unit} :
    (Ledger.burn sender cost >>= fun _ => k).AtomicAt l ↔
      ∀ l₁, (Ledger.burn sender cost).run l = (.ok (), l₁) →
        ∀ e l₂, k.run l₁ = (.error e, l₂) → l₂ = l := by
  constructor
  · exact fun h l₁ hburn e l₂ herr => h e l₂ ((Fallible.run_bind_of_ok hburn).trans herr)
  · intro h e l₂ herr
    rcases Fallible.run_bind_error.mp herr with herr | ⟨_, l₁, hburn, herr⟩
    · exact Ledger.burn_atomicAt e l₂ herr
    · exact h l₁ hburn e l₂ herr

/-- What a payer that can afford the cost has after a burn of it. -/
lemma exists_burn (ha : l.accounts.lookup sender = some a) (hc : a.canAfford cost = true) :
    ∃ l₁, (Ledger.burn sender cost).run l = (.ok (), l₁) :=
  ⟨_, Ledger.burn_ok_iff.mpr ⟨a, ha, hc, rfl⟩⟩

/-- A burn with its fee is atomic iff it is undivided. -/
lemma burn_atomicAt_iff :
    (Ledger.burn sender cost >>= fun _ => Ledger.burn sender amount).AtomicAt l ↔
      Undivided l cost (.burn sender amount) := by
  rw [atomicAt_fee_iff]
  constructor
  · intro h a ha hc hz
    obtain ⟨l₁, hburn⟩ := exists_burn ha hc
    have hcost := (Account.canAfford_iff.mp hc).2
    rcases Fallible.run_cases (Ledger.burn sender amount) l₁ with ⟨_, l₂, hok⟩ | ⟨e, l₂, herr⟩
    · exact (burn_after_burn ha hburn).mp ⟨l₂, hok⟩
    · -- the second burn left the first one standing
      have heq := h l₁ hburn e l₂ herr
      rw [Ledger.burn_atomicAt e l₂ herr] at heq
      refine absurd heq (ne_of_lookup_lt ha (lookup_of_burn ha hburn).2 ?_)
      rw [Account.balance_setBalance, RUv.val_saturatingSub]
      omega
  · intro h l₁ hburn e l₂ herr
    rw [Ledger.burn_atomicAt e l₂ herr]
    by_cases hz : cost.val = 0
    · exact burn_zero hburn hz
    · obtain ⟨a, ha, hc, -⟩ := Ledger.burn_ok_iff.mp hburn
      obtain ⟨l₃, hok⟩ := (burn_after_burn ha hburn).mpr (h a ha hc hz)
      rw [hok] at herr
      simp at herr

/-- A transfer that fails after the fee leaves its sender with at most what the fee left. -/
lemma lookup_of_transfer_error (ha : l.accounts.lookup sender = some a)
    (h : (Ledger.transfer sender recipient amount).run l = (.error e, l')) :
    ∃ a', l'.accounts.lookup sender = some a' ∧ a'.balance.val ≤ a.balance.val := by
  rcases Ledger.transfer_error_cases h with rfl | ⟨-, -, a', b, ha', -, -, -, rfl⟩
  · exact ⟨a, ha, le_rfl⟩
  · rw [ha] at ha'
    obtain rfl := Option.some.inj ha'
    refine ⟨_, Finmap.lookup_insert _, ?_⟩
    rw [Account.balance_setBalance, RUv.val_saturatingSub]
    omega

/-- A transfer that overflows its recipient fails and leaves its sender debited. -/
lemma transfer_error_of_overflows (ha : l.accounts.lookup sender = some a)
    (hfrozen : a.metadata.flags.frozen = false)
    (h : TransferOverflows l amount sender recipient a) :
    ∃ e l', (Ledger.transfer sender recipient amount).run l = (.error e, l') ∧ l' ≠ l := by
  obtain ⟨hne, hz, hafford, b, hb, hover⟩ := h
  have hdebit := Ledger.debit_ok_iff.mpr
    ⟨a, ha, Account.canAfford_iff.mpr ⟨hfrozen, hafford⟩, rfl⟩
  have hrun := (Ledger.run_transfer hne hz ha hb).trans (Fallible.run_bind_of_ok hdebit)
  rcases Fallible.run_cases (Ledger.transfer sender recipient amount) l with
    ⟨_, l', hok⟩ | ⟨e, l', herr⟩
  · obtain ⟨-, -, a', b', balance, -, hb', -, hval, -⟩ := Ledger.transfer_ok_iff.mp hok
    rw [hb] at hb'
    obtain rfl := Option.some.inj hb'
    have := balance.val_lt
    omega
  · refine ⟨e, l', herr, ?_⟩
    rw [herr] at hrun
    rw [Ledger.credit_atomicAt e l' hrun.symm]
    refine ne_of_lookup_lt ha (Finmap.lookup_insert _) ?_
    rw [Account.balance_setBalance, RUv.val_saturatingSub]
    omega

/-- A transfer with its fee is atomic iff it is undivided.

**Proof sketch.** A fee of zero changes nothing, so only the two steps of the transfer itself can
be divided. After any other fee the sender holds less, whatever the transfer does, so it must not
fail. -/
lemma transfer_atomicAt_iff :
    (Ledger.burn sender cost >>= fun _ => Ledger.transfer sender recipient amount).AtomicAt l ↔
      Undivided l cost (.transfer sender recipient amount) := by
  rw [atomicAt_fee_iff]
  constructor
  · intro h a ha hc
    obtain ⟨l₁, hburn⟩ := exists_burn ha hc
    obtain ⟨hfrozen, hcost⟩ := Account.canAfford_iff.mp hc
    split_ifs with hz
    · intro hover
      obtain rfl := burn_zero hburn hz
      obtain ⟨e, l', herr, hne⟩ := transfer_error_of_overflows ha hfrozen hover
      exact hne (h l₁ hburn e l' herr)
    · rcases Fallible.run_cases (Ledger.transfer sender recipient amount) l₁ with
        ⟨_, l₂, hok⟩ | ⟨e, l₂, herr⟩
      · exact (transfer_after_burn ha hburn).mp ⟨l₂, hok⟩
      · obtain ⟨a', ha', hle⟩ := lookup_of_transfer_error (lookup_of_burn ha hburn).2 herr
        rw [Account.balance_setBalance, RUv.val_saturatingSub] at hle
        exact absurd (h l₁ hburn e l₂ herr) (ne_of_lookup_lt ha ha' (by omega))
  · intro h l₁ hburn e l₂ herr
    obtain ⟨a, ha, hc, -⟩ := Ledger.burn_ok_iff.mp hburn
    have hcond := h a ha hc
    by_cases hz : cost.val = 0
    · obtain rfl := burn_zero hburn hz
      rw [if_pos hz] at hcond
      rcases Ledger.transfer_error_cases herr with
        heq | ⟨hne, hamount, a', b, ha', hb, hc', hover, -⟩
      · exact heq
      · rw [ha] at ha'
        obtain rfl := Option.some.inj ha'
        exact absurd ⟨hne, hamount, (Account.canAfford_iff.mp hc').2, b, hb, hover⟩ hcond
    · rw [if_neg hz] at hcond
      obtain ⟨l₃, hok⟩ := (transfer_after_burn ha hburn).mpr hcond
      rw [hok] at herr
      simp at herr

/-- Creating an account with an initial balance is atomic iff the supply has room for it. -/
lemma createAccount_atomicAt_iff {initialBalance : RUv} :
    (executeType (.createAccount id initialBalance)).AtomicAt l ↔
      Undivided l cost (.createAccount id initialBalance) := by
  have hpos : RUv.zero < initialBalance ↔ initialBalance.val ≠ 0 := by
    rw [RUv.lt_def, RUv.val_zero]
    omega
  constructor
  · intro h hid hz
    have hcreate := Ledger.createAccount_ok_iff.mpr ⟨hid, rfl⟩
    have hrun : (executeType (.createAccount id initialBalance)).run l =
        (Ledger.mint id initialBalance).run (l.put id (Account.new id)) := by
      rw [executeType, Fallible.run_bind_of_ok hcreate, if_pos (hpos.mpr hz)]
    rcases Fallible.run_cases (Ledger.mint id initialBalance) (l.put id (Account.new id)) with
      ⟨_, l₂, hok⟩ | ⟨e, l₂, herr⟩
    · obtain ⟨-, -, supply, -, -, hsupply, hmax, -⟩ := Ledger.mint_ok_iff.mp hok
      rw [hsupply] at hmax
      exact hmax
    · -- the account stays although its initial balance was refused
      have heq := h e l₂ (hrun.trans herr)
      rw [Ledger.mint_atomicAt e l₂ herr] at heq
      refine absurd ?_ hid
      rw [← heq]
      exact Finmap.mem_insert.mpr (.inl rfl)
  · intro h e l₂ herr
    rcases Fallible.run_bind_error.mp herr with herr | ⟨_, l₁, hcreate, herr⟩
    · exact Ledger.createAccount_atomicAt e l₂ herr
    · obtain ⟨hid, rfl⟩ := Ledger.createAccount_ok_iff.mp hcreate
      split_ifs at herr with hlt
      · have hroom := h hid (hpos.mp hlt)
        have hmaxlt := l.config.maxSupply.val_lt
        obtain ⟨supply, hsupply⟩ := RUv.exists_val
          (show l.totalSupply.val + initialBalance.val < 2 ^ 64 by omega)
        have hok : ∃ l₂, (Ledger.mint id initialBalance).run (l.put id (Account.new id)) =
            (.ok (), l₂) :=
          ⟨_, Ledger.mint_ok_iff.mpr ⟨Account.new id, initialBalance, supply,
            Finmap.lookup_insert _, (Nat.zero_add _).symm, hsupply, hsupply ▸ hroom, rfl⟩⟩
        obtain ⟨l₃, hok⟩ := hok
        rw [hok] at herr
        simp at herr
      · simp at herr

/-- Updating an account with its fee is atomic: the lookup cannot fail after the fee was paid. -/
lemma updateAccount_atomicAt {publicKey : Option (List UInt8)} :
    (Ledger.burn sender cost >>= fun _ => executeType (.updateAccount sender publicKey)).AtomicAt
      l := by
  refine Fallible.atomicAt_bind_of_total Ledger.burn_atomicAt fun _ l₁ hburn => ⟨(), ?_⟩
  obtain ⟨a, ha, -, -⟩ := Ledger.burn_ok_iff.mp hburn
  have hget : l₁.getAccount sender = .ok _ :=
    Ledger.getAccount_eq_ok.mpr (lookup_of_burn ha hburn).2
  show ((Fallible.get >>= _ : Fallible Error Ledger Unit).run l₁).1 = _
  rw [Fallible.run_bind_of_ok (Fallible.run_get l₁), hget,
    Fallible.run_bind_of_ok (Fallible.run_ofExcept _ l₁)]
  rfl

/-- The execution of a transaction is atomic iff the transaction is undivided. -/
theorem executeTransaction_atomicAt_iff :
    (executeTransaction tx cost).AtomicAt l ↔ Undivided l cost tx.txType := by
  unfold executeTransaction deductFee Transaction.sender
  cases tx.txType with
  | transfer sender recipient amount => exact transfer_atomicAt_iff
  | mint recipient amount => exact iff_of_true Ledger.mint_atomicAt trivial
  | burn sender amount => exact burn_atomicAt_iff
  | createAccount account initialBalance => exact createAccount_atomicAt_iff
  | updateAccount account publicKey => exact iff_of_true updateAccount_atomicAt trivial

/-- **Failed transactions**: from a state a failure of `applyTransaction` leaves the ledger as it
was iff the transaction has no cost, or is undivided in this ledger at its cost. -/
theorem applyTransaction_atomic_iff (P : Primitives) (tx : Transaction)
    (startTime now : Timestamp) (s : LedgerState) :
    (∀ e s', (applyTransaction P tx startTime now).run s = (.error e, s') →
      s'.ledger = s.ledger) ↔
    ∀ cost, s.calculateTransactionCost tx = .ok cost → Undivided s.ledger cost tx.txType := by
  cases hcost : s.calculateTransactionCost tx with
  | error e =>
    simp only [reduceCtorEq, false_implies, implies_true, iff_true]
    intro e' s' h
    rw [run_applyTransaction_error hcost] at h
    rw [← (Prod.mk.inj h).2]
  | ok cost =>
    simp only [Except.ok.injEq, forall_eq']
    rw [← executeTransaction_atomicAt_iff]
    have hrun := @run_applyTransaction P tx startTime now s cost hcost
    constructor
    · intro h e l' herr
      rw [herr] at hrun
      exact h e _ hrun
    · intro h e s' herr
      rw [hrun] at herr
      obtain ⟨hfst, rfl⟩ := Prod.mk.inj herr
      rcases Fallible.run_cases (executeTransaction tx cost) s.ledger with
        ⟨_, l', hok⟩ | ⟨e', l', herr'⟩
      · rw [hok] at hfst
        simp [Except.map] at hfst
      · rw [ledger_afterTransaction]
        rw [herr']
        exact h e' l' herr'

/-- A ledger with one account, which holds 1000. -/
def fundedLedger : Ledger := ((createAccounts [(⟨"alice"⟩, ⟨1000⟩)]).run Ledger.new).2

/-- A transfer of 100 to an account that does not exist, with a fee of 5. -/
def strayTransfer : Transaction where
  txType := .transfer ⟨"alice"⟩ ⟨"bob"⟩ ⟨100⟩
  nonce := ⟨1⟩
  timestamp := ⟨0⟩
  fee := ⟨5⟩
  expiresAt := none
  signature := none
  metadata := TransactionMetadata.default

/-- A failure may leave the fee burned. -/
theorem not_applyTransaction_atomic :
    ¬ ∀ (P : Primitives) (tx : Transaction) (startTime now : Timestamp) (s : LedgerState)
      (e : Error) (s' : LedgerState),
      (applyTransaction P tx startTime now).run s = (.error e, s') → s'.ledger = s.ledger := by
  intro h
  have hledger := h Primitives.toy strayTransfer ⟨0⟩ ⟨0⟩
    { new 1 ⟨0⟩ with ledger := fundedLedger } (.accountNotFound "bob") _ rfl
  have hsupply := congrArg Ledger.totalSupply hledger
  revert hsupply
  decide +kernel

end LedgerState

end QuDAG.Exchange
