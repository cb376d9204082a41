import QuDAG.Exchange.Ledger
import QuDAG.Lib.MapSum
import QuDAG.Lib.Runs

/-!
# Conservation in the ledger

The balances add up to the total supply, which stays within the configured maximum. The bound is
what makes the operations atomic: a transfer debits before it credits, and only because all
balances together fit in 64 bits can the credit not overflow after the debit.

## Main definitions

* `Ledger.sumBalances` — the exact sum of all balances.
* `Ledger.Conserves` — the invariant.
* `Ledger.Operation` — a call on the ledger.

## Main results

* `Ledger.call_keeps_conserves` — every call keeps the invariant.
* `Ledger.call_atomicAt` — a call that fails changes nothing.
* `Ledger.conservation` — both over every sequence of calls, with the effect of a transfer with a
  fee.
-/

namespace QuDAG.Exchange

namespace Ledger

open RustStd

/-- The exact sum of all balances. -/
def sumBalances (l : Ledger) : ℕ := HashMap.sumBy (fun a => a.balance.val) l.accounts

/-- The balances add up to the supply, which is at most the maximum. -/
structure Conserves (l : Ledger) : Prop where
  /-- The balances add up to the supply. -/
  sum_eq : l.sumBalances = l.totalSupply.val
  /-- The supply is at most the maximum. -/
  supply_le : l.totalSupply.val ≤ l.config.maxSupply.val

/-- A call on the ledger. -/
inductive Operation
  | createAccount (id : AccountId)
  | mint (id : AccountId) (amount : RUv)
  | burn (id : AccountId) (amount : RUv)
  | transfer (sender recipient : AccountId) (amount : RUv)
  | transferWithFee (sender recipient : AccountId) (amount : RUv) (now : Timestamp)
  | createAgentStatus (id : AccountId) (verified : Bool) (firstTxTime : Timestamp)

/-- Make a call. A transfer with a fee returns the fee. -/
def call : Operation → Fallible Error Ledger (Option RUv)
  | .createAccount id => do
    createAccount id
    pure none
  | .mint id amount => do
    mint id amount
    pure none
  | .burn id amount => do
    burn id amount
    pure none
  | .transfer sender recipient amount => do
    transfer sender recipient amount
    pure none
  | .transferWithFee sender recipient amount now => do
    let fee ← transferWithFee sender recipient amount now
    pure (some fee)
  | .createAgentStatus id verified firstTxTime => do
    createAgentStatus id verified firstTxTime
    pure none

/-- The ledger after a call. -/
def applyCall (l : Ledger) (op : Operation) : Ledger := ((call op).run l).2

variable {id sender recipient : AccountId} {amount fee : RUv} {now : Timestamp} {l l' : Ledger}

/-- Overwriting an account changes the sum by the change of its balance. -/
lemma sumBalances_put {a : Account} (a' : Account) (h : l.accounts.lookup id = some a) :
    (l.put id a').sumBalances + a.balance.val = l.sumBalances + a'.balance.val :=
  HashMap.sumBy_insert_of_lookup h

/-- A ledger without accounts and supply conserves. -/
lemma conserves_withFeeModel (config : LedgerConfig) (feeModel : FeeModel) :
    (withFeeModel config feeModel).Conserves := by
  constructor
  · exact HashMap.sumBy_empty
  · exact Nat.zero_le _

namespace Conserves

/-- All balances together fit in 64 bits. -/
lemma sum_lt (h : l.Conserves) : l.sumBalances < 2 ^ 64 := by
  have := h.sum_eq
  have := l.totalSupply.val_lt
  omega

/-- One balance is at most the supply. -/
lemma balance_le {a : Account} (h : l.Conserves) (ha : l.accounts.lookup id = some a) :
    a.balance.val ≤ l.totalSupply.val := by
  have hle : a.balance.val ≤ l.sumBalances :=
    HashMap.le_sumBy (f := fun a : Account => a.balance.val) ha
  rw [h.sum_eq] at hle
  exact hle

/-- Two balances fit in 64 bits together. -/
lemma balances_lt {a b : Account} (h : l.Conserves) (hne : sender ≠ recipient)
    (ha : l.accounts.lookup sender = some a) (hb : l.accounts.lookup recipient = some b) :
    a.balance.val + b.balance.val < 2 ^ 64 := by
  have hle : a.balance.val + b.balance.val ≤ l.sumBalances :=
    HashMap.add_le_sumBy (f := fun a : Account => a.balance.val) hne ha hb
  have := h.sum_lt
  omega

/-- A new account has balance zero. -/
lemma createAccount (h : l.Conserves) (hok : (createAccount id).run l = (.ok (), l')) :
    l'.Conserves := by
  obtain ⟨hid, rfl⟩ := createAccount_ok_iff.mp hok
  refine ⟨?_, h.supply_le⟩
  have hsum : (l.put id (Account.new id)).sumBalances = l.sumBalances + 0 :=
    HashMap.sumBy_insert_of_not_mem hid
  rw [hsum, Nat.add_zero]
  exact h.sum_eq

/-- A mint adds its amount to one balance and to the supply. -/
lemma mint (h : l.Conserves) (hok : (mint id amount).run l = (.ok (), l')) : l'.Conserves := by
  obtain ⟨a, balance, supply, ha, hval, hsupply, hmax, rfl⟩ := mint_ok_iff.mp hok
  refine ⟨?_, hmax⟩
  have hput := sumBalances_put (a.setBalance balance) ha
  have hsum := h.sum_eq
  show (l.put id (a.setBalance balance)).sumBalances = supply.val
  rw [Account.balance_setBalance] at hput
  omega

/-- A burn takes its amount from one balance and from the supply. -/
lemma burn (h : l.Conserves) (hok : (burn id amount).run l = (.ok (), l')) : l'.Conserves := by
  obtain ⟨a, ha, hc, rfl⟩ := burn_ok_iff.mp hok
  have hafford := (Account.canAfford_iff.mp hc).2
  have hput := sumBalances_put (a.setBalance (a.balance.saturatingSub amount)) ha
  have hsum := h.sum_eq
  have hle := h.balance_le ha
  have hmax := h.supply_le
  rw [Account.balance_setBalance, RUv.val_saturatingSub] at hput
  constructor
  · show (l.put id (a.setBalance (a.balance.saturatingSub amount))).sumBalances =
      (l.totalSupply.saturatingSub amount).val
    rw [RUv.val_saturatingSub]
    omega
  · show (l.totalSupply.saturatingSub amount).val ≤ l.config.maxSupply.val
    rw [RUv.val_saturatingSub]
    omega

/-- A transfer moves its amount from one balance to another. -/
lemma transfer (h : l.Conserves) (hok : (transfer sender recipient amount).run l = (.ok (), l')) :
    l'.Conserves := by
  obtain ⟨hne, -, a, b, balance, ha, hb, hc, hval, rfl⟩ := transfer_ok_iff.mp hok
  have hafford := (Account.canAfford_iff.mp hc).2
  have hb' := (lookup_put_of_ne (l := l) (a.setBalance (a.balance.saturatingSub amount))
    hne.symm).trans hb
  have hput := sumBalances_put (a.setBalance (a.balance.saturatingSub amount)) ha
  have hput' := sumBalances_put (b.setBalance balance) hb'
  have hsum := h.sum_eq
  rw [Account.balance_setBalance, RUv.val_saturatingSub] at hput
  rw [Account.balance_setBalance] at hput'
  refine ⟨?_, h.supply_le⟩
  rw [totalSupply_put, totalSupply_put]
  omega

/-- After a successful debit of one account the credit of another one cannot fail. -/
lemma credit_succeeds (h : l.Conserves) (hne : sender ≠ recipient) {b : Account}
    (hb : l.accounts.lookup recipient = some b)
    (hok : (updateAccount sender (Account.debit amount)).run l = (.ok (), l')) :
    ∃ l₂, (updateAccount recipient (Account.credit amount)).run l' = (.ok (), l₂) := by
  obtain ⟨a, ha, hc, rfl⟩ := debit_ok_iff.mp hok
  have hafford := (Account.canAfford_iff.mp hc).2
  have hlt := h.balances_lt hne ha hb
  have hfits : b.balance.checkedAdd amount ≠ none := by
    rw [ne_eq, RUv.checkedAdd_eq_none]
    omega
  obtain ⟨balance, hsome⟩ := Option.ne_none_iff_exists'.mp hfits
  exact ⟨_, credit_ok_iff.mpr ⟨b, balance, (lookup_put_of_ne _ hne.symm).trans hb,
    RUv.checkedAdd_eq_some.mp hsome, rfl⟩⟩

/-- A transfer that fails leaves the ledger as it was. -/
lemma transfer_atomicAt (h : l.Conserves) :
    (Ledger.transfer sender recipient amount).AtomicAt l := by
  intro e l' herr
  rcases transfer_error_cases herr with heq | ⟨hne, -, a, b, ha, hb, hc, hover, -⟩
  · exact heq
  · have hafford := (Account.canAfford_iff.mp hc).2
    have hlt := h.balances_lt hne ha hb
    omega

end Conserves

/-! ## Transfers with a fee -/

/-- After a transfer the sender still has an account, with the amount taken off. -/
lemma lookup_sender_of_transfer {a : Account} (ha : l.accounts.lookup sender = some a)
    (hok : (transfer sender recipient amount).run l = (.ok (), l')) :
    a.canAfford amount = true ∧ l'.accounts.lookup sender =
      some (a.setBalance (a.balance.saturatingSub amount)) := by
  obtain ⟨hne, -, a', b, balance, ha', -, hc, -, rfl⟩ := transfer_ok_iff.mp hok
  rw [ha] at ha'
  obtain rfl := Option.some.inj ha'
  exact ⟨hc, (lookup_put_of_ne _ hne).trans (Finmap.lookup_insert _)⟩

/-- A sender that holds the amount and the fee can be charged the fee after the transfer. -/
lemma burn_succeeds {a : Account} (ha : l.accounts.lookup sender = some a)
    (hcost : amount.val + fee.val ≤ a.balance.val)
    (hok : (transfer sender recipient amount).run l = (.ok (), l')) :
    ∃ l₂, (burn sender fee).run l' = (.ok (), l₂) := by
  obtain ⟨hc, hlookup⟩ := lookup_sender_of_transfer ha hok
  have hfrozen := (Account.canAfford_iff.mp hc).1
  refine ⟨_, burn_ok_iff.mpr ⟨_, hlookup, Account.canAfford_iff.mpr ⟨hfrozen, ?_⟩, rfl⟩⟩
  rw [Account.balance_setBalance, RUv.val_saturatingSub]
  omega

/-- A successful transfer with a fee is a transfer, and a burn of the fee if there is one. -/
lemma transferWithFee_ok (h : (transferWithFee sender recipient amount now).run l = (.ok fee, l')) :
    ∃ a l₁, l.accounts.lookup sender = some a ∧ amount.val + fee.val ≤ a.balance.val ∧
      (transfer sender recipient amount).run l = (.ok (), l₁) ∧
      (fee.val = 0 ∧ l' = l₁ ∨ (burn sender fee).run l₁ = (.ok (), l')) := by
  rcases transferWithFee_cases sender recipient amount now l with
    ⟨e, he⟩ | ⟨fee', a, -, ha, hcost, hrun⟩
  · rw [he] at h
    simp at h
  · rw [hrun] at h
    obtain ⟨_, l₁, htransfer, hrest⟩ := Fallible.run_bind_ok.mp h
    by_cases hz : fee'.isZero = true
    · rw [if_pos hz] at hrest
      obtain ⟨rfl, rfl⟩ : fee' = fee ∧ l₁ = l' := by simpa using hrest
      exact ⟨a, l₁, ha, hcost, htransfer, .inl ⟨RUv.isZero_iff.mp hz, rfl⟩⟩
    · rw [if_neg hz] at hrest
      obtain ⟨_, l₂, hburn, hpure⟩ := Fallible.run_bind_ok.mp hrest
      obtain ⟨rfl, rfl⟩ : fee' = fee ∧ l₂ = l' := by simpa using hpure
      exact ⟨a, l₁, ha, hcost, htransfer, .inr hburn⟩

/-- A transfer with a fee that fails leaves the ledger as it was. -/
lemma Conserves.transferWithFee_atomicAt (h : l.Conserves) :
    (transferWithFee sender recipient amount now).AtomicAt l := by
  intro e l' herr
  rcases transferWithFee_cases sender recipient amount now l with
    ⟨e', he⟩ | ⟨fee, a, -, ha, hcost, hrun⟩
  · rw [he] at herr
    exact (Prod.mk.inj herr).2.symm
  · rw [hrun] at herr
    refine Fallible.atomicAt_bind_of_total h.transfer_atomicAt (fun _ l₁ hok => ?_) e l' herr
    by_cases hz : fee.isZero = true
    · exact ⟨fee, by rw [if_pos hz]; rfl⟩
    · obtain ⟨l₂, hburn⟩ := burn_succeeds ha hcost hok
      refine ⟨fee, ?_⟩
      rw [if_neg hz, Fallible.run_bind_of_ok hburn]
      rfl

/-- A successful transfer with a fee keeps the invariant. -/
lemma Conserves.transferWithFee (h : l.Conserves)
    (hok : (transferWithFee sender recipient amount now).run l = (.ok fee, l')) :
    l'.Conserves := by
  obtain ⟨a, l₁, -, -, htransfer, ⟨-, rfl⟩ | hburn⟩ := transferWithFee_ok hok
  · exact h.transfer htransfer
  · exact (h.transfer htransfer).burn hburn

/-- What a successful transfer with a fee did. -/
structure PaidWithFee (sender recipient : AccountId) (amount fee : RUv) (l l' : Ledger) :
    Prop where
  /-- The sender has paid the amount and the fee. -/
  sender_pays : ∃ a a', l.accounts.lookup sender = some a ∧
    l'.accounts.lookup sender = some a' ∧ a' = a.setBalance a'.balance ∧
    a'.balance.val + (amount.val + fee.val) = a.balance.val
  /-- The recipient has received the amount. -/
  recipient_gets : ∃ b b', l.accounts.lookup recipient = some b ∧
    l'.accounts.lookup recipient = some b' ∧ b' = b.setBalance b'.balance ∧
    b'.balance.val = b.balance.val + amount.val
  /-- The fee has left the supply. -/
  supply_falls : l'.totalSupply.val + fee.val = l.totalSupply.val
  /-- Every other account is as it was. -/
  others : ∀ id, id ≠ sender → id ≠ recipient →
    l'.accounts.lookup id = l.accounts.lookup id

/-- The effect of a successful transfer with a fee. -/
lemma Conserves.paidWithFee (h : l.Conserves)
    (hok : (Ledger.transferWithFee sender recipient amount now).run l = (.ok fee, l')) :
    PaidWithFee sender recipient amount fee l l' := by
  obtain ⟨a, l₁, ha, hcost, htransfer, hfee⟩ := transferWithFee_ok hok
  have hl₁ := h.transfer htransfer
  obtain ⟨-, hlookup⟩ := lookup_sender_of_transfer ha htransfer
  obtain ⟨hne, -, a', b, balance, ha', hb, hc, hval, rfl⟩ := transfer_ok_iff.mp htransfer
  rw [ha] at ha'
  obtain rfl := Option.some.inj ha'
  have hafford := (Account.canAfford_iff.mp hc).2
  rcases hfee with ⟨hz, rfl⟩ | hburn
  · refine ⟨⟨a, _, ha, hlookup, rfl, ?_⟩,
      ⟨b, _, hb, Finmap.lookup_insert _, rfl, hval⟩, ?_, ?_⟩
    · rw [Account.balance_setBalance, RUv.val_saturatingSub]
      omega
    · rw [totalSupply_put, totalSupply_put]
      omega
    · intro id hs hr
      rw [lookup_put_of_ne _ hr, lookup_put_of_ne _ hs]
  · obtain ⟨a₁, ha₁, hc₁, rfl⟩ := burn_ok_iff.mp hburn
    have hle := hl₁.balance_le ha₁
    rw [hlookup] at ha₁
    obtain rfl := Option.some.inj ha₁
    rw [Account.balance_setBalance, RUv.val_saturatingSub, totalSupply_put,
      totalSupply_put] at hle
    refine ⟨⟨a, _, ha, Finmap.lookup_insert _, rfl, ?_⟩,
      ⟨b, _, hb, (lookup_put_of_ne _ hne.symm).trans (Finmap.lookup_insert _), rfl, hval⟩,
      ?_, ?_⟩
    · simp only [Account.balance_setBalance, RUv.val_saturatingSub]
      omega
    · rw [totalSupply_setSupply, RUv.val_saturatingSub, totalSupply_put, totalSupply_put]
      omega
    · intro id hs hr
      rw [accounts_setSupply, lookup_put_of_ne _ hs, lookup_put_of_ne _ hr, lookup_put_of_ne _ hs]

/-! ## Every call -/

/-- The creation of an account keeps the invariant. -/
lemma keeps_createAccount : Fallible.Keeps Conserves (createAccount id) :=
  Fallible.keeps_of_atomicAt (fun _ _ => createAccount_atomicAt) fun _ _ _ h hok =>
    h.createAccount hok

/-- A mint keeps the invariant. -/
lemma keeps_mint : Fallible.Keeps Conserves (mint id amount) :=
  Fallible.keeps_of_atomicAt (fun _ _ => mint_atomicAt) fun _ _ _ h hok => h.mint hok

/-- A burn keeps the invariant. -/
lemma keeps_burn : Fallible.Keeps Conserves (burn id amount) :=
  Fallible.keeps_of_atomicAt (fun _ _ => burn_atomicAt) fun _ _ _ h hok => h.burn hok

/-- A transfer keeps the invariant. -/
lemma keeps_transfer : Fallible.Keeps Conserves (transfer sender recipient amount) :=
  Fallible.keeps_of_atomicAt (fun _ h => h.transfer_atomicAt) fun _ _ _ h hok => h.transfer hok

/-- A transfer with a fee keeps the invariant. -/
lemma keeps_transferWithFee :
    Fallible.Keeps Conserves (transferWithFee sender recipient amount now) :=
  Fallible.keeps_of_atomicAt (fun _ h => h.transferWithFee_atomicAt) fun _ _ _ h hok =>
    h.transferWithFee hok

/-- From a ledger that conserves, a call that fails changes nothing. -/
lemma Conserves.call_atomicAt (h : l.Conserves) (op : Operation) : (call op).AtomicAt l := by
  cases op with
  | createAccount id =>
    exact Fallible.atomicAt_bind_of_total createAccount_atomicAt fun _ _ _ => ⟨none, rfl⟩
  | mint id amount =>
    exact Fallible.atomicAt_bind_of_total mint_atomicAt fun _ _ _ => ⟨none, rfl⟩
  | burn id amount =>
    exact Fallible.atomicAt_bind_of_total burn_atomicAt fun _ _ _ => ⟨none, rfl⟩
  | transfer sender recipient amount =>
    exact Fallible.atomicAt_bind_of_total h.transfer_atomicAt fun _ _ _ => ⟨none, rfl⟩
  | transferWithFee sender recipient amount now =>
    exact Fallible.atomicAt_bind_of_total h.transferWithFee_atomicAt fun fee _ _ => ⟨fee, rfl⟩
  | createAgentStatus id verified firstTxTime =>
    exact Fallible.atomicAt_bind_of_total (Fallible.atomicAt_modify _ _) fun _ _ _ => ⟨none, rfl⟩

/-- Every call keeps the invariant, whether it succeeds or fails. -/
lemma call_keeps_conserves (op : Operation) : Fallible.Keeps Conserves (call op) := by
  cases op with
  | createAccount id => exact Fallible.keeps_bind keeps_createAccount fun _ _ h => h
  | mint id amount => exact Fallible.keeps_bind keeps_mint fun _ _ h => h
  | burn id amount => exact Fallible.keeps_bind keeps_burn fun _ _ h => h
  | transfer sender recipient amount =>
    exact Fallible.keeps_bind keeps_transfer fun _ _ h => h
  | transferWithFee sender recipient amount now =>
    exact Fallible.keeps_bind keeps_transferWithFee fun _ _ h => h
  | createAgentStatus id verified firstTxTime => exact fun _ h => ⟨h.sum_eq, h.supply_le⟩

/-- No write changes the configuration. -/
lemma stable_config (config : LedgerConfig) : Stable fun l => l.config = config where
  put _ _ _ _ h _ := h
  create _ _ h _ := h
  setSupply _ _ h := h

/-- Every call keeps the configuration. -/
lemma call_keeps_config (config : LedgerConfig) (op : Operation) :
    Fallible.Keeps (fun l => l.config = config) (call op) := by
  have hstable := stable_config config
  cases op with
  | createAccount id => exact Fallible.keeps_bind hstable.createAccount fun _ _ h => h
  | mint id amount => exact Fallible.keeps_bind hstable.mint fun _ _ h => h
  | burn id amount => exact Fallible.keeps_bind hstable.burn fun _ _ h => h
  | transfer sender recipient amount =>
    exact Fallible.keeps_bind hstable.transfer fun _ _ h => h
  | transferWithFee sender recipient amount now =>
    exact Fallible.keeps_bind hstable.transferWithFee fun _ _ h => h
  | createAgentStatus id verified firstTxTime => exact fun _ h => h

/-- After any sequence of calls the ledger conserves, under its configuration. -/
lemma run_conserves (config : LedgerConfig) (feeModel : FeeModel) (ops : List Operation) :
    (Runs.run applyCall (withFeeModel config feeModel) ops).Conserves ∧
      (Runs.run applyCall (withFeeModel config feeModel) ops).config = config := by
  refine Runs.run_invariant (fun l : Ledger => l.Conserves ∧ l.config = config) ?_
    ⟨conserves_withFeeModel config feeModel, rfl⟩
  rintro l op ⟨h, hconfig⟩
  exact ⟨call_keeps_conserves op l h, call_keeps_config config op l hconfig⟩

/-- **Conservation**: after any sequence of calls on a new ledger the balances add up to the
supply, which is at most the maximum; a burn never saturates; after a debit the credit of
another account succeeds; a call that fails changes nothing; and a transfer with a fee has
exactly its effect.

**Proof sketch.** The sum of the balances fits in 64 bits as it equals the supply. So after a
debit by `amount` of one account, which leaves the other balances with at most the rest of the
sum, adding `amount` to one of them cannot overflow; and a balance that affords a burn is at most
the supply. -/
theorem conservation (config : LedgerConfig) (feeModel : FeeModel) (ops : List Operation) :
    let l := Runs.run applyCall (withFeeModel config feeModel) ops
    (l.sumBalances = l.totalSupply.val ∧ l.totalSupply.val ≤ config.maxSupply.val) ∧
    (∀ id amount l', (burn id amount).run l = (.ok (), l') → amount.val ≤ l.totalSupply.val) ∧
    (∀ sender recipient amount l', sender ≠ recipient → recipient ∈ l.accounts →
      (updateAccount sender (Account.debit amount)).run l = (.ok (), l') →
      ∃ l₂, (updateAccount recipient (Account.credit amount)).run l' = (.ok (), l₂)) ∧
    (∀ op e l', (call op).run l = (.error e, l') → l' = l) ∧
    (∀ sender recipient amount now fee l',
      (transferWithFee sender recipient amount now).run l = (.ok fee, l') →
      PaidWithFee sender recipient amount fee l l') := by
  intro l
  obtain ⟨h, hconfig⟩ := run_conserves config feeModel ops
  refine ⟨⟨h.sum_eq, ?_⟩, ?_, ?_, ?_, ?_⟩
  · have hle := h.supply_le
    rw [hconfig] at hle
    exact hle
  · intro id amount l' hburn
    obtain ⟨a, ha, hc, -⟩ := burn_ok_iff.mp hburn
    exact (Account.canAfford_iff.mp hc).2.trans (h.balance_le ha)
  · intro sender recipient amount l' hne hmem hdebit
    obtain ⟨b, hb⟩ := HashMap.mem_iff_exists.mp hmem
    exact h.credit_succeeds hne hb hdebit
  · exact fun op => h.call_atomicAt op
  · exact fun _ _ _ _ _ _ hok => h.paidWithFee hok

/-! ## The check of the code -/

/-- Adding up balances that fit gives their exact sum. -/
lemma totalBalance_eq_ok {order : List (AccountId × Account)} : ∀ {total : RUv},
    total.val + (order.map fun e => e.2.balance.val).sum < 2 ^ 64 →
      ∃ t, totalBalance total order = .ok t ∧
        t.val = total.val + (order.map fun e => e.2.balance.val).sum := by
  induction order with
  | nil => exact fun {total} _ => ⟨total, rfl, rfl⟩
  | cons entry rest ih =>
    intro total hlt
    rw [List.map_cons, List.sum_cons] at hlt ⊢
    have hfits : total.checkedAdd entry.2.balance ≠ none := by
      rw [ne_eq, RUv.checkedAdd_eq_none]
      omega
    obtain ⟨total', hsome⟩ := Option.ne_none_iff_exists'.mp hfits
    have hval := RUv.checkedAdd_eq_some.mp hsome
    obtain ⟨t, ht, hsum⟩ := @ih total' (by omega)
    refine ⟨t, ?_, by omega⟩
    rw [totalBalance, hsome]
    exact ht

/-- Balances that fit together pass the check iff they add up to the supply. -/
lemma checkInvariants_iff {order : List (AccountId × Account)} (hlt : l.sumBalances < 2 ^ 64)
    (horder : l.accounts.Enumerates order) :
    l.checkInvariants order = .ok () ↔ l.sumBalances = l.totalSupply.val := by
  have hsum : (order.map fun e => e.2.balance.val).sum = l.sumBalances :=
    HashMap.sumBy_eq_sum (f := fun a : Account => a.balance.val) horder
  have hfits : RUv.zero.val + (order.map fun e => e.2.balance.val).sum < 2 ^ 64 := by
    rw [RUv.val_zero]
    omega
  obtain ⟨t, ht, hval⟩ := totalBalance_eq_ok hfits
  rw [RUv.val_zero, Nat.zero_add, hsum] at hval
  have hcheck : l.checkInvariants order = if t = l.totalSupply then .ok () else
      .error (.stateCorruption ("Total balance " ++ toString t.amount ++ " != total supply " ++
        toString l.totalSupply.amount)) := by
    unfold checkInvariants
    rw [ht]
    rfl
  rw [hcheck]
  split_ifs with heq
  · simp [← heq, hval]
  · simp only [false_iff]
    exact fun h => heq (RUv.ext_val (hval.trans h))

end Ledger

end QuDAG.Exchange
