import QuDAG.Exchange.Ledger
import QuDAG.Lib.Locking

/-!
# The shard locks of a transfer

With the `std` feature the accounts of the ledger are a concurrent map (`ledger.rs`): the map is
split into shards by the hash of the key, and the guard that `get_mut` returns holds the exclusive
lock of its shard until it is dropped. A transfer holds the guard of the sender while it asks for
that of the recipient. The assignment of ids to shards is arbitrary.

## Main definitions

* `getMut` — the rest of a block below a guard for an account.
* `transferLocking`, `updateAccountLocking` — the operations with the locks that they take.

## Main results

* `run_transferLocking` — a transfer is stuck iff it reaches its locks and the two ids fall in one
  shard, and is the transfer of the ledger otherwise.
* `transferLocking_completes_iff` — the transfers that complete.
-/

namespace QuDAG.Exchange.Ledger

open RustStd

variable {κ : Type} [DecidableEq κ]

/-- Look an account up under the lock of its shard, and go on with the guard in scope. A guard is
given back at once when the account is missing. -/
def getMut (shard : AccountId → κ) (id : AccountId) (body : Locking κ Error Ledger Unit) :
    Locking κ Error Ledger Unit :=
  Locking.withLock (shard id) do
    let l ← Locking.lift Fallible.get
    let _ ← Locking.lift (Fallible.ofExcept (l.getAccount id))
    body

/-- Update an account with a computation, under the lock of its shard. -/
def updateAccountLocking (shard : AccountId → κ) (id : AccountId)
    (f : Fallible Error Account Unit) : Locking κ Error Ledger Unit :=
  getMut shard id (Locking.lift (updateAccount id f))

/-- Move an amount between two accounts, with both guards in scope. -/
def transferLocking (shard : AccountId → κ) (sender recipient : AccountId) (amount : RUv) :
    Locking κ Error Ledger Unit :=
  if sender = recipient then
    Locking.lift (Fallible.fail (.invalidTransaction "Cannot transfer to self"))
  else if amount.isZero then
    Locking.lift (Fallible.fail (.invalidTransaction "Cannot transfer zero amount"))
  else
    -- both guards live to the end of the block
    getMut shard sender <| getMut shard recipient do
      Locking.lift (updateAccount sender (Account.debit amount))
      Locking.lift (updateAccount recipient (Account.credit amount))

variable {shard : AccountId → κ} {id sender recipient : AccountId} {amount : RUv} {l : Ledger}
  {held : Finset κ}

lemma getAccount_eq_error (h : l.accounts.lookup id = none) :
    l.getAccount id = .error (.accountNotFound id.value) := by
  rw [getAccount, h]

/-- The guard of a missing account: the block ends in an error. -/
lemma run_getMut_of_missing (hfree : shard id ∉ held) (h : l.accounts.lookup id = none)
    (body : Locking κ Error Ledger Unit) :
    (getMut shard id body).run held l = some (.error (.accountNotFound id.value), l) := by
  rw [getMut, Locking.run_withLock_of_notMem hfree,
    Locking.run_lift_bind_of_ok (Fallible.run_get l)]
  exact Locking.run_lift_bind_of_error (by rw [Fallible.run_ofExcept, getAccount_eq_error h])

/-- The guard of an account that is there: the rest of the block runs under its lock. -/
lemma run_getMut_of_lookup {account : Account} (hfree : shard id ∉ held)
    (h : l.accounts.lookup id = some account) (body : Locking κ Error Ledger Unit) :
    (getMut shard id body).run held l = body.run (insert (shard id) held) l := by
  rw [getMut, Locking.run_withLock_of_notMem hfree,
    Locking.run_lift_bind_of_ok (Fallible.run_get l)]
  exact Locking.run_lift_bind_of_ok (Fallible.run_ofExcept_ok.mpr ⟨getAccount_eq_ok.mpr h, rfl⟩)

/-- A transfer is stuck iff it gets as far as its second lock, and the shard of the recipient is
that of the sender. Otherwise it is the transfer of the ledger. -/
lemma run_transferLocking :
    (transferLocking shard sender recipient amount).run ∅ l =
      if sender ≠ recipient ∧ amount.isZero = false ∧ sender ∈ l.accounts ∧
          shard sender = shard recipient then none
      else some ((transfer sender recipient amount).run l) := by
  by_cases hne : sender = recipient
  · rw [transferLocking, if_pos hne, transfer, if_pos hne, if_neg fun h => h.1 hne]
    rfl
  by_cases hz : amount.isZero = true
  · rw [transferLocking, if_neg hne, if_pos hz, transfer, if_neg hne, if_pos hz,
      if_neg fun h => Bool.false_ne_true (h.2.1.symm.trans hz)]
    rfl
  rw [transferLocking, if_neg hne, if_neg hz, transfer, if_neg hne, if_neg hz,
    Fallible.run_bind_of_ok (Fallible.run_get l)]
  rw [Bool.not_eq_true] at hz
  cases hs : l.accounts.lookup sender with
  | none =>
    have hmem : sender ∉ l.accounts := Finmap.lookup_eq_none.mp hs
    rw [run_getMut_of_missing (Finset.notMem_empty _) hs, if_neg fun h => hmem h.2.2.1,
      Fallible.run_bind_of_error (by rw [Fallible.run_ofExcept, getAccount_eq_error hs])]
  | some a =>
    have hmem : sender ∈ l.accounts := Finmap.mem_of_lookup_eq_some hs
    rw [run_getMut_of_lookup (Finset.notMem_empty _) hs, Fallible.run_bind_of_ok
      (Fallible.run_ofExcept_ok.mpr ⟨getAccount_eq_ok.mpr hs, rfl⟩)]
    by_cases hshard : shard sender = shard recipient
    · -- the guard of the sender is still in scope
      rw [if_pos ⟨hne, hz, hmem, hshard⟩, getMut]
      exact Locking.run_withLock_of_mem (by simp [hshard]) _ _
    rw [if_neg fun h => hshard h.2.2.2]
    have hfree : shard recipient ∉ insert (shard sender) (∅ : Finset κ) := by
      simpa using Ne.symm hshard
    cases hr : l.accounts.lookup recipient with
    | none =>
      rw [run_getMut_of_missing hfree hr,
        Fallible.run_bind_of_error (by rw [Fallible.run_ofExcept, getAccount_eq_error hr])]
    | some b =>
      rw [run_getMut_of_lookup hfree hr, Locking.run_lift_bind_lift, Fallible.run_bind_of_ok
        (Fallible.run_ofExcept_ok.mpr ⟨getAccount_eq_ok.mpr hr, rfl⟩)]

/-- **A transfer between two different accounts completes iff the amount is zero or the two ids
fall in different shards**, whatever the balances are. -/
theorem transferLocking_completes_iff (hne : sender ≠ recipient) (hs : sender ∈ l.accounts) :
    ((transferLocking shard sender recipient amount).run ∅ l).isSome = true ↔
      amount.isZero = true ∨ shard sender ≠ shard recipient := by
  rw [run_transferLocking]
  by_cases hz : amount.isZero = true
  · simp [hz]
  · by_cases hshard : shard sender = shard recipient
    · simp [hne, hz, hs, hshard]
    · simp [hshard]

/-- Two accounts, one of them with a balance of a hundred. -/
def aliceAndBob : Ledger :=
  (new.put ⟨"alice"⟩ ((Account.new ⟨"alice"⟩).setBalance ⟨100⟩)).put ⟨"bob"⟩ (Account.new ⟨"bob"⟩)

lemma lookup_alice : aliceAndBob.accounts.lookup ⟨"alice"⟩ =
    some ((Account.new ⟨"alice"⟩).setBalance ⟨100⟩) := by
  rw [aliceAndBob, lookup_put_of_ne _ (by decide)]
  exact Finmap.lookup_insert _

lemma lookup_bob : aliceAndBob.accounts.lookup ⟨"bob"⟩ = some (Account.new ⟨"bob"⟩) :=
  Finmap.lookup_insert _

/-- With the ids in different shards the transfer completes. -/
theorem transferLocking_completes_iff_alice :
    ((transferLocking AccountId.value ⟨"alice"⟩ ⟨"bob"⟩ ⟨40⟩).run ∅ aliceAndBob).isSome = true :=
  (transferLocking_completes_iff (by decide) (Finmap.mem_of_lookup_eq_some lookup_alice)).mpr
    (.inr (by decide))

/-- With both ids in the one shard that there is, a transfer that the sender can afford waits for
its own lock. -/
theorem transferLocking_stuck_alice :
    (⟨"alice"⟩ : AccountId) ≠ ⟨"bob"⟩ ∧
      (aliceAndBob.getBalance ⟨"alice"⟩ = .ok ⟨100⟩ ∧ aliceAndBob.getBalance ⟨"bob"⟩ = .ok ⟨0⟩) ∧
      (transferLocking (fun _ => ()) ⟨"alice"⟩ ⟨"bob"⟩ ⟨40⟩).run ∅ aliceAndBob = none := by
  refine ⟨by decide, ⟨?_, ?_⟩, ?_⟩
  · rw [getBalance, getAccount_eq_ok.mpr lookup_alice]
    rfl
  · rw [getBalance, getAccount_eq_ok.mpr lookup_bob]
    rfl
  · rw [run_transferLocking]
    exact if_pos ⟨by decide, by decide, Finmap.mem_of_lookup_eq_some lookup_alice, rfl⟩

end QuDAG.Exchange.Ledger
