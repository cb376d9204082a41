import Mathlib.Order.CompletePartialOrder
import QuDAG.Exchange.Ordering
import QuDAG.Lib.Locality

/-!
# The accounts a transaction touches

A transaction that a sender pays for looks at the accounts it names, writes to no others and only
ever lowers the supply. Two of them that name different accounts cannot conflict, so a pool of
such transactions is applied with the same result in every order.

## Main definitions

* `Transaction.accounts` — the accounts that a transaction names.
* `Ledger.writers` — the changes of a ledger that write to some accounts and lower the supply.

## Main results

* `Ledger.local_burn`, `Ledger.local_transfer` — the operations are local to their accounts.
* `LedgerState.not_conflict_of_disjoint` — transactions that senders pay for and that name different
  accounts do not conflict.
* `LedgerState.deterministic_of_disjoint` — so a pool of them is processed deterministically.
-/

namespace QuDAG.Exchange

open RustStd

/-- The accounts that the transaction names. -/
def Transaction.accounts (tx : Transaction) : Finset AccountId :=
  match tx.txType with
  | .transfer sender recipient _ => {sender, recipient}
  | .mint recipient _ => {recipient}
  | .burn sender _ => {sender}
  | .createAccount account _ => {account}
  | .updateAccount account _ => {account}

/-- The sender is one of them. -/
lemma Transaction.sender_mem_accounts {tx : Transaction} {id : AccountId}
    (h : tx.sender = some id) : id ∈ tx.accounts := by
  unfold Transaction.sender at h
  unfold Transaction.accounts
  cases htype : tx.txType with
  | transfer sender recipient amount => simp_all
  | mint recipient amount => simp [htype] at h
  | burn sender amount => simp_all
  | createAccount account initialBalance => simp [htype] at h
  | updateAccount account publicKey => simp_all

namespace Ledger

variable {id sender recipient : AccountId} {amount : RUv} {ids ids' : Set AccountId}
  {l l' : Ledger} {w w' : Function.End Ledger}

/-- What the ledger has at an id. -/
def look (l : Ledger) (id : AccountId) : Option Account := l.accounts.lookup id

/-- The ledger with an amount taken from its supply. -/
def lowerSupply (amount : RUv) (l : Ledger) : Ledger :=
  l.setSupply (l.totalSupply.saturatingSub amount)

/-- The elementary writes: to one of the accounts, or to the supply, which they lower. -/
def writes (ids : Set AccountId) : Set (Function.End Ledger) :=
  {w | (∃ id ∈ ids, ∃ a, w = put id a) ∨ ∃ amount, w = lowerSupply amount}

/-- The changes that are made of elementary writes. -/
def writers (ids : Set AccountId) : Submonoid (Function.End Ledger) :=
  Submonoid.closure (writes ids)

/-- Writing to an account is one of them. -/
lemma put_mem_writers (h : id ∈ ids) (a : Account) :
    (put id a : Function.End Ledger) ∈ writers ids :=
  Submonoid.subset_closure (.inl ⟨id, h, a, rfl⟩)

/-- Lowering the supply is one of them. -/
lemma lowerSupply_mem_writers (amount : RUv) :
    (lowerSupply amount : Function.End Ledger) ∈ writers ids :=
  Submonoid.subset_closure (.inr ⟨amount, rfl⟩)

/-- Writers write the same to ledgers that look the same. -/
lemma agreeAt_writers (hw : w ∈ writers ids) :
    ∀ l l', Fallible.AgreeAt look ids' l l' → Fallible.AgreeAt look ids' (w l) (w l') := by
  induction hw using Submonoid.closure_induction with
  | mem w hw =>
    intro l l' h id' hid'
    rcases hw with ⟨id, -, a, rfl⟩ | ⟨amount, rfl⟩
    · show (l.accounts.insert id a).lookup id' = (l'.accounts.insert id a).lookup id'
      rw [HashMap.lookup_insert_ite, HashMap.lookup_insert_ite]
      split_ifs
      · rfl
      · exact h id' hid'
    · exact h id' hid'
  | one => exact fun _ _ h => h
  | mul w w' _ _ ih ih' => exact fun l l' h => ih _ _ (ih' l l' h)

/-- The frame: writers leave other accounts as they were. -/
lemma frame_writers (hdisjoint : Disjoint ids ids') (hw : w ∈ writers ids) :
    ∀ l, Fallible.AgreeAt look ids' l (w l) := by
  induction hw using Submonoid.closure_induction with
  | mem w hw =>
    intro l id' hid'
    rcases hw with ⟨id, hid, a, rfl⟩ | ⟨amount, rfl⟩
    · have hne : id' ≠ id := fun heq => Set.disjoint_left.mp hdisjoint hid (heq ▸ hid')
      exact (lookup_put_of_ne a hne).symm
    · rfl
  | one => exact fun _ _ _ => rfl
  | mul w w' _ _ ih ih' => exact fun l id' hid' => (ih' l id' hid').trans (ih _ id' hid')

/-- Lowering the supply twice can be done in either order. -/
lemma lowerSupply_comm (amount amount' : RUv) (l : Ledger) :
    (l.lowerSupply amount').lowerSupply amount = (l.lowerSupply amount).lowerSupply amount' := by
  have hval : (l.totalSupply.saturatingSub amount').saturatingSub amount =
      (l.totalSupply.saturatingSub amount).saturatingSub amount' := by
    refine RUv.ext_val ?_
    simp only [RUv.val_saturatingSub]
    omega
  show l.setSupply _ = l.setSupply _
  exact congrArg (fun supply => l.setSupply supply) hval

/-- Elementary writes to different accounts can change places. -/
lemma commute_writes (hdisjoint : Disjoint ids ids') (hw : w ∈ writes ids)
    (hw' : w' ∈ writes ids') : Commute w w' := by
  funext l
  rcases hw with ⟨id, hid, a, rfl⟩ | ⟨amount, rfl⟩
  · rcases hw' with ⟨id', hid', a', rfl⟩ | ⟨amount', rfl⟩
    · have hne : id' ≠ id := fun heq => Set.disjoint_left.mp hdisjoint hid (heq ▸ hid')
      show { l with accounts := (l.accounts.insert id' a').insert id a } =
        { l with accounts := (l.accounts.insert id a).insert id' a' }
      rw [Finmap.insert_insert_of_ne _ hne]
    · rfl
  · rcases hw' with ⟨id', -, a', rfl⟩ | ⟨amount', rfl⟩
    · rfl
    · exact lowerSupply_comm amount amount' l

/-- Writers to different accounts can change places. -/
lemma commute_writers (hdisjoint : Disjoint ids ids') (hw : w ∈ writers ids)
    (hw' : w' ∈ writers ids') : Commute w w' := by
  induction hw using Submonoid.closure_induction with
  | mem w hw =>
    induction hw' using Submonoid.closure_induction with
    | mem w' hw' => exact commute_writes hdisjoint hw hw'
    | one => exact Commute.one_right w
    | mul w₁ w₂ _ _ h₁ h₂ => exact h₁.mul_right h₂
  | one => exact Commute.one_left w'
  | mul w₁ w₂ _ _ h₁ h₂ => exact h₁.mul_left h₂

/-- The computation is local to the accounts. -/
def LocalTo (ids : Set AccountId) {α : Type} (m : Fallible Error Ledger α) : Prop :=
  Fallible.Local look ids (writers ids) m

/-- A sequence of computations that are local to the accounts is local to them. -/
lemma localTo_bind {α β : Type} {m : Fallible Error Ledger α} {k : α → Fallible Error Ledger β}
    (hm : LocalTo ids m) (hk : ∀ a, LocalTo ids (k a)) : LocalTo ids (m >>= k) :=
  Fallible.local_bind (fun _ => agreeAt_writers) hm hk

/-- Updating an account is local to it. -/
lemma local_updateAccount (h : id ∈ ids) (f : Fallible Error Account Unit) :
    LocalTo ids (updateAccount id f) := by
  intro l
  cases hid : l.accounts.lookup id with
  | none =>
    refine ⟨.error (.accountNotFound id.value), 1, one_mem _, fun l' hagree => ?_⟩
    exact run_updateAccount_none f ((hagree id h).symm.trans hid)
  | some a =>
    refine ⟨(f.run a).1, put id (f.run a).2, put_mem_writers h _, fun l' hagree => ?_⟩
    exact run_updateAccount f ((hagree id h).symm.trans hid)

/-- A burn is local to its account. -/
lemma local_burn (h : id ∈ ids) : LocalTo ids (burn id amount) :=
  localTo_bind (local_updateAccount h _) fun _ =>
    Fallible.local_modify (lowerSupply_mem_writers amount)

/-- Reading an account is local to it. -/
lemma getAccount_congr (h : id ∈ ids) (hagree : Fallible.AgreeAt look ids l l') :
    l.getAccount id = l'.getAccount id := by
  have hlook : l.accounts.lookup id = l'.accounts.lookup id := hagree id h
  rw [getAccount, getAccount, hlook]

/-- A transfer is local to its accounts. -/
lemma local_transfer (hs : sender ∈ ids) (hr : recipient ∈ ids) :
    LocalTo ids (transfer sender recipient amount) := by
  unfold transfer
  split_ifs
  · exact Fallible.local_fail _
  · exact Fallible.local_fail _
  · refine Fallible.local_get_bind (fun l l' hagree => ?_) fun l => ?_
    · rw [getAccount_congr hs hagree, getAccount_congr hr hagree]
    · refine localTo_bind (Fallible.local_ofExcept _) fun _ => ?_
      refine localTo_bind (Fallible.local_ofExcept _) fun _ => ?_
      exact localTo_bind (local_updateAccount hs _) fun _ => local_updateAccount hr _

end Ledger

namespace LedgerState

variable {tx tx' : Transaction} {s : LedgerState}

/-- A transaction that a sender pays for is executed locally to the accounts that it names. -/
lemma local_executeTransaction (h : tx.sender ≠ none) (cost : RUv) :
    Ledger.LocalTo (tx.accounts : Set AccountId) (executeTransaction tx cost) := by
  obtain ⟨sender, hsender⟩ := Option.ne_none_iff_exists'.mp h
  have hmem : sender ∈ (tx.accounts : Set AccountId) := Transaction.sender_mem_accounts hsender
  refine Ledger.localTo_bind ?_ fun _ => ?_
  · rw [deductFee, hsender]
    exact Ledger.local_burn hmem
  · unfold Transaction.sender at hsender
    unfold Transaction.accounts
    cases htype : tx.txType with
    | transfer sender recipient amount => exact Ledger.local_transfer (by simp) (by simp)
    | mint recipient amount => simp [htype] at hsender
    | burn sender amount => exact Ledger.local_burn (by simp)
    | createAccount account initialBalance => simp [htype] at hsender
    | updateAccount account publicKey =>
      refine Fallible.local_get_bind (fun l l' hagree => ?_) fun l => ?_
      · rw [Ledger.getAccount_congr (by simp) hagree]
      · exact Ledger.localTo_bind (Fallible.local_ofExcept _) fun _ => Fallible.local_pure ()

/-- **Transactions that senders pay for and that name different accounts do not conflict.** -/
theorem not_conflict_of_disjoint (h : tx.sender ≠ none) (h' : tx'.sender ≠ none)
    (hdisjoint : Disjoint tx.accounts tx'.accounts) (l : Ledger) : ¬ s.Conflict l tx tx' := by
  rw [Conflict, not_not]
  unfold ledgerAfter
  cases s.calculateTransactionCost tx with
  | error e => rfl
  | ok cost =>
    cases s.calculateTransactionCost tx' with
    | error e => rfl
    | ok cost' =>
      have hsets : Disjoint (tx.accounts : Set AccountId) (tx'.accounts : Set AccountId) :=
        Finset.disjoint_coe.mpr hdisjoint
      exact (local_executeTransaction h cost).run_comm (local_executeTransaction h' cost')
        (fun _ hw _ hw' => Ledger.commute_writers hsets hw hw')
        (fun _ hw => Ledger.frame_writers hsets hw)
        (fun _ hw => Ledger.frame_writers hsets.symm hw) l

/-- A pool of such transactions is free of conflicts. -/
theorem conflictFree_of_disjoint {pool : TransactionId → Option Transaction}
    (hsender : ∀ id tx, pool id = some tx → tx.sender ≠ none)
    (hdisjoint : ∀ id id' tx tx', pool id = some tx → pool id' = some tx' → id ≠ id' →
      Disjoint tx.accounts tx'.accounts) : s.ConflictFree pool := by
  refine conflictFree_iff_confluent.mpr (Runs.confluent_of_pairwise fun l e he e' he' hne => ?_)
  have hids : e.1 ≠ e'.1 := by
    intro heq
    have hpool : pool e.1 = some e.2 := he
    rw [heq, show pool e'.1 = some e'.2 from he'] at hpool
    exact hne (Prod.ext heq (Option.some.inj hpool).symm)
  exact not_not.mp (not_conflict_of_disjoint (hsender _ _ he) (hsender _ _ he')
    (hdisjoint _ _ _ _ he he' hids) l)

/-- A burn from another account. -/
def burnOfBob : Transaction := { tokenBurn with txType := .burn ⟨"bob"⟩ ⟨800⟩ }

/-- Two burns, from different accounts. -/
def ownersPool (id : TransactionId) : Option Transaction :=
  if id = tokenBurn.id Primitives.toy then some tokenBurn
  else if id = burnOfBob.id Primitives.toy then some burnOfBob
  else none

end LedgerState

end QuDAG.Exchange
