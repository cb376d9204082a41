import QuDAG.Exchange.Semantics

/-!
# What the state root says

The root of a state is the hash of its bytes, and these are neither the bytes that the integrity
check hashes nor bytes that contain the balances. The check clears the root first, but the root
was computed with the previous root in place; and a checkpoint is added after the state was
rooted. The ledger writes its supply and its configuration and no account.

The hash function is arbitrary: a statement about roots names the two byte strings that would
have to collide.

## Main definitions

* `LedgerState.rootPrefix` — the bytes in front of the root.
* `LedgerState.Operation.Roots` — the operations that root the state.
* `LedgerState.BalancesDiffer` — another balance or another set of accounts.

## Main results

* `LedgerState.toBytes_ne_of_root` — bytes with a root are not bytes without one.
* `LedgerState.verifyIntegrity_after_rooting` — a state that was rooted after genesis passes the
  check only by a collision.
* `LedgerState.toBytes_ne_iff` — the bytes differ iff the written parts do.
-/

namespace QuDAG.Exchange

open RustStd

namespace LedgerState

variable {P : Primitives} {s s' t : LedgerState}

/-! ## The integrity check -/

/-- The bytes in front of the root. -/
def rootPrefix (s : LedgerState) : List UInt8 :=
  Ledger.codec.encode s.ledger.written ++ (ResourceMeter.codec.encode s.meter ++
    (Codec.u32.encode s.metadata.version ++ (Codec.u64.encode s.metadata.chainId ++
      (Timestamp.codec.encode s.metadata.genesisTime ++
        (Timestamp.codec.encode s.metadata.lastUpdated ++
          (Codec.word 8).encode s.metadata.height)))))

/-- The bytes of a state: those in front of the root, the root, and the others. -/
lemma toBytes_eq (P : Primitives) (s : LedgerState) :
    s.toBytes P = s.rootPrefix ++ (Hash.codec.option.encode s.metadata.stateRoot ++
      (historyBytes s.recentTransactions ++
        (StateCheckpoint.codec P).list.encode s.checkpoints)) := by
  have hhead : headCodec.encode s.head =
      s.rootPrefix ++ Hash.codec.option.encode s.metadata.stateRoot := by
    simp only [rootPrefix, List.append_assoc]
    rfl
  rw [toBytes, hhead, List.append_assoc]

/-- Bytes with a root are not bytes without one: the root has a tag in front of it. -/
lemma toBytes_ne_of_root (hfront : s.rootPrefix = t.rootPrefix)
    (hs : s.metadata.stateRoot = none) (ht : t.metadata.stateRoot.isSome) :
    s.toBytes P ≠ t.toBytes P := by
  obtain ⟨root, hroot⟩ := Option.isSome_iff_exists.mp ht
  intro heq
  rw [toBytes_eq, toBytes_eq, hfront, hs, hroot] at heq
  have htag := List.append_cancel_left heq
  have hzero : Hash.codec.option.encode none = [0] := rfl
  have hone : Hash.codec.option.encode (some root) = 1 :: Hash.codec.encode root := rfl
  rw [hzero, hone] at htag
  simp at htag

/-- A sound state with a root passes the check iff the hash of its bytes without the root is the
root. -/
lemma verifyIntegrity_iff {order : List (AccountId × Account)} {root : Hash}
    (h : s.ledger.Conserves) (horder : s.ledger.accounts.Enumerates order)
    (hroot : s.metadata.stateRoot = some root) :
    s.verifyIntegrity P order = .ok () ↔ P.blake3 (s.withoutRoot.toBytes P) = root := by
  have hcheck := (Ledger.checkInvariants_iff h.sum_lt horder).mpr h.sum_eq
  unfold verifyIntegrity
  rw [hcheck, hroot]
  show (if _ then _ else _) = _ ↔ _
  split_ifs with heq
  · simp [heq]
  · simpa using heq

/-- The operations that root the state. -/
def Operation.Roots : Operation → Prop
  | .applyTransaction _ _ _ => False
  | .updateStateRoot => True
  | .createCheckpoint _ => True

/-- An operation that roots a state stores the hash of the bytes that the state had, and changes
nothing in front of the root. -/
lemma applyOperation_of_roots {op : Operation} (hop : op.Roots) (P : Primitives)
    (s : LedgerState) :
    (applyOperation P s op).metadata.stateRoot = some (P.blake3 (s.toBytes P)) ∧
      (applyOperation P s op).withoutRoot.rootPrefix = s.rootPrefix ∧
      (applyOperation P s op).ledger = s.ledger := by
  cases op with
  | applyTransaction tx startTime now => exact hop.elim
  | updateStateRoot => exact ⟨rfl, rfl, rfl⟩
  | createCheckpoint now => exact ⟨rfl, rfl, rfl⟩

/-- **The integrity check after rooting**: a genesis state passes it. In every later state, right
after the state was rooted, the check hashes other bytes than those of the root, so that it
passes iff the two byte strings collide.

**Proof sketch.** The balances add up to the supply, so the check comes down to the comparison of
the two hashes. Genesis is rooted without a previous root. Every state after it has a root, which
is part of the bytes that are hashed for the next one; the check hashes bytes without a root, and
these differ from the others in the tag in front of the root. -/
theorem verifyIntegrity_after_rooting {chainId : UInt64}
    {initialAccounts : List (AccountId × RUv)} {now : Timestamp} {s₀ : LedgerState}
    (hgenesis : genesis P chainId initialAccounts now = .ok s₀) :
    (∀ order, s₀.ledger.accounts.Enumerates order → s₀.verifyIntegrity P order = .ok ()) ∧
    ∀ ops (op : Operation), op.Roots →
      let s := Runs.run (applyOperation P) s₀ ops
      let s' := applyOperation P s op
      s'.withoutRoot.toBytes P ≠ s.toBytes P ∧
      ∀ order, s'.ledger.accounts.Enumerates order →
        (s'.verifyIntegrity P order = .ok () ↔
          P.blake3 (s'.withoutRoot.toBytes P) = P.blake3 (s.toBytes P)) := by
  constructor
  · intro order horder
    have hsound := (Initial.genesis hgenesis).sound
    obtain ⟨l, -, rfl⟩ := genesis_eq_ok hgenesis
    exact (verifyIntegrity_iff hsound.conserves horder rfl).mpr rfl
  · intro ops op hop s s'
    have hs : Reached P s := ⟨chainId, initialAccounts, now, s₀, ops, hgenesis, rfl⟩
    obtain ⟨hroot, hfront, hledger⟩ := applyOperation_of_roots hop P s
    refine ⟨toBytes_ne_of_root hfront rfl hs.rooted, fun order horder => ?_⟩
    have hconserves : s'.ledger.Conserves := by
      rw [hledger]
      exact hs.sound.conserves
    exact verifyIntegrity_iff hconserves horder hroot

/-- The accounts of the genesis state with one account. -/
def fundedAccounts : List (AccountId × Account) :=
  [(⟨"alice"⟩, Account.withBalance ⟨"alice"⟩ ⟨1000⟩)]

lemma enumerates_fundedAccounts : fundedGenesis.ledger.accounts.Enumerates fundedAccounts := by
  have haccounts : fundedGenesis.ledger.accounts = (∅ : HashMap AccountId Account).insert ⟨"alice"⟩
      (Account.withBalance ⟨"alice"⟩ ⟨1000⟩) := by
    decide +kernel
  rw [haccounts]
  exact HashMap.Enumerates.empty.insert (by decide) _

/-- The check after genesis and an update of the root, on one account. -/
theorem verifyIntegrity_after_rooting_funded :
    fundedGenesis.verifyIntegrity Primitives.toy fundedAccounts = .ok () ∧
      (applyOperation Primitives.toy fundedGenesis .updateStateRoot).withoutRoot.toBytes
        Primitives.toy ≠ fundedGenesis.toBytes Primitives.toy := by
  have hgenesis : genesis Primitives.toy 1 [(⟨"alice"⟩, ⟨1000⟩)] ⟨0⟩ = .ok fundedGenesis := rfl
  obtain ⟨hcheck, hlater⟩ := verifyIntegrity_after_rooting hgenesis
  exact ⟨hcheck _ enumerates_fundedAccounts, (hlater [] .updateStateRoot trivial).1⟩

/-- A state that was rooted after genesis may fail the check. -/
theorem not_verifyIntegrity_after_rooting :
    ¬ ∀ (P : Primitives) (s : LedgerState) (op : Operation) (order : List (AccountId × Account)),
      Reached P s → op.Roots → (applyOperation P s op).ledger.accounts.Enumerates order →
      (applyOperation P s op).verifyIntegrity P order = .ok () := by
  intro h
  have hok := h Primitives.toy fundedGenesis .updateStateRoot fundedAccounts
    reached_fundedGenesis trivial enumerates_fundedAccounts
  revert hok
  decide +kernel

/-! ## Balances and bytes -/

/-- The states differ in some account's balance, or in the set of accounts. -/
def BalancesDiffer (s t : LedgerState) : Prop :=
  ∃ id, (s.ledger.accounts.lookup id).map Account.balance ≠
    (t.ledger.accounts.lookup id).map Account.balance

/-- The bytes of two states reached from genesis are the same iff their written parts are. -/
lemma toBytes_eq_iff (hs : Reached P s) (ht : Reached P t) (hsf : s.Fits P) (htf : t.Fits P) :
    s.toBytes P = t.toBytes P ↔ s.withoutSkipped = t.withoutSkipped := by
  constructor
  · intro heq
    refine toBytes_inj hsf htf ?_ heq
    -- the heights are written in front, and tell whether there is a history
    obtain ⟨hhead, -⟩ := headCodec.encode_append_inj hsf.head htf.head heq
    have hheight : s.metadata.height = t.metadata.height :=
      congrArg (fun p => p.2.2.height) hhead
    rw [hs.sound.history, ht.sound.history, hheight]
  · intro heq
    have hbytes : ∀ u : LedgerState, u.toBytes P = u.withoutSkipped.toBytes P := fun _ => rfl
    rw [hbytes s, hbytes t, heq]

/-- **What the root commits to**: the bytes that are hashed for the roots of two states with
other balances differ iff the states differ also in a part that is written: in the supply, the
configuration, the meter, the metadata, the history or the checkpoints. -/
theorem toBytes_ne_iff (hs : Reached P s) (ht : Reached P t) (hsf : s.Fits P) (htf : t.Fits P) :
    (BalancesDiffer s t → s.toBytes P ≠ t.toBytes P) ↔
      (BalancesDiffer s t → s.withoutSkipped ≠ t.withoutSkipped) := by
  rw [ne_eq, ne_eq, toBytes_eq_iff hs ht hsf htf]

/-- The genesis state with the same supply on another account. -/
def otherGenesis : LedgerState :=
  updateStateRoot Primitives.toy
    { new 1 ⟨0⟩ with ledger := ((createAccounts [(⟨"bob"⟩, ⟨1000⟩)]).run Ledger.new).2 }

lemma reached_otherGenesis : Reached Primitives.toy otherGenesis :=
  ⟨1, [(⟨"bob"⟩, ⟨1000⟩)], ⟨0⟩, otherGenesis, [], rfl, rfl⟩

/-- A genesis state fits. -/
lemma fits_of_empty (hheight : s.metadata.height = 0) (hrecords : s.recentTransactions = [])
    (hcheckpoints : s.checkpoints = []) : s.Fits P where
  head := by
    rw [valid_head_iff, hheight]
    decide
  recentTransactions := by
    rw [hrecords, Codec.valid_list]
    simp
  checkpoints := by
    rw [hcheckpoints, Codec.valid_list]
    simp

lemma balancesDiffer_otherGenesis : BalancesDiffer fundedGenesis otherGenesis :=
  ⟨⟨"alice"⟩, by decide +kernel⟩

/-- Two genesis states with the same supply on different accounts have the same bytes. -/
theorem toBytes_ne_iff_otherGenesis :
    (BalancesDiffer fundedGenesis otherGenesis →
        fundedGenesis.toBytes Primitives.toy ≠ otherGenesis.toBytes Primitives.toy) ↔
      (BalancesDiffer fundedGenesis otherGenesis →
        fundedGenesis.withoutSkipped ≠ otherGenesis.withoutSkipped) :=
  toBytes_ne_iff reached_fundedGenesis reached_otherGenesis (fits_of_empty rfl rfl rfl)
    (fits_of_empty rfl rfl rfl)

/-- The bytes that are hashed do not determine the balances. -/
theorem not_toBytes_ne :
    ¬ ∀ (P : Primitives) (s t : LedgerState), Reached P s → Reached P t → BalancesDiffer s t →
      s.toBytes P ≠ t.toBytes P := by
  intro h
  have hbytes : fundedGenesis.toBytes Primitives.toy = otherGenesis.toBytes Primitives.toy := by
    decide +kernel
  exact h Primitives.toy fundedGenesis otherGenesis reached_fundedGenesis reached_otherGenesis
    balancesDiffer_otherGenesis hbytes

end LedgerState

end QuDAG.Exchange
