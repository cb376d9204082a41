import QuDAG.Exchange.StateRoot

/-!
# Checkpoints and their restoration

What is written of a state and what is read drift apart in two ways: the accounts are never
written, and an empty history is left out although the reader expects one. So a state survives
the round trip only where there is nothing to lose, without accounts, and something to read, with
a history: when transactions were applied, and all of them failed.

## Main definitions

* `LedgerState.SameContents` — the contents that a round trip should keep.
* `LedgerState.RoundTrips` — the state survives the round trip through its bytes and through a
  checkpoint.

## Main results

* `LedgerState.fromBytes_sameContents_iff` — which states survive the round trip through their
  bytes.
* `LedgerState.roundTrips_iff` — the same over all runs, with the checkpoint.
-/

namespace QuDAG.Exchange

open RustStd

namespace LedgerState

variable {P : Primitives} {s s₀ t : LedgerState}

/-- The other state has the same accounts and balances. -/
def SameBalances (s t : LedgerState) : Prop :=
  ∀ id, (t.ledger.accounts.lookup id).map Account.balance =
    (s.ledger.accounts.lookup id).map Account.balance

/-- The other state has the same contents. -/
structure SameContents (s t : LedgerState) : Prop where
  /-- The same accounts and balances. -/
  balances : SameBalances s t
  /-- The same supply. -/
  totalSupply : t.ledger.totalSupply = s.ledger.totalSupply
  /-- The same metadata. -/
  metadata : t.metadata = s.metadata
  /-- The same history. -/
  recentTransactions : t.recentTransactions = s.recentTransactions
  /-- The same checkpoints. -/
  checkpoints : t.checkpoints = s.checkpoints

/-- The state survives the round trip. -/
structure RoundTrips (P : Primitives) (s : LedgerState) : Prop where
  /-- Its bytes are read back as a state with the same contents. -/
  bytes : ∃ t, fromBytes P (s.toBytes P) = some t ∧ SameContents s t
  /-- A checkpoint of it is restored to a ledger with the same balances, which add up. -/
  checkpoint : ∀ now, ∃ t, restoreFromCheckpoint P (s.createCheckpoint P now).1 = some t ∧
    SameBalances s t ∧
    ∀ order, t.ledger.accounts.Enumerates order → t.ledger.checkInvariants order = .ok ()

/-- A state without its skipped parts has the same balances iff there is no account. -/
lemma sameBalances_withoutSkipped_iff :
    SameBalances s s.withoutSkipped ↔ s.ledger.accounts = ∅ := by
  have hempty : ∀ id, s.withoutSkipped.ledger.accounts.lookup id = none := fun id => rfl
  constructor
  · intro h
    refine Finmap.ext_lookup fun id => ?_
    have hid := h id
    rw [hempty, Option.map_none] at hid
    rw [Option.map_eq_none_iff.mp hid.symm, Finmap.lookup_empty]
  · intro h id
    rw [hempty, h, Finmap.lookup_empty]

/-- The bytes of a state are read back with the same contents iff it has no account and has a
history. -/
lemma fromBytes_sameContents_iff (hfits : s.Fits P) :
    (∃ t, fromBytes P (s.toBytes P) = some t ∧ SameContents s t) ↔
      s.ledger.accounts = ∅ ∧ s.recentTransactions ≠ [] := by
  constructor
  · rintro ⟨t, hread, hsame⟩
    have hhistory : s.recentTransactions ≠ [] := by
      intro hnil
      refine fromBytes_toBytes_of_nil hfits hnil hread ?_
      rw [hsame.recentTransactions, hnil]
    rw [fromBytes_toBytes hfits hhistory] at hread
    obtain rfl := Option.some.inj hread
    exact ⟨sameBalances_withoutSkipped_iff.mp hsame.balances, hhistory⟩
  · rintro ⟨haccounts, hhistory⟩
    exact ⟨_, fromBytes_toBytes hfits hhistory,
      sameBalances_withoutSkipped_iff.mpr haccounts, rfl, rfl, rfl, rfl⟩

/-- A state that fits still fits after it was rooted. -/
lemma Fits.updateStateRoot (h : s.Fits P) : (s.updateStateRoot P).Fits P where
  head := valid_head_iff.mpr (show s.metadata.height < 2 ^ 64 from valid_head_iff.mp h.head)
  recentTransactions := h.recentTransactions
  checkpoints := h.checkpoints

/-- A checkpoint of a sound state without accounts is restored to a ledger whose balances add up. -/
lemma restoreFromCheckpoint_createCheckpoint (now : Timestamp) (hsound : s.Sound)
    (hfits : s.Fits P) (haccounts : s.ledger.accounts = ∅) (hhistory : s.recentTransactions ≠ []) :
    ∃ t, restoreFromCheckpoint P (s.createCheckpoint P now).1 = some t ∧ SameBalances s t ∧
      ∀ order, t.ledger.accounts.Enumerates order → t.ledger.checkInvariants order = .ok () := by
  have hread : restoreFromCheckpoint P (s.createCheckpoint P now).1 =
      some (s.updateStateRoot P).withoutSkipped :=
    fromBytes_toBytes hfits.updateStateRoot hhistory
  refine ⟨_, hread, sameBalances_withoutSkipped_iff.mpr haccounts, fun order horder => ?_⟩
  have hzero : (s.updateStateRoot P).withoutSkipped.ledger.sumBalances = 0 := HashMap.sumBy_empty
  refine (Ledger.checkInvariants_iff (by omega) horder).mpr ?_
  have hsum : s.ledger.sumBalances = 0 := by
    unfold Ledger.sumBalances
    rw [haccounts]
    exact HashMap.sumBy_empty
  rw [hzero]
  exact hsum.symm.trans hsound.conserves.sum_eq

/-- **Checkpoints**: a state that operations lead to from a first state survives the round trip
iff it has no account and has a history.

**Proof sketch.** The state that is read has no accounts, whatever the state had. A state without
a history is written without the length of its history; the reader takes the length of the
checkpoints for it. Where both defects are out of the way everything is read back, and the supply
is zero as there are no balances. -/
theorem roundTrips_iff (hinit : Initial P s₀) (ops : List Operation)
    (hfits : (Runs.run (applyOperation P) s₀ ops).Fits P) :
    RoundTrips P (Runs.run (applyOperation P) s₀ ops) ↔
      (Runs.run (applyOperation P) s₀ ops).ledger.accounts = ∅ ∧
        (Runs.run (applyOperation P) s₀ ops).recentTransactions ≠ [] := by
  constructor
  · exact fun h => (fromBytes_sameContents_iff hfits).mp h.bytes
  · intro h
    exact ⟨(fromBytes_sameContents_iff hfits).mpr h, fun now =>
      restoreFromCheckpoint_createCheckpoint now (sound_run hinit ops) hfits h.1 h.2⟩

/-- A failed transaction on a new state. -/
def failedOnly : List Operation := [.applyTransaction strayTransfer ⟨0⟩ ⟨0⟩]

/-- The record of the failed transaction. -/
def failedRecord : TransactionRecord :=
  ⟨strayTransfer.id Primitives.toy, strayTransfer, ⟨0⟩, .failed "Account not found: alice", ⟨5⟩⟩

lemma recentTransactions_failedOnly :
    (Runs.run (applyOperation Primitives.toy) (new 1 ⟨0⟩) failedOnly).recentTransactions =
      [failedRecord] := by
  decide +kernel

lemma valid_failedRecord : TransactionRecord.codec.Valid failedRecord := by
  have htype : TransactionType.codec.Valid strayTransfer.txType := by
    refine ⟨by show 0 < 256 ^ 4; decide, (⟨"alice"⟩, ⟨"bob"⟩, ⟨100⟩), rfl, ?_, rfl⟩
    simp [AccountId.codec]
    decide
  have hresult : TransactionResult.codec.Valid failedRecord.result := by
    refine ⟨by show 1 < 256 ^ 4; decide, "Account not found: alice", rfl, ?_, rfl⟩
    rw [Codec.valid_string]
    decide
  have hmetadata : TransactionMetadata.codec.Valid strayTransfer.metadata :=
    ⟨⟨Codec.valid_option_none _, Codec.valid_u32 _, Codec.valid_u64 _⟩, rfl⟩
  have htransaction : Transaction.codec.Valid strayTransfer :=
    ⟨⟨htype, Nonce.valid_codec _, Timestamp.valid_codec _, RUv.valid_codec _,
      Codec.valid_option_none _, Codec.valid_option_none _, hmetadata⟩, rfl⟩
  exact ⟨⟨Hash.valid_codec _, htransaction, Timestamp.valid_codec _, hresult,
    RUv.valid_codec _⟩, rfl⟩

/-- A new state to which a transaction was applied that failed survives the round trip. -/
theorem roundTrips_failedOnly :
    RoundTrips Primitives.toy
      (Runs.run (applyOperation Primitives.toy) (new 1 ⟨0⟩) failedOnly) := by
  refine (roundTrips_iff (.new 1 ⟨0⟩) failedOnly ⟨?_, ?_, ?_⟩).mpr ⟨?_, ?_⟩
  · rw [valid_head_iff]
    decide +kernel
  · rw [recentTransactions_failedOnly, Codec.valid_list]
    simpa using valid_failedRecord
  · have hnil : (Runs.run (applyOperation Primitives.toy) (new 1 ⟨0⟩) failedOnly).checkpoints =
        [] := by
      decide +kernel
    rw [hnil, Codec.valid_list]
    simp
  · decide +kernel
  · simp [recentTransactions_failedOnly]

/-- A new state is not read back. -/
theorem not_roundTrips :
    ¬ ∀ (P : Primitives) (s₀ : LedgerState) (ops : List Operation), Initial P s₀ →
      (Runs.run (applyOperation P) s₀ ops).Fits P →
      RoundTrips P (Runs.run (applyOperation P) s₀ ops) := by
  intro h
  obtain ⟨t, hread, -⟩ := (h Primitives.toy (new 1 ⟨0⟩) [] (.new 1 ⟨0⟩)
    (fits_of_empty rfl rfl rfl)).bytes
  have hnone : (fromBytes Primitives.toy ((new 1 ⟨0⟩).toBytes Primitives.toy)).isSome = false := by
    decide +kernel
  rw [Runs.run_nil] at hread
  rw [hread] at hnone
  simp at hnone

end LedgerState

end QuDAG.Exchange
