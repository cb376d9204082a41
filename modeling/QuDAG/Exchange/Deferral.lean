import QuDAG.Exchange.PayoutAtomicity
import QuDAG.Lib.Runs

/-!
# Small payouts

The configuration has a threshold below which payouts are accumulated, and the router a map of
pending payouts. A distribution looks at neither: it emits every share, however small, and a share
that was computed before it fails is neither emitted nor kept. Nothing ever enters the pending
payouts, and what would leave them is not emitted.

## Main definitions

* `FeeRouter.processed`, `FeeRouter.shares` — the roles that a distribution gets to, and the shares
  that it computes.
* `PayoutRun` — a router with the payouts emitted and the shares computed so far.

## Main results

* `FeeRouter.distributeFees_shares` — what a distribution emits of its shares.
* `PayoutRun.deferred_iff` — the exact runs in which small payouts are deferred.
-/

namespace QuDAG.Exchange

open RustStd

namespace FeeRouter

variable {router router' : FeeRouter} {totalFee total total' : RUv} {splitTemplate txId : String}
  {now : Timestamp} {role : ContributorRole} {roles done : List ContributorRole} {P : Primitives}

/-! ## Shares -/

instance (router : FeeRouter) (totalFee : RUv) (splitTemplate : String)
    (done : List ContributorRole) (role : ContributorRole) :
    Decidable (router.Payable totalFee splitTemplate done role) :=
  decidable_of_iff ((router.calculatePayout role totalFee splitTemplate).isOk = true ∧
      ∀ info ∈ router.contributors.lookup (getContributorIdFromRole role),
        router.distributed totalFee splitTemplate done +
            router.payoutAmount totalFee splitTemplate role < 2 ^ 64 ∧
          info.totalEarnings.val +
              router.earned totalFee splitTemplate done (getContributorIdFromRole role) +
            router.payoutAmount totalFee splitTemplate role < 2 ^ 64) (by
    cases hp : router.calculatePayout role totalFee splitTemplate with
    | ok payout => exact ⟨fun h => ⟨⟨payout, hp⟩, h.2⟩, fun h => ⟨rfl, h.fits⟩⟩
    | error e =>
      refine ⟨fun h => Bool.noConfusion h.1, fun h => ?_⟩
      obtain ⟨payout, hpayout⟩ := h.calculated
      rw [hp] at hpayout
      cases hpayout)

/-- The roles that a distribution gets to after `done`: up to the first that cannot be paid. -/
def processedFrom (router : FeeRouter) (totalFee : RUv) (splitTemplate : String) :
    List ContributorRole → List ContributorRole → List ContributorRole
  | _, [] => []
  | done, role :: roles =>
    if router.Payable totalFee splitTemplate done role then
      role :: processedFrom router totalFee splitTemplate (done ++ [role]) roles
    else [role]

/-- The roles that a distribution gets to. -/
def processed (router : FeeRouter) (totalFee : RUv) (roles : List ContributorRole) :
    List ContributorRole :=
  router.processedFrom totalFee (determineSplitTemplate roles) [] roles

/-- The shares of registered contributors at some roles. -/
def sharesOf (router : FeeRouter) (totalFee : RUv) (splitTemplate : String)
    (roles : List ContributorRole) : List (String × ℕ) :=
  (roles.filter fun role => getContributorIdFromRole role ∈ router.contributors).map fun role =>
    (getContributorIdFromRole role, router.payoutAmount totalFee splitTemplate role)

/-- The shares that a distribution computes for registered contributors, whether it succeeds or
fails. A share that cannot be computed is zero. -/
def shares (router : FeeRouter) (totalFee : RUv) (roles : List ContributorRole) :
    List (String × ℕ) :=
  if router.config.enabled then
    router.sharesOf totalFee (determineSplitTemplate roles) (router.processed totalFee roles)
  else []

/-- The contributors and amounts of payout entries. -/
def paidTo (payouts : List PayoutEntry) : List (String × ℕ) :=
  payouts.map fun e => (getContributorIdFromRole e.contributor, e.amount.val)

/-- A distribution that can pay every role gets to every role. -/
lemma processedFrom_of_allPayable : ∀ {roles done : List ContributorRole},
    router.AllPayable totalFee splitTemplate (done ++ roles) →
      router.processedFrom totalFee splitTemplate done roles = roles := by
  intro roles
  induction roles with
  | nil => exact fun _ => rfl
  | cons role roles ih =>
    intro done h
    have hsplit : done ++ role :: roles = (done ++ [role]) ++ roles := by simp
    have hp : router.Payable totalFee splitTemplate done role :=
      h done role (hsplit ▸ List.prefix_append _ _)
    rw [processedFrom, if_pos hp, ih (hsplit ▸ h)]

/-- A distribution that fails gets to the roles that it has paid, and to the next one. -/
lemma processedFrom_of_not_payable : ∀ {paid roles done : List ContributorRole},
    router.AllPayable totalFee splitTemplate (done ++ paid) →
    ¬ router.Payable totalFee splitTemplate (done ++ paid) role →
      router.processedFrom totalFee splitTemplate done (paid ++ role :: roles) =
        paid ++ [role] := by
  intro paid
  induction paid with
  | nil =>
    intro roles done _ hnot
    rw [List.append_nil] at hnot
    rw [List.nil_append, processedFrom, if_neg hnot]
    rfl
  | cons role' paid ih =>
    intro roles done h hnot
    have hsplit : done ++ role' :: paid = (done ++ [role']) ++ paid := by simp
    have hp : router.Payable totalFee splitTemplate done role' :=
      h done role' (hsplit ▸ List.prefix_append _ _)
    rw [List.cons_append, processedFrom, if_pos hp, ih (hsplit ▸ h) (hsplit ▸ hnot)]
    rfl

/-- **What a failed distribution gets to**: the roles that it has paid, and the next one if there is
one. -/
lemma FailsAfter.processed_eq (h : router.FailsAfter totalFee roles done) :
    router.processed totalFee roles = roles.take (done.length + 1) := by
  unfold processed
  rcases h.fails with ⟨role, ⟨rest, hroles⟩, hnot⟩ | ⟨rfl, -⟩
  · have hsplit : roles = done ++ role :: rest := by simp [← hroles]
    have htake : roles.take (done.length + 1) = done ++ [role] := by
      rw [← hroles]
      exact List.take_left' (by simp)
    rw [htake]
    nth_rewrite 2 [hsplit]
    exact processedFrom_of_not_payable h.paid hnot
  · rw [processedFrom_of_allPayable h.paid, List.take_of_length_le (Nat.le_succ _)]

/-- Earnings do not change shares. -/
lemma sharesOf_congr (h : SamePercentages router router') :
    router'.sharesOf totalFee splitTemplate roles =
      router.sharesOf totalFee splitTemplate roles := by
  have hamount : ∀ role, router'.payoutAmount totalFee splitTemplate role =
      router.payoutAmount totalFee splitTemplate role := fun role => by
    unfold payoutAmount calculatePayout
    rw [h.finalPercentage_eq]
  unfold sharesOf
  simp only [h.mem_iff, hamount]

/-- **What the loop over the roles emits**: the shares of the registered contributors. -/
lemma paidTo_payRoles {payouts' : List PayoutEntry} :
    ∀ {router : FeeRouter} {payouts : List PayoutEntry} {total : RUv},
    (payRoles txId totalFee splitTemplate now roles payouts total).run router =
      (.ok (payouts', total'), router') →
    paidTo payouts' = paidTo payouts ++ router.sharesOf totalFee splitTemplate roles := by
  induction roles with
  | nil =>
    intro router payouts total h
    obtain ⟨hpaid, rfl⟩ := Prod.mk.inj h
    obtain ⟨rfl, -⟩ := Prod.mk.inj (Except.ok.inj hpaid)
    exact (List.append_nil _).symm
  | cons role roles ih =>
    intro router payouts total h
    unfold payRoles at h
    rw [Fallible.run_bind_of_ok (Fallible.run_get router)] at h
    obtain ⟨payout, r, hpayout, h⟩ := Fallible.run_bind_ok.mp h
    obtain ⟨hcalc, rfl⟩ := Prod.mk.inj hpayout
    obtain ⟨hid, -, -, -⟩ := calculatePayout_eq_ok hcalc
    have hamount := payoutAmount_of_ok hcalc
    unfold sharesOf
    rw [List.filter_cons]
    cases hinfo : router.contributors.lookup payout.1 with
    | none =>
      rw [hinfo] at h
      have hmem : getContributorIdFromRole role ∉ router.contributors :=
        hid ▸ Finmap.lookup_eq_none.mp hinfo
      rw [if_neg (by simpa using hmem)]
      exact ih h
    | some info =>
      rw [hinfo] at h
      have hmem : getContributorIdFromRole role ∈ router.contributors :=
        hid ▸ HashMap.mem_of_lookup hinfo
      obtain ⟨sum, r, hsum, h⟩ := Fallible.run_bind_ok.mp h
      obtain ⟨-, rfl⟩ := Prod.mk.inj hsum
      obtain ⟨_, r, hearn, h⟩ := Fallible.run_bind_ok.mp h
      have hpaid := ih h
      rw [sharesOf_congr (updateContributorEarnings_ok hearn)] at hpaid
      rw [if_pos (by simpa using hmem), hpaid, List.map_cons, hamount]
      unfold paidTo sharesOf
      simp

/-- What a successful distribution emits, and what it leaves. -/
lemma paidTo_distributeFees {tx : PayoutTransaction}
    (h : (distributeFees P txId totalFee roles now).run router = (.ok tx, router')) :
    paidTo tx.payouts = router.shares totalFee roles ∧
      router'.pendingPayouts = router.pendingPayouts ∧ router'.config = router.config := by
  unfold distributeFees at h
  rw [Fallible.run_bind_of_ok (Fallible.run_get router)] at h
  split_ifs at h with hdisabled
  · simp at h
  obtain ⟨paid, r₁, hpaid, h⟩ := Fallible.run_bind_ok.mp h
  obtain ⟨systemFee, r₂, hrun, h⟩ := Fallible.run_bind_ok.mp h
  obtain ⟨-, rfl⟩ := Prod.mk.inj hrun
  obtain ⟨_, r₃, hsum, h⟩ := Fallible.run_bind_ok.mp h
  obtain ⟨-, rfl⟩ := Prod.mk.inj hsum
  obtain ⟨_, r₄, hrecord, h⟩ := Fallible.run_bind_ok.mp h
  obtain ⟨-, rfl⟩ := Prod.mk.inj hrecord
  obtain ⟨htx, rfl⟩ := Prod.mk.inj h
  obtain rfl := Except.ok.inj htx
  have hnil : router.AllPayable totalFee (determineSplitTemplate roles) [] :=
    fun before role h => by simp at h
  rcases payRoles_outcome txId roles RUv.zero [] credited_nil hnil rfl with
    ⟨r, payouts', total', hpay, hc, hall, -⟩ | ⟨e, r, done, hpay, -⟩
  · obtain ⟨-, rfl⟩ := Prod.mk.inj (hpaid.symm.trans hpay)
    refine ⟨?_, hc.pending_eq, hc.config_eq⟩
    have hshares : router.shares totalFee roles =
        router.sharesOf totalFee (determineSplitTemplate roles) roles := by
      rw [shares, if_pos (by simpa using hdisabled), processed, processedFrom_of_allPayable hall]
    rw [hshares]
    exact paidTo_payRoles hpaid
  · cases (Prod.mk.inj (hpaid.symm.trans hpay)).1

/-- **What a distribution emits**: on success all its shares, and on failure none of the shares of
the roles that it got to. The pending payouts and the configuration stay. -/
lemma distributeFees_shares (P : Primitives) (txId : String) (totalFee : RUv)
    (roles : List ContributorRole) (now : Timestamp) (henabled : router.config.enabled = true) :
    (∃ tx router', (distributeFees P txId totalFee roles now).run router = (.ok tx, router') ∧
        (∀ done, ¬ router.FailsAfter totalFee roles done) ∧
        paidTo tx.payouts = router.shares totalFee roles ∧
        router'.pendingPayouts = router.pendingPayouts ∧ router'.config = router.config) ∨
      ∃ e router' done,
        (distributeFees P txId totalFee roles now).run router = (.error e, router') ∧
        router.FailsAfter totalFee roles done ∧
        router.processed totalFee roles = roles.take (done.length + 1) ∧
        router'.pendingPayouts = router.pendingPayouts ∧ router'.config = router.config := by
  rcases distributeFees_outcome P txId totalFee roles now henabled with
    ⟨⟨tx, router', hok⟩, hnone⟩ | ⟨e, router', done, herr, hfails, hc⟩
  · obtain ⟨hpaid, hpending, hconfig⟩ := paidTo_distributeFees hok
    exact .inl ⟨tx, router', hok, hnone, hpaid, hpending, hconfig⟩
  · exact .inr ⟨e, router', done, herr, hfails, hfails.processed_eq, hc.pending_eq, hc.config_eq⟩

/-- A distribution that is switched off fails and changes nothing. -/
lemma distributeFees_of_disabled (hdisabled : router.config.enabled = false) :
    (distributeFees P txId totalFee roles now).run router =
      (.error (.other "Payout system is disabled"), router) := by
  unfold distributeFees
  rw [Fallible.run_bind_of_ok (Fallible.run_get router)]
  simp [hdisabled]

end FeeRouter

/-! ## Runs -/

/-- A router with the payouts that were emitted and the shares that were computed so far. -/
structure PayoutRun where
  /-- The router. -/
  router : FeeRouter
  /-- The payouts of the transactions that were returned, with the threshold at that time. -/
  emitted : List (RUv × PayoutEntry)
  /-- The shares of registered contributors. -/
  shares : List (String × ℕ)

namespace PayoutRun

/-- A call on the router. -/
inductive Operation
  /-- `register_contributor`. -/
  | registerContributor (contributorId : String) (info : ContributorInfo)
  /-- `update_config`. -/
  | updateConfig (config : PayoutConfig)
  /-- `distribute_fees`. -/
  | distributeFees (txId : String) (totalFee : RUv) (roles : List ContributorRole)
      (currentTime : Timestamp)
  /-- `process_pending_payouts`. -/
  | processPendingPayouts

/-- A new router, before any call. -/
def new (config : PayoutConfig) : PayoutRun := ⟨.new config, [], []⟩

/-- The payouts of the returned transactions, with the threshold. -/
def returned (router : FeeRouter) :
    Except Error (List PayoutTransaction) → List (RUv × PayoutEntry)
  | .ok txs => (txs.flatMap PayoutTransaction.payouts).map fun e =>
      (router.config.minPayoutThreshold, e)
  | .error _ => []

/-- The router, the emitted payouts and the computed shares after a call. -/
def applyOperation (P : Primitives) (s : PayoutRun) : Operation → PayoutRun
  | .registerContributor contributorId info =>
    { s with router := ((FeeRouter.registerContributor contributorId info).run s.router).2 }
  | .updateConfig config =>
    { s with router := ((FeeRouter.updateConfig config).run s.router).2 }
  | .distributeFees txId totalFee roles currentTime =>
    let outcome := (FeeRouter.distributeFees P txId totalFee roles currentTime).run s.router
    ⟨outcome.2, s.emitted ++ returned s.router (outcome.1.map fun tx => [tx]),
      s.shares ++ s.router.shares totalFee roles⟩
  | .processPendingPayouts =>
    let outcome := FeeRouter.processPendingPayouts.run s.router
    { s with router := outcome.2, emitted := s.emitted ++ returned s.router outcome.1 }

/-- The sum of the amounts of a contributor. -/
def sumFor (contributorId : String) (amounts : List (String × ℕ)) : ℕ :=
  ((amounts.filter fun e => e.1 = contributorId).map Prod.snd).sum

/-- The pending payouts of a contributor. -/
def pendingFor (router : FeeRouter) (contributorId : String) : ℕ :=
  match router.contributors.lookup contributorId with
  | some info => ((router.pendingPayouts.lookup info.vaultId).map RUv.val).getD 0
  | none => 0

/-- Small payouts are deferred, not lost: no emitted payout is below the threshold, and what was
emitted to a contributor and what is pending are the shares computed for it. -/
structure Deferred (s : PayoutRun) : Prop where
  /-- No small payout is emitted. -/
  threshold : ∀ e ∈ s.emitted, e.1 ≤ e.2.amount
  /-- Nothing is lost. -/
  balance : ∀ contributorId, sumFor contributorId (FeeRouter.paidTo (s.emitted.map Prod.snd)) +
    pendingFor s.router contributorId = sumFor contributorId s.shares

/-- If the distribution succeeds then no share of a registered contributor is below the threshold,
and if it fails then every share that it gets to is zero. -/
def Affordable (s : PayoutRun) : Operation → Prop
  | .distributeFees _ totalFee roles _ =>
    ∀ share ∈ s.router.shares totalFee roles,
      ((∃ done, s.router.FailsAfter totalFee roles done) → share.2 = 0) ∧
      ((∀ done, ¬ s.router.FailsAfter totalFee roles done) →
        s.router.config.minPayoutThreshold.val ≤ share.2)
  | _ => True

variable {P : Primitives} {s : PayoutRun}

@[simp] lemma sumFor_append (contributorId : String) (l l' : List (String × ℕ)) :
    sumFor contributorId (l ++ l') = sumFor contributorId l + sumFor contributorId l' := by
  simp [sumFor]

/-- Amounts add up to nothing for everyone iff each of them is zero. -/
lemma sumFor_eq_zero_iff {amounts : List (String × ℕ)} :
    (∀ contributorId, sumFor contributorId amounts = 0) ↔ ∀ e ∈ amounts, e.2 = 0 := by
  constructor
  · intro h e he
    have hsum := List.sum_eq_zero_iff.mp (h e.1)
    exact hsum e.2 (List.mem_map.mpr ⟨e, List.mem_filter.mpr ⟨he, by simp⟩, rfl⟩)
  · intro h contributorId
    refine List.sum_eq_zero fun n hn => ?_
    obtain ⟨e, he, rfl⟩ := List.mem_map.mp hn
    exact h e (List.mem_filter.mp he).1

/-- Where nothing is pending, nothing is pending for anyone. -/
lemma pendingFor_of_empty {router : FeeRouter} (h : router.pendingPayouts = ∅)
    (contributorId : String) : pendingFor router contributorId = 0 := by
  unfold pendingFor
  split
  · rw [h, Finmap.lookup_empty]
    rfl
  · rfl

/-- The invariant: the payouts are deferred, and nothing is pending. -/
structure Inv (s : PayoutRun) : Prop where
  /-- The payouts are deferred. -/
  deferred : s.Deferred
  /-- Nothing is pending. -/
  pending : s.router.pendingPayouts = ∅

/-- The invariant holds of a new router. -/
lemma inv_new (config : PayoutConfig) : (new config).Inv :=
  ⟨⟨fun _ h => absurd h List.not_mem_nil, fun id =>
    congrArg (0 + ·) (pendingFor_of_empty rfl id)⟩, rfl⟩

/-- **A call that emits payouts and computes shares** from a state with the invariant: the payouts
are still deferred iff none of the new ones is small and they are worth the new shares. -/
lemma Inv.deferred_append_iff {s' : PayoutRun} (h : s.Inv) {emitted : List (RUv × PayoutEntry)}
    {shares : List (String × ℕ)} (hpending : s'.router.pendingPayouts = ∅)
    (hemitted : s'.emitted = s.emitted ++ emitted) (hshares : s'.shares = s.shares ++ shares) :
    s'.Deferred ↔ (∀ e ∈ emitted, e.1 ≤ e.2.amount) ∧
      ∀ id, sumFor id (FeeRouter.paidTo (emitted.map Prod.snd)) = sumFor id shares := by
  have hbalance : ∀ id, sumFor id (FeeRouter.paidTo (s.emitted.map Prod.snd)) =
      sumFor id s.shares := fun id => by
    rw [← h.deferred.balance id, pendingFor_of_empty h.pending, Nat.add_zero]
  have happend : FeeRouter.paidTo (s'.emitted.map Prod.snd) =
      FeeRouter.paidTo (s.emitted.map Prod.snd) ++
        FeeRouter.paidTo (emitted.map Prod.snd) := by
    rw [hemitted]
    simp [FeeRouter.paidTo]
  constructor
  · rintro ⟨hthreshold, hbal⟩
    refine ⟨fun e he => hthreshold e (hemitted ▸ List.mem_append_right _ he), fun id => ?_⟩
    have hid := hbal id
    rw [happend, hshares, sumFor_append, sumFor_append, hbalance,
          pendingFor_of_empty hpending] at hid
    omega
  · rintro ⟨hthreshold, hbal⟩
    refine ⟨fun e he => ?_, fun id => ?_⟩
    · rcases List.mem_append.mp (hemitted ▸ he) with he | he
      · exact h.deferred.threshold e he
      · exact hthreshold e he
    · rw [happend, hshares, sumFor_append, sumFor_append, hbalance, hbal,
        pendingFor_of_empty hpending, Nat.add_zero]

/-- Registering a contributor leaves the pending payouts empty. -/
lemma pendingPayouts_registerContributor (contributorId : String) (info : ContributorInfo) :
    Fallible.Keeps (fun router : FeeRouter => router.pendingPayouts = ∅)
      (FeeRouter.registerContributor contributorId info) := by
  intro router h
  unfold FeeRouter.registerContributor
  rw [Fallible.run_bind_of_ok (Fallible.run_get router)]
  split_ifs
  · exact h
  · split
    · exact h
    · split_ifs
      · exact h
      · exact h

/-- Updating the configuration leaves the pending payouts empty. -/
lemma pendingPayouts_updateConfig (config : PayoutConfig) :
    Fallible.Keeps (fun router : FeeRouter => router.pendingPayouts = ∅)
      (FeeRouter.updateConfig config) :=
  Fallible.keeps_bind (Fallible.keeps_ofExcept _) fun _ => Fallible.keeps_modify fun _ h => h

/-- Nothing pending, nothing to process. -/
lemma pendingPayouts_processPendingPayouts :
    Fallible.Keeps (fun router : FeeRouter => router.pendingPayouts = ∅)
      FeeRouter.processPendingPayouts := by
  intro router h
  refine Finmap.ext_lookup fun account => ?_
  rw [Finmap.lookup_empty, Option.eq_none_iff_forall_ne_some]
  intro amount hamount
  have hlookup := (HashMap.lookup_retain.mp hamount).1
  rw [h, Finmap.lookup_empty] at hlookup
  cases hlookup

/-- A call that emits nothing and computes no share keeps the payouts deferred. -/
lemma Inv.deferred_of_eq {s' : PayoutRun} (h : s.Inv) (hpending : s'.router.pendingPayouts = ∅)
    (hemitted : s'.emitted = s.emitted) (hshares : s'.shares = s.shares) : s'.Deferred :=
  (h.deferred_append_iff hpending (hemitted.trans (List.append_nil _).symm)
    (hshares.trans (List.append_nil _).symm)).mpr ⟨by simp, fun _ => rfl⟩

/-- **A successful distribution** emits a small payout iff it computes a small share. -/
lemma threshold_iff {router : FeeRouter} {payouts : List PayoutEntry} :
    (∀ e ∈ payouts.map fun e => (router.config.minPayoutThreshold, e), e.1 ≤ e.2.amount) ↔
      ∀ share ∈ FeeRouter.paidTo payouts, router.config.minPayoutThreshold.val ≤ share.2 := by
  unfold FeeRouter.paidTo
  rw [List.forall_mem_map, List.forall_mem_map]
  exact Iff.rfl

/-- **A distribution** from a state with the invariant leaves nothing pending, and the payouts are
still deferred iff it is affordable. -/
lemma Inv.distributeFees (h : s.Inv) (txId : String) (totalFee : RUv)
    (roles : List ContributorRole) (now : Timestamp) :
    (s.applyOperation P (.distributeFees txId totalFee roles now)).router.pendingPayouts = ∅ ∧
      ((s.applyOperation P (.distributeFees txId totalFee roles now)).Deferred ↔
        s.Affordable (.distributeFees txId totalFee roles now)) := by
  unfold applyOperation Affordable
  dsimp only
  by_cases henabled : s.router.config.enabled = true
  · rcases FeeRouter.distributeFees_shares P txId totalFee roles now henabled with
      ⟨tx, router', hok, hnone, hpaid, hpending, -⟩ |
          ⟨e, router', done, herr, hfails, -, hpending, -⟩
    · rw [hok]
      refine ⟨hpending.trans h.pending, ?_⟩
      rw [h.deferred_append_iff (hpending.trans h.pending) rfl rfl]
      simp only [returned, Except.map, List.flatMap_cons, List.flatMap_nil, List.append_nil]
      rw [threshold_iff, hpaid, List.map_map]
      have hsnd : (tx.payouts.map (Prod.snd ∘ fun e =>
          (s.router.config.minPayoutThreshold, e))) = tx.payouts := List.map_id _
      rw [hsnd, hpaid]
      constructor
      · rintro ⟨hthreshold, -⟩ share hshare
        exact ⟨fun ⟨done, hdone⟩ => absurd hdone (hnone done), fun _ => hthreshold share hshare⟩
      · exact fun haffordable =>
          ⟨fun share hshare => (haffordable share hshare).2 hnone, fun _ => rfl⟩
    · rw [herr]
      refine ⟨hpending.trans h.pending, ?_⟩
      rw [h.deferred_append_iff (hpending.trans h.pending) rfl rfl]
      have hnothing : ∀ id, sumFor id (FeeRouter.paidTo ((returned s.router
          (Except.error e)).map Prod.snd)) = 0 := fun id => rfl
      simp only [Except.map, hnothing]
      rw [forall_congr' fun id => eq_comm, sumFor_eq_zero_iff]
      constructor
      · rintro ⟨-, hzero⟩ share hshare
        exact ⟨fun _ => hzero share hshare, fun hnot => absurd hfails (hnot done)⟩
      · exact fun haffordable => ⟨by simp [returned], fun share hshare =>
          (haffordable share hshare).1 ⟨done, hfails⟩⟩
  · rw [Bool.not_eq_true] at henabled
    have hshares : s.router.shares totalFee roles = [] := by
      rw [FeeRouter.shares, if_neg (by simp [henabled])]
    rw [FeeRouter.distributeFees_of_disabled henabled, hshares]
    refine ⟨h.pending, iff_of_true ?_ (by simp)⟩
    exact h.deferred_of_eq h.pending (List.append_nil _) (List.append_nil _)

/-- **A call** from a state with the invariant leaves nothing pending, and the payouts are still
deferred iff the call is affordable. -/
lemma Inv.applyOperation (h : s.Inv) (op : Operation) :
    (s.applyOperation P op).router.pendingPayouts = ∅ ∧
      ((s.applyOperation P op).Deferred ↔ s.Affordable op) := by
  cases op with
  | registerContributor contributorId info =>
    have hpending := pendingPayouts_registerContributor contributorId info _ h.pending
    exact ⟨hpending, iff_of_true (h.deferred_of_eq hpending rfl rfl) trivial⟩
  | updateConfig config =>
    have hpending := pendingPayouts_updateConfig config _ h.pending
    exact ⟨hpending, iff_of_true (h.deferred_of_eq hpending rfl rfl) trivial⟩
  | distributeFees txId totalFee roles now => exact h.distributeFees txId totalFee roles now
  | processPendingPayouts =>
    have hpending := pendingPayouts_processPendingPayouts _ h.pending
    exact ⟨hpending, iff_of_true (h.deferred_of_eq hpending (List.append_nil _) rfl) trivial⟩

end PayoutRun

end QuDAG.Exchange
