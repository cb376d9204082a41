import Mathlib.Algebra.Order.BigOperators.Group.List
import QuDAG.Exchange.Payout

/-!
# What a failed distribution leaves behind

A distribution pays the roles of a job one after the other, and each payment is credited to its
contributor at once. If a later role cannot be paid, or the system fee cannot, the distribution
fails and the credits stay: there is a payment without a payout transaction in the history.

## Main definitions

* `FeeRouter.Payable` — the role can be paid after those before it.
* `FeeRouter.FailsAfter` — the distribution fails after paying some roles.
* `FeeRouter.SameAccounts` — no earnings, pending payout or history has changed.

## Main results

* `FeeRouter.distributeFees_outcome` — where a distribution fails, and what it has credited by then.
* `FeeRouter.distributeFees_sameAccounts_iff` — when a failure changes nothing.

## Implementation notes

Whether a role can be paid is said of the router before the distribution: payments change no
percentage, and what they add to the earnings of a contributor is a sum over the roles paid.
-/

namespace QuDAG.Exchange

open RustStd

namespace RUv

/-- A sum that fits is the exact sum. -/
lemma add_of_lt {a b : RUv} (h : a.val + b.val < 2 ^ 64) :
    ∃ c, a.add b = .ok c ∧ c.val = a.val + b.val := by
  obtain ⟨c, hc⟩ := exists_val h
  refine ⟨c, ?_, hc⟩
  rw [add, checkedAdd_eq_some.mpr hc]

/-- A sum that does not fit is an error. -/
lemma add_of_le {a b : RUv} (h : 2 ^ 64 ≤ a.val + b.val) :
    a.add b = .error "rUv addition overflow" := by
  rw [add, checkedAdd_eq_none.mpr h]

end RUv

namespace FeeRouter

/-- The amount that a role is paid, zero where there is none. -/
def payoutAmount (router : FeeRouter) (totalFee : RUv) (splitTemplate : String)
    (role : ContributorRole) : ℕ :=
  match router.calculatePayout role totalFee splitTemplate with
  | .ok payout => payout.2.1.val
  | .error _ => 0

/-- What a list of roles is paid in total: only registered contributors are paid. -/
def distributed (router : FeeRouter) (totalFee : RUv) (splitTemplate : String)
    (roles : List ContributorRole) : ℕ :=
  ((roles.filter fun role => getContributorIdFromRole role ∈ router.contributors).map
    (router.payoutAmount totalFee splitTemplate)).sum

/-- What a list of roles pays to one contributor. -/
def earned (router : FeeRouter) (totalFee : RUv) (splitTemplate : String)
    (roles : List ContributorRole) (contributorId : String) : ℕ :=
  ((roles.filter fun role => getContributorIdFromRole role = contributorId).map
    (router.payoutAmount totalFee splitTemplate)).sum

/-- The role can be paid after the roles before it: it has a payout, and if its contributor is
registered then neither the total nor the contributor's earnings overflow. -/
structure Payable (router : FeeRouter) (totalFee : RUv) (splitTemplate : String)
    (done : List ContributorRole) (role : ContributorRole) : Prop where
  calculated : ∃ payout, router.calculatePayout role totalFee splitTemplate = .ok payout
  fits : ∀ info, router.contributors.lookup (getContributorIdFromRole role) = some info →
    router.distributed totalFee splitTemplate done +
        router.payoutAmount totalFee splitTemplate role < 2 ^ 64 ∧
      info.totalEarnings.val +
          router.earned totalFee splitTemplate done (getContributorIdFromRole role) +
        router.payoutAmount totalFee splitTemplate role < 2 ^ 64

/-- Every role of the list can be paid after those before it. -/
def AllPayable (router : FeeRouter) (totalFee : RUv) (splitTemplate : String)
    (done : List ContributorRole) : Prop :=
  ∀ before role, before ++ [role] <+: done → router.Payable totalFee splitTemplate before role

/-- The system fee is a share of the fee and fits into the total. -/
def SystemFeePayable (router : FeeRouter) (totalFee : RUv) (splitTemplate : String)
    (roles : List ContributorRole) : Prop :=
  ∃ systemFee, totalFee.multiply router.config.systemFeePercentage = .ok systemFee ∧
    router.distributed totalFee splitTemplate roles + systemFee.val < 2 ^ 64

/-- The distribution fails after paying `done`: at the next role, or at the system fee. -/
structure FailsAfter (router : FeeRouter) (totalFee : RUv) (roles done : List ContributorRole) :
    Prop where
  paid : router.AllPayable totalFee (determineSplitTemplate roles) done
  fails : (∃ role, done ++ [role] <+: roles ∧
      ¬ router.Payable totalFee (determineSplitTemplate roles) done role) ∨
    (done = roles ∧ ¬ router.SystemFeePayable totalFee (determineSplitTemplate roles) roles)

/-- The earnings and last payouts of all contributors, the pending payouts and the history are
the same. -/
def SameAccounts (router router' : FeeRouter) : Prop :=
  (∀ id, (router'.contributors.lookup id).map (fun info => (info.totalEarnings, info.lastPayout)) =
    (router.contributors.lookup id).map fun info => (info.totalEarnings, info.lastPayout)) ∧
  router'.pendingPayouts = router.pendingPayouts ∧ router'.payoutHistory = router.payoutHistory

/-- What paying the roles `done` has made of a router. -/
structure Credited (base : FeeRouter) (totalFee : RUv) (splitTemplate : String) (now : Timestamp)
    (done : List ContributorRole) (router : FeeRouter) : Prop where
  config_eq : router.config = base.config
  pending_eq : router.pendingPayouts = base.pendingPayouts
  history_eq : router.payoutHistory = base.payoutHistory
  none_of_none : ∀ id, base.contributors.lookup id = none → router.contributors.lookup id = none
  some_of_some : ∀ id info, base.contributors.lookup id = some info →
    ∃ info', router.contributors.lookup id = some info' ∧
      info'.customPercentage = info.customPercentage ∧
      info'.totalEarnings.val =
        info.totalEarnings.val + base.earned totalFee splitTemplate done id ∧
      info'.lastPayout =
        if id ∈ done.map getContributorIdFromRole then some now else info.lastPayout

variable {base router router' : FeeRouter} {totalFee total : RUv} {splitTemplate txId : String}
  {now : Timestamp} {role : ContributorRole} {roles done : List ContributorRole} {P : Primitives}

/-! ## One role -/

lemma payoutAmount_of_ok {payout : String × RUv × ℚ}
    (h : router.calculatePayout role totalFee splitTemplate = .ok payout) :
    router.payoutAmount totalFee splitTemplate role = payout.2.1.val := by
  rw [payoutAmount, h]

lemma distributed_append (router : FeeRouter) (totalFee : RUv) (splitTemplate : String)
    (done : List ContributorRole) (role : ContributorRole) :
    router.distributed totalFee splitTemplate (done ++ [role]) =
      router.distributed totalFee splitTemplate done +
        if getContributorIdFromRole role ∈ router.contributors then
          router.payoutAmount totalFee splitTemplate role else 0 := by
  unfold distributed
  rw [List.filter_append, List.map_append, List.sum_append]
  split_ifs with hmem
  · simp [hmem]
  · simp [hmem]

lemma earned_append (router : FeeRouter) (totalFee : RUv) (splitTemplate : String)
    (done : List ContributorRole) (role : ContributorRole) (id : String) :
    router.earned totalFee splitTemplate (done ++ [role]) id =
      router.earned totalFee splitTemplate done id +
        if getContributorIdFromRole role = id then
          router.payoutAmount totalFee splitTemplate role else 0 := by
  unfold earned
  rw [List.filter_append, List.map_append, List.sum_append]
  split_ifs with hid
  · simp [hid]
  · simp [hid]

/-- Before any payment the router is credited with nothing. -/
lemma credited_nil : Credited router totalFee splitTemplate now [] router where
  config_eq := rfl
  pending_eq := rfl
  history_eq := rfl
  none_of_none _ h := h
  some_of_some _ info h := ⟨info, h, rfl, rfl, rfl⟩

namespace Credited

variable (h : Credited base totalFee splitTemplate now done router)

include h

/-- Payments change no percentage. -/
lemma samePercentages : SamePercentages base router := by
  refine ⟨h.config_eq, fun id => ?_⟩
  cases hid : base.contributors.lookup id with
  | none => rw [h.none_of_none id hid]
  | some info =>
    obtain ⟨info', hinfo', hcustom, -⟩ := h.some_of_some id info hid
    rw [hinfo', Option.map_some, Option.map_some, hcustom]

/-- Payments change no payout that is still to come. -/
lemma calculatePayout_eq (role : ContributorRole) :
    router.calculatePayout role totalFee splitTemplate =
      base.calculatePayout role totalFee splitTemplate := by
  unfold calculatePayout
  rw [h.samePercentages.finalPercentage_eq]

/-- A role whose contributor is not registered is credited nothing. -/
lemma append_of_none (hrole : base.contributors.lookup (getContributorIdFromRole role) = none) :
    Credited base totalFee splitTemplate now (done ++ [role]) router where
  config_eq := h.config_eq
  pending_eq := h.pending_eq
  history_eq := h.history_eq
  none_of_none := h.none_of_none
  some_of_some id info hid := by
    obtain ⟨info', hinfo', hcustom, hearn, hlast⟩ := h.some_of_some id info hid
    have hne : getContributorIdFromRole role ≠ id := by
      intro heq
      rw [heq, hid] at hrole
      cases hrole
    refine ⟨info', hinfo', hcustom, ?_, ?_⟩
    · rw [earned_append, if_neg hne, hearn, Nat.add_zero]
    · rw [hlast]
      simp [Ne.symm hne]

/-- The credit of a role whose contributor is registered. -/
lemma append_of_some {info : ContributorInfo} {totalEarnings : RUv}
    (hinfo : router.contributors.lookup (getContributorIdFromRole role) = some info)
    (hsum : totalEarnings.val =
      info.totalEarnings.val + base.payoutAmount totalFee splitTemplate role) :
    Credited base totalFee splitTemplate now (done ++ [role])
      (router.insertContributor (getContributorIdFromRole role) (info.earn totalEarnings now)) where
  config_eq := h.config_eq
  pending_eq := h.pending_eq
  history_eq := h.history_eq
  none_of_none id hid := by
    show (router.contributors.insert _ _).lookup id = none
    rw [HashMap.lookup_insert_ite]
    split_ifs with heq
    · rw [← heq, h.none_of_none id hid] at hinfo
      cases hinfo
    · exact h.none_of_none id hid
  some_of_some id info₀ hid := by
    obtain ⟨info', hinfo', hcustom, hearn, hlast⟩ := h.some_of_some id info₀ hid
    show ∃ info', (router.contributors.insert _ _).lookup id = some info' ∧ _
    rw [HashMap.lookup_insert_ite, earned_append]
    by_cases heq : id = getContributorIdFromRole role
    · subst heq
      obtain rfl : info' = info := Option.some.inj (hinfo'.symm.trans hinfo)
      rw [if_pos rfl, if_pos rfl]
      refine ⟨_, rfl, hcustom, ?_, by simp [ContributorInfo.earn]⟩
      show totalEarnings.val = _
      rw [hsum, hearn, Nat.add_assoc]
    · rw [if_neg heq, if_neg (Ne.symm heq), Nat.add_zero]
      refine ⟨info', hinfo', hcustom, hearn, ?_⟩
      rw [hlast]
      simp [heq]

/-- If the payments so far were all of nothing, at the time of the last payout, they changed
nothing. -/
lemma sameAccounts (hunchanged : ∀ role ∈ done, ∀ info,
      base.contributors.lookup (getContributorIdFromRole role) = some info →
      base.payoutAmount totalFee splitTemplate role = 0 ∧ info.lastPayout = some now) :
    SameAccounts base router := by
  refine ⟨fun id => ?_, h.pending_eq, h.history_eq⟩
  cases hid : base.contributors.lookup id with
  | none => rw [h.none_of_none id hid]
  | some info =>
    obtain ⟨info', hinfo', -, hearn, hlast⟩ := h.some_of_some id info hid
    have hnothing : base.earned totalFee splitTemplate done id = 0 := by
      refine List.sum_eq_zero fun amount hamount => ?_
      obtain ⟨role, hrole, rfl⟩ := List.mem_map.mp hamount
      obtain ⟨hmem, hrid⟩ := List.mem_filter.mp hrole
      exact (hunchanged role hmem info (by rw [of_decide_eq_true hrid, hid])).1
    have hlast' : info'.lastPayout = info.lastPayout := by
      rw [hlast]
      split_ifs with hmem
      · obtain ⟨role, hrole, hrid⟩ := List.mem_map.mp hmem
        exact (hunchanged role hrole info (by rw [hrid, hid])).2.symm
      · rfl
    have hearn' : info'.totalEarnings = info.totalEarnings :=
      RUv.ext_val (by rw [hearn, hnothing, Nat.add_zero])
    rw [hinfo', Option.map_some, Option.map_some, hearn', hlast']

/-- If the payments so far changed nothing, they were all of nothing, at the time of the last
payout. -/
lemma unchanged_of_sameAccounts (hsame : SameAccounts base router) (hrole : role ∈ done)
    {info : ContributorInfo}
    (hinfo : base.contributors.lookup (getContributorIdFromRole role) = some info) :
    base.payoutAmount totalFee splitTemplate role = 0 ∧ info.lastPayout = some now := by
  obtain ⟨info', hinfo', -, hearn, hlast⟩ := h.some_of_some _ info hinfo
  have haccount := hsame.1 (getContributorIdFromRole role)
  rw [hinfo', hinfo, Option.map_some, Option.map_some] at haccount
  obtain ⟨hsameEarn, hsameLast⟩ := Prod.mk.inj (Option.some.inj haccount)
  constructor
  · have hnothing :
        base.earned totalFee splitTemplate done (getContributorIdFromRole role) = 0 := by
      rw [hsameEarn] at hearn
      omega
    refine Nat.le_zero.mp (hnothing ▸ List.single_le_sum (by simp) _ ?_)
    exact List.mem_map.mpr ⟨role, List.mem_filter.mpr ⟨hrole, by simp⟩, rfl⟩
  · rw [hsameLast, if_pos (List.mem_map.mpr ⟨role, hrole, rfl⟩)] at hlast
    exact hlast

end Credited

/-! ## The loop over the roles -/

/-- The earnings of a registered contributor go up, or overflow and stay. -/
lemma run_updateContributorEarnings (amount : RUv) (now : Timestamp) {contributorId : String}
    {info : ContributorInfo} (hinfo : router.contributors.lookup contributorId = some info) :
    (2 ^ 64 ≤ info.totalEarnings.val + amount.val ∧
      ∃ e, (updateContributorEarnings contributorId amount now).run router = (.error e, router)) ∨
    ∃ totalEarnings, totalEarnings.val = info.totalEarnings.val + amount.val ∧
      (updateContributorEarnings contributorId amount now).run router =
        (.ok (), router.insertContributor contributorId (info.earn totalEarnings now)) := by
  unfold updateContributorEarnings
  rw [Fallible.run_bind_of_ok (Fallible.run_get router), hinfo]
  rcases Nat.lt_or_ge (info.totalEarnings.val + amount.val) (2 ^ 64) with hlt | hle
  · obtain ⟨totalEarnings, hadd, hval⟩ := RUv.add_of_lt hlt
    refine .inr ⟨totalEarnings, hval, ?_⟩
    simp only [hadd]
    rfl
  · refine .inl ⟨hle, .other "rUv addition overflow", ?_⟩
    simp only [RUv.add_of_le hle]
    rfl

/-- A role that can be paid is paid, and the loop goes on. -/
lemma run_payRoles_of_payable (hc : Credited base totalFee splitTemplate now done router)
    (hp : base.Payable totalFee splitTemplate done role)
    (htotal : total.val = base.distributed totalFee splitTemplate done)
    (payouts : List PayoutEntry) :
    ∃ router' payouts' total', (payRoles txId totalFee splitTemplate now (role :: roles) payouts
        total).run router =
      (payRoles txId totalFee splitTemplate now roles payouts' total').run router' ∧
      Credited base totalFee splitTemplate now (done ++ [role]) router' ∧
      total'.val = base.distributed totalFee splitTemplate (done ++ [role]) := by
  obtain ⟨payout, hpayout⟩ := hp.calculated
  have hid := (calculatePayout_eq_ok hpayout).1
  have hamount := payoutAmount_of_ok hpayout
  conv in payRoles txId totalFee splitTemplate now (role :: roles) payouts total => unfold payRoles
  rw [Fallible.run_bind_of_ok (Fallible.run_get router), hc.calculatePayout_eq role, hpayout,
    Fallible.run_bind_of_ok (Fallible.run_ofExcept (.ok payout) router), hid, distributed_append]
  cases hinfo : base.contributors.lookup (getContributorIdFromRole role) with
  | none =>
    rw [hc.none_of_none _ hinfo, if_neg (Finmap.lookup_eq_none.mp hinfo), Nat.add_zero]
    exact ⟨router, payouts, total, rfl, hc.append_of_none hinfo, htotal⟩
  | some info =>
    obtain ⟨hfits, hearn⟩ := hp.fits info hinfo
    obtain ⟨info', hinfo', -, hearn', -⟩ := hc.some_of_some _ info hinfo
    rw [hinfo', if_pos (HashMap.mem_of_lookup hinfo)]
    obtain ⟨total', hadd, htotal'⟩ := RUv.add_of_lt (a := total) (b := payout.2.1)
      (by rw [htotal, ← hamount]; exact hfits)
    simp only [hadd]
    rw [Fallible.run_bind_of_ok (Fallible.run_ofExcept (ofText (.ok total')) router)]
    rcases run_updateContributorEarnings payout.2.1 now hinfo' with
      ⟨hle, -⟩ | ⟨totalEarnings, hval, hrun⟩
    · rw [hearn', ← hamount] at hle
      omega
    · rw [Fallible.run_bind_of_ok hrun]
      refine ⟨_, _, total', rfl, hc.append_of_some hinfo' (hamount ▸ hval), ?_⟩
      rw [htotal', htotal, hamount]

/-- At a role that cannot be paid the loop fails and changes nothing more. -/
lemma run_payRoles_of_not_payable (hc : Credited base totalFee splitTemplate now done router)
    (hp : ¬ base.Payable totalFee splitTemplate done role)
    (htotal : total.val = base.distributed totalFee splitTemplate done)
    (payouts : List PayoutEntry) :
    ∃ e, (payRoles txId totalFee splitTemplate now (role :: roles) payouts total).run router =
      (.error e, router) := by
  unfold payRoles
  rw [Fallible.run_bind_of_ok (Fallible.run_get router), hc.calculatePayout_eq role]
  cases hpayout : base.calculatePayout role totalFee splitTemplate with
  | error e => exact ⟨e, rfl⟩
  | ok payout =>
    have hid := (calculatePayout_eq_ok hpayout).1
    have hamount := payoutAmount_of_ok hpayout
    rw [Fallible.run_bind_of_ok (Fallible.run_ofExcept (.ok payout) router), hid]
    cases hinfo : base.contributors.lookup (getContributorIdFromRole role) with
    | none => exact absurd ⟨⟨payout, hpayout⟩, fun info h => by simp [hinfo] at h⟩ hp
    | some info =>
      obtain ⟨info', hinfo', -, hearn', -⟩ := hc.some_of_some _ info hinfo
      rw [hinfo']
      rcases Nat.lt_or_ge (total.val + payout.2.1.val) (2 ^ 64) with hlt | hle
      · obtain ⟨total', hadd, -⟩ := RUv.add_of_lt hlt
        simp only [hadd]
        rw [Fallible.run_bind_of_ok (Fallible.run_ofExcept (ofText (.ok total')) router)]
        rcases run_updateContributorEarnings payout.2.1 now hinfo' with
          ⟨-, e, hrun⟩ | ⟨totalEarnings, hval, -⟩
        · exact ⟨e, Fallible.run_bind_of_error hrun⟩
        · refine absurd ⟨⟨payout, hpayout⟩, fun info₀ h => ?_⟩ hp
          obtain rfl : info₀ = info := Option.some.inj (h.symm.trans hinfo)
          have hlt' := totalEarnings.val_lt
          rw [hamount]
          omega
      · exact ⟨.other "rUv addition overflow", by simp only [RUv.add_of_le hle]; rfl⟩

/-- Roles that can all be paid, and one more. -/
lemma AllPayable.append (h : base.AllPayable totalFee splitTemplate done)
    (hp : base.Payable totalFee splitTemplate done role) :
    base.AllPayable totalFee splitTemplate (done ++ [role]) := by
  intro before role' hbefore
  rcases List.prefix_concat_iff.mp hbefore with heq | hshort
  · obtain ⟨rfl, hrole⟩ := List.append_inj' heq rfl
    obtain rfl : role' = role := by simpa using hrole
    exact hp
  · exact h before role' hshort

/-- **The loop over the roles** pays them all, or fails at the first that cannot be paid.

**Proof sketch.** Induction on the roles that are left. The router and the total are those of the
payments so far, so the next role can be paid iff it can be paid after the roles done, as judged
by the router before the distribution. -/
lemma payRoles_outcome (txId : String) (roles : List ContributorRole) :
    ∀ {done : List ContributorRole} {router : FeeRouter} (total : RUv)
    (payouts : List PayoutEntry), Credited base totalFee splitTemplate now done router →
    base.AllPayable totalFee splitTemplate done →
    total.val = base.distributed totalFee splitTemplate done →
    (∃ router' payouts' total', (payRoles txId totalFee splitTemplate now roles payouts total).run
        router = (.ok (payouts', total'), router') ∧
      Credited base totalFee splitTemplate now (done ++ roles) router' ∧
      base.AllPayable totalFee splitTemplate (done ++ roles) ∧
      total'.val = base.distributed totalFee splitTemplate (done ++ roles)) ∨
    ∃ e router' done', (payRoles txId totalFee splitTemplate now roles payouts total).run router =
        (.error e, router') ∧ Credited base totalFee splitTemplate now done' router' ∧
      base.AllPayable totalFee splitTemplate done' ∧
      ∃ role, done' ++ [role] <+: done ++ roles ∧
        ¬ base.Payable totalFee splitTemplate done' role := by
  induction roles with
  | nil =>
    intro done router total payouts hc hall htotal
    rw [List.append_nil]
    exact .inl ⟨router, payouts, total, rfl, hc, hall, htotal⟩
  | cons role roles ih =>
    intro done router total payouts hc hall htotal
    have hassoc : done ++ role :: roles = done ++ [role] ++ roles := by simp
    by_cases hp : base.Payable totalFee splitTemplate done role
    · obtain ⟨router', payouts', total', hrun, hc', htotal'⟩ :=
        run_payRoles_of_payable hc hp htotal payouts
      rw [hrun, hassoc]
      exact ih total' payouts' hc' (hall.append hp) htotal'
    · obtain ⟨e, hrun⟩ := run_payRoles_of_not_payable hc hp htotal payouts
      refine .inr ⟨e, router, done, hrun, hc, hall, role, ?_, hp⟩
      rw [hassoc]
      exact List.prefix_append _ _

/-! ## The whole distribution -/

/-- A distribution fails after at most one list of roles. -/
lemma FailsAfter.unique {done' : List ContributorRole}
    (h : base.FailsAfter totalFee roles done) (h' : base.FailsAfter totalFee roles done') :
    done = done' := by
  have hshort : ∀ {d d' : List ContributorRole}, base.FailsAfter totalFee roles d →
      base.FailsAfter totalFee roles d' → d.length ≤ d'.length → d = d' := by
    intro d d' hd hd' hle
    have hd'roles : d' <+: roles := by
      rcases hd'.fails with ⟨role, hrole, -⟩ | ⟨rfl, -⟩
      · exact (List.prefix_append _ _).trans hrole
      · exact List.prefix_refl _
    rcases hd.fails with ⟨role, hrole, hnot⟩ | ⟨rfl, -⟩
    · by_contra hne
      have hlt : d.length < d'.length := by
        refine lt_of_le_of_ne hle fun hlen => hne ?_
        have hdroles : d <+: roles := (List.prefix_append d [role]).trans hrole
        exact (List.prefix_of_prefix_length_le hdroles hd'roles hle).eq_of_length hlen
      exact hnot (hd'.paid d role (List.prefix_of_prefix_length_le hrole hd'roles (by simpa)))
    · exact (hd'roles.eq_of_length_le hle).symm
  rcases Nat.le_total done.length done'.length with hle | hle
  · exact hshort h h' hle
  · exact (hshort h' h hle).symm

/-- **Where a distribution fails**: it succeeds and there is no point where it fails, or it fails
having credited the roles before that point. -/
lemma distributeFees_outcome (P : Primitives) (txId : String) (totalFee : RUv)
    (roles : List ContributorRole) (now : Timestamp) (henabled : base.config.enabled = true) :
    ((∃ tx router', (distributeFees P txId totalFee roles now).run base = (.ok tx, router')) ∧
      ∀ done, ¬ base.FailsAfter totalFee roles done) ∨
    ∃ e router' done, (distributeFees P txId totalFee roles now).run base = (.error e, router') ∧
      base.FailsAfter totalFee roles done ∧
      Credited base totalFee (determineSplitTemplate roles) now done router' := by
  unfold distributeFees
  rw [Fallible.run_bind_of_ok (Fallible.run_get base)]
  simp only [henabled, Bool.not_true, Bool.false_eq_true, if_false]
  have hnil : base.AllPayable totalFee (determineSplitTemplate roles) [] :=
    fun before role h => by simp at h
  rcases payRoles_outcome txId roles RUv.zero [] credited_nil hnil rfl with
    ⟨router', payouts, total', hpay, hc, hall, htotal⟩ | ⟨e, router', done, hpay, hc, hall, hfails⟩
  · rw [Fallible.run_bind_of_ok hpay]
    rw [List.nil_append] at hc hall htotal
    by_cases hfee : base.SystemFeePayable totalFee (determineSplitTemplate roles) roles
    · obtain ⟨systemFee, hmultiply, hfits⟩ := hfee
      obtain ⟨sum, hadd, -⟩ := RUv.add_of_lt (a := total') (b := systemFee) (htotal ▸ hfits)
      refine .inl ⟨?_, fun done hdone => ?_⟩
      · simp only [hmultiply]
        rw [Fallible.run_bind_of_ok (Fallible.run_ofExcept (ofText (.ok systemFee)) router')]
        simp only [hadd]
        exact ⟨_, _, rfl⟩
      · rcases hdone.fails with ⟨role, hrole, hnot⟩ | ⟨-, hnot⟩
        · exact hnot (hall done role hrole)
        · exact hnot ⟨systemFee, hmultiply, hfits⟩
    · have hfails : base.FailsAfter totalFee roles roles := ⟨hall, .inr ⟨rfl, hfee⟩⟩
      cases hmultiply : totalFee.multiply base.config.systemFeePercentage with
      | error e => exact .inr ⟨.other e, router', roles, rfl, hfails, hc⟩
      | ok systemFee =>
        have hle : 2 ^ 64 ≤ total'.val + systemFee.val := by
          rw [htotal]
          exact Nat.le_of_not_lt fun hlt => hfee ⟨systemFee, hmultiply, hlt⟩
        refine .inr ⟨.other "rUv addition overflow", router', roles, ?_, hfails, hc⟩
        rw [Fallible.run_bind_of_ok (Fallible.run_ofExcept (ofText (.ok systemFee)) router')]
        simp only [RUv.add_of_le hle]
        rfl
  · rw [List.nil_append] at hfails
    exact .inr ⟨e, router', done, Fallible.run_bind_of_error hpay, ⟨hall, .inl hfails⟩, hc⟩

/-- An agent, a plugin creator and a node operator. No template is for a job with the two last, so
that of a single agent is used, which has nothing for the plugin creator. -/
def mixedRoles : List ContributorRole :=
  [.agentProvider "agent-1" 100, .pluginCreator "plugin-1" 1, .nodeOperator "node-1" 1 1]

end FeeRouter

end QuDAG.Exchange
