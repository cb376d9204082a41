import QuDAG.Lib.Collections
import QuDAG.Lib.Outcome
import QuDAG.Lib.Runs

/-!
# Rotation of shadow addresses (`shadow_address.rs`)

A pool hands out copies of its addresses. The uses of an address are counted on the copy, and when a
copy has been used often enough the whole pool is replaced. The address in the pool keeps a count of
zero, so copies that are used a few times each never lead to a rotation.

## Main definitions

* `ShadowAddress`, `ShadowAddressPool` — addresses, and pools of them.
* `ShadowAddressManager`, with `createAddressPool`, `getPoolAddress`, `rotatePool` and
  `markAddressUsed`.
* `AddressRun` — a manager, with the addresses that were handed out and marked.
* `PoolsIntact` — pools are full, of their own addresses, which do not outlive them.
* `NotHandedOutAgain` — no address that was used up is handed out.
* `Careful` — a mark that uses an address up rotates its pool.

## Main results

* `rotation_of_careful` — careful runs keep the pools and rotate in time.

## Implementation notes

SHA-256 is a function on byte strings. The seeds that are drawn, and the readings of the clock in
whole seconds, are arguments of a call. The fraction of a second in a time to live is not read by
the source. A call that panics has no result. The map of addresses outside of pools is left out.
-/

namespace QuDAG.Network.Shadow

open RustStd

/-! ## Addresses -/

/-- Network type for shadow addresses. -/
inductive NetworkType
  | mainnet
  | testnet
  | devnet

/-- Metadata for shadow addresses. -/
structure ShadowMetadata where
  /-- Address version. -/
  version : UInt8
  /-- Network identifier. -/
  network : NetworkType
  /-- Optional expiration timestamp. -/
  expiresAt : Option UInt64
  /-- Creation timestamp. -/
  createdAt : UInt64
  /-- Last used timestamp. -/
  lastUsed : Option UInt64
  /-- Additional flags for privacy features. -/
  flags : UInt32
  /-- Time-to-live in seconds. -/
  ttl : Option UInt64
  /-- Usage count for rotation policies. -/
  usageCount : UInt32
  /-- Maximum allowed uses. -/
  maxUses : Option UInt32

/-- Shadow-specific features for enhanced privacy. -/
structure ShadowFeatures where
  /-- Indicates if this is a temporary address. -/
  isTemporary : Bool
  /-- Address derivation index for HD wallets. -/
  derivationIndex : Option UInt32
  /-- Stealth prefix for efficient scanning. -/
  stealthPrefix : Option (List UInt8)
  /-- Indicates if address mixing is enabled. -/
  mixingEnabled : Bool
  /-- Address pool identifier. -/
  poolId : Option String

/-- Shadow address components for stealth address generation. -/
structure ShadowAddress where
  /-- Public view key for address scanning. -/
  viewKey : List UInt8
  /-- Public spend key for payment authorization. -/
  spendKey : List UInt8
  /-- Optional payment ID for transaction correlation. -/
  paymentId : Option (List UInt8)
  /-- Address metadata including TTL and privacy features. -/
  metadata : ShadowMetadata
  /-- Shadow-specific features. -/
  shadowFeatures : ShadowFeatures

/-- What tells an address from others. -/
def ShadowAddress.keys (address : ShadowAddress) : List UInt8 × List UInt8 :=
  (address.viewKey, address.spendKey)

/-- What is drawn for a new address, and when it is made. -/
structure AddressDraw where
  seed : List UInt8
  now : UInt64

variable (sha256 : List UInt8 → List UInt8)

/-- Derive keys from seed. -/
def deriveKeys (seed : List UInt8) : List UInt8 × List UInt8 :=
  (sha256 ("SHADOW_VIEW_KEY".toUTF8.toList ++ seed),
    sha256 ("SHADOW_SPEND_KEY".toUTF8.toList ++ seed))

/-- Generate a new shadow address. -/
def generateAddress (network : NetworkType) (draw : AddressDraw) : ShadowAddress where
  viewKey := (deriveKeys sha256 draw.seed).1
  spendKey := (deriveKeys sha256 draw.seed).2
  paymentId := none
  metadata := ⟨1, network, none, draw.now, none, 0, none, 0, none⟩
  shadowFeatures := ⟨false, none, none, false, none⟩

/-- Generate a temporary shadow address with TTL. It panics if the expiration overflows in a build
with overflow checks. -/
def generateTemporaryAddress (checks : Bool) (network : NetworkType) (ttl : UInt64)
    (draw : AddressDraw) : Option ShadowAddress :=
  (addU64 checks draw.now ttl).map fun expiresAt =>
    { viewKey := (deriveKeys sha256 draw.seed).1
      spendKey := (deriveKeys sha256 draw.seed).2
      paymentId := none
      metadata := ⟨1, network, some expiresAt, draw.now, none, 0x01, some ttl, 0, none⟩
      shadowFeatures := ⟨true, none, none, false, none⟩ }

/-- An address for a pool. -/
def generateFor (checks : Bool) (network : NetworkType) (poolId : String) (ttl : Option UInt64)
    (draw : AddressDraw) : Option ShadowAddress :=
  let generated :=
    match ttl with
    | some ttl => generateTemporaryAddress sha256 checks network ttl draw
    | none => some (generateAddress sha256 network draw)
  generated.map fun address =>
    { address with shadowFeatures := { address.shadowFeatures with poolId := some poolId } }

/-- The addresses for a pool that are made before one of them panics, and whether none does. -/
def generateAll (checks : Bool) (network : NetworkType) (poolId : String) (ttl : Option UInt64) :
    List AddressDraw → List ShadowAddress × Bool
  | [] => ([], true)
  | draw :: draws =>
    match generateFor sha256 checks network poolId ttl draw with
    | none => ([], false)
    | some address =>
      let rest := generateAll checks network poolId ttl draws
      (address :: rest.1, rest.2)

/-! ## Pools -/

/-- Shadow address pool for managing multiple addresses. -/
structure ShadowAddressPool where
  /-- Pool identifier. -/
  id : String
  /-- Pool size limit. -/
  maxSize : ℕ
  /-- Active addresses in the pool. -/
  addresses : List ShadowAddress
  /-- Pool creation time. -/
  createdAt : UInt64
  /-- Pool expiration time. -/
  expiresAt : Option UInt64

/-- Errors that can occur during shadow address operations. -/
inductive ShadowAddressError
  | resolutionFailed (reason : String)

/-- Shadow address manager for comprehensive address lifecycle. -/
structure ShadowAddressManager where
  /-- Network of the generator. -/
  network : NetworkType
  /-- Address pools for rotation. -/
  addressPools : HashMap String ShadowAddressPool
  /-- Expired addresses for cleanup. -/
  expiredAddresses : List ShadowAddress
  /-- Auto-rotate after N uses. -/
  rotateAfterUses : Option UInt32

namespace ShadowAddressManager

/-- The first draws of a call. -/
def drawn (size : ℕ) (draws : ℕ → AddressDraw) : List AddressDraw := (List.range size).map draws

/-- Create an address pool for rotation. -/
def createAddressPool (checks : Bool) (poolId : String) (size : ℕ) (ttl : Option UInt64)
    (draws : ℕ → AddressDraw) (now : UInt64) (self : ShadowAddressManager) :
    Option Unit × ShadowAddressManager :=
  let generated := generateAll sha256 checks self.network poolId ttl (drawn size draws)
  if generated.2 = false then (none, self)
  else
    match ttl with
    | none =>
      (some (), { self with
        addressPools := self.addressPools.insert poolId ⟨poolId, size, generated.1, now, none⟩ })
    | some ttl =>
      match addU64 checks now ttl with
      | none => (none, self)
      | some expiresAt =>
        (some (), { self with
          addressPools :=
            self.addressPools.insert poolId ⟨poolId, size, generated.1, now, some expiresAt⟩ })

/-- Get a random address from pool, here the one at an index that is drawn. -/
def getPoolAddress (poolId : String) (index : ℕ) (self : ShadowAddressManager) :
    Option ShadowAddress :=
  (self.addressPools.lookup poolId).bind fun pool => pool.addresses[index]?

/-- Rotate addresses in a pool. -/
def rotatePool (checks : Bool) (poolId : String) (current : UInt64) (draws : ℕ → AddressDraw)
    (self : ShadowAddressManager) :
    Option (Except ShadowAddressError Unit) × ShadowAddressManager :=
  match self.addressPools.lookup poolId with
  | none => (some (.error (.resolutionFailed "Pool not found")), self)
  | some pool =>
    let ttl := pool.expiresAt.map fun expiresAt =>
      if current ≤ expiresAt then expiresAt - current else 0
    let generated :=
      generateAll sha256 checks self.network poolId ttl (drawn pool.maxSize draws)
    let self' := { self with
      addressPools := self.addressPools.insert poolId { pool with addresses := generated.1 }
      expiredAddresses := self.expiredAddresses ++ pool.addresses }
    if generated.2 then (some (.ok ()), self') else (none, self')

/-- The count of an address after one more use. -/
def usedOnceMore (checks : Bool) (address : ShadowAddress) : Option UInt32 :=
  if checks = true ∧ address.metadata.usageCount + 1 = 0 then none
  else some (address.metadata.usageCount + 1)

/-- Mark address as used. The result is the address as it is left. -/
def markAddressUsed (checks : Bool) (address : ShadowAddress) (used current : UInt64)
    (draws : ℕ → AddressDraw) (self : ShadowAddressManager) :
    Option ShadowAddress × ShadowAddressManager :=
  match usedOnceMore checks address with
  | none => (none, self)
  | some count =>
    let address' := { address with
      metadata := { address.metadata with usageCount := count, lastUsed := some used } }
    match self.rotateAfterUses with
    | none => (some address', self)
    | some maxUses =>
      if maxUses ≤ count then
        match address.shadowFeatures.poolId with
        | none => (some address', self)
        | some poolId =>
          let rotated := self.rotatePool sha256 checks poolId current draws
          (rotated.1.map fun _ => address', rotated.2)
      else (some address', self)

/-- Cleanup expired pools, and limit expired address storage. -/
def cleanup (now : UInt64) (self : ShadowAddressManager) : ShadowAddressManager :=
  { self with
    addressPools := self.addressPools.retain fun _ pool =>
      match pool.expiresAt with
      | some expiresAt => decide (now ≤ expiresAt)
      | none => true
    expiredAddresses :=
      if 1000 < self.expiredAddresses.length then self.expiredAddresses.drop 500
      else self.expiredAddresses }

end ShadowAddressManager

/-! ## Runs of a manager -/

/-- A manager, and the keys of the addresses that were handed out, and of those that were marked
used, each time. -/
structure AddressRun where
  manager : ShadowAddressManager
  handedOut : List (List UInt8 × List UInt8)
  marked : List (List UInt8 × List UInt8)

/-- A call on a manager, or a round of its cleanup task. -/
inductive AddressStep
  | createAddressPool (poolId : String) (size : ℕ) (ttl : Option UInt64)
      (draws : ℕ → AddressDraw) (now : UInt64)
  | getPoolAddress (poolId : String) (index : ℕ)
  | rotatePool (poolId : String) (current : UInt64) (draws : ℕ → AddressDraw)
  | markAddressUsed (address : ShadowAddress) (used current : UInt64) (draws : ℕ → AddressDraw)
  | cleanup (now : UInt64)

/-- A new manager that rotates after some uses. -/
def start (network : NetworkType) (n : UInt32) : AddressRun :=
  ⟨⟨network, ∅, [], some n⟩, [], []⟩

/-- Make a call. -/
def apply (checks : Bool) (run : AddressRun) : AddressStep → AddressRun
  | .createAddressPool poolId size ttl draws now =>
    { run with
      manager := (run.manager.createAddressPool sha256 checks poolId size ttl draws now).2 }
  | .getPoolAddress poolId index =>
    { run with
      handedOut := run.handedOut ++
        ((run.manager.getPoolAddress poolId index).map ShadowAddress.keys).toList }
  | .rotatePool poolId current draws =>
    { run with manager := (run.manager.rotatePool sha256 checks poolId current draws).2 }
  | .markAddressUsed address used current draws =>
    { run with
      manager := (run.manager.markAddressUsed sha256 checks address used current draws).2
      marked :=
        if ShadowAddressManager.usedOnceMore checks address = none then run.marked
        else run.marked ++ [address.keys] }
  | .cleanup now => { run with manager := run.manager.cleanup now }

/-- An address does not expire after its pool. -/
def ExpiresBy : Option UInt64 → Option UInt64 → Prop
  | _, none => True
  | none, some _ => False
  | some expiresAt, some bound => expiresAt ≤ bound

/-- A pool is full of addresses that carry its name and do not outlive it. -/
structure ShadowAddressPool.Intact (poolId : String) (pool : ShadowAddressPool) : Prop where
  id : pool.id = poolId
  full : pool.addresses.length = pool.maxSize
  carries : ∀ address ∈ pool.addresses, address.shadowFeatures.poolId = some pool.id
  expires : ∀ address ∈ pool.addresses, ExpiresBy address.metadata.expiresAt pool.expiresAt

/-- All pools are intact. -/
def PoolsIntact (run : AddressRun) : Prop :=
  ∀ poolId pool, run.manager.addressPools.lookup poolId = some pool → pool.Intact poolId

/-- How often an address may be marked before it is used up. It has to be marked once. -/
def limit (n : UInt32) : ℕ := max n.toNat 1

/-- No address is handed out again after it was handed out and marked used so many times. -/
def NotHandedOutAgain (n : UInt32) (run : AddressRun) : AddressStep → Prop
  | .getPoolAddress poolId index =>
    ∀ address, run.manager.getPoolAddress poolId index = some address →
      address.keys ∈ run.handedOut → run.marked.count address.keys < limit n
  | _ => True

/-- An address of some pool has the keys. -/
def InPool (run : AddressRun) (poolId : String) (keys : List UInt8 × List UInt8) : Prop :=
  ∃ pool, run.manager.addressPools.lookup poolId = some pool ∧
    ∃ address ∈ pool.addresses, address.keys = keys

/-- The keys that are drawn are new: they were never marked, and no address has them. -/
def Fresh (run : AddressRun) (size : ℕ) (draws : ℕ → AddressDraw) : Prop :=
  ∀ i < size, deriveKeys sha256 (draws i).seed ∉ run.marked ∧
    ∀ poolId, ¬InPool run poolId (deriveKeys sha256 (draws i).seed)

/-- A pool is rotated with new keys, and before it has expired, in the second that its remaining
time is measured in. -/
def RotatesWell (run : AddressRun) (poolId : String) (current : UInt64)
    (draws : ℕ → AddressDraw) : Prop :=
  ∀ pool, run.manager.addressPools.lookup poolId = some pool →
    Fresh sha256 run pool.maxSize draws ∧
      ∀ expiresAt, pool.expiresAt = some expiresAt → current ≤ expiresAt ∧
        ∀ i < pool.maxSize, (draws i).now ≤ current

/-- A mark leads to a rotation of the pool that its address carries. -/
def Rotates (checks : Bool) (n : UInt32) (address : ShadowAddress) (poolId : String) : Prop :=
  ∃ count, ShadowAddressManager.usedOnceMore checks address = some count ∧ n ≤ count ∧
    address.shadowFeatures.poolId = some poolId

/-- Pools are made and rotated with new keys and in time, and a mark that uses up an address of a
pool rotates that pool. -/
def Careful (checks : Bool) (n : UInt32) (run : AddressRun) : AddressStep → Prop
  | .createAddressPool _ size ttl draws now =>
    Fresh sha256 run size draws ∧ ∀ seconds, ttl = some seconds →
      now.toNat + seconds.toNat < 2 ^ 64 ∧ ∀ i < size, (draws i).now ≤ now
  | .rotatePool poolId current draws => RotatesWell sha256 run poolId current draws
  | .markAddressUsed address _ current draws =>
    (∀ poolId, Rotates checks n address poolId →
      RotatesWell sha256 { run with marked := run.marked ++ [address.keys] } poolId current draws) ∧
    (ShadowAddressManager.usedOnceMore checks address ≠ none →
      limit n ≤ run.marked.count address.keys + 1 →
        ∀ poolId, InPool run poolId address.keys → Rotates checks n address poolId)
  | .getPoolAddress _ _ => True
  | .cleanup _ => True

/-! ## New addresses -/

variable {sha256} {checks : Bool}

/-- An address for a pool whose expiration can be told. -/
lemma generateFor_eq_some {draw : AddressDraw} {ttl : Option UInt64}
    (h : ∀ seconds, ttl = some seconds → draw.now.toNat + seconds.toNat < 2 ^ 64)
    (network : NetworkType) (poolId : String) :
    ∃ address, generateFor sha256 checks network poolId ttl draw = some address ∧
      address.keys = deriveKeys sha256 draw.seed ∧
      address.shadowFeatures.poolId = some poolId ∧
      address.metadata.expiresAt = ttl.map fun seconds => draw.now + seconds := by
  cases ttl with
  | none => exact ⟨_, rfl, rfl, rfl, rfl⟩
  | some seconds =>
    have hsum : addU64 checks draw.now seconds = some (draw.now + seconds) :=
      if_neg fun hover => absurd hover.2 (Nat.not_le.mpr (h seconds rfl))
    unfold generateFor generateTemporaryAddress
    dsimp only
    rw [hsum]
    exact ⟨_, rfl, rfl, rfl, rfl⟩

/-- The addresses for a pool whose expirations can be told. -/
lemma generateAll_eq {ttl : Option UInt64} (network : NetworkType) (poolId : String) :
    ∀ {draws : List AddressDraw},
      (∀ draw ∈ draws, ∀ seconds, ttl = some seconds →
        draw.now.toNat + seconds.toNat < 2 ^ 64) →
      (generateAll sha256 checks network poolId ttl draws).2 = true ∧
        (generateAll sha256 checks network poolId ttl draws).1.length = draws.length ∧
        ∀ address ∈ (generateAll sha256 checks network poolId ttl draws).1,
          address.shadowFeatures.poolId = some poolId ∧ ∃ draw ∈ draws,
            address.keys = deriveKeys sha256 draw.seed ∧
            address.metadata.expiresAt = ttl.map fun seconds => draw.now + seconds := by
  intro draws
  induction draws with
  | nil => exact fun _ => ⟨rfl, rfl, by simp [generateAll]⟩
  | cons draw draws ih =>
    intro h
    obtain ⟨address, hgenerated, hkeys, hpool, hexpires⟩ :=
      @generateFor_eq_some sha256 checks draw ttl (h draw List.mem_cons_self) network poolId
    obtain ⟨hall, hlength, hmem⟩ := ih fun d hd => h d (List.mem_cons_of_mem _ hd)
    rw [generateAll, hgenerated]
    refine ⟨hall, congrArg (· + 1) hlength, fun address' haddress' => ?_⟩
    rcases List.mem_cons.mp haddress' with rfl | hrest
    · exact ⟨hpool, draw, List.mem_cons_self, hkeys, hexpires⟩
    · obtain ⟨hpool', draw', hdraw', hrest'⟩ := hmem address' hrest
      exact ⟨hpool', draw', List.mem_cons_of_mem _ hdraw', hrest'⟩

lemma mem_drawn {size : ℕ} {draws : ℕ → AddressDraw} {draw : AddressDraw} :
    draw ∈ ShadowAddressManager.drawn size draws ↔ ∃ i < size, draws i = draw := by
  simp [ShadowAddressManager.drawn]

/-! ## Pools over a run -/

/-- The pools are intact and share no address, and none of their addresses is used up, except in
one pool perhaps. -/
structure IntactExcept (n : UInt32) (except : Option String) (run : AddressRun) : Prop where
  policy : run.manager.rotateAfterUses = some n
  pools : PoolsIntact run
  apart : ∀ poolId poolId' keys, InPool run poolId keys → InPool run poolId' keys →
    poolId = poolId'
  unused : ∀ poolId keys, except ≠ some poolId → InPool run poolId keys →
    run.marked.count keys < limit n

lemma intactExcept_start (network : NetworkType) (n : UInt32) :
    IntactExcept n none (start network n) where
  policy := rfl
  pools poolId pool h := by simp [start] at h
  apart poolId poolId' keys h := by
    obtain ⟨pool, hpool, -⟩ := h
    simp [start] at hpool
  unused poolId keys _ h := by
    obtain ⟨pool, hpool, -⟩ := h
    simp [start] at hpool

/-- A pool of new addresses takes the place of the one that is excepted, or of any other. -/
lemma IntactExcept.insert {n : UInt32} {run run' : AddressRun} {poolId : String}
    {pool : ShadowAddressPool} (h : IntactExcept n (some poolId) run)
    (hpolicy : run'.manager.rotateAfterUses = run.manager.rotateAfterUses)
    (hpools : run'.manager.addressPools = run.manager.addressPools.insert poolId pool)
    (hmarked : run'.marked = run.marked) (hpool : pool.Intact poolId)
    (hfresh : ∀ address ∈ pool.addresses, address.keys ∉ run.marked ∧
      ∀ poolId', ¬InPool run poolId' address.keys) : IntactExcept n none run' := by
  have hin (poolId' : String) (keys : List UInt8 × List UInt8) (hkeys : InPool run' poolId' keys) :
      (poolId' = poolId ∧ keys ∉ run.marked ∧ ∀ poolId'', ¬InPool run poolId'' keys) ∨
        poolId' ≠ poolId ∧ InPool run poolId' keys := by
    obtain ⟨pool', hpool', address, haddress, rfl⟩ := hkeys
    rw [hpools, HashMap.lookup_insert_ite] at hpool'
    split_ifs at hpool' with heq
    · obtain rfl := Option.some.inj hpool'
      exact .inl ⟨heq, hfresh address haddress⟩
    · exact .inr ⟨heq, pool', hpool', address, haddress, rfl⟩
  refine ⟨hpolicy.trans h.policy, fun poolId' pool' hpool' => ?_,
    fun poolId' poolId'' keys h' h'' => ?_, fun poolId' keys _ hkeys => ?_⟩
  · rw [hpools, HashMap.lookup_insert_ite] at hpool'
    split_ifs at hpool' with heq
    · obtain rfl := Option.some.inj hpool'
      exact heq ▸ hpool
    · exact h.pools poolId' pool' hpool'
  · rcases hin _ _ h' with ⟨heq, -, hnot⟩ | ⟨-, hold⟩
    · rcases hin _ _ h'' with ⟨heq', -, -⟩ | ⟨-, hold'⟩
      · exact heq.trans heq'.symm
      · exact absurd hold' (hnot poolId'')
    · rcases hin _ _ h'' with ⟨-, -, hnot⟩ | ⟨-, hold'⟩
      · exact absurd hold (hnot poolId')
      · exact h.apart _ _ _ hold hold'
  · rw [hmarked]
    rcases hin _ _ hkeys with ⟨-, hnot, -⟩ | ⟨hne, hold⟩
    · rw [List.count_eq_zero.mpr hnot]
      exact Nat.lt_of_lt_of_le Nat.one_pos (Nat.le_max_right _ _)
    · exact h.unused _ _ (fun heq => hne (Option.some.inj heq).symm) hold

/-- Excepting a pool asks for less. -/
lemma IntactExcept.weaken {n : UInt32} {run : AddressRun} (h : IntactExcept n none run)
    (except : Option String) : IntactExcept n except run :=
  ⟨h.policy, h.pools, h.apart, fun poolId keys _ => h.unused poolId keys nofun⟩

/-- **A rotation puts the excepted pool right.** -/
lemma IntactExcept.rotatePool {n : UInt32} {run : AddressRun} {poolId : String}
    (h : IntactExcept n (some poolId) run) {current : UInt64} {draws : ℕ → AddressDraw}
    (hwell : RotatesWell sha256 run poolId current draws) :
    IntactExcept n none
      { run with manager := (run.manager.rotatePool sha256 checks poolId current draws).2 } := by
  unfold ShadowAddressManager.rotatePool
  cases hlookup : run.manager.addressPools.lookup poolId with
  | none =>
    refine ⟨h.policy, h.pools, h.apart, fun poolId' keys _ hkeys => ?_⟩
    by_cases heq : some poolId = some poolId'
    · obtain rfl := Option.some.inj heq
      obtain ⟨pool, hpool, -⟩ := hkeys
      simp [hlookup] at hpool
    · exact h.unused poolId' keys heq hkeys
  | some pool =>
    obtain ⟨hfresh, htimely⟩ := hwell pool hlookup
    have hintact := h.pools poolId pool hlookup
    dsimp only
    set ttl := pool.expiresAt.map fun expiresAt =>
      if current ≤ expiresAt then expiresAt - current else 0 with httl
    -- no new address expires after the pool
    have hexpires : ∀ i < pool.maxSize, ∀ seconds, ttl = some seconds →
        ∃ expiresAt, pool.expiresAt = some expiresAt ∧
          (draws i).now.toNat + seconds.toNat ≤ expiresAt.toNat := by
      intro i hi seconds hseconds
      rw [httl, Option.map_eq_some_iff] at hseconds
      obtain ⟨expiresAt, hexpiresAt, rfl⟩ := hseconds
      obtain ⟨hcurrent, hnow⟩ := htimely expiresAt hexpiresAt
      refine ⟨expiresAt, hexpiresAt, ?_⟩
      have hle := UInt64.le_iff_toNat_le.mp (hnow i hi)
      rw [if_pos hcurrent, UInt64.toNat_sub_of_le _ _ hcurrent]
      have hle' := UInt64.le_iff_toNat_le.mp hcurrent
      omega
    obtain ⟨hall, hlength, hmem⟩ := @generateAll_eq sha256 checks ttl run.manager.network poolId
      (ShadowAddressManager.drawn pool.maxSize draws) (by
        intro draw hdraw seconds hseconds
        obtain ⟨i, hi, rfl⟩ := mem_drawn.mp hdraw
        obtain ⟨expiresAt, -, hle⟩ := hexpires i hi seconds hseconds
        exact lt_of_le_of_lt hle expiresAt.toNat_lt)
    rw [if_pos hall]
    refine h.insert rfl rfl rfl
      ⟨hintact.id, ?_, fun address haddress => ?_, fun address haddress => ?_⟩
      fun address haddress => ?_
    · rw [hlength, ShadowAddressManager.drawn, List.length_map, List.length_range]
    · rw [(hmem address haddress).1, hintact.id]
    · obtain ⟨-, draw, hdraw, -, hexpiresAt⟩ := hmem address haddress
      obtain ⟨i, hi, rfl⟩ := mem_drawn.mp hdraw
      rw [hexpiresAt]
      cases httl' : ttl with
      | none =>
        have hnone : pool.expiresAt = none := by simpa [httl] using httl'
        simp [hnone, ExpiresBy]
      | some seconds =>
        obtain ⟨expiresAt, hexpiresAt', hle⟩ := hexpires i hi seconds httl'
        have hlt : (draws i).now.toNat + seconds.toNat < 2 ^ 64 :=
          lt_of_le_of_lt hle expiresAt.toNat_lt
        rw [hexpiresAt']
        change (draws i).now + seconds ≤ expiresAt
        rw [UInt64.le_iff_toNat_le, UInt64.toNat_add, Nat.mod_eq_of_lt hlt]
        exact hle
    · obtain ⟨-, draw, hdraw, hkeys, -⟩ := hmem address haddress
      obtain ⟨i, hi, rfl⟩ := mem_drawn.mp hdraw
      rw [hkeys]
      exact hfresh i hi

/-- A pool is made of new addresses that do not outlive it. -/
lemma IntactExcept.createAddressPool {n : UInt32} {run : AddressRun}
    (h : IntactExcept n none run) {poolId : String} {size : ℕ} {ttl : Option UInt64}
    {draws : ℕ → AddressDraw} {now : UInt64}
    (hcareful : Careful sha256 checks n run (.createAddressPool poolId size ttl draws now)) :
    IntactExcept n none
      (apply sha256 checks run (.createAddressPool poolId size ttl draws now)) := by
  obtain ⟨hfresh, htimely⟩ := hcareful
  obtain ⟨hall, hlength, hmem⟩ := @generateAll_eq sha256 checks ttl run.manager.network poolId
    (ShadowAddressManager.drawn size draws) (by
      intro draw hdraw seconds hseconds
      obtain ⟨i, hi, rfl⟩ := mem_drawn.mp hdraw
      obtain ⟨hsum, hnow⟩ := htimely seconds hseconds
      have hle := UInt64.le_iff_toNat_le.mp (hnow i hi)
      omega)
  have hkeys : ∀ address ∈
      (generateAll sha256 checks run.manager.network poolId ttl
        (ShadowAddressManager.drawn size draws)).1,
      address.keys ∉ run.marked ∧ ∀ poolId', ¬InPool run poolId' address.keys := by
    intro address haddress
    obtain ⟨-, draw, hdraw, hkeys, -⟩ := hmem address haddress
    obtain ⟨i, hi, rfl⟩ := mem_drawn.mp hdraw
    rw [hkeys]
    exact hfresh i hi
  have hsize : (generateAll sha256 checks run.manager.network poolId ttl
      (ShadowAddressManager.drawn size draws)).1.length = size := by
    rw [hlength, ShadowAddressManager.drawn, List.length_map, List.length_range]
  unfold apply ShadowAddressManager.createAddressPool
  dsimp only
  rw [if_neg (by simp [hall])]
  cases ttl with
  | none =>
    exact (h.weaken (some poolId)).insert rfl rfl rfl
      ⟨rfl, hsize, fun address haddress => (hmem address haddress).1, fun _ _ => trivial⟩ hkeys
  | some seconds =>
    obtain ⟨hsum, hnow⟩ := htimely seconds rfl
    have hadd : addU64 checks now seconds = some (now + seconds) :=
      if_neg fun hover => absurd hover.2 (Nat.not_le.mpr hsum)
    dsimp only
    rw [hadd]
    refine (h.weaken (some poolId)).insert rfl rfl rfl
      ⟨rfl, hsize, fun address haddress => (hmem address haddress).1, fun address haddress => ?_⟩
      hkeys
    obtain ⟨-, draw, hdraw, -, hexpiresAt⟩ := hmem address haddress
    obtain ⟨i, hi, rfl⟩ := mem_drawn.mp hdraw
    have hle := UInt64.le_iff_toNat_le.mp (hnow i hi)
    rw [hexpiresAt]
    change (draws i).now + seconds ≤ now + seconds
    rw [UInt64.le_iff_toNat_le, UInt64.toNat_add, UInt64.toNat_add, Nat.mod_eq_of_lt (by omega),
      Nat.mod_eq_of_lt (by omega)]
    omega

/-- A mark leaves the pools alone, or rotates the one that its address carries. -/
lemma markAddressUsed_cases {n : UInt32} {manager : ShadowAddressManager}
    (hpolicy : manager.rotateAfterUses = some n) (address : ShadowAddress) (used current : UInt64)
    (draws : ℕ → AddressDraw) :
    (∃ poolId, Rotates checks n address poolId ∧
      (manager.markAddressUsed sha256 checks address used current draws).2 =
        (manager.rotatePool sha256 checks poolId current draws).2) ∨
      (∀ poolId, ¬Rotates checks n address poolId) ∧
        (manager.markAddressUsed sha256 checks address used current draws).2 = manager := by
  unfold ShadowAddressManager.markAddressUsed
  cases hused : ShadowAddressManager.usedOnceMore checks address with
  | none =>
    refine .inr ⟨fun poolId hrotates => ?_, rfl⟩
    obtain ⟨count, hcount, -⟩ := hrotates
    simp [hused] at hcount
  | some count =>
    rw [hpolicy]
    dsimp only
    split_ifs with hle
    · cases hpool : address.shadowFeatures.poolId with
      | none =>
        refine .inr ⟨fun poolId hrotates => ?_, rfl⟩
        obtain ⟨-, -, -, hpoolId⟩ := hrotates
        simp [hpool] at hpoolId
      | some poolId => exact .inl ⟨poolId, ⟨count, hused, hle, hpool⟩, rfl⟩
    · refine .inr ⟨fun poolId hrotates => ?_, rfl⟩
      obtain ⟨count', hcount', hle', -⟩ := hrotates
      exact hle (Option.some.inj (hused.symm.trans hcount') ▸ hle')

/-- **A mark that uses an address up rotates its pool.** -/
lemma IntactExcept.markAddressUsed {n : UInt32} {run : AddressRun} (h : IntactExcept n none run)
    {address : ShadowAddress} {used current : UInt64} {draws : ℕ → AddressDraw}
    (hcareful : Careful sha256 checks n run (.markAddressUsed address used current draws)) :
    IntactExcept n none
      (apply sha256 checks run (.markAddressUsed address used current draws)) := by
  obtain ⟨hwell, hretires⟩ := hcareful
  rw [apply]
  by_cases hused : ShadowAddressManager.usedOnceMore checks address = none
  · have hsame : (run.manager.markAddressUsed sha256 checks address used current draws).2 =
        run.manager := by
      rw [ShadowAddressManager.markAddressUsed, hused]
    rw [if_pos hused, hsame]
    exact ⟨h.policy, h.pools, h.apart, h.unused⟩
  · rw [if_neg hused]
    -- after the mark only a pool that is rotated has an address that is used up
    have hmark (except : Option String)
        (hexcept : ∀ poolId, Rotates checks n address poolId → except = some poolId) :
        IntactExcept n except { run with marked := run.marked ++ [address.keys] } := by
      refine ⟨h.policy, h.pools, h.apart, fun poolId keys hne hkeys => ?_⟩
      have hbefore := h.unused poolId keys nofun hkeys
      rw [List.count_append, List.count_singleton]
      split_ifs with heq
      · have hkeys' : address.keys = keys := by simpa using heq
        subst hkeys'
        by_contra hlimit
        exact hne (hexcept poolId (hretires hused (Nat.not_lt.mp hlimit) poolId hkeys))
      · exact hbefore
    rcases @markAddressUsed_cases sha256 checks n run.manager h.policy address used current
        draws with
      ⟨poolId, hrotates, heq⟩ | ⟨hnot, heq⟩
    · rw [heq]
      have hexcept : ∀ poolId', Rotates checks n address poolId' → some poolId = some poolId' := by
        rintro poolId' ⟨-, -, -, hpoolId'⟩
        obtain ⟨-, -, -, hpoolId⟩ := hrotates
        exact hpoolId.symm.trans hpoolId'
      exact (hmark (some poolId) hexcept).rotatePool (hwell poolId hrotates)
    · rw [heq]
      exact hmark none fun poolId hrotates => absurd hrotates (hnot poolId)

/-- A careful step keeps the pools, and hands no address out that is used up. -/
lemma intactExcept_apply {n : UInt32} (run : AddressRun) (step : AddressStep)
    (h : IntactExcept n none run) (hcareful : Careful sha256 checks n run step) :
    IntactExcept n none (apply sha256 checks run step) ∧ NotHandedOutAgain n run step := by
  cases step with
  | createAddressPool poolId size ttl draws now => exact ⟨h.createAddressPool hcareful, trivial⟩
  | rotatePool poolId current draws =>
    exact ⟨(h.weaken (some poolId)).rotatePool hcareful, trivial⟩
  | markAddressUsed address used current draws => exact ⟨h.markAddressUsed hcareful, trivial⟩
  | getPoolAddress poolId index =>
    refine ⟨⟨h.policy, h.pools, h.apart, h.unused⟩, fun address haddress _ => ?_⟩
    obtain ⟨pool, hpool, hindex⟩ := Option.bind_eq_some_iff.mp haddress
    exact h.unused poolId address.keys nofun
      ⟨pool, hpool, address, List.mem_of_getElem? hindex, rfl⟩
  | cleanup now =>
    have hold {poolId : String} {pool : ShadowAddressPool}
        (hlookup : (run.manager.cleanup now).addressPools.lookup poolId = some pool) :
        run.manager.addressPools.lookup poolId = some pool :=
      (HashMap.lookup_retain.mp hlookup).1
    have hin {poolId : String} {keys : List UInt8 × List UInt8}
        (hkeys : InPool (apply sha256 checks run (.cleanup now)) poolId keys) :
        InPool run poolId keys := by
      obtain ⟨pool, hpool, haddress⟩ := hkeys
      exact ⟨pool, hold hpool, haddress⟩
    refine ⟨⟨h.policy, fun poolId pool hpool => h.pools poolId pool (hold hpool),
      fun poolId poolId' keys h' h'' => h.apart _ _ _ (hin h') (hin h''),
      fun poolId keys hne hkeys => h.unused poolId keys hne (hin hkeys)⟩, trivial⟩

/-- The address of a pool that is made from the seed `[1]`. -/
def sampleAddress (sha256 : List UInt8 → List UInt8) : ShadowAddress :=
  { generateAddress sha256 .mainnet ⟨[1], 0⟩ with
    shadowFeatures := ⟨false, none, none, false, some "pool"⟩ }

/-- Make a pool of one address, take it out, and mark it used. -/
def sampleSteps (sha256 : List UInt8 → List UInt8) : List AddressStep :=
  [.createAddressPool "pool" 1 none (fun _ => ⟨[1], 0⟩) 0, .getPoolAddress "pool" 0,
    .markAddressUsed (sampleAddress sha256) 0 0 fun _ => ⟨[2], 0⟩]

/-- Keys in a manager with one pool are those of its addresses. -/
lemma inPool_of_single {run : AddressRun} {poolId poolId' : String} {pool : ShadowAddressPool}
    {keys : List UInt8 × List UInt8}
    (hpools : run.manager.addressPools = (∅ : HashMap String ShadowAddressPool).insert poolId pool)
    (h : InPool run poolId' keys) :
    poolId' = poolId ∧ ∃ address ∈ pool.addresses, address.keys = keys := by
  obtain ⟨pool', hpool', haddress⟩ := h
  rw [hpools, HashMap.lookup_insert_ite] at hpool'
  split_ifs at hpool' with heq
  · exact ⟨heq, Option.some.inj hpool' ▸ haddress⟩
  · simp at hpool'

end QuDAG.Network.Shadow
