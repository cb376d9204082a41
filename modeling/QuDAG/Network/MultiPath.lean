import QuDAG.Network.MixNode
import QuDAG.Network.P2PRequests

/-!
# Multi-path routing (`routing.rs`)

Paths to a destination are taken from the cache, if some of them are recent and meet the criteria.
Otherwise the peer selector picks healthy peers, and a path is built to each of them: the
destination is only the key under which the paths are cached. So a path that was built ends at the
destination iff the selector picked it, it is never asked whether it meets the criteria, and there
is none if nothing was picked.

## Main definitions

* `PeerSelector`, with `selectPeers`.
* `Router`, with `findPaths`, `buildPathToPeer`, `selectOnionHops` and `meetsCriteria`.
* `Reaches` — paths that end at the destination and meet the criteria.
* `Router.Servable` — the cached paths end at the destination, or else the selector picks nothing
  but the destination, and its hops are good enough.

## Main results

* `Router.buildPaths_eq_ok` — the paths that are built.
* `Router.nodup_hopsTo` — such a path repeats no hop.
* `Router.reaches_iff_servable` — when the paths reach the destination.

## Implementation notes

How floating-point numbers are rounded is left open: the operations are a class. A step reads the
clock once for all cached paths. The fields of a path that nothing reads are left out (its load, its
cost, its security level and the like). No lock is poisoned.
-/

namespace QuDAG.Network.Routing

open RustStd

/-! ## Peers -/

/-- The operations on floating-point numbers that are used here. -/
class F64 (F : Type) where
  /-- The number for a literal. -/
  lit : ℚ → F
  add : F → F → F
  sub : F → F → F
  mul : F → F → F
  div : F → F → F
  min : F → F → F
  max : F → F → F
  lt : F → F → Bool
  le : F → F → Bool

/-- Circuit breaker state. -/
inductive CircuitBreakerState
  | closed
  | opened (openedAt : Instant) (failureCount : ℕ)
  | halfOpen (testCount : ℕ) (successCount : ℕ)
  deriving DecidableEq

/-- Discovered peer information. -/
structure DiscoveredPeer (F : Type) where
  /-- Peer ID. -/
  peerId : LibP2PPeerId
  /-- Reputation score. -/
  reputation : F
  /-- Geographic information, with the estimated distance in kilometers. -/
  geographicInfo : Option (Option F)
  /-- Average response time. -/
  avgResponseTime : Duration
  /-- Current load score. -/
  loadScore : F
  /-- Supported protocol versions. -/
  protocolVersions : List String
  /-- Supported message types. -/
  supportedMessageTypes : List String
  /-- Relay capability. -/
  canRelay : Bool
  /-- Bandwidth capacity. -/
  bandwidthCapacity : Option UInt64
  /-- Overall quality score. -/
  overallScore : F
  /-- Reliability score. -/
  reliabilityScore : F
  /-- Blacklist status. -/
  isBlacklisted : Bool
  /-- Uptime percentage. -/
  uptimePercentage : F
  /-- Circuit breaker state. -/
  circuitBreakerState : CircuitBreakerState

/-- Peer scoring configuration. -/
structure PeerScoringConfig where
  /-- Enable geographic scoring. -/
  enableGeographicScoring : Bool

section Peers

variable {F : Type} [F64 F]

open F64 (lit)

/-- Check if peer is healthy for load balancing. -/
def DiscoveredPeer.isHealthy (self : DiscoveredPeer F) : Bool :=
  !self.isBlacklisted && decide (self.circuitBreakerState = .closed) &&
    F64.lt (lit (1 / 2)) self.overallScore && F64.lt self.loadScore (lit 90)

/-- Calculate peer priority for selection. -/
def DiscoveredPeer.calculatePriority (config : PeerScoringConfig) (self : DiscoveredPeer F) : F :=
  let priority := self.reputation
  let priority := F64.add priority (F64.mul self.overallScore (lit 20))
  let priority := F64.add priority (F64.mul (F64.sub (lit 100) self.loadScore) (lit (1 / 10)))
  let priority :=
    match self.geographicInfo with
    | some (some distance) =>
      if config.enableGeographicScoring then
        F64.add priority (F64.div (F64.sub (lit 1000) (F64.min distance (lit 1000))) (lit 100))
      else priority
    | _ => priority
  let priority := F64.add priority (F64.mul self.uptimePercentage (lit (1 / 10)))
  F64.max priority (lit 0)

/-- Peer selection strategies. -/
inductive PeerSelectionStrategy
  | bestFirst
  | probabilistic
  | diversity
  | epsilonGreedy
  | multiArmedBandit

/-- Peer selector with geographic and capability awareness. -/
structure PeerSelector where
  /-- Capability requirements. -/
  requiredCapabilities : List String
  /-- Selection strategy. -/
  strategy : PeerSelectionStrategy
  /-- Recent selections for diversity. -/
  recentSelections : List LibP2PPeerId
  /-- Selection history for analysis. -/
  selectionHistory : HashMap LibP2PPeerId ℕ

namespace PeerSelector

/-- Check if peer meets capability requirements. -/
def meetsCapabilityRequirements (self : PeerSelector) (peer : DiscoveredPeer F) : Bool :=
  self.requiredCapabilities.all fun required =>
    peer.supportedMessageTypes.contains required || peer.protocolVersions.contains required

/-- Whether a candidate may be selected. -/
def eligible (self : PeerSelector) (peer : DiscoveredPeer F) : Bool :=
  (peer.isHealthy && !peer.isBlacklisted) && F64.le (lit (1 / 2)) peer.reliabilityScore &&
    self.meetsCapabilityRequirements peer

/-- Sort based on strategy. -/
def arrange (random : Shuffle) (config : PeerScoringConfig) (self : PeerSelector)
    (eligible : List (DiscoveredPeer F)) : List (DiscoveredPeer F) :=
  match self.strategy with
  | .bestFirst =>
    eligible.mergeSort fun a b =>
      !F64.lt (a.calculatePriority config) (b.calculatePriority config)
  | .diversity =>
    -- A peer that was not selected recently comes last.
    let position (peer : DiscoveredPeer F) : ℕ :=
      (self.recentSelections.findIdx? (· == peer.peerId)).getD (2 ^ 64 - 1)
    eligible.mergeSort fun a b => decide (position a ≤ position b)
  | .probabilistic => random.shuffle eligible
  | _ => eligible

/-- The peers that are selected. -/
def picks (random : Shuffle) (candidates : List (DiscoveredPeer F)) (count : ℕ)
    (config : PeerScoringConfig) (self : PeerSelector) : List (DiscoveredPeer F) :=
  (self.arrange random config (candidates.filter self.eligible)).take count

/-- Remember that a peer was selected. -/
def record (self : PeerSelector) (peerId : LibP2PPeerId) : PeerSelector :=
  let recent := self.recentSelections ++ [peerId]
  { self with
    recentSelections := if 100 < recent.length then recent.tail else recent
    selectionHistory :=
      self.selectionHistory.insert peerId ((self.selectionHistory.lookup peerId).getD 0 + 1) }

/-- Select peers based on criteria. -/
def selectPeers (random : Shuffle) (candidates : List (DiscoveredPeer F)) (count : ℕ)
    (config : PeerScoringConfig) (self : PeerSelector) : List LibP2PPeerId × PeerSelector :=
  let selected := (self.picks random candidates count config).map DiscoveredPeer.peerId
  (selected, selected.foldl record self)

end PeerSelector

end Peers

/-! ## Paths -/

/-- Errors of routing. -/
inductive RoutingError
  | noRoute
  | topologyInsufficient
  deriving DecidableEq, Repr

/-- Enhanced route path. -/
structure RoutePath (F : Type) where
  /-- Sequence of peer hops. -/
  hops : List LibP2PPeerId
  /-- Expected end-to-end latency. -/
  latency : Duration
  /-- Route reliability score. -/
  reliability : F
  /-- Bandwidth capacity in bytes per second. -/
  bandwidthCapacity : Option UInt64
  /-- Route creation timestamp. -/
  createdAt : Instant
  /-- Dark addressing support. -/
  supportsDarkAddressing : Bool
  /-- Onion routing capability. -/
  supportsOnionRouting : Bool

/-- Redundancy levels for fault tolerance. -/
inductive RedundancyLevel
  | none
  | basic
  | high
  | maximum

/-- Get the number of paths required for this redundancy level. -/
def RedundancyLevel.pathCount : RedundancyLevel → ℕ
  | .none => 1
  | .basic => 2
  | .high => 3
  | .maximum => 5

/-- Route selection criteria. -/
structure RouteSelectionCriteria (F : Type) where
  /-- Maximum acceptable latency. -/
  maxLatency : Option Duration
  /-- Minimum reliability requirement. -/
  minReliability : F
  /-- Bandwidth requirements. -/
  minBandwidth : Option UInt64
  /-- Redundancy requirements. -/
  redundancyLevel : RedundancyLevel
  /-- Dark addressing requirement. -/
  requireDarkAddressing : Bool
  /-- Onion routing requirement. -/
  requireOnionRouting : Bool

/-- Production-ready multi-path router. -/
structure Router (F : Type) where
  /-- Discovered peers. -/
  peers : HashMap LibP2PPeerId (DiscoveredPeer F)
  /-- Route cache. -/
  routeCache : HashMap LibP2PPeerId (List (RoutePath F))
  /-- Peer selector. -/
  peerSelector : PeerSelector
  /-- Scoring configuration. -/
  scoringConfig : PeerScoringConfig
  /-- Route cache TTL. -/
  cacheTtl : Duration
  /-- Total messages routed. -/
  totalMessages : ℕ
  /-- Route cache hit rate. -/
  cacheHitRate : F

/-- What finding paths reads from outside. -/
structure PathDraws (F : Type) where
  /-- When the cache is looked at. -/
  now : Instant
  /-- The order of the peers. -/
  order : HashMap.Iteration LibP2PPeerId (DiscoveredPeer F)
  /-- For the selection of peers. -/
  selection : Shuffle
  /-- For the relays of each path. -/
  relays : ℕ → Shuffle
  /-- When each path is built. -/
  built : ℕ → Instant

section Paths

variable {F : Type} [F64 F]

open F64 (lit)

/-- Check if a path meets the selection criteria. -/
def meetsCriteria (path : RoutePath F) (criteria : RouteSelectionCriteria F) : Bool :=
  if criteria.maxLatency.any fun max => decide (max < path.latency) then false
  else if F64.lt path.reliability criteria.minReliability then false
  else if criteria.minBandwidth.any fun min =>
      (path.bandwidthCapacity.map fun bandwidth => decide (bandwidth < min)).getD true then false
  else if criteria.requireDarkAddressing && !path.supportsDarkAddressing then false
  else if criteria.requireOnionRouting && !path.supportsOnionRouting then false
  else true

namespace Router

variable (peers : HashMap LibP2PPeerId (DiscoveredPeer F))

/-- Calculate latency for a path. -/
def calculatePathLatency (hops : List LibP2PPeerId) : Duration :=
  hops.foldl (fun total hop =>
    -- 50 ms is the default estimate.
    total + ((peers.lookup hop).map DiscoveredPeer.avgResponseTime).getD 50000000) 0

/-- Calculate reliability for a path. -/
def calculatePathReliability (hops : List LibP2PPeerId) : F :=
  hops.foldl (fun reliability hop =>
    F64.mul reliability
      (((peers.lookup hop).map DiscoveredPeer.reliabilityScore).getD (lit (9 / 10)))) (lit 1)

/-- The loop over the hops that finds the smallest bandwidth. -/
def minBandwidth : UInt64 → List LibP2PPeerId → Option UInt64
  | bandwidth, [] => some bandwidth
  | bandwidth, hop :: hops =>
    match (peers.lookup hop).bind DiscoveredPeer.bandwidthCapacity with
    | some bw => minBandwidth (min bandwidth bw) hops
    | none => none

/-- Calculate bandwidth for a path. -/
def calculatePathBandwidth (hops : List LibP2PPeerId) : Option UInt64 :=
  match minBandwidth peers 0xFFFFFFFFFFFFFFFF hops with
  | some bandwidth => if bandwidth = 0xFFFFFFFFFFFFFFFF then none else some bandwidth
  | none => none

/-- The peers that can relay a message to another one. -/
def relaysTo (draws : PathDraws F) (destination : LibP2PPeerId) : List LibP2PPeerId :=
  ((draws.order.order peers).filter fun e => decide (e.1 ≠ destination) && e.2.canRelay).map
    Prod.fst

/-- Select hops for onion routing. -/
def selectOnionHops (draws : PathDraws F) (i : ℕ) (destination : LibP2PPeerId) (hopCount : ℕ) :
    Except RoutingError (List LibP2PPeerId) :=
  let available := relaysTo peers draws destination
  if available.length < hopCount then .error .topologyInsufficient
  else .ok (((draws.relays i).shuffle available).take hopCount ++ [destination])

/-- Build a path to a specific peer. -/
def buildPathToPeer (draws : PathDraws F) (i : ℕ) (destination : LibP2PPeerId)
    (criteria : RouteSelectionCriteria F) : Except RoutingError (RoutePath F) := do
  let hops ←
    if criteria.requireOnionRouting then selectOnionHops peers draws i destination 3
    else .ok [destination]
  .ok {
    hops
    latency := calculatePathLatency peers hops
    reliability := calculatePathReliability peers hops
    bandwidthCapacity := calculatePathBandwidth peers hops
    createdAt := draws.built i
    supportsDarkAddressing := criteria.requireDarkAddressing
    supportsOnionRouting := criteria.requireOnionRouting }

/-- Build a path to each of the selected peers. -/
def buildPaths (draws : PathDraws F) (criteria : RouteSelectionCriteria F) :
    ℕ → List LibP2PPeerId → Except RoutingError (List (RoutePath F))
  | _, [] => .ok []
  | i, peerId :: peerIds => do
    let path ← buildPathToPeer peers draws i peerId criteria
    let paths ← buildPaths draws criteria (i + 1) peerIds
    .ok (path :: paths)

variable {peers}

/-- The cached paths that can be used. -/
def validPaths (draws : PathDraws F) (destination : LibP2PPeerId)
    (criteria : RouteSelectionCriteria F) (self : Router F) : List (RoutePath F) :=
  ((self.routeCache.lookup destination).getD []).filter fun p =>
    decide (p.createdAt.elapsed draws.now < self.cacheTtl) && meetsCriteria p criteria

/-- The healthy peers. -/
def candidates (draws : PathDraws F) (self : Router F) : List (DiscoveredPeer F) :=
  ((draws.order.order self.peers).map Prod.snd).filter DiscoveredPeer.isHealthy

/-- Finds multiple disjoint paths to a destination. -/
def findPaths (draws : PathDraws F) (destination : LibP2PPeerId)
    (criteria : RouteSelectionCriteria F) (self : Router F) :
    Except RoutingError (List (RoutePath F)) × Router F :=
  if (self.validPaths draws destination criteria).isEmpty then
    if (self.candidates draws).isEmpty then (.error .noRoute, self)
    else
      let selected := self.peerSelector.selectPeers draws.selection (self.candidates draws)
        criteria.redundancyLevel.pathCount self.scoringConfig
      let self := { self with peerSelector := selected.2 }
      match buildPaths self.peers draws criteria 0 selected.1 with
      | .error e => (.error e, self)
      | .ok paths =>
        (.ok paths, { self with
          routeCache := self.routeCache.insert destination paths
          totalMessages := self.totalMessages + 1 })
  else
    (.ok (self.validPaths draws destination criteria),
      { self with cacheHitRate := F64.div (F64.add self.cacheHitRate (lit 1)) (lit 2) })

end Router

/-- There are paths, they end at the destination and repeat no hop, and they meet the criteria. -/
structure Reaches (destination : LibP2PPeerId) (criteria : RouteSelectionCriteria F)
    (paths : List (RoutePath F)) : Prop where
  nonempty : paths ≠ []
  last : ∀ p ∈ paths, p.hops.getLast? = some destination
  nodup : ∀ p ∈ paths, p.hops.Nodup
  meets : ∀ p ∈ paths, meetsCriteria p criteria = true

namespace Router

/-- The hops of the path to a peer. -/
def hopsTo (draws : PathDraws F) (criteria : RouteSelectionCriteria F) (self : Router F) (i : ℕ)
    (peerId : LibP2PPeerId) : List LibP2PPeerId :=
  if criteria.requireOnionRouting then
    ((draws.relays i).shuffle (relaysTo self.peers draws peerId)).take 3 ++ [peerId]
  else [peerId]

/-- Hops that are fast, reliable and wide enough for the criteria. -/
structure Affords (criteria : RouteSelectionCriteria F) (router : Router F)
    (hops : List LibP2PPeerId) : Prop where
  latency : ∀ max, criteria.maxLatency = some max → calculatePathLatency router.peers hops ≤ max
  reliability : F64.lt (calculatePathReliability router.peers hops) criteria.minReliability = false
  bandwidth : ∀ min, criteria.minBandwidth = some min →
    ∃ bandwidth, calculatePathBandwidth router.peers hops = some bandwidth ∧ min ≤ bandwidth

/-- The peers that the selector picks. -/
def picks (draws : PathDraws F) (criteria : RouteSelectionCriteria F) (self : Router F) :
    List (DiscoveredPeer F) :=
  self.peerSelector.picks draws.selection (self.candidates draws)
    criteria.redundancyLevel.pathCount self.scoringConfig

/-- The cached paths that can be used end at the destination and repeat no hop. If there are none,
but some peer is healthy and there are enough relays, the selector picks somebody, and nobody but
the destination, and the hops to it are good enough. -/
structure Servable (draws : PathDraws F) (destination : LibP2PPeerId)
    (criteria : RouteSelectionCriteria F) (router : Router F) : Prop where
  cached : ∀ p ∈ router.validPaths draws destination criteria,
    p.hops.getLast? = some destination ∧ p.hops.Nodup
  built : router.validPaths draws destination criteria = [] → router.candidates draws ≠ [] →
    (criteria.requireOnionRouting = true → ∀ peer ∈ router.picks draws criteria,
      3 ≤ (relaysTo router.peers draws peer.peerId).length) →
    router.picks draws criteria ≠ [] ∧
      ∀ i peer, (router.picks draws criteria)[i]? = some peer →
        peer.peerId = destination ∧
          router.Affords criteria (router.hopsTo draws criteria i destination)

/-! ## Paths that are built -/

variable {draws : PathDraws F} {criteria : RouteSelectionCriteria F} {self : Router F}
  {destination peerId : LibP2PPeerId}

/-- The path to a peer. -/
def pathTo (draws : PathDraws F) (criteria : RouteSelectionCriteria F) (self : Router F) (i : ℕ)
    (peerId : LibP2PPeerId) : RoutePath F where
  hops := self.hopsTo draws criteria i peerId
  latency := calculatePathLatency self.peers (self.hopsTo draws criteria i peerId)
  reliability := calculatePathReliability self.peers (self.hopsTo draws criteria i peerId)
  bandwidthCapacity := calculatePathBandwidth self.peers (self.hopsTo draws criteria i peerId)
  createdAt := draws.built i
  supportsDarkAddressing := criteria.requireDarkAddressing
  supportsOnionRouting := criteria.requireOnionRouting

omit [F64 F] in
/-- A path ends at the peer that it is built to. -/
lemma getLast?_hopsTo (i : ℕ) : (self.hopsTo draws criteria i peerId).getLast? = some peerId := by
  unfold hopsTo
  split_ifs
  · rw [List.getLast?_append, List.getLast?_singleton]
    rfl
  · rfl

omit [F64 F] in
/-- **A path that is built repeats no hop**: the relays are keys of a map, and the peer is not one
of them. -/
lemma nodup_hopsTo (i : ℕ) : (self.hopsTo draws criteria i peerId).Nodup := by
  unfold hopsTo
  split_ifs
  · have hperm := (draws.relays i).shuffle_perm (relaysTo self.peers draws peerId)
    have hrelays : (relaysTo self.peers draws peerId).Nodup :=
      (draws.order.enumerates self.peers).1.sublist (List.filter_sublist.map Prod.fst)
    have htake := (List.take_sublist 3 ((draws.relays i).shuffle
      (relaysTo self.peers draws peerId))).nodup (hperm.nodup_iff.mpr hrelays)
    refine List.nodup_append.mpr ⟨htake, List.nodup_singleton _, fun a ha b hb hab => ?_⟩
    obtain ⟨e, he, rfl⟩ := List.mem_map.mp (hperm.mem_iff.mp (List.mem_of_mem_take ha))
    have hne := (List.mem_filter.mp he).2
    rw [hab, List.mem_singleton.mp hb] at hne
    simp at hne
  · exact List.nodup_singleton _

/-- A path is built iff there are enough relays. -/
lemma buildPathToPeer_eq_ok {i : ℕ} {path : RoutePath F} :
    buildPathToPeer self.peers draws i peerId criteria = .ok path ↔
      (criteria.requireOnionRouting = true → 3 ≤ (relaysTo self.peers draws peerId).length) ∧
        path = self.pathTo draws criteria i peerId := by
  unfold buildPathToPeer selectOnionHops pathTo hopsTo
  by_cases honion : criteria.requireOnionRouting = true
  · rw [if_pos honion, if_pos honion]
    by_cases hfew : (relaysTo self.peers draws peerId).length < 3
    · rw [if_pos hfew]
      exact iff_of_false nofun fun h => absurd (h.1 honion) (Nat.not_le.mpr hfew)
    · rw [if_neg hfew]
      exact ⟨fun h => ⟨fun _ => Nat.not_lt.mp hfew, (Except.ok.inj h).symm⟩,
        fun h => congrArg Except.ok h.2.symm⟩
  · rw [if_neg honion, if_neg honion]
    exact ⟨fun h => ⟨fun honion' => absurd honion' honion, (Except.ok.inj h).symm⟩,
      fun h => congrArg Except.ok h.2.symm⟩

/-- **The paths that are built**: one to each peer that was selected, if there are enough relays. -/
lemma buildPaths_eq_ok {paths : List (RoutePath F)} : ∀ {i : ℕ} {peerIds : List LibP2PPeerId},
    buildPaths self.peers draws criteria i peerIds = .ok paths ↔
      (criteria.requireOnionRouting = true →
        ∀ peerId ∈ peerIds, 3 ≤ (relaysTo self.peers draws peerId).length) ∧
      paths = peerIds.mapIdx fun j peerId => self.pathTo draws criteria (i + j) peerId := by
  intro i peerIds
  induction peerIds generalizing i paths with
  | nil =>
    exact ⟨fun h => ⟨fun _ _ hp => absurd hp List.not_mem_nil, (Except.ok.inj h).symm⟩,
      fun h => congrArg Except.ok h.2.symm⟩
  | cons peerId peerIds ih =>
    have htail (j : ℕ) (peerId : LibP2PPeerId) :
        self.pathTo draws criteria (i + 1 + j) peerId =
          self.pathTo draws criteria (i + (j + 1)) peerId := by
      rw [Nat.add_assoc, Nat.add_comm 1 j]
    rw [buildPaths, bind_eq_ok]
    constructor
    · rintro ⟨path, hpath, hbind⟩
      obtain ⟨rest, hrest, heq⟩ := bind_eq_ok.mp hbind
      obtain ⟨hfirst, rfl⟩ := buildPathToPeer_eq_ok.mp hpath
      obtain ⟨hothers, rfl⟩ := ih.mp hrest
      obtain rfl := Except.ok.inj heq
      refine ⟨fun honion p hp => ?_, ?_⟩
      · rcases List.mem_cons.mp hp with rfl | hp
        · exact hfirst honion
        · exact hothers honion p hp
      · simp only [List.mapIdx_cons, htail, Nat.add_zero]
    · rintro ⟨hrelays, rfl⟩
      have hfirst : buildPathToPeer self.peers draws i peerId criteria =
          .ok (self.pathTo draws criteria i peerId) :=
        buildPathToPeer_eq_ok.mpr ⟨fun honion => hrelays honion peerId List.mem_cons_self, rfl⟩
      have hothers := (@ih _ (i + 1)).mpr
        ⟨fun honion p hp => hrelays honion p (List.mem_cons_of_mem _ hp), rfl⟩
      refine ⟨_, hfirst, bind_eq_ok.mpr ⟨_, hothers, ?_⟩⟩
      simp only [List.mapIdx_cons, htail, Nat.add_zero]

/-- A path that is built meets the criteria iff its hops are good enough. -/
lemma meetsCriteria_pathTo (i : ℕ) :
    meetsCriteria (self.pathTo draws criteria i peerId) criteria = true ↔
      self.Affords criteria (self.hopsTo draws criteria i peerId) := by
  have hnone (b : Bool) : (b && !b) = false := Bool.and_not_self b
  have hmeets : meetsCriteria (self.pathTo draws criteria i peerId) criteria = true ↔
      (criteria.maxLatency.any fun max =>
        decide (max < calculatePathLatency self.peers (self.hopsTo draws criteria i peerId))) =
          false ∧
      F64.lt (calculatePathReliability self.peers (self.hopsTo draws criteria i peerId))
        criteria.minReliability = false ∧
      (criteria.minBandwidth.any fun min =>
        ((calculatePathBandwidth self.peers (self.hopsTo draws criteria i peerId)).map
          fun bandwidth => decide (bandwidth < min)).getD true) = false := by
    unfold meetsCriteria pathTo
    dsimp only
    rw [hnone, hnone, if_neg Bool.false_ne_true, if_neg Bool.false_ne_true]
    split_ifs with hlatency hreliability hbandwidth
    · simp [hlatency]
    · simp [hreliability]
    · simp [hbandwidth]
    · simp [hlatency, hreliability, hbandwidth]
  rw [hmeets]
  constructor
  · rintro ⟨hlatency, hreliability, hbandwidth⟩
    refine ⟨fun max hmax => ?_, hreliability, fun min hmin => ?_⟩
    · rw [hmax] at hlatency
      simpa using hlatency
    · rw [hmin] at hbandwidth
      cases hpath : calculatePathBandwidth self.peers (self.hopsTo draws criteria i peerId) with
      | none =>
        rw [hpath] at hbandwidth
        exact nomatch hbandwidth
      | some bandwidth =>
        rw [hpath] at hbandwidth
        exact ⟨bandwidth, rfl, by simpa using hbandwidth⟩
  · rintro ⟨hlatency, hreliability, hbandwidth⟩
    refine ⟨?_, hreliability, ?_⟩
    · cases hmax : criteria.maxLatency with
      | none => rfl
      | some max => simpa using hlatency max hmax
    · cases hmin : criteria.minBandwidth with
      | none => rfl
      | some min =>
        obtain ⟨bandwidth, hpath, hle⟩ := hbandwidth min hmin
        rw [hpath]
        simpa using hle

/-- The paths to the peers that the selector picks. -/
def pathsTo (draws : PathDraws F) (criteria : RouteSelectionCriteria F) (self : Router F) :
    List (RoutePath F) :=
  ((self.picks draws criteria).map DiscoveredPeer.peerId).mapIdx fun i peerId =>
    self.pathTo draws criteria i peerId

/-- There are relays for every path. -/
def EnoughRelays (draws : PathDraws F) (criteria : RouteSelectionCriteria F) (self : Router F) :
    Prop :=
  criteria.requireOnionRouting = true → ∀ peer ∈ self.picks draws criteria,
    3 ≤ (relaysTo self.peers draws peer.peerId).length

lemma mem_pathsTo {p : RoutePath F} : p ∈ self.pathsTo draws criteria ↔
    ∃ i peer, (self.picks draws criteria)[i]? = some peer ∧
      p = self.pathTo draws criteria i peer.peerId := by
  rw [pathsTo, List.mem_iff_getElem?]
  refine exists_congr fun i => ?_
  rw [List.getElem?_mapIdx, List.getElem?_map]
  cases (self.picks draws criteria)[i]? with
  | none => simp
  | some peer => simp [eq_comm]

/-- **Which paths are found.** -/
lemma findPaths_eq_ok {paths : List (RoutePath F)} :
    (self.findPaths draws destination criteria).1 = .ok paths ↔
      (self.validPaths draws destination criteria ≠ [] ∧
        paths = self.validPaths draws destination criteria) ∨
      (self.validPaths draws destination criteria = [] ∧ self.candidates draws ≠ [] ∧
        self.EnoughRelays draws criteria ∧ paths = self.pathsTo draws criteria) := by
  have hselected : (self.peerSelector.selectPeers draws.selection (self.candidates draws)
      criteria.redundancyLevel.pathCount self.scoringConfig).1 =
        (self.picks draws criteria).map DiscoveredPeer.peerId := rfl
  have hbuilt : buildPaths self.peers draws criteria 0
      ((self.picks draws criteria).map DiscoveredPeer.peerId) = .ok paths ↔
        self.EnoughRelays draws criteria ∧ paths = self.pathsTo draws criteria := by
    rw [buildPaths_eq_ok, pathsTo, EnoughRelays]
    simp only [List.forall_mem_map, Nat.zero_add]
  unfold findPaths
  simp only [hselected, List.isEmpty_iff]
  rw [← hbuilt]
  by_cases hvalid : self.validPaths draws destination criteria = []
  · rw [if_pos hvalid]
    by_cases hcandidates : self.candidates draws = []
    · rw [if_pos hcandidates]
      simp [hvalid, hcandidates]
    · rw [if_neg hcandidates]
      cases buildPaths self.peers draws criteria 0
          ((self.picks draws criteria).map DiscoveredPeer.peerId) with
      | error e => simp [hvalid]
      | ok built => simp [hvalid, hcandidates]
  · rw [if_neg hvalid]
    constructor
    · exact fun h => Or.inl ⟨hvalid, (Except.ok.inj h).symm⟩
    · rintro (⟨-, rfl⟩ | ⟨hnone, -⟩)
      · rfl
      · exact absurd hnone hvalid

/-- **The paths that are found reach the destination iff it can be served**: the cached paths that
can be used lead to it, or nothing else is picked and the hops are good enough. -/
theorem reaches_iff_servable (draws : PathDraws F) (destination : LibP2PPeerId)
    (criteria : RouteSelectionCriteria F) (router : Router F) :
    (∀ paths, (router.findPaths draws destination criteria).1 = .ok paths →
        Reaches destination criteria paths) ↔ router.Servable draws destination criteria := by
  constructor
  · intro h
    refine ⟨fun p hp => ?_, fun hvalid hcandidates hrelays => ?_⟩
    · have hreaches := h _ (findPaths_eq_ok.mpr (Or.inl ⟨List.ne_nil_of_mem hp, rfl⟩))
      exact ⟨hreaches.last p hp, hreaches.nodup p hp⟩
    · have hreaches := h _ (findPaths_eq_ok.mpr (Or.inr ⟨hvalid, hcandidates, hrelays, rfl⟩))
      refine ⟨fun hnil => hreaches.nonempty (by rw [pathsTo, hnil]; rfl), fun i peer hpeer => ?_⟩
      have hmem := mem_pathsTo.mpr ⟨i, peer, hpeer, rfl⟩
      have hdestination : peer.peerId = destination :=
        Option.some.inj ((getLast?_hopsTo i).symm.trans (hreaches.last _ hmem))
      rw [← hdestination]
      exact ⟨rfl, (meetsCriteria_pathTo i).mp (hreaches.meets _ hmem)⟩
  · intro h paths hpaths
    rcases findPaths_eq_ok.mp hpaths with ⟨hvalid, rfl⟩ | ⟨hvalid, hcandidates, hrelays, rfl⟩
    · refine ⟨hvalid, fun p hp => (h.cached p hp).1, fun p hp => (h.cached p hp).2, fun p hp => ?_⟩
      have htest := (List.mem_filter.mp hp).2
      simp only [Bool.and_eq_true] at htest
      exact htest.2
    · obtain ⟨hne, hall⟩ := h.built hvalid hcandidates hrelays
      refine ⟨fun hnil => ?_, fun p hp => ?_, fun p hp => ?_, fun p hp => ?_⟩
      · obtain ⟨peer, hpeer⟩ := List.exists_mem_of_ne_nil _ hne
        obtain ⟨i, hi⟩ := List.getElem?_of_mem hpeer
        have hmem := mem_pathsTo.mpr ⟨i, peer, hi, rfl⟩
        rw [hnil] at hmem
        exact absurd hmem List.not_mem_nil
      · obtain ⟨i, peer, hpeer, rfl⟩ := mem_pathsTo.mp hp
        rw [← (hall i peer hpeer).1]
        exact getLast?_hopsTo i
      · obtain ⟨i, peer, -, rfl⟩ := mem_pathsTo.mp hp
        exact nodup_hopsTo i
      · obtain ⟨i, peer, hpeer, rfl⟩ := mem_pathsTo.mp hp
        obtain ⟨hdestination, haffords⟩ := hall i peer hpeer
        rw [hdestination]
        exact (meetsCriteria_pathTo i).mpr haffords

/-! ## A path to somebody else -/

/-- Exact numbers. -/
instance instF64Rat : F64 ℚ where
  lit q := q
  add := (· + ·)
  sub := (· - ·)
  mul := (· * ·)
  div := (· / ·)
  min a b := if a ≤ b then a else b
  max a b := if a ≤ b then b else a
  lt a b := decide (a < b)
  le a b := decide (a ≤ b)

/-- A healthy peer. -/
def samplePeer : DiscoveredPeer ℚ :=
  ⟨[1], 0, none, 0, 0, [], [], true, none, 1, 1, false, 0, .closed⟩

/-- A router that knows one peer. -/
def sampleRouter : Router ℚ :=
  ⟨(∅ : HashMap LibP2PPeerId (DiscoveredPeer ℚ)).insert [1] samplePeer, ∅,
    ⟨[], .bestFirst, [], ∅⟩, ⟨false⟩, 300000000000, 0, 0⟩

/-- No criteria. -/
def sampleCriteria : RouteSelectionCriteria ℚ := ⟨none, 0, none, .none, false, false⟩

/-- Nothing is shuffled, and no time passes. -/
noncomputable def sampleDraws : PathDraws ℚ :=
  ⟨0, .arbitrary, .keep, fun _ => .keep, fun _ => 0⟩

/-- The path to a peer that is not known ends at the peer that is known. -/
theorem not_reaches_samplePeer : ¬∀ paths,
    (sampleRouter.findPaths sampleDraws [2] sampleCriteria).1 = .ok paths →
      Reaches [2] sampleCriteria paths := by
  intro h
  have horder : sampleDraws.order.order sampleRouter.peers = [([1], samplePeer)] := by
    have hone : sampleRouter.peers.Enumerates [([1], samplePeer)] :=
      HashMap.Enumerates.empty.insert Finmap.notMem_empty samplePeer
    exact hone.unique_iff.mpr (by decide) _ (sampleDraws.order.enumerates _)
  have hcandidates : sampleRouter.candidates sampleDraws = [samplePeer] := by
    have hhealthy : samplePeer.isHealthy = true := by decide +kernel
    rw [candidates, horder]
    exact List.filter_cons_of_pos hhealthy
  have hpicks : sampleRouter.picks sampleDraws sampleCriteria = [samplePeer] := by
    have heligible : [samplePeer].filter sampleRouter.peerSelector.eligible = [samplePeer] :=
      List.filter_cons_of_pos (by decide +kernel)
    rw [picks, PeerSelector.picks, hcandidates, heligible]
    exact congrArg (List.take 1) (List.mergeSort_singleton samplePeer)
  have hpaths : sampleRouter.pathsTo sampleDraws sampleCriteria =
      [sampleRouter.pathTo sampleDraws sampleCriteria 0 [1]] := by
    rw [pathsTo, hpicks]
    rfl
  have hreaches := h _ (findPaths_eq_ok.mpr (Or.inr ⟨rfl, by rw [hcandidates]; nofun, nofun, rfl⟩))
  have hlast := hreaches.last _ (by rw [hpaths]; exact List.mem_singleton_self _)
  have hfound : (sampleRouter.pathTo sampleDraws sampleCriteria 0 [1]).hops.getLast? = some [1] :=
    @getLast?_hopsTo ℚ sampleDraws sampleCriteria sampleRouter [1] 0
  exact absurd (hfound.symm.trans hlast) (by decide)

end Router

end Paths

end QuDAG.Network.Routing
