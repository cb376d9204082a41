import QuDAG.Lib.SharedLocking
import QuDAG.Network.ConnectionLimit
import QuDAG.Network.ConnectionPool

/-!
# The shard locks of connections (`connection.rs`, `connection_pool.rs`)

The maps of a connection manager and of a connection pool are split into shards by the hash of the
peer. A reference from `get` and an item of `iter` hold the lock of their shard for reading, and
`get_mut`, `insert`, `remove` and `entry` take it for writing. A manager removes a stale connection
while it holds the reference to it, and the maintenance of a pool adds connections to the map that
it iterates over.

## Main definitions

* `Managed.ConnectionManager.connectLocking`, `ConnectionPool.maintainMinimumSizeLocking` — the
  operations with the locks that they take.
* `Managed.ConnectionManager.FindsStale`, `ConnectionPool.AddsWhileIterating` — the states on which
  they get stuck.

## Main results

* `Managed.ConnectionManager.run_connectLocking`, `ConnectionPool.run_maintainMinimumSizeLocking` —
  the operations do what the ones without locks do, or get stuck.
* `completes_iff` — when they complete.

## Implementation notes

Locks of other tasks are given back in the end and left out. Making a connection takes no lock.
-/

namespace QuDAG.Network

open RustStd SharedLocking
open QuDAG.Protocol (PeerId)

variable {κ : Type} [DecidableEq κ]

/-! ## Connecting -/

namespace Managed

/-- The concurrent maps of a connection manager. -/
inductive ManagerMap
  | connections
  | connectionPool
  | qualityScores
  | circuitBreakers
  deriving DecidableEq, Repr

namespace ConnectionManager

variable {F Peer : Type} [F64Truncate F] [DecidableEq Peer]

/-- Make a new connection, within the limit. -/
def connectNewLocking (S : Sharding Peer κ) (checks : Bool) (peer : Peer) (attempt : Attempt) :
    SharedLocking (ManagerMap × κ) (ConnectionManager F Peer) (Except ConnectionFault Unit) := do
  -- the number of connections is added up over the shards
  S.visit .connections fun _ => pure ()
  let self ← get
  if self.maxConnections ≤ self.connections.keys.card then
    return .error (.connectionError "Max connections reached")
  S.access .connections peer .write <| modify fun self =>
    { self with connections := self.connections.insert peer (.new .connecting attempt.started) }
  let record := S.access .circuitBreakers peer .write <| modify fun self =>
    let breaker := (self.circuitBreakers.lookup peer).getD .default
    { self with
      circuitBreakers :=
        self.circuitBreakers.insert peer (breaker.recordResult attempt.success attempt.recorded) }
  if attempt.success then
    let connected := (ConnectionInfo.new .connected attempt.ended).updateActivity checks true
      attempt.connectionTime 0 attempt.noted
    S.access .connections peer .write <| modify fun self =>
      { self with connections := self.connections.insert peer connected.2 }
    S.access .qualityScores peer .write <| pure ()
    record
    return .ok ()
  else
    S.access .connections peer .write <| modify fun self =>
      { self with
        connections :=
          self.connections.insert peer (.new (.failed "Connection timeout") attempt.ended) }
    record
    return .error (.connectionError "Failed to establish connection")

/-- Look for the connection in the pool. The reference to the entry lives through both branches. -/
def connectPooledLocking (S : Sharding Peer κ) (peer : Peer) (attempt : Attempt) :
    SharedLocking (ManagerMap × κ) (ConnectionManager F Peer)
      (Option (Except ConnectionFault Unit)) :=
  S.access .connectionPool peer .read do
    let self ← get
    match self.connectionPool.lookup peer with
    | none => return none
    | some (info, lastUsed) =>
      if Instant.elapsed lastUsed attempt.looked < self.poolTimeout ∧
          info.isHealthy attempt.checked = true then
        S.access .connections peer .write <| modify fun self =>
          { self with connections := self.connections.insert peer info }
        S.access .circuitBreakers peer .write <| modify (recordResult peer true attempt.recorded)
        return some (.ok ())
      else
        S.access .connectionPool peer .write <| modify fun self =>
          { self with connectionPool := self.connectionPool.erase peer }
        return none

/-- Initiates a connection to a peer with automatic pooling and reuse. -/
def connectLocking (S : Sharding Peer κ) (checks : Bool) (peer : Peer) (attempt : Attempt) :
    SharedLocking (ManagerMap × κ) (ConnectionManager F Peer) (Except ConnectionFault Unit) := do
  let allowed ← S.access .circuitBreakers peer .write (step (allowRequest peer attempt.asked))
  if allowed = false then
    return .error (.connectionError "Circuit breaker is open for this peer")
  match ← connectPooledLocking S peer attempt with
  | some result => return result
  | none => connectNewLocking S checks peer attempt

variable {S : Sharding Peer κ} (checks : Bool) (peer : Peer) (attempt : Attempt)
  (self : ConnectionManager F Peer)

/-- A new connection takes one lock at a time. -/
lemma run_connectNewLocking :
    (connectNewLocking S checks peer attempt).run ∅ self =
      some (self.connectNew checks peer attempt) := by
  have hlen : (S.visit ManagerMap.connections fun _ => pure ()).run ∅ self = some ((), self) :=
    S.run_visit_eq_self fun _ _ => rfl
  rw [connectNewLocking, run_bind, hlen, Option.bind_some, run_bind, run_get, Option.bind_some,
    connectNew]
  by_cases hfull : self.maxConnections ≤ self.connections.keys.card
  · rw [if_pos hfull, if_pos hfull]
    rfl
  · rw [if_neg hfull, if_neg hfull]
    cases hsuccess : attempt.success
    · simp
    · simp

/-- A pooled connection can be reused: it has not expired, and is healthy. -/
def Reusable (attempt : Attempt) (self : ConnectionManager F Peer)
    (entry : ConnectionInfo F × Instant) : Prop :=
  Instant.elapsed entry.2 attempt.looked < self.poolTimeout ∧
    entry.1.isHealthy attempt.checked = true

/-- The breaker lets the request through, and the pool holds an entry for the peer that cannot be
reused. -/
def FindsStale (peer : Peer) (attempt : Attempt) (self : ConnectionManager F Peer) : Prop :=
  (self.allowRequest peer attempt.asked).1 = true ∧
    ∃ entry, self.connectionPool.lookup peer = some entry ∧ ¬self.Reusable attempt entry

omit [F64Truncate F] in
/-- Asking a breaker leaves the pool alone. -/
lemma pool_allowRequest (now : Instant) :
    (self.allowRequest peer now).2.connectionPool = self.connectionPool ∧
      (self.allowRequest peer now).2.poolTimeout = self.poolTimeout := by
  unfold allowRequest
  cases self.circuitBreakers.lookup peer with
  | none => exact ⟨rfl, rfl⟩
  | some breaker => exact ⟨rfl, rfl⟩

/-- Without an entry in the pool, the look into it changes nothing. -/
lemma run_connectPooledLocking_of_missing (h : self.connectionPool.lookup peer = none) :
    (connectPooledLocking S peer attempt).run ∅ self = some (none, self) := by
  rw [connectPooledLocking, Sharding.run_access_empty, run_bind, run_get, Option.bind_some, h]
  rfl

section Entry

variable {self} {info : ConnectionInfo F} {lastUsed : Instant}
  (h : self.connectionPool.lookup peer = some (info, lastUsed))

include h

/-- A fresh entry is reused: the two locks that are taken belong to other maps. -/
lemma run_connectPooledLocking_of_fresh
    (hfresh : self.Reusable attempt (info, lastUsed)) :
    (connectPooledLocking S peer attempt).run ∅ self =
      some (some (.ok ()), recordResult peer true attempt.recorded
        { self with connections := self.connections.insert peer info }) := by
  rw [connectPooledLocking, Sharding.run_access_empty, run_bind, run_get, Option.bind_some, h]
  simp only [if_pos (show _ ∧ _ from hfresh)]
  rw [run_bind, Sharding.run_access_of_ne _ (by decide), run_modify, Option.bind_some, run_bind,
    Sharding.run_access_of_ne _ (by decide), run_modify, Option.bind_some, run_pure]

/-- A stale entry: the reference to it is alive when it is removed. -/
lemma run_connectPooledLocking_of_stale
    (hstale : ¬self.Reusable attempt (info, lastUsed)) :
    (connectPooledLocking S peer attempt).run ∅ self = none := by
  rw [connectPooledLocking, Sharding.run_access_empty, run_bind, run_get, Option.bind_some, h]
  simp only [if_neg (show ¬(_ ∧ _) from hstale)]
  rw [run_bind, Sharding.run_access_write _ _ _ _ _ rfl, Option.bind_none]

end Entry

/-- Connecting takes the locks of a connection attempt, and gets stuck where that waits for a lock
of its own. -/
theorem run_connectLocking :
    (connectLocking S checks peer attempt).run ∅ self =
      (self.connect checks false peer attempt).1.map
        fun result => (result, (self.connect checks false peer attempt).2) := by
  rw [connectLocking, run_bind, Sharding.run_access_empty, run_step, Option.bind_some, connect]
  set asked := self.allowRequest peer attempt.asked with hasked
  by_cases hallow : asked.1 = false
  · simp only [if_pos hallow]
    rfl
  simp only [if_neg hallow]
  rw [run_bind]
  cases hlookup : asked.2.connectionPool.lookup peer with
  | none =>
    rw [run_connectPooledLocking_of_missing _ _ _ hlookup, Option.bind_some,
      run_connectNewLocking]
    rfl
  | some entry =>
    obtain ⟨info, lastUsed⟩ := entry
    by_cases hfresh : asked.2.Reusable attempt (info, lastUsed)
    · rw [run_connectPooledLocking_of_fresh _ _ hlookup hfresh]
      simp only [if_pos (show _ ∧ _ from hfresh)]
      rfl
    · rw [run_connectPooledLocking_of_stale _ _ hlookup hfresh]
      simp only [if_neg (show ¬(_ ∧ _) from hfresh)]
      rfl

/-- It gets stuck exactly on a stale entry. -/
lemma connect_eq_none_iff :
    (self.connect checks false peer attempt).1 = none ↔ FindsStale peer attempt self := by
  obtain ⟨hpool, htimeout⟩ := pool_allowRequest peer self attempt.asked
  have hreusable : ∀ entry, (self.allowRequest peer attempt.asked).2.Reusable attempt entry ↔
      self.Reusable attempt entry := fun entry => by rw [Reusable, Reusable, htimeout]
  rw [connect, FindsStale]
  cases hallow : (self.allowRequest peer attempt.asked).1 with
  | false => simp
  | true =>
    rw [← hpool]
    cases hlookup : (self.allowRequest peer attempt.asked).2.connectionPool.lookup peer with
    | none => simp
    | some entry =>
      have hiff : (∃ entry', some entry = some entry' ∧ ¬self.Reusable attempt entry') ↔
          ¬(self.allowRequest peer attempt.asked).2.Reusable attempt entry := by
        rw [hreusable]
        exact ⟨fun ⟨_, heq, h⟩ => Option.some.inj heq ▸ h, fun h => ⟨entry, rfl, h⟩⟩
      rw [hiff, Reusable]
      by_cases hfresh : Instant.elapsed entry.2 attempt.looked <
          (self.allowRequest peer attempt.asked).2.poolTimeout ∧
        entry.1.isHealthy attempt.checked = true
      · simp [hfresh]
      · simp [hfresh]

end ConnectionManager

end Managed

/-! ## Maintenance -/

/-- The concurrent maps of a connection pool that its maintenance uses. -/
inductive PoolMap
  | available
  | active
  deriving DecidableEq, Repr

namespace ConnectionPool

/-- Get total connection count, adding up over the shards. -/
def getTotalConnectionCountLocking (S : Sharding PeerId κ) :
    SharedLocking (PoolMap × κ) ConnectionPool ℕ := do
  S.visit .available fun _ => pure ()
  S.visit .active fun _ => pure ()
  let self ← get
  return self.getTotalConnectionCount

/-- Create the connections that are missing, for one peer. -/
def addConnections (S : Sharding PeerId κ) (created : Instant) (needed : ℕ) (peer : PeerId) :
    SharedLocking (PoolMap × κ) ConnectionPool Unit :=
  forM (List.range needed) fun _ =>
    S.access .available peer .write <| modify fun self =>
      { self with
        available := self.available.insert peer
          ((self.available.lookup peer).getD [] ++ [createConnection created]) }

/-- The peers in a shard of the available connections, as they are iterated over. -/
def peersIn (S : Sharding PeerId κ) (order : HashMap.Iteration PeerId (List PooledConnection))
    (self : ConnectionPool) (k : κ) : List PeerId :=
  ((order.order self.available).map Prod.fst).filter fun peer => S.shard peer = k

/-- Maintain minimum pool size. -/
def maintainMinimumSizeLocking (S : Sharding PeerId κ)
    (order : HashMap.Iteration PeerId (List PooledConnection)) (created : Instant) :
    SharedLocking (PoolMap × κ) ConnectionPool Unit := do
  let totalCount ← getTotalConnectionCountLocking S
  let self ← get
  if totalCount < self.config.minSize then
    let needed := self.config.minSize - totalCount
    -- create connections for known peers, with the item of the iteration alive
    S.visit .available fun k => do
      let self ← get
      forM (self.peersIn S order k) (addConnections S created needed)

variable {S : Sharding PeerId κ} {order : HashMap.Iteration PeerId (List PooledConnection)}
  (created : Instant) (self : ConnectionPool)

/-- There are too few connections, and the map of the available ones has an entry. -/
def AddsWhileIterating (self : ConnectionPool) : Prop :=
  self.getTotalConnectionCount < self.config.minSize ∧ self.available ≠ ∅

lemma run_getTotalConnectionCountLocking :
    (getTotalConnectionCountLocking S).run ∅ self = some (self.getTotalConnectionCount, self) := by
  have hvisit : ∀ m : PoolMap, (S.visit m fun _ => pure ()).run ∅ self = some ((), self) :=
    fun m => S.run_visit_eq_self fun _ _ => rfl
  rw [getTotalConnectionCountLocking, run_bind, hvisit, Option.bind_some, run_bind, hvisit,
    Option.bind_some, run_bind, run_get, Option.bind_some, run_pure]

/-- An item of the iteration holds the lock that adding a connection needs. -/
lemma run_addConnections {needed : ℕ} (hneeded : 0 < needed) (peer : PeerId) :
    (addConnections S created needed peer).run
      {((PoolMap.available, S.shard peer), .read)} self = none := by
  have hstuck : ∀ body : SharedLocking (PoolMap × κ) ConnectionPool Unit,
      (S.access .available peer .write body).run
        {((PoolMap.available, S.shard peer), .read)} self = none := fun body =>
    S.run_access_write PoolMap.available peer peer .read rfl body self
  exact run_forM_eq_none (List.mem_range.mpr hneeded) (hstuck _) fun _ _ => .inl (hstuck _)

lemma peersIn_eq_nil (hempty : self.available = ∅) (k : κ) : self.peersIn S order k = [] := by
  refine List.eq_nil_iff_forall_not_mem.mpr fun peer hpeer => ?_
  obtain ⟨entry, hentry, -⟩ := List.mem_map.mp (List.mem_filter.mp hpeer).1
  have hlookup := ((order.enumerates self.available).2 entry.1 entry.2).mp hentry
  rw [hempty, Finmap.lookup_empty] at hlookup
  cases hlookup

/-- Every entry is in a shard. -/
lemma exists_mem_peersIn (hne : self.available ≠ ∅) :
    ∃ peer, peer ∈ self.peersIn S order (S.shard peer) := by
  obtain ⟨peer, queue, hlookup⟩ : ∃ peer queue, self.available.lookup peer = some queue := by
    by_contra hnone
    refine hne (Finmap.ext_lookup fun peer => ?_)
    rw [Finmap.lookup_empty]
    exact Option.eq_none_iff_forall_ne_some.mpr fun queue h => hnone ⟨peer, queue, h⟩
  have hmem := ((order.enumerates self.available).2 peer queue).mpr hlookup
  exact ⟨peer, List.mem_filter.mpr
    ⟨List.mem_map.mpr ⟨(peer, queue), hmem, rfl⟩, decide_eq_true rfl⟩⟩

/-- A shard with an entry gets the maintenance stuck, and one without does nothing. -/
lemma run_peersIn {needed : ℕ} (hneeded : 0 < needed) (k : κ) :
    (forM (self.peersIn S order k) (addConnections S created needed) :
        SharedLocking (PoolMap × κ) ConnectionPool Unit).run
      {((PoolMap.available, k), .read)} self =
        if self.peersIn S order k = [] then some ((), self) else none := by
  cases hpeers : self.peersIn S order k with
  | nil => rfl
  | cons peer peers =>
    have hmem : peer ∈ self.peersIn S order k := hpeers ▸ List.mem_cons_self
    have hshard : S.shard peer = k := of_decide_eq_true (List.mem_filter.mp hmem).2
    rw [if_neg (List.cons_ne_nil _ _), List.forM_cons, run_bind, ← hshard,
      run_addConnections created self hneeded, Option.bind_none]

/-- Maintenance adds the missing connections, or gets stuck where that waits for a lock of its
own. -/
theorem run_maintainMinimumSizeLocking :
    (maintainMinimumSizeLocking S order created).run ∅ self =
      (self.maintainMinimumSize false created).map fun pool => ((), pool) := by
  rw [maintainMinimumSizeLocking, run_bind, run_getTotalConnectionCountLocking, Option.bind_some,
    run_bind, run_get, Option.bind_some, maintainMinimumSize]
  dsimp only
  by_cases htotal : self.getTotalConnectionCount < self.config.minSize
  · set needed := self.config.minSize - self.getTotalConnectionCount
    have hneeded : 0 < needed := Nat.sub_pos_of_lt htotal
    set round : κ → SharedLocking (PoolMap × κ) ConnectionPool Unit := fun k => do
      let pool ← get
      forM (pool.peersIn S order k) (addConnections S created needed) with hround
    have hrun : ∀ k, (round k).run {((PoolMap.available, k), .read)} self =
        if self.peersIn S order k = [] then some ((), self) else none := fun k => by
      rw [hround, run_bind, run_get, Option.bind_some, run_peersIn created self hneeded]
    rw [if_pos htotal]
    by_cases hempty : self.available = ∅
    · -- no shard has an entry
      rw [if_neg fun h => h.2 hempty, Option.map_some]
      refine S.run_visit_eq_self fun k _ => ?_
      rw [hrun, if_pos (peersIn_eq_nil self hempty k)]
    · -- the first shard with an entry
      obtain ⟨peer, hpeer⟩ : ∃ peer, peer ∈ self.peersIn S order (S.shard peer) :=
        exists_mem_peersIn self hempty
      rw [if_pos ⟨htotal, hempty⟩, if_neg Bool.false_ne_true, Option.map_none]
      refine S.run_visit_eq_none (S.shard_mem peer) ?_ fun k _ => ?_
      · rw [hrun, if_neg (List.ne_nil_of_mem hpeer)]
      · rw [hrun]
        split_ifs
        · exact .inr rfl
        · exact .inl rfl
  · rw [if_neg htotal, if_neg fun h => htotal h.1]
    rfl

end ConnectionPool

/-! ## Completion -/

/-- Connecting to a peer completes iff it does not find a stale entry, and the maintenance of the
minimum size does iff it does not add connections while it iterates. -/
theorem completes_iff {F Peer : Type} [Managed.F64Truncate F] [DecidableEq Peer] {κ' : Type}
    [DecidableEq κ'] (S : Sharding Peer κ) (checks : Bool) (peer : Peer)
    (attempt : Managed.Attempt) (manager : Managed.ConnectionManager F Peer)
    (S' : Sharding PeerId κ') (order : HashMap.Iteration PeerId (List PooledConnection))
    (created : Instant) (pool : ConnectionPool) :
    (((Managed.ConnectionManager.connectLocking S checks peer attempt).run ∅ manager).isSome ↔
        ¬Managed.ConnectionManager.FindsStale peer attempt manager) ∧
      (((ConnectionPool.maintainMinimumSizeLocking S' order created).run ∅ pool).isSome ↔
        ¬pool.AddsWhileIterating) := by
  rw [Managed.ConnectionManager.run_connectLocking, ConnectionPool.run_maintainMinimumSizeLocking,
    Option.isSome_map, Option.isSome_map]
  constructor
  · rw [← Managed.ConnectionManager.connect_eq_none_iff checks]
    exact Option.isSome_iff_ne_none
  · rw [ConnectionPool.maintainMinimumSize]
    unfold ConnectionPool.AddsWhileIterating
    by_cases h : pool.getTotalConnectionCount < pool.config.minSize ∧ pool.available ≠ ∅
    · rw [if_pos h, if_neg Bool.false_ne_true]
      exact ⟨fun hsome => absurd hsome Bool.false_ne_true, fun hnot => absurd h hnot⟩
    · rw [if_neg h]
      exact ⟨fun _ => h, fun _ => rfl⟩

/-! ## Operations that wait for themselves -/

/-- One shard for all keys. -/
def sampleSharding (Peer : Type) : Sharding Peer Unit :=
  ⟨[()], fun _ => (), fun _ => List.mem_cons_self⟩

/-- A peer is connected and disconnected: its connection goes into the pool. -/
def sampleManager : Managed.ConnectionManager ℚ ℕ :=
  Managed.ConnectionManager.disconnect 1 0 0 (fun _ => 0)
    (Managed.ConnectionManager.connect false false 1 Managed.sampleAttempt
      (Managed.ConnectionManager.withPoolTimeout 1000 (300 * 10 ^ 9))).2

/-- An attempt to connect after five minutes. -/
def lateAttempt : Managed.Attempt := { Managed.sampleAttempt with looked := 300 * 10 ^ 9 }

/-- A pool with the default configuration, of which one connection is acquired and released. -/
def samplePool : ConnectionPool :=
  ((ConnectionPool.new ⟨100, 10, 300000000000, 3600000000000, true, 1000⟩).acquire
    PoolRun.samplePeer 0 0).2.release PoolRun.samplePeer (ConnectionPool.createConnection 0) 0

/-- Neither a reconnection after the timeout of the pool, nor the maintenance of a pool with fewer
connections than the minimum, ends. -/
theorem not_completes_sample :
    (Managed.ConnectionManager.connectLocking (sampleSharding ℕ) false 1 lateAttempt).run ∅
        sampleManager = none ∧
      (ConnectionPool.maintainMinimumSizeLocking (sampleSharding PeerId)
        HashMap.Iteration.arbitrary 0).run ∅ samplePool = none := by
  rw [Managed.ConnectionManager.run_connectLocking, ConnectionPool.run_maintainMinimumSizeLocking,
    Option.map_eq_none_iff, Option.map_eq_none_iff]
  constructor
  · decide +kernel
  · have hadds : samplePool.getTotalConnectionCount < samplePool.config.minSize ∧
        samplePool.available ≠ ∅ := by decide +kernel
    rw [ConnectionPool.maintainMinimumSize, if_pos hadds]
    rfl

end QuDAG.Network
