import QuDAG.Lib.MapSum
import QuDAG.Network.SecureChannel
import QuDAG.Protocol.StateStore

/-!
# Connection pools (`connection_pool.rs`)

A caller that acquires a connection takes a permit, which is then forgotten, and the connection is
entered into the table of active ones under a number. Releasing the connection puts it back into the
queue of available ones, but neither gives the permit back nor removes the entry. So the accounts of
a peer are right until its first connection is released, and a peer whose permits are used up is
never served again.

## Main definitions

* `ConnectionPool`, with `acquire`, `release` and `runMaintenance`.
* `PoolRun` — a pool and the connections that are checked out.
* `PoolRun.Accounted` — permits, active connections and sizes agree with what is checked out, and a
  peer with room is served.
* `PoolRun.Keeping` — the step releases nothing and enters a connection under a number that is free.

## Main results

* `ConnectionPool.acquire_of_free` — what a peer with room gets.
* `PoolRun.accounted_iff_keeping` — the runs with right accounts.

## Implementation notes

A step reads the clock once, and once more for a new connection. A permit that is there is taken
before the timer ends. A stored notification of a peer is used up by the first call that waits for
it, so one retry is enough. An `entry` of a map over which the same task iterates waits for a lock
that the iteration holds; whether the map lets it through is left open (`reentrant`), and a step of
the maintenance that waits for ever is not a step of a run. Warming up a connection takes time and
does not fail. Numbers that only grow are natural numbers, the number of a connection apart.
-/

namespace QuDAG.Network

open RustStd
open QuDAG.Protocol (PeerId)

/-- Connection pool configuration. -/
structure PoolConfig where
  /-- Maximum connections in pool. -/
  maxSize : ℕ
  /-- Minimum connections to maintain. -/
  minSize : ℕ
  /-- Connection idle timeout. -/
  idleTimeout : Duration
  /-- Connection max lifetime. -/
  maxLifetime : Duration
  /-- Connection validation on checkout. -/
  validateOnCheckout : Bool
  /-- Maximum connection reuse count. -/
  maxReuseCount : ℕ

/-- Connection information. -/
structure ConnectionInfo where
  /-- Last activity timestamp. -/
  lastActivity : Instant
  /-- Connection quality score. -/
  qualityScore : ℚ
  deriving DecidableEq

/-- Check if connection is healthy. -/
def ConnectionInfo.isHealthy (now : Instant) (self : ConnectionInfo) : Bool :=
  -- 5 minutes
  decide (1 / 2 < self.qualityScore) && decide (self.lastActivity.elapsed now < 300000000000)

/-- Pooled connection. -/
structure PooledConnection where
  /-- Connection information. -/
  info : ConnectionInfo
  /-- Connection establishment timestamp. -/
  createdAt : Instant
  /-- Last used timestamp. -/
  lastUsed : Instant
  /-- Usage count. -/
  usageCount : ℕ
  deriving DecidableEq

/-- Connection pool for efficient connection management. -/
structure ConnectionPool where
  /-- Pool configuration. -/
  config : PoolConfig
  /-- Available connections. -/
  available : HashMap PeerId (List PooledConnection)
  /-- Active connections (checked out). -/
  active : HashMap PeerId (HashMap UInt64 PooledConnection)
  /-- The permits of the semaphores. -/
  semaphores : HashMap PeerId ℕ
  /-- Connection ID counter. -/
  connectionCounter : UInt64
  /-- Pool shutdown flag. -/
  shutdown : Bool
  /-- Connection waiters: whether a notification is stored. -/
  waiters : HashMap PeerId Bool

/-- The maximum number of permits which a semaphore can hold. -/
def maxPermits : ℕ := 2 ^ 61 - 1

namespace ConnectionPool

/-- Create a new connection pool. -/
def new (config : PoolConfig) : ConnectionPool where
  config := config
  available := ∅
  active := ∅
  semaphores := ∅
  connectionCounter := 0
  shutdown := false
  waiters := ∅

/-- Check if connection is valid for use. -/
def isConnectionValid (now : Instant) (conn : PooledConnection) (self : ConnectionPool) : Bool :=
  if self.config.maxLifetime < conn.createdAt.elapsed now then false
  else if self.config.idleTimeout < conn.lastUsed.elapsed now then false
  else if self.config.maxReuseCount ≤ conn.usageCount then false
  else conn.info.isHealthy now

/-- Validate a connection. -/
def validateConnection (now : Instant) (conn : PooledConnection) : Bool :=
  conn.info.isHealthy now

/-- Create a new connection. -/
def createConnection (created : Instant) : PooledConnection :=
  ⟨⟨created, 1⟩, created, created, 0⟩

/-- The active connections of a peer. -/
def activeOf (peer : PeerId) (self : ConnectionPool) : HashMap UInt64 PooledConnection :=
  (self.active.lookup peer).getD ∅

/-- The permits of a peer that are free. -/
def freePermits (peer : PeerId) (self : ConnectionPool) : ℕ :=
  (self.semaphores.lookup peer).getD self.config.maxSize

/-- Get connection count for a peer. -/
def getPeerConnectionCount (peer : PeerId) (self : ConnectionPool) : ℕ :=
  ((self.available.lookup peer).map List.length).getD 0 +
    ((self.active.lookup peer).map fun m => m.keys.card).getD 0

/-- Get total connection count. -/
def getTotalConnectionCount (self : ConnectionPool) : ℕ :=
  HashMap.sumBy List.length self.available + HashMap.sumBy (fun m => m.keys.card) self.active

/-- Take connections out of a queue, up to the first one that can be used. -/
def popValid (now : Instant) (self : ConnectionPool) :
    List PooledConnection → Option PooledConnection × List PooledConnection
  | [] => (none, [])
  | conn :: queue =>
    if self.isConnectionValid now conn then
      if self.config.validateOnCheckout && !validateConnection now conn then
        self.popValid now queue
      else (some { conn with lastUsed := now, usageCount := conn.usageCount + 1 }, queue)
    else self.popValid now queue

/-- Check available connections. -/
def popAvailable (peer : PeerId) (now : Instant) (self : ConnectionPool) :
    Option PooledConnection × ConnectionPool :=
  match self.available.lookup peer with
  | none => (none, self)
  | some queue =>
    let popped := self.popValid now queue
    (popped.1, { self with available := self.available.insert peer popped.2 })

/-- Move a connection to the active ones, and forget the permit. -/
def checkOut (peer : PeerId) (conn : PooledConnection) (self : ConnectionPool) : ConnectionPool :=
  { self with
    active := self.active.insert peer ((self.activeOf peer).insert self.connectionCounter conn)
    connectionCounter := self.connectionCounter + 1
    semaphores := self.semaphores.insert peer (self.freePermits peer - 1) }

/-- Get or create semaphore for this peer. -/
def openSemaphore (peer : PeerId) (self : ConnectionPool) : ConnectionPool :=
  { self with semaphores := self.semaphores.insert peer (self.freePermits peer) }

/-- Acquire a connection from the pool, with a number of retries. -/
def acquireWith (peer : PeerId) (now created : Instant) :
    ℕ → ConnectionPool → Outcome ConnectionFault PooledConnection × ConnectionPool
  | retries, self =>
    if self.shutdown then (.err (.connectionError "Pool is shutting down"), self)
    else if self.semaphores.lookup peer = none ∧ maxPermits < self.config.maxSize then
      (.panic, self)
    else
      let opened := self.openSemaphore peer
      if opened.freePermits peer = 0 then
        (.err (.connectionError "Connection acquisition timeout"), opened)
      else
        match opened.popAvailable peer now with
        | (some conn, popped) => (.ok conn, popped.checkOut peer conn)
        | (none, popped) =>
          if popped.getPeerConnectionCount peer < popped.config.maxSize then
            (.ok (createConnection created), popped.checkOut peer (createConnection created))
          else
            -- The permit is given back here. A notification makes the call start again.
            match retries, (popped.waiters.lookup peer).getD false with
            | retries + 1, true =>
              acquireWith peer now created retries
                { popped with waiters := popped.waiters.insert peer false }
            | _, notified =>
              (.err (.connectionError "No available connections"),
                { popped with waiters := popped.waiters.insert peer notified })

/-- Acquire a connection from the pool. -/
def acquire (peer : PeerId) (now created : Instant) (self : ConnectionPool) :
    Outcome ConnectionFault PooledConnection × ConnectionPool :=
  self.acquireWith peer now created 1

/-- Check if connection should be kept in pool. -/
def shouldKeepConnection (now : Instant) (conn : PooledConnection) (self : ConnectionPool) : Bool :=
  self.isConnectionValid now conn && decide (self.getTotalConnectionCount < self.config.maxSize)

/-- Release a connection back to the pool. -/
def release (peer : PeerId) (connection : PooledConnection) (now : Instant)
    (self : ConnectionPool) : ConnectionPool :=
  let connection := { connection with lastUsed := now }
  if self.shutdown then self
  else if !self.shouldKeepConnection now connection then self
  else
    { self with
      available :=
        self.available.insert peer ((self.available.lookup peer).getD [] ++ [connection])
      waiters :=
        if self.waiters.lookup peer = none then self.waiters else self.waiters.insert peer true }

/-- Clean up expired connections. -/
def cleanupExpiredConnections (now : Instant) (self : ConnectionPool) : ConnectionPool :=
  { self with available := self.available.mapValues (List.filter (self.isConnectionValid now)) }

/-- Maintain minimum pool size. There is no result if it waits for ever. -/
def maintainMinimumSize (reentrant : Bool) (created : Instant) (self : ConnectionPool) :
    Option ConnectionPool :=
  if self.getTotalConnectionCount < self.config.minSize ∧ self.available ≠ ∅ then
    if reentrant then
      let needed := self.config.minSize - self.getTotalConnectionCount
      some { self with
        available := self.available.mapValues fun queue =>
          queue ++ List.replicate needed (createConnection created) }
    else none
  else some self

/-- One round of the maintenance tasks. -/
def runMaintenance (reentrant : Bool) (now created : Instant) (self : ConnectionPool) :
    Option ConnectionPool :=
  if self.shutdown then some self
  else (self.cleanupExpiredConnections now).maintainMinimumSize reentrant created

end ConnectionPool

/-! ## Runs of a pool -/

/-- A pool and the connections that are checked out, with their peers. -/
structure PoolRun where
  pool : ConnectionPool
  checkedOut : List (PeerId × PooledConnection)

/-- What happens next to a pool. -/
inductive PoolStep
  | acquire (peer : PeerId) (now created : Instant)
  /-- A connection that is checked out is released, as its user left it. -/
  | release (index : ℕ) (connection : PooledConnection) (now : Instant)
  | maintenance (now created : Instant)

namespace PoolRun

/-- A new pool. -/
def start (config : PoolConfig) : PoolRun := ⟨ConnectionPool.new config, []⟩

/-- Make a step. Where nothing is checked out nothing is released. -/
def apply (reentrant : Bool) (s : PoolRun) : PoolStep → PoolRun
  | .acquire peer now created =>
    match s.pool.acquire peer now created with
    | (.ok conn, pool) => ⟨pool, s.checkedOut ++ [(peer, conn)]⟩
    | (_, pool) => { s with pool }
  | .release index connection now =>
    match s.checkedOut[index]? with
    | some (peer, _) => ⟨s.pool.release peer connection now, s.checkedOut.eraseIdx index⟩
    | none => s
  | .maintenance now created =>
    match s.pool.runMaintenance reentrant now created with
    | some pool => { s with pool }
    | none => s

/-- The connections of a peer that are checked out. -/
def out (s : PoolRun) (peer : PeerId) : List PooledConnection :=
  (s.checkedOut.filter fun e => e.1 = peer).map Prod.snd

/-- The accounts are right. -/
structure Accounted (s : PoolRun) : Prop where
  permits : ∀ peer, s.pool.freePermits peer + (s.out peer).length = s.pool.config.maxSize
  active : ∀ peer, (s.pool.activeOf peer).entries.map Sigma.snd = (s.out peer : Multiset _)
  bounded : ∀ peer, s.pool.getPeerConnectionCount peer ≤ s.pool.config.maxSize
  acquires : ∀ peer now created, (s.out peer).length < s.pool.config.maxSize →
    ∃ conn, (s.pool.acquire peer now created).1 = .ok conn

/-- Nothing that is checked out is released, and the number for a connection is not used by another
connection of the peer. -/
def Keeping (s : PoolRun) : PoolStep → Prop
  | .acquire peer _ _ => (s.out peer).length < s.pool.config.maxSize →
    s.pool.connectionCounter ∉ s.pool.activeOf peer
  | .release index _ _ => s.checkedOut.length ≤ index
  | .maintenance _ _ => True

end PoolRun

/-! ## Acquiring -/

namespace ConnectionPool

variable {self : ConnectionPool} {peer : PeerId} (now created : Instant)

@[simp] lemma freePermits_openSemaphore (other : PeerId) :
    (self.openSemaphore peer).freePermits other = self.freePermits other := by
  unfold freePermits openSemaphore
  rw [HashMap.lookup_insert_ite]
  split_ifs with h
  · rw [h]
    rfl
  · rfl

lemma freePermits_checkOut (conn : PooledConnection) (other : PeerId) :
    (self.checkOut peer conn).freePermits other =
      if other = peer then self.freePermits peer - 1 else self.freePermits other := by
  unfold freePermits checkOut
  rw [HashMap.lookup_insert_ite]
  split_ifs <;> rfl

lemma activeOf_checkOut (conn : PooledConnection) (other : PeerId) :
    (self.checkOut peer conn).activeOf other =
      if other = peer then (self.activeOf peer).insert self.connectionCounter conn
      else self.activeOf other := by
  unfold activeOf checkOut
  rw [HashMap.lookup_insert_ite]
  split_ifs <;> rfl

/-- The active connections of a peer are counted. -/
lemma getPeerConnectionCount_of_empty (h : self.available = ∅) (peer : PeerId) :
    self.getPeerConnectionCount peer = (self.activeOf peer).keys.card := by
  rw [getPeerConnectionCount, h, Finmap.lookup_empty, activeOf]
  cases self.active.lookup peer <;> simp

/-- Without a permit the call times out. -/
lemma acquire_of_full (hshutdown : self.shutdown = false)
    (hmax : self.config.maxSize ≤ maxPermits) (h : self.freePermits peer = 0) :
    self.acquire peer now created =
      (.err (.connectionError "Connection acquisition timeout"), self.openSemaphore peer) := by
  have hfree : (self.openSemaphore peer).freePermits peer = 0 :=
    (freePermits_openSemaphore peer).trans h
  have hrunning : ¬self.shutdown = true := by simp [hshutdown]
  rw [acquire, acquireWith, if_neg hrunning,
    if_neg fun hpanic => absurd hpanic.2 (Nat.not_lt.mpr hmax)]
  exact if_pos hfree

/-- **A peer with a permit and without available connections gets a new one**, if it has room. -/
lemma acquire_of_free (hshutdown : self.shutdown = false)
    (hmax : self.config.maxSize ≤ maxPermits) (hfree : self.freePermits peer ≠ 0)
    (havailable : self.available = ∅)
    (hroom : (self.activeOf peer).keys.card < self.config.maxSize) :
    self.acquire peer now created = (.ok (createConnection created),
      (self.openSemaphore peer).checkOut peer (createConnection created)) := by
  have hopen : (self.openSemaphore peer).freePermits peer ≠ 0 := by
    rwa [freePermits_openSemaphore]
  have hpop : (self.openSemaphore peer).popAvailable peer now =
      (none, self.openSemaphore peer) := by
    have hnone : (self.openSemaphore peer).available.lookup peer = none := by
      change self.available.lookup peer = none
      rw [havailable, Finmap.lookup_empty]
    rw [popAvailable, hnone]
  have hcount : (self.openSemaphore peer).getPeerConnectionCount peer <
      (self.openSemaphore peer).config.maxSize := by
    rw [@getPeerConnectionCount_of_empty (self.openSemaphore peer) havailable]
    exact hroom
  have hrunning : ¬self.shutdown = true := by simp [hshutdown]
  rw [acquire, acquireWith, if_neg hrunning,
    if_neg fun hpanic => absurd hpanic.2 (Nat.not_lt.mpr hmax)]
  dsimp only
  rw [if_neg hopen, hpop]
  exact if_pos hcount

end ConnectionPool

/-! ## Runs that release nothing -/

namespace PoolRun

open ConnectionPool

variable {config : PoolConfig} {reentrant : Bool} {s : PoolRun}

/-- What holds while nothing was released. -/
structure Unreleased (config : PoolConfig) (s : PoolRun) : Prop where
  config_eq : s.pool.config = config
  shutdown : s.pool.shutdown = false
  available : s.pool.available = ∅
  permits : ∀ peer, s.pool.freePermits peer + (s.out peer).length = config.maxSize
  active : ∀ peer, (s.pool.activeOf peer).entries.map Sigma.snd = (s.out peer : Multiset _)

/-- As many connections are active as are checked out. -/
lemma card_activeOf {peer : PeerId}
    (h : (s.pool.activeOf peer).entries.map Sigma.snd = (s.out peer : Multiset _)) :
    (s.pool.activeOf peer).keys.card = (s.out peer).length := by
  have hcard := congrArg Multiset.card h
  rw [Multiset.card_map, Multiset.coe_card] at hcard
  rw [← hcard]
  exact Multiset.card_map _ _

lemma unreleased_start (config : PoolConfig) : Unreleased config (start config) where
  config_eq := rfl
  shutdown := rfl
  available := rfl
  permits _ := rfl
  active _ := rfl

/-- What a call returns while nothing was released. -/
lemma acquire_cases (h : Unreleased config s) (hmax : config.maxSize ≤ maxPermits) (peer : PeerId)
    (now created : Instant) :
    config.maxSize ≤ (s.out peer).length ∧ s.pool.acquire peer now created =
        (.err (.connectionError "Connection acquisition timeout"), s.pool.openSemaphore peer) ∨
      (s.out peer).length < config.maxSize ∧ s.pool.acquire peer now created =
        (.ok (createConnection created),
          (s.pool.openSemaphore peer).checkOut peer (createConnection created)) := by
  have hpermits := h.permits peer
  rw [← h.config_eq] at hmax
  rcases Nat.lt_or_ge (s.out peer).length config.maxSize with hlt | hge
  · refine Or.inr ⟨hlt, acquire_of_free now created h.shutdown hmax (by omega) h.available ?_⟩
    rwa [card_activeOf (h.active peer), h.config_eq]
  · exact Or.inl ⟨hge, acquire_of_full now created h.shutdown hmax (by omega)⟩

/-- While nothing was released the accounts are right. -/
lemma Unreleased.accounted (h : Unreleased config s) (hmax : config.maxSize ≤ maxPermits) :
    Accounted s where
  permits peer := by rw [h.permits, h.config_eq]
  active := h.active
  bounded peer := by
    have := h.permits peer
    rw [getPeerConnectionCount_of_empty h.available, card_activeOf (h.active peer), h.config_eq]
    omega
  acquires peer now created hlt := by
    rw [h.config_eq] at hlt
    rcases acquire_cases h hmax peer now created with ⟨hge, -⟩ | ⟨-, heq⟩
    · exact absurd hlt (Nat.not_lt.mpr hge)
    · exact ⟨_, by rw [heq]⟩

/-- A connection that is checked out comes last. -/
lemma out_append (peer other : PeerId) (conn : PooledConnection) (pool : ConnectionPool) :
    out ⟨pool, s.checkedOut ++ [(peer, conn)]⟩ other =
      s.out other ++ if other = peer then [conn] else [] := by
  unfold out
  rw [List.filter_append, List.map_append]
  congr 1
  by_cases h : other = peer
  · simp [h]
  · simp [h, Ne.symm h]

/-- A connection is checked out under a free number iff the active connections agree after that. -/
lemma active_append_iff (h : Unreleased config s) (peer : PeerId) (conn : PooledConnection) :
    (((s.pool.openSemaphore peer).checkOut peer conn).activeOf peer).entries.map Sigma.snd =
        (out ⟨(s.pool.openSemaphore peer).checkOut peer conn, s.checkedOut ++ [(peer, conn)]⟩ peer :
          Multiset _) ↔
      s.pool.connectionCounter ∉ s.pool.activeOf peer := by
  rw [activeOf_checkOut, if_pos rfl, out_append, if_pos rfl]
  change Multiset.map Sigma.snd (Finmap.insert s.pool.connectionCounter conn
    (s.pool.activeOf peer)).entries = _ ↔ _
  constructor
  · intro heq hmem
    have hcard := congrArg Multiset.card heq
    have hkeys := HashMap.card_keys_insert_of_mem (v := conn) hmem
    have hactive := card_activeOf (h.active peer)
    rw [Multiset.card_map, Multiset.coe_card, List.length_append, List.length_singleton] at hcard
    have hinsert :
        Multiset.card ((s.pool.activeOf peer).insert s.pool.connectionCounter conn).entries =
          ((s.pool.activeOf peer).insert s.pool.connectionCounter conn).keys.card :=
      (Multiset.card_map _ _).symm
    omega
  · intro hmem
    rw [Finmap.entries_insert_of_notMem hmem, Multiset.map_cons, h.active peer,
      Multiset.cons_coe, Multiset.coe_eq_coe]
    exact (List.perm_append_singleton conn (s.out peer)).symm

/-! ## Steps -/

lemma unreleased_acquire (h : Unreleased config s) (hmax : config.maxSize ≤ maxPermits)
    (peer : PeerId) (now created : Instant) (hkeep : Keeping s (.acquire peer now created)) :
    Unreleased config (s.apply reentrant (.acquire peer now created)) := by
  rw [apply]
  rcases acquire_cases h hmax peer now created with ⟨-, heq⟩ | ⟨hlt, heq⟩
  · rw [heq]
    exact ⟨h.config_eq, h.shutdown, h.available,
      fun other => by rw [freePermits_openSemaphore]; exact h.permits other, h.active⟩
  · rw [heq]
    refine ⟨h.config_eq, h.shutdown, h.available, fun other => ?_, fun other => ?_⟩
    · have hpermits := h.permits other
      rw [freePermits_checkOut, out_append]
      split_ifs with hother
      · subst hother
        rw [freePermits_openSemaphore, List.length_append, List.length_singleton]
        omega
      · rw [freePermits_openSemaphore, List.append_nil]
        exact hpermits
    · by_cases hother : other = peer
      · subst hother
        exact (active_append_iff h other _).mpr (hkeep (h.config_eq ▸ hlt))
      · rw [activeOf_checkOut, out_append, if_neg hother, if_neg hother, List.append_nil]
        exact h.active other

lemma keeping_of_accounted_acquire (h : Unreleased config s) (hmax : config.maxSize ≤ maxPermits)
    (peer : PeerId) (now created : Instant)
    (hacc : Accounted (s.apply reentrant (.acquire peer now created))) :
    Keeping s (.acquire peer now created) := by
  intro hlt
  rw [h.config_eq] at hlt
  rw [apply] at hacc
  rcases acquire_cases h hmax peer now created with ⟨hge, -⟩ | ⟨-, heq⟩
  · exact absurd hlt (Nat.not_lt.mpr hge)
  · rw [heq] at hacc
    exact (active_append_iff h peer _).mp (hacc.active peer)

/-- Maintenance finds nothing to do while nothing is available. -/
lemma apply_maintenance (h : Unreleased config s) (now created : Instant) :
    s.apply reentrant (.maintenance now created) = s := by
  have hempty : (s.pool.cleanupExpiredConnections now) = s.pool := by
    have hmap : s.pool.available.mapValues (List.filter (s.pool.isConnectionValid now)) =
        s.pool.available := by
      rw [h.available]
      rfl
    rw [cleanupExpiredConnections, hmap]
  have hrun : s.pool.runMaintenance reentrant now created = some s.pool := by
    rw [runMaintenance, h.shutdown, if_neg Bool.false_ne_true, hempty, maintainMinimumSize,
      if_neg fun hneed => hneed.2 h.available]
  rw [apply, hrun]

/-- A release gives no permit back. -/
lemma freePermits_release (peer : PeerId) (connection : PooledConnection) (now : Instant)
    (pool : ConnectionPool) (other : PeerId) :
    (pool.release peer connection now).freePermits other = pool.freePermits other ∧
      (pool.release peer connection now).config = pool.config := by
  unfold release
  dsimp only
  split_ifs
  · exact ⟨rfl, rfl⟩
  · exact ⟨rfl, rfl⟩
  · exact ⟨rfl, rfl⟩
  · exact ⟨rfl, rfl⟩

/-- A connection that is released was one of those of its peer. -/
lemma length_out_eraseIdx {index : ℕ} {peer : PeerId} {conn : PooledConnection}
    (h : s.checkedOut[index]? = some (peer, conn)) (pool : ConnectionPool) :
    (out ⟨pool, s.checkedOut.eraseIdx index⟩ peer).length + 1 = (s.out peer).length := by
  obtain ⟨hlt, hget⟩ := List.getElem?_eq_some_iff.mp h
  have hperm := List.getElem_cons_eraseIdx_perm hlt
  rw [hget] at hperm
  have hlength := ((hperm.filter fun e => e.1 = peer).map Prod.snd).length_eq
  rw [List.filter_cons_of_pos (by simp), List.map_cons, List.length_cons] at hlength
  exact hlength

lemma keeping_of_accounted_release (h : Unreleased config s) (index : ℕ)
    (connection : PooledConnection) (now : Instant)
    (hacc : Accounted (s.apply reentrant (.release index connection now))) :
    Keeping s (.release index connection now) := by
  cases hget : s.checkedOut[index]? with
  | none => exact List.getElem?_eq_none_iff.mp hget
  | some entry =>
    obtain ⟨peer, conn⟩ := entry
    rw [apply, hget] at hacc
    have hpermits := hacc.permits peer
    have hbefore := h.permits peer
    have hlength := length_out_eraseIdx hget (s.pool.release peer connection now)
    obtain ⟨hfree, hconfig⟩ := freePermits_release peer connection now s.pool peer
    dsimp only at hpermits
    rw [hfree, hconfig, h.config_eq] at hpermits
    omega

/-- The steps that keep the accounts are those that release nothing. -/
lemma unreleased_apply (h : Unreleased config s) (hmax : config.maxSize ≤ maxPermits)
    (step : PoolStep) (hkeep : Keeping s step) : Unreleased config (s.apply reentrant step) := by
  cases step with
  | acquire peer now created => exact unreleased_acquire h hmax peer now created hkeep
  | release index connection now =>
    rw [apply, List.getElem?_eq_none_iff.mpr hkeep]
    exact h
  | maintenance now created =>
    rw [apply_maintenance h]
    exact h

lemma keeping_of_accounted (h : Unreleased config s) (hmax : config.maxSize ≤ maxPermits)
    (step : PoolStep) (hacc : Accounted (s.apply reentrant step)) : Keeping s step := by
  cases step with
  | acquire peer now created => exact keeping_of_accounted_acquire h hmax peer now created hacc
  | release index connection now => exact keeping_of_accounted_release h index connection now hacc
  | maintenance now created => trivial

/-- No connection can be acquired if the semaphore would have too many permits. -/
lemma maxSize_le_of_accounted (h : Accounted (start config)) : config.maxSize ≤ maxPermits := by
  by_contra hgt
  have hlt := Nat.lt_of_not_le hgt
  let peer : PeerId := ⟨List.replicate 32 0, List.length_replicate⟩
  obtain ⟨conn, hok⟩ := h.acquires peer 0 0 (Nat.lt_of_le_of_lt (Nat.zero_le _) hlt)
  have hpanic : (start config).pool.acquire peer 0 0 = (.panic, (start config).pool) := by
    have hrunning : ¬(start config).pool.shutdown = true := Bool.false_ne_true
    rw [acquire, acquireWith, if_neg hrunning]
    exact if_pos ⟨rfl, hlt⟩
  rw [hpanic] at hok
  cases hok

/-- **The accounts of a pool are right in a run iff nothing is released**, a connection gets a
number that is free, and a semaphore can hold the permits. -/
theorem accounted_iff_keeping (config : PoolConfig) (reentrant : Bool) (steps : List PoolStep) :
    Runs.Always (apply reentrant) Accounted (start config) steps ↔
      config.maxSize ≤ maxPermits ∧ Runs.Steps (apply reentrant) Keeping (start config) steps := by
  have hiff (hmax : config.maxSize ≤ maxPermits) :
      Runs.Always (apply reentrant) Accounted (start config) steps ↔
        Runs.Steps (apply reentrant) Keeping (start config) steps :=
    Runs.always_iff_steps (Unreleased config) (fun _ h => h.accounted hmax)
      (fun s step h (_ : True) hkeep => unreleased_apply h hmax step hkeep)
      (fun s step h _ hacc => keeping_of_accounted h hmax step hacc)
      (Runs.steps_of_forall fun _ _ => trivial) (unreleased_start config)
  constructor
  · intro hall
    have hmax := maxSize_le_of_accounted (Runs.always_iff.mp hall [] List.nil_prefix)
    exact ⟨hmax, (hiff hmax).mp hall⟩
  · rintro ⟨hmax, hsteps⟩
    exact (hiff hmax).mpr hsteps

/-! ## A connection that is released -/

/-- A peer. -/
def samplePeer : PeerId := ⟨List.replicate 32 1, List.length_replicate⟩

/-- A pool of two connections for each peer. -/
def sampleConfig : PoolConfig := ⟨2, 0, 300000000000, 3600000000000, true, 1000⟩

/-- A connection is acquired and released. -/
def sampleSteps : List PoolStep :=
  [.acquire samplePeer 0 0, .release 0 (createConnection 0) 0]

/-- The permit is not given back. -/
theorem not_accounted_sampleSteps :
    ¬Runs.Always (apply true) Accounted (start sampleConfig) sampleSteps := by
  intro hall
  have hacc := Runs.always_iff.mp hall sampleSteps List.prefix_rfl
  exact absurd (hacc.permits samplePeer) (by decide +kernel)

end PoolRun

end QuDAG.Network
