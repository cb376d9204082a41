import QuDAG.Lib.Outcome
import QuDAG.Network.SecureChannel

/-!
# Stream multiplexing (`connection.rs`)

A multiplexer opens streams on the connections to its peers. Every connection numbers its own
streams, but one table says for every number which peer it belongs to. So the streams of two peers
get into each other's way. A closed stream is never taken out of the priority queue.

## Main definitions

* `ConnectionMultiplexer`, with `openStream`, `closeStream` and `getStreamInfo`.
* `ConnectionMultiplexer.Consistent` — the connections, the table of routes and the queue speak of
  the same streams.
* `ConnectionMultiplexer.ClosesExactly` — closing a stream removes that one alone.
* `ConnectionMultiplexer.Careful` — a number is not used twice, and no open stream is closed.

## Main results

* `ConnectionMultiplexer.consistent_iff_careful` — the runs that are consistent.

## Implementation notes

The permit of the semaphore is dropped as soon as it is there, so it only makes a call wait. A call
that waits for ever, or panics because the numbers have run out, has no result. What is known of a
connection, and its utilization, is not read and left out.
-/

namespace QuDAG.Network

open RustStd

/-! ## Streams -/

/-- Stream identifier. -/
abbrev StreamId : Type := UInt64

/-- Stream priority. -/
inductive Priority
  | critical
  | high
  | normal
  | low
  deriving DecidableEq, Repr

/-- Stream state. -/
inductive StreamState
  /-- Stream is opening. -/
  | opening
  /-- Stream is active. -/
  | active
  /-- Stream is half-closed (local). -/
  | halfClosedLocal
  /-- Stream is half-closed (remote). -/
  | halfClosedRemote
  /-- Stream is closed. -/
  | closed
  /-- Stream encountered an error. -/
  | error (reason : String)

/-- Stream information. -/
structure StreamInfo where
  /-- Stream identifier. -/
  id : StreamId
  /-- Stream priority. -/
  priority : Priority
  /-- Stream state. -/
  state : StreamState
  /-- Created timestamp. -/
  createdAt : Instant
  /-- Last activity timestamp. -/
  lastActivity : Instant
  /-- Bytes sent/received. -/
  bytesTransferred : UInt64

/-- A semaphore: its free permits, and whether it was closed. -/
structure Semaphore where
  permits : ℕ
  isClosed : Bool

/-- Multiplexed connection wrapper. -/
structure MultiplexedConnection where
  /-- Active streams. -/
  streams : HashMap StreamId StreamInfo
  /-- Next stream ID. -/
  nextStreamId : UInt64
  /-- Stream semaphore for flow control. -/
  streamSemaphore : Semaphore

/-- Connection multiplexer for stream management. -/
structure ConnectionMultiplexer (Peer : Type) where
  /-- Active multiplexed connections. -/
  connections : HashMap Peer MultiplexedConnection
  /-- Stream routing table. -/
  streamRoutes : HashMap StreamId Peer
  /-- Stream priority queue. -/
  priorityQueue : HashMap Priority (List StreamId)
  /-- Maximum concurrent streams per connection. -/
  maxStreamsPerConnection : UInt32

namespace ConnectionMultiplexer

variable {Peer : Type} [DecidableEq Peer]

/-- The streams that wait with a priority. -/
def queueOf (self : ConnectionMultiplexer Peer) (priority : Priority) : List StreamId :=
  (self.priorityQueue.lookup priority).getD []

/-- Open a new stream on a connection. There is no result if the call waits for ever or panics. -/
def openStream (checks : Bool) (peer : Peer) (priority : Priority) (created active : Instant)
    (self : ConnectionMultiplexer Peer) :
    Option (Except ConnectionFault StreamId) × ConnectionMultiplexer Peer :=
  match self.connections.lookup peer with
  | none => (some (.error (.connectionError "Connection not found")), self)
  | some connection =>
    if self.maxStreamsPerConnection.toNat ≤ connection.streams.keys.card then
      (some (.error (.connectionError "Maximum streams reached")), self)
    else if connection.streamSemaphore.isClosed then
      (some (.error (.connectionError "Stream semaphore closed")), self)
    else if connection.streamSemaphore.permits = 0 then (none, self)
    else
      let streamId := connection.nextStreamId
      match addU64 checks connection.nextStreamId 1 with
      | none => (none, self)
      | some next =>
        let info : StreamInfo := ⟨streamId, priority, .opening, created, active, 0⟩
        (some (.ok streamId), { self with
          connections := self.connections.insert peer { connection with
            streams := connection.streams.insert streamId info
            nextStreamId := next }
          streamRoutes := self.streamRoutes.insert streamId peer
          priorityQueue :=
            self.priorityQueue.insert priority (self.queueOf priority ++ [streamId]) })

/-- Close a stream. That it is marked as closed first is seen by nobody. -/
def closeStream (streamId : StreamId) (self : ConnectionMultiplexer Peer) :
    Except ConnectionFault Unit × ConnectionMultiplexer Peer :=
  match self.streamRoutes.lookup streamId with
  | none => (.error (.connectionError "Stream not found"), self)
  | some peer =>
    let unrouted := { self with streamRoutes := self.streamRoutes.erase streamId }
    match self.connections.lookup peer with
    | none => (.ok (), unrouted)
    | some connection =>
      (.ok (), { unrouted with
        connections := self.connections.insert peer { connection with
          streams := connection.streams.erase streamId } })

/-- Get stream information. -/
def getStreamInfo (streamId : StreamId) (self : ConnectionMultiplexer Peer) : Option StreamInfo :=
  (self.streamRoutes.lookup streamId).bind fun peer =>
    (self.connections.lookup peer).bind fun connection => connection.streams.lookup streamId

/-! ## Runs of a multiplexer -/

/-- A multiplexer with connections on which no stream is open. -/
def start (maxStreamsPerConnection : UInt32) (connections : HashMap Peer MultiplexedConnection) :
    ConnectionMultiplexer Peer where
  connections := connections.mapValues fun connection => { connection with streams := ∅ }
  streamRoutes := ∅
  priorityQueue := ∅
  maxStreamsPerConnection := maxStreamsPerConnection

end ConnectionMultiplexer

/-- A call on a multiplexer. -/
inductive StreamStep (Peer : Type)
  | openStream (peer : Peer) (priority : Priority) (created active : Instant)
  | closeStream (streamId : StreamId)

namespace ConnectionMultiplexer

variable {Peer : Type} [DecidableEq Peer]

/-- Make a call. -/
def apply (checks : Bool) (self : ConnectionMultiplexer Peer) :
    StreamStep Peer → ConnectionMultiplexer Peer
  | .openStream peer priority created active =>
    (self.openStream checks peer priority created active).2
  | .closeStream streamId => (self.closeStream streamId).2

/-- The open streams of a peer. -/
def streamsOf (mux : ConnectionMultiplexer Peer) (peer : Peer) : HashMap StreamId StreamInfo :=
  ((mux.connections.lookup peer).map MultiplexedConnection.streams).getD ∅

/-- The connections, the table of routes and the queue speak of the same streams. -/
structure Consistent (mux : ConnectionMultiplexer Peer) : Prop where
  /-- No number is used twice. -/
  distinct : ∀ peer peer' streamId, streamId ∈ mux.streamsOf peer →
    streamId ∈ mux.streamsOf peer' → peer = peer'
  /-- Exactly the open streams have a route, to their peer. -/
  routes : ∀ streamId peer,
    mux.streamRoutes.lookup streamId = some peer ↔ streamId ∈ mux.streamsOf peer
  bounded : ∀ peer, (mux.streamsOf peer).keys.card ≤ mux.maxStreamsPerConnection.toNat
  /-- Exactly the open streams are queued, with their priority. -/
  queued : ∀ streamId priority, streamId ∈ mux.queueOf priority ↔
    ∃ peer info, (mux.streamsOf peer).lookup streamId = some info ∧ info.priority = priority
  nodup : ∀ priority, (mux.queueOf priority).Nodup

/-- Closing a stream removes that one, and no other. -/
def ClosesExactly (mux : ConnectionMultiplexer Peer) : StreamStep Peer → Prop
  | .openStream _ _ _ _ => True
  | .closeStream streamId =>
    ∀ peer, (mux.closeStream streamId).2.streamsOf peer = (mux.streamsOf peer).erase streamId

/-- A stream can be opened on a connection. -/
def CanOpen (checks : Bool) (mux : ConnectionMultiplexer Peer)
    (connection : MultiplexedConnection) : Prop :=
  connection.streams.keys.card < mux.maxStreamsPerConnection.toNat ∧
    connection.streamSemaphore.isClosed = false ∧ connection.streamSemaphore.permits ≠ 0 ∧
      (addU64 checks connection.nextStreamId 1).isSome

/-- The number of a stream that is opened has no route, and neither has one that is closed. -/
def Careful (checks : Bool) (mux : ConnectionMultiplexer Peer) : StreamStep Peer → Prop
  | .openStream peer _ _ _ =>
    ∀ connection, mux.connections.lookup peer = some connection →
      mux.CanOpen checks connection → mux.streamRoutes.lookup connection.nextStreamId = none
  | .closeStream streamId => mux.streamRoutes.lookup streamId = none

/-! ## Opening and closing -/

variable {checks : Bool} {mux : ConnectionMultiplexer Peer}

/-- The streams of the peers after one connection was replaced. -/
lemma streamsOf_insert {mux' : ConnectionMultiplexer Peer} {peer : Peer}
    {connection : MultiplexedConnection}
    (h : mux'.connections = mux.connections.insert peer connection) (peer' : Peer) :
    mux'.streamsOf peer' = if peer' = peer then connection.streams else mux.streamsOf peer' := by
  unfold streamsOf
  rw [h, HashMap.lookup_insert_ite]
  split_ifs <;> rfl

/-- The streams of a peer are those of its connection. -/
lemma streamsOf_of_lookup {peer : Peer} {connection : MultiplexedConnection}
    (h : mux.connections.lookup peer = some connection) :
    mux.streamsOf peer = connection.streams := by
  rw [streamsOf, h]
  rfl

/-- Where a stream cannot be opened nothing changes. -/
lemma openStream_of_not_canOpen {peer : Peer}
    (h : ∀ connection, mux.connections.lookup peer = some connection →
      ¬mux.CanOpen checks connection) (priority : Priority) (created active : Instant) :
    (mux.openStream checks peer priority created active).2 = mux := by
  unfold openStream
  cases hlookup : mux.connections.lookup peer with
  | none => rfl
  | some connection =>
    dsimp only
    split_ifs with hmax hclosed hpermits
    · rfl
    · rfl
    · rfl
    · cases hnext : addU64 checks connection.nextStreamId 1 with
      | none => rfl
      | some next =>
        refine absurd ⟨Nat.not_le.mp hmax, by simpa using hclosed, hpermits, ?_⟩
          (h connection hlookup)
        rw [hnext]
        rfl

/-- What opening a stream changes. -/
lemma openStream_of_canOpen {peer : Peer} {connection : MultiplexedConnection}
    (hlookup : mux.connections.lookup peer = some connection)
    (hopen : mux.CanOpen checks connection) (priority : Priority) (created active : Instant) :
    ∃ mux' next info, (mux.openStream checks peer priority created active).2 = mux' ∧
      mux'.connections = mux.connections.insert peer
        ⟨connection.streams.insert connection.nextStreamId info, next,
          connection.streamSemaphore⟩ ∧
      info.priority = priority ∧
      mux'.streamRoutes = mux.streamRoutes.insert connection.nextStreamId peer ∧
      mux'.priorityQueue = mux.priorityQueue.insert priority
        (mux.queueOf priority ++ [connection.nextStreamId]) ∧
      mux'.maxStreamsPerConnection = mux.maxStreamsPerConnection := by
  obtain ⟨hmax, hclosed, hpermits, hnext⟩ := hopen
  obtain ⟨next, hnext⟩ := Option.isSome_iff_exists.mp hnext
  unfold openStream
  rw [hlookup]
  dsimp only
  rw [if_neg (Nat.not_le.mpr hmax), if_neg (by simp [hclosed]), if_neg hpermits, hnext]
  exact ⟨_, next, _, rfl, rfl, rfl, rfl, rfl, rfl⟩

omit [DecidableEq Peer] in
/-- The queue after one of its parts was replaced. -/
lemma queueOf_insert {mux' : ConnectionMultiplexer Peer} {priority : Priority}
    {queue : List StreamId}
    (h : mux'.priorityQueue = mux.priorityQueue.insert priority queue) (priority' : Priority) :
    mux'.queueOf priority' = if priority' = priority then queue else mux.queueOf priority' := by
  unfold queueOf
  rw [h, HashMap.lookup_insert_ite]
  split_ifs <;> rfl

/-- Opening a stream with a number that has no route. -/
lemma Consistent.openStream (h : mux.Consistent) {mux' : ConnectionMultiplexer Peer} {peer : Peer}
    {connection : MultiplexedConnection} {next : UInt64} {info : StreamInfo}
    (hlookup : mux.connections.lookup peer = some connection)
    (hroom : connection.streams.keys.card < mux.maxStreamsPerConnection.toNat)
    (hfresh : mux.streamRoutes.lookup connection.nextStreamId = none)
    (hconnections : mux'.connections = mux.connections.insert peer
      ⟨connection.streams.insert connection.nextStreamId info, next, connection.streamSemaphore⟩)
    (hroutes : mux'.streamRoutes = mux.streamRoutes.insert connection.nextStreamId peer)
    (hqueue : mux'.priorityQueue = mux.priorityQueue.insert info.priority
      (mux.queueOf info.priority ++ [connection.nextStreamId]))
    (hmax : mux'.maxStreamsPerConnection = mux.maxStreamsPerConnection) : mux'.Consistent := by
  -- the streams of every peer, found by their number
  have hstreams (peer' : Peer) (streamId : StreamId) : (mux'.streamsOf peer').lookup streamId =
      if peer' = peer ∧ streamId = connection.nextStreamId then some info
      else (mux.streamsOf peer').lookup streamId := by
    rw [streamsOf_insert hconnections]
    by_cases hpeer : peer' = peer
    · subst hpeer
      rw [if_pos rfl, HashMap.lookup_insert_ite, streamsOf_of_lookup hlookup]
      simp
    · rw [if_neg hpeer, if_neg fun hboth => hpeer hboth.1]
  have hnone (peer' : Peer) : (mux.streamsOf peer').lookup connection.nextStreamId = none := by
    rw [Finmap.lookup_eq_none, ← h.routes, hfresh]
    simp
  have hroutes' : ∀ streamId peer',
      mux'.streamRoutes.lookup streamId = some peer' ↔ streamId ∈ mux'.streamsOf peer' := by
    intro streamId peer'
    rw [HashMap.mem_iff_exists, hstreams, hroutes, HashMap.lookup_insert_ite]
    by_cases hid : streamId = connection.nextStreamId
    · subst hid
      rw [if_pos rfl, hnone]
      by_cases hpeer : peer' = peer
      · simp [hpeer]
      · simp [hpeer, Ne.symm hpeer]
    · rw [if_neg hid, if_neg fun hboth => hid hboth.2, h.routes, HashMap.mem_iff_exists]
  have hnot (priority : Priority) : connection.nextStreamId ∉ mux.queueOf priority := by
    rw [h.queued]
    rintro ⟨peer', info', hlookup', -⟩
    simp [hnone] at hlookup'
  refine ⟨fun peer' peer'' streamId h' h'' => ?_, hroutes', fun peer' => ?_,
    fun streamId priority => ?_, fun priority => ?_⟩
  · rw [← hroutes'] at h' h''
    exact Option.some.inj (h'.symm.trans h'')
  · rw [streamsOf_insert hconnections, hmax]
    split_ifs
    · exact (HashMap.card_keys_insert_le _ _ _).trans hroom
    · exact h.bounded peer'
  · rw [queueOf_insert hqueue]
    simp only [hstreams]
    by_cases hid : streamId = connection.nextStreamId
    · subst hid
      simp only [and_true]
      constructor
      · intro hmem
        by_cases hpriority : priority = info.priority
        · exact ⟨peer, info, if_pos rfl, hpriority.symm⟩
        · rw [if_neg hpriority] at hmem
          exact absurd hmem (hnot priority)
      · rintro ⟨peer', info', hlookup', rfl⟩
        rw [hnone] at hlookup'
        by_cases hpeer : peer' = peer
        · rw [if_pos hpeer] at hlookup'
          obtain rfl := Option.some.inj hlookup'
          simp
        · simp [hpeer] at hlookup'
    · simp only [hid, and_false, if_false]
      rw [← h.queued]
      split_ifs with hpriority
      · simp [hid, hpriority]
      · rfl
  · rw [queueOf_insert hqueue]
    split_ifs
    · refine List.nodup_append.mpr ⟨h.nodup _, List.nodup_singleton _, ?_⟩
      intro a ha b hb heq
      rw [List.mem_singleton] at hb
      exact hnot _ (hb ▸ heq ▸ ha)
    · exact h.nodup priority

/-- A number that has a route already makes the streams inconsistent. -/
lemma Consistent.not_of_collision (h : mux.Consistent) {mux' : ConnectionMultiplexer Peer}
    {peer peer' : Peer} {connection : MultiplexedConnection} {next : UInt64} {info : StreamInfo}
    (hlookup : mux.connections.lookup peer = some connection)
    (hrouted : mux.streamRoutes.lookup connection.nextStreamId = some peer')
    (hconnections : mux'.connections = mux.connections.insert peer
      ⟨connection.streams.insert connection.nextStreamId info, next, connection.streamSemaphore⟩)
    (hqueue : mux'.priorityQueue = mux.priorityQueue.insert info.priority
      (mux.queueOf info.priority ++ [connection.nextStreamId])) : ¬mux'.Consistent := by
  intro h'
  have hself : mux'.streamsOf peer = connection.streams.insert connection.nextStreamId info := by
    rw [streamsOf_insert hconnections, if_pos rfl]
  have hmem := (h.routes _ _).mp hrouted
  have hpeer : peer' = peer := by
    by_contra hne
    refine hne (h'.distinct peer' peer connection.nextStreamId ?_ ?_)
    · rwa [streamsOf_insert hconnections, if_neg hne]
    · rw [hself]
      exact Finmap.mem_insert.mpr (.inl rfl)
  subst hpeer
  -- the stream that had the number is replaced, and its place in the queue remains
  obtain ⟨old, hold⟩ := HashMap.mem_iff_exists.mp hmem
  have hqueued := (h.queued connection.nextStreamId old.priority).mpr ⟨peer', old, hold, rfl⟩
  by_cases hpriority : old.priority = info.priority
  · have hnodup := h'.nodup info.priority
    rw [queueOf_insert hqueue, if_pos rfl] at hnodup
    exact (List.disjoint_of_nodup_append hnodup) (hpriority ▸ hqueued) (List.mem_singleton_self _)
  · have hqueued' : connection.nextStreamId ∈ mux'.queueOf old.priority := by
      rwa [queueOf_insert hqueue, if_neg hpriority]
    obtain ⟨peer'', info', hinfo', hpriority'⟩ := (h'.queued _ _).mp hqueued'
    have hpeer : peer'' = peer' := by
      refine h'.distinct peer'' peer' connection.nextStreamId (HashMap.mem_of_lookup hinfo') ?_
      rw [hself]
      exact Finmap.mem_insert.mpr (.inl rfl)
    rw [hpeer, hself, Finmap.lookup_insert] at hinfo'
    exact hpriority (hpriority'.symm.trans (congrArg StreamInfo.priority
      (Option.some.inj hinfo'.symm)))

/-- A stream without a route is not closed. -/
lemma closeStream_of_none {streamId : StreamId} (h : mux.streamRoutes.lookup streamId = none) :
    (mux.closeStream streamId).2 = mux := by
  rw [closeStream, h]

/-- Closing a stream leaves it in the queue, without a route. -/
lemma closeStream_of_some {streamId : StreamId} {peer : Peer}
    (h : mux.streamRoutes.lookup streamId = some peer) :
    (mux.closeStream streamId).2.streamRoutes = mux.streamRoutes.erase streamId ∧
      (mux.closeStream streamId).2.priorityQueue = mux.priorityQueue := by
  rw [closeStream, h]
  dsimp only
  cases mux.connections.lookup peer <;> exact ⟨rfl, rfl⟩

/-- **A step from a consistent multiplexer is as it should be iff it is careful.** -/
lemma consistent_apply_iff (checks : Bool) (h : mux.Consistent) (step : StreamStep Peer) :
    (mux.apply checks step).Consistent ∧ mux.ClosesExactly step ↔ mux.Careful checks step := by
  cases step with
  | openStream peer priority created active =>
    rw [ClosesExactly, and_true]
    by_cases hopens : ∃ connection, mux.connections.lookup peer = some connection ∧
        mux.CanOpen checks connection
    · obtain ⟨connection, hlookup, hopen⟩ := hopens
      obtain ⟨mux', next, info, heq, hconnections, hpriority, hroutes, hqueue, hmax⟩ :=
        openStream_of_canOpen hlookup hopen priority created active
      rw [← hpriority] at hqueue
      rw [apply, heq]
      constructor
      · intro h' connection' hlookup' _
        obtain rfl := Option.some.inj (hlookup.symm.trans hlookup')
        by_contra hrouted
        obtain ⟨peer', hrouted⟩ := Option.ne_none_iff_exists'.mp hrouted
        exact h.not_of_collision hlookup hrouted hconnections hqueue h'
      · intro hcareful
        exact h.openStream hlookup hopen.1 (hcareful connection hlookup hopen) hconnections hroutes
          hqueue hmax
    · have hnone : ∀ connection, mux.connections.lookup peer = some connection →
          ¬mux.CanOpen checks connection :=
        fun connection hlookup hopen => hopens ⟨connection, hlookup, hopen⟩
      rw [apply, openStream_of_not_canOpen hnone]
      exact iff_of_true h fun connection hlookup hopen => absurd hopen (hnone connection hlookup)
  | closeStream streamId =>
    constructor
    · rintro ⟨h', -⟩
      by_contra hrouted
      obtain ⟨peer, hrouted⟩ := Option.ne_none_iff_exists'.mp hrouted
      obtain ⟨hroutes, hqueue⟩ := closeStream_of_some hrouted
      -- the closed stream is still queued
      obtain ⟨info, hinfo⟩ := HashMap.mem_iff_exists.mp ((h.routes _ _).mp hrouted)
      have hqueued := (h.queued streamId info.priority).mpr ⟨peer, info, hinfo, rfl⟩
      have hqueued' : streamId ∈ (mux.apply checks (.closeStream streamId)).queueOf
          info.priority := by
        rwa [queueOf, apply, hqueue]
      obtain ⟨peer', info', hinfo', -⟩ := (h'.queued _ _).mp hqueued'
      have hroute := (h'.routes _ _).mpr (HashMap.mem_of_lookup hinfo')
      rw [apply, hroutes, Finmap.lookup_erase] at hroute
      simp at hroute
    · intro hnone
      have hsame := closeStream_of_none hnone
      refine ⟨by rwa [apply, hsame], fun peer => ?_⟩
      rw [hsame]
      refine Finmap.ext_lookup fun streamId' => ?_
      by_cases hid : streamId' = streamId
      · subst hid
        rw [Finmap.lookup_erase, Finmap.lookup_eq_none, ← h.routes, hnone]
        simp
      · rw [Finmap.lookup_erase_ne hid]

/-- A multiplexer without streams is consistent. -/
lemma consistent_start (maxStreamsPerConnection : UInt32)
    (connections : HashMap Peer MultiplexedConnection) :
    (start maxStreamsPerConnection connections).Consistent := by
  have hempty (peer : Peer) : (start maxStreamsPerConnection connections).streamsOf peer = ∅ := by
    unfold streamsOf start
    rw [HashMap.lookup_mapValues]
    cases connections.lookup peer <;> rfl
  refine ⟨?_, ?_, ?_, ?_, ?_⟩
  · intro peer peer' streamId hmem
    rw [hempty] at hmem
    exact absurd hmem Finmap.notMem_empty
  · intro streamId peer
    rw [hempty]
    exact iff_of_false (by simp [start]) Finmap.notMem_empty
  · intro peer
    rw [hempty]
    exact Nat.zero_le _
  · intro streamId priority
    simp only [hempty]
    simp [start, queueOf]
  · intro priority
    simp [start, queueOf]

/-- **The runs with consistent streams**: from any connections without streams, the connections, the
routes and the queue speak of the same streams, and closing removes one stream alone, iff no number
of an open stream is used again, and no open stream is ever closed. -/
theorem consistent_iff_careful (checks : Bool) (maxStreamsPerConnection : UInt32)
    (connections : HashMap Peer MultiplexedConnection) (steps : List (StreamStep Peer)) :
    (Runs.Always (apply checks) Consistent (start maxStreamsPerConnection connections) steps ∧
        Runs.Steps (apply checks) ClosesExactly (start maxStreamsPerConnection connections) steps) ↔
      Runs.Steps (apply checks) (Careful checks) (start maxStreamsPerConnection connections)
        steps := by
  have hstart := consistent_start maxStreamsPerConnection connections
  have hiff : Runs.Steps (apply checks)
      (fun mux step => (mux.apply checks step).Consistent ∧ mux.ClosesExactly step)
        (start maxStreamsPerConnection connections) steps ↔
      Runs.Steps (apply checks) (Careful checks) (start maxStreamsPerConnection connections)
        steps := by
    refine Runs.steps_iff_steps Consistent (fun mux step h => consistent_apply_iff checks h step)
      (fun mux step h hcareful => ?_) hstart
    exact ((consistent_apply_iff checks h step).mpr hcareful).1
  rw [← hiff, Runs.always_iff_steps_after, and_iff_right hstart]
  exact ⟨fun h => h.1.and h.2, fun h => ⟨h.imp fun _ _ hstep => hstep.1,
    h.imp fun _ _ hstep => hstep.2⟩⟩

/-! ## Two peers -/

/-- A new connection. -/
def sampleConnection : MultiplexedConnection := ⟨∅, 0, ⟨32, false⟩⟩

/-- A multiplexer that is connected to two peers. -/
def sampleConnections : HashMap Bool MultiplexedConnection :=
  ((∅ : HashMap Bool MultiplexedConnection).insert true sampleConnection).insert false
    sampleConnection

/-- The first streams of two peers have the same number. -/
theorem not_consistent_sampleConnections :
    ¬(Runs.Always (apply false) Consistent (start 32 sampleConnections)
          [.openStream true .normal 0 0, .openStream false .normal 1 1] ∧
        Runs.Steps (apply false) ClosesExactly (start 32 sampleConnections)
          [.openStream true .normal 0 0, .openStream false .normal 1 1]) := by
  rintro ⟨hall, -⟩
  have hend := Runs.always_iff.mp hall _ (List.prefix_refl _)
  exact absurd (hend.distinct true false 0 (by decide) (by decide)) (by decide)

end ConnectionMultiplexer

end QuDAG.Network
