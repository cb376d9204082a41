import QuDAG.Lib.Runs
import QuDAG.Lib.SlidingLog
import QuDAG.Protocol.RpcAuth

/-!
# The RPC server: its rate limit and its peers (`rpc_server.rs`)

A connection over TCP is dropped if its client has opened too many in the last minute. The request
of a connection is authenticated and carried out on the network manager, which keeps the peers, the
banned addresses and two counters. Both are behind a lock, so that a run is a list of requests.

## Main definitions

* `RateLimiter`, with `checkRateLimit` — the times of the connections of a client.
* `NetworkManager`, with `addPeer`, `removePeer`, `banPeer`, `unbanPeer` and `execute`, which
  carries out a request.
* `RpcServer.respond` — a request to a server with a manager.

## Main results

* `RateLimiter.limits` — exactly what the limiter lets through.
* `RpcServer.run_banned` — a banned address stays out until it is unbanned.
* `RpcServer.activeConnections_eq_iff` — when the counter counts the peers.

## Implementation notes

A time is a number of nanoseconds, and a difference of times that is negative is zero, as
`unwrap_or_default` makes it. What a request finds around it (the clock, the UUID that is drawn, the
connections that can be opened, the answer of the node to a stop) is a value of `Surroundings`. The
manager has no node handle: no part of the program sets one.
-/

namespace QuDAG.Protocol

open RustStd

/-! ## The rate limiter -/

/-- Rate limiter for RPC requests. -/
structure RateLimiter where
  requests : HashMap String (List ℕ)
  maxRequestsPerMinute : ℕ

namespace RateLimiter

/-- A limiter that has seen no request. -/
def new (maxRequestsPerMinute : ℕ) : RateLimiter := ⟨∅, maxRequestsPerMinute⟩

/-- A request is less than a minute old, in whole seconds. -/
def isRecent (now time : ℕ) : Bool := decide ((now - time) / 10 ^ 9 < 60)

/-- The times that are kept for a client. -/
def requestsOf (limiter : RateLimiter) (clientIp : String) : List ℕ :=
  (limiter.requests.lookup clientIp).getD []

/-- Whether a request is let through, and the limiter after it. -/
def checkRateLimit (limiter : RateLimiter) (now : ℕ) (clientIp : String) : Bool × RateLimiter :=
  let requests := (limiter.requestsOf clientIp).filter (isRecent now)
  if limiter.maxRequestsPerMinute ≤ requests.length then
    (false, { limiter with requests := limiter.requests.insert clientIp requests })
  else
    (true, { limiter with requests := limiter.requests.insert clientIp (requests ++ [now]) })

/-- The answers to the requests of clients, with their times. -/
def answers : RateLimiter → List (String × ℕ) → List ((String × ℕ) × Bool)
  | _, [] => []
  | limiter, (clientIp, now) :: calls =>
    let (ok, limiter) := limiter.checkRateLimit now clientIp
    ((clientIp, now), ok) :: answers limiter calls

/-- The answers to one client. -/
def ofClient (clientIp : String) (answers : List ((String × ℕ) × Bool)) : List (ℕ × Bool) :=
  (answers.filter fun answer => answer.1.1 == clientIp).map fun answer => (answer.1.2, answer.2)

/-! ### What the limiter keeps -/

lemma closing_isRecent : SlidingLog.Closing isRecent := by
  intro now now' time hle h
  simp only [isRecent, decide_eq_true_eq] at h ⊢
  exact lt_of_le_of_lt (Nat.div_le_div_right (Nat.sub_le_sub_right hle time)) h

/-- A check is a request to the log of the client. -/
lemma checkRateLimit_eq (limiter : RateLimiter) (now : ℕ) (clientIp : String) :
    limiter.checkRateLimit now clientIp =
      let (ok, log) := SlidingLog.request isRecent limiter.maxRequestsPerMinute
        (limiter.requestsOf clientIp) now
      (ok, { limiter with requests := limiter.requests.insert clientIp log }) := by
  simp only [checkRateLimit, SlidingLog.request]
  split_ifs <;> rfl

@[simp] lemma maxRequestsPerMinute_checkRateLimit (limiter : RateLimiter) (now : ℕ)
    (clientIp : String) : (limiter.checkRateLimit now clientIp).2.maxRequestsPerMinute =
      limiter.maxRequestsPerMinute := by
  rw [checkRateLimit_eq]

/-- A check changes the log of its client only. -/
lemma requestsOf_checkRateLimit (limiter : RateLimiter) (now : ℕ) (clientIp other : String) :
    (limiter.checkRateLimit now clientIp).2.requestsOf other =
      if other = clientIp then (SlidingLog.request isRecent limiter.maxRequestsPerMinute
        (limiter.requestsOf clientIp) now).2
      else limiter.requestsOf other := by
  rw [checkRateLimit_eq]
  simp only [requestsOf, HashMap.lookup_insert_ite]
  split_ifs <;> rfl

@[simp] lemma ofClient_cons (client clientIp : String) (now : ℕ) (ok : Bool)
    (answers : List ((String × ℕ) × Bool)) :
    ofClient client (((clientIp, now), ok) :: answers) =
      if clientIp = client then (now, ok) :: ofClient client answers
      else ofClient client answers := by
  by_cases h : clientIp = client <;> simp [ofClient, h]

/-- The answers to a client are to its requests. -/
lemma map_fst_ofClient_answers (client : String) (calls : List (String × ℕ)) :
    ∀ limiter : RateLimiter, (ofClient client (limiter.answers calls)).map Prod.fst =
      (calls.filter fun call => call.1 == client).map Prod.snd := by
  induction calls with
  | nil => exact fun _ => rfl
  | cons call calls ih =>
    intro limiter
    obtain ⟨clientIp, now⟩ := call
    rw [answers, ofClient_cons]
    by_cases h : clientIp = client
    · simp [h, ih]
    · simp [h, ih]

/-- The answers to a client are exact, if the log tracks what was granted before.

**Proof sketch.** Induction on the calls. A call of the client extends what was answered, and the
log tracks it again at the time of the call; a call of another client changes neither. -/
lemma exact_ofClient_answers (client : String) (limit : ℕ) (calls : List (String × ℕ)) :
    ∀ (limiter : RateLimiter) (before : List (ℕ × Bool)) (clock : ℕ),
      limiter.maxRequestsPerMinute = limit →
      SlidingLog.Tracks isRecent (SlidingLog.granted before) (limiter.requestsOf client) clock →
      SlidingLog.Exact isRecent limit before →
      (∀ call ∈ calls, clock ≤ call.2) → (calls.map Prod.snd).Pairwise (· ≤ ·) →
      SlidingLog.Exact isRecent limit (before ++ ofClient client (limiter.answers calls)) := by
  induction calls with
  | nil =>
    intro limiter before clock _ _ hexact _ _
    simpa [answers, ofClient] using hexact
  | cons call calls ih =>
    intro limiter before clock hlimit htracks hexact hclock hsorted
    obtain ⟨clientIp, now⟩ := call
    have hnow : clock ≤ now := hclock _ List.mem_cons_self
    obtain ⟨hfirst, hrest⟩ := List.pairwise_cons.mp (List.map_cons ▸ hsorted)
    have hlater : ∀ call ∈ calls, now ≤ call.2 :=
      fun call hcall => hfirst _ (List.mem_map_of_mem hcall)
    rw [answers, ofClient_cons]
    by_cases h : clientIp = client
    · subst h
      have hok : (limiter.checkRateLimit now clientIp).1 =
          (SlidingLog.request isRecent limit (limiter.requestsOf clientIp) now).1 := by
        rw [checkRateLimit_eq, hlimit]
      rw [if_pos rfl, List.append_cons]
      refine ih _ _ now (by simp [hlimit]) ?_ ?_ hlater hrest
      · rw [requestsOf_checkRateLimit, if_pos rfl, SlidingLog.granted_append, hok, hlimit]
        exact htracks.request closing_isRecent hnow
      · rw [SlidingLog.Exact.append_singleton_iff, hok]
        exact ⟨hexact, htracks.request_fst hnow⟩
    · rw [if_neg h]
      refine ih _ _ now (by simp [hlimit]) ?_ hexact hlater hrest
      rw [requestsOf_checkRateLimit, if_neg (Ne.symm h)]
      exact htracks.mono hnow

/-- What a limiter does for a client, over the requests of all clients. -/
structure Limits (limit : ℕ) (calls : List (String × ℕ)) (clientIp : String) : Prop where
  /-- A request is let through iff fewer than the limit were in the last minute. -/
  exact : SlidingLog.Exact isRecent limit (ofClient clientIp ((new limit).answers calls))
  /-- Never more than the limit are let through in a minute. -/
  window : ∀ now, ((SlidingLog.granted (ofClient clientIp ((new limit).answers calls))).filter
    fun time => decide (time ≤ now) && isRecent now time).length ≤ limit
  /-- The requests of other clients make no difference. -/
  alone : ofClient clientIp ((new limit).answers calls) =
    ofClient clientIp ((new limit).answers (calls.filter fun call => call.1 == clientIp))

lemma exact_answers (limit : ℕ) {calls : List (String × ℕ)} (clientIp : String)
    (hclock : (calls.map Prod.snd).Pairwise (· ≤ ·)) :
    SlidingLog.Exact isRecent limit (ofClient clientIp ((new limit).answers calls)) := by
  refine exact_ofClient_answers clientIp limit calls (new limit) [] 0 rfl ?_ ?_ ?_ hclock
  · intro now _
    simp [requestsOf, new]
  · rintro before now ok after heq
    simp at heq
  · exact fun call _ => Nat.zero_le _

/-- **Exactly what the limiter lets through**, while the clock does not go back. -/
theorem limits (limit : ℕ) (calls : List (String × ℕ)) (clientIp : String)
    (hclock : (calls.map Prod.snd).Pairwise (· ≤ ·)) : Limits limit calls clientIp where
  exact := exact_answers limit clientIp hclock
  window := (exact_answers limit clientIp hclock).length_le closing_isRecent
  alone := by
    have hsub : ((calls.filter fun call => call.1 == clientIp).map Prod.snd).Pairwise (· ≤ ·) :=
      hclock.sublist (List.filter_sublist.map Prod.snd)
    refine (exact_answers limit clientIp hclock).unique (exact_answers limit clientIp hsub) ?_
    rw [map_fst_ofClient_answers, map_fst_ofClient_answers, List.filter_filter]
    simp

/-- The theorem at a client that comes back after a minute. -/
theorem limits_sample :
    Limits 1 [("10.0.0.1", 0), ("10.0.0.1", 10 ^ 9), ("10.0.0.1", 60 * 10 ^ 9)] "10.0.0.1" :=
  limits 1 _ "10.0.0.1" (by decide)

end RateLimiter

/-! ## The network manager -/

/-- Peer information for RPC responses. -/
structure PeerInfo where
  id : String
  address : String
  connectedDuration : ℕ
  messagesSent : ℕ
  messagesReceived : ℕ
  lastSeen : ℕ
  status : String
  latency : Option ℚ

/-- Network statistics. -/
structure NetworkStats where
  totalConnections : ℕ
  activeConnections : ℕ
  messagesSent : ℕ
  messagesReceived : ℕ
  bytesSent : ℕ
  bytesReceived : ℕ
  averageLatency : ℚ
  uptime : ℕ

/-- Network test result. -/
structure NetworkTestResult where
  peerId : String
  address : String
  reachable : Bool
  latency : Option ℚ
  error : Option String

/-- Memory statistics. -/
structure MemoryStats where
  totalAllocated : ℕ
  currentUsage : ℕ
  peakUsage : ℕ

/-- What comes of opening a connection to an address. -/
inductive Probe
  | connected (millis : ℕ)
  | refused (error : String)
  | timedOut
  | invalid (error : String)

/-- What comes of passing a stop on to the node. -/
inductive StopOutcome
  | notSent
  | dropped
  | answered (result : Json)

/-- What a request finds around it. -/
structure Surroundings where
  now : ℕ
  /-- The UUID that is drawn. -/
  uuid : Uuid
  probe : String → Probe
  memory : MemoryStats
  stop : StopOutcome

/-- Network manager for peer operations. -/
structure NetworkManager where
  mockPeers : HashMap String PeerInfo
  bannedPeers : HashSet String
  networkStats : NetworkStats
  startTime : ℕ

namespace NetworkManager

/-- A manager without peers. -/
def new (now : ℕ) : NetworkManager where
  mockPeers := ∅
  bannedPeers := ∅
  networkStats := ⟨0, 0, 0, 0, 0, 0, 0, 0⟩
  startTime := now

variable (around : Surroundings) (it : HashMap.Iteration String PeerInfo)

/-- The identifier that a new peer gets: the first digits of a UUID. -/
def newPeerId : String := "peer_" ++ String.ofList (around.uuid.hyphenated.take 8)

/-- The entry of a new peer. -/
def newPeer (address : String) : PeerInfo where
  id := newPeerId around
  address := address
  connectedDuration := 0
  messagesSent := 0
  messagesReceived := 0
  lastSeen := around.now / 10 ^ 9
  status := "Connected"
  latency := none

/-- Add a peer, under an identifier of its own. -/
def addPeer (address : String) (manager : NetworkManager) :
    Except String Unit × NetworkManager :=
  if address ∈ manager.bannedPeers then (.error "Peer is banned", manager)
  else
    (.ok (), { manager with
      mockPeers := manager.mockPeers.insert (newPeerId around) (newPeer around address)
      networkStats := { manager.networkStats with
        totalConnections := manager.networkStats.totalConnections + 1
        activeConnections := manager.networkStats.activeConnections + 1 } })

/-- Remove a peer. -/
def removePeer (peerId : String) (manager : NetworkManager) :
    Except String Unit × NetworkManager :=
  if peerId ∈ manager.mockPeers then
    (.ok (), { manager with
      mockPeers := manager.mockPeers.erase peerId
      networkStats := { manager.networkStats with
        activeConnections := manager.networkStats.activeConnections - 1 } })
  else (.error "Peer not found", manager)

/-- The entry of a peer. -/
def getPeerInfo (manager : NetworkManager) (peerId : String) : Option PeerInfo :=
  manager.mockPeers.lookup peerId

/-- The entries of all peers. -/
def listPeers (manager : NetworkManager) : List PeerInfo :=
  (it.order manager.mockPeers).map Prod.snd

/-- Ban the address of a peer, and remove the peer. -/
def banPeer (peerId : String) (manager : NetworkManager) : Except String Unit × NetworkManager :=
  match manager.mockPeers.lookup peerId with
  | some peer => removePeer peerId
      { manager with bannedPeers := insert peer.address manager.bannedPeers }
  | none => (.error "Peer not found", manager)

/-- Lift the ban of an address. -/
def unbanPeer (address : String) (manager : NetworkManager) :
    Except String Unit × NetworkManager :=
  if address ∈ manager.bannedPeers then
    (.ok (), { manager with bannedPeers := manager.bannedPeers.erase address })
  else (.error "Peer is not banned", manager)

/-- The time since the start, in whole seconds. -/
def elapsed (manager : NetworkManager) : ℕ := (around.now - manager.startTime) / 10 ^ 9

/-- The statistics, with the uptime brought up to date. -/
def getNetworkStats (manager : NetworkManager) : NetworkStats × NetworkManager :=
  let stats := { manager.networkStats with uptime := manager.elapsed around }
  (stats, { manager with networkStats := stats })

/-- Test whether a peer can be connected to. -/
def testPeerConnectivity (peer : PeerInfo) : NetworkTestResult :=
  match around.probe peer.address with
  | .connected millis => ⟨peer.id, peer.address, true, some millis, none⟩
  | .refused error => ⟨peer.id, peer.address, false, none, some error⟩
  | .timedOut => ⟨peer.id, peer.address, false, none, some "Connection timeout"⟩
  | .invalid error => ⟨peer.id, peer.address, false, none, some ("Invalid address: " ++ error)⟩

/-- Test all peers. -/
def testNetwork (manager : NetworkManager) : List NetworkTestResult :=
  (manager.listPeers it).map (testPeerConnectivity around)

end NetworkManager

/-! ### Responses -/

/-- A value that may be absent. -/
def Json.ofOption {α : Type} (toJson : α → Json) : Option α → Json
  | some value => toJson value
  | none => .null

def PeerInfo.toJson (peer : PeerInfo) : Json := .object
  [("address", .string peer.address), ("connected_duration", .number peer.connectedDuration),
   ("id", .string peer.id), ("last_seen", .number peer.lastSeen),
   ("latency", Json.ofOption .number peer.latency),
   ("messages_received", .number peer.messagesReceived),
   ("messages_sent", .number peer.messagesSent), ("status", .string peer.status)]

def NetworkStats.toJson (stats : NetworkStats) : Json := .object
  [("active_connections", .number stats.activeConnections),
   ("average_latency", .number stats.averageLatency),
   ("bytes_received", .number stats.bytesReceived), ("bytes_sent", .number stats.bytesSent),
   ("messages_received", .number stats.messagesReceived),
   ("messages_sent", .number stats.messagesSent),
   ("total_connections", .number stats.totalConnections), ("uptime", .number stats.uptime)]

def NetworkTestResult.toJson (result : NetworkTestResult) : Json := .object
  [("address", .string result.address), ("error", Json.ofOption .string result.error),
   ("latency", Json.ofOption .number result.latency), ("peer_id", .string result.peerId),
   ("reachable", .bool result.reachable)]

def MemoryStats.toJson (memory : MemoryStats) : Json := .object
  [("current_usage", .number memory.currentUsage), ("peak_usage", .number memory.peakUsage),
   ("total_allocated", .number memory.totalAllocated)]

/-- The status of a manager without a node. -/
def NetworkManager.mockStatus (around : Surroundings) (it : HashMap.Iteration String PeerInfo)
    (manager : NetworkManager) : Json := .object
  [("dag_stats", .object [("edge_count", .number 0), ("finalized_height", .number 0),
     ("pending_transactions", .number 0), ("tip_count", .number 0), ("vertex_count", .number 0)]),
   ("memory_usage", { around.memory with totalAllocated := 0 : MemoryStats }.toJson),
   ("network_stats", (manager.getNetworkStats around).1.toJson),
   ("node_id", .string "node_mock"),
   ("peers", .array ((manager.listPeers it).map PeerInfo.toJson)),
   ("state", .string "Mock"), ("uptime", .number (manager.elapsed around))]

/-- A response with a result. -/
def RpcRequest.succeed (request : RpcRequest) (result : Json) : RpcResponse :=
  ⟨request.id, some result, none⟩

/-- A response with an error. -/
def RpcRequest.fail (request : RpcRequest) (code : Int) (message : String) : RpcResponse :=
  ⟨request.id, none, some ⟨code, message, none⟩⟩

namespace NetworkManager

/-- An operation on the peer, or the address, that a parameter names. -/
def command (name verb past : String)
    (op : String → NetworkManager → Except String Unit × NetworkManager) (request : RpcRequest)
    (manager : NetworkManager) : RpcResponse × NetworkManager :=
  match request.param name with
  | none => (request.fail (-32602) ("Invalid params: " ++ name ++ " required"), manager)
  | some value =>
    match op value manager with
    | (.ok (), manager) => (request.succeed (.object
        [("message", .string ("Peer " ++ value ++ " " ++ past)), ("status", .string "success")]),
          manager)
    | (.error e, manager) =>
      (request.fail (-32003) ("Failed to " ++ verb ++ " peer: " ++ e), manager)

variable (around : Surroundings) (it : HashMap.Iteration String PeerInfo)

/-- Carry out a request that is authenticated. -/
def execute (request : RpcRequest) (manager : NetworkManager) : RpcResponse × NetworkManager :=
  match request.method with
  | "list_peers" =>
    (request.succeed (.array ((manager.listPeers it).map PeerInfo.toJson)), manager)
  | "add_peer" => command "address" "add" "added" (addPeer around) request manager
  | "remove_peer" => command "peer_id" "remove" "removed" removePeer request manager
  | "get_peer_info" =>
    match request.param "peer_id" with
    | none => (request.fail (-32602) "Invalid params: peer_id required", manager)
    | some peerId =>
      match manager.getPeerInfo peerId with
      | some peer => (request.succeed peer.toJson, manager)
      | none => (request.fail (-32004) "Peer not found", manager)
  | "ban_peer" => command "peer_id" "ban" "banned" banPeer request manager
  | "unban_peer" => command "address" "unban" "unbanned" unbanPeer request manager
  | "get_network_stats" =>
    let (stats, manager) := manager.getNetworkStats around
    (request.succeed stats.toJson, manager)
  | "test_network" =>
    (request.succeed (.array ((manager.testNetwork around it).map NetworkTestResult.toJson)),
      manager)
  | "stop" =>
    match around.stop with
    | .notSent => (request.fail (-1) "Failed to send stop command", manager)
    | .dropped => (request.fail (-1) "Command execution failed", manager)
    | .answered result => (request.succeed result, manager)
  | "get_status" =>
    (request.succeed (manager.mockStatus around it), (manager.getNetworkStats around).2)
  | _ => (request.fail (-32601) ("Method '" ++ request.method ++ "' not found"), manager)

end NetworkManager

/-- Handle RPC request: authenticate it, and carry it out. -/
def RpcServer.respond {Key : Type} (server : RpcServer Key)
    (it : HashMap.Iteration String PeerInfo) (manager : NetworkManager)
    (step : Surroundings × RpcRequest) : RpcResponse × NetworkManager :=
  if server.authenticateRequest step.2 then NetworkManager.execute step.1 it step.2 manager
  else (step.2.fail (-32001) "Authentication required", manager)

/-! ## What a request does -/

namespace RpcServer

variable {Key : Type} (server : RpcServer Key) (it : HashMap.Iteration String PeerInfo)

/-- An authenticated request that calls for an operation on a value. -/
def Asks (method name value : String) (request : RpcRequest) : Prop :=
  server.authenticateRequest request = true ∧ request.method = method ∧
    request.param name = some value

/-- What a request may make of a manager. -/
inductive Outcome (manager : NetworkManager) (step : Surroundings × RpcRequest) :
    NetworkManager → Prop
  | same : Outcome manager step manager
  | stats : Outcome manager step (manager.getNetworkStats step.1).2
  | added (address : String) (asks : server.Asks "add_peer" "address" address step.2)
      (free : address ∉ manager.bannedPeers) :
      Outcome manager step (NetworkManager.addPeer step.1 address manager).2
  | removed (peerId : String) (asks : server.Asks "remove_peer" "peer_id" peerId step.2)
      (present : peerId ∈ manager.mockPeers) :
      Outcome manager step (NetworkManager.removePeer peerId manager).2
  | banned (peerId : String) (asks : server.Asks "ban_peer" "peer_id" peerId step.2)
      (present : peerId ∈ manager.mockPeers) :
      Outcome manager step (NetworkManager.banPeer peerId manager).2
  | unbanned (address : String) (asks : server.Asks "unban_peer" "address" address step.2)
      (taken : address ∈ manager.bannedPeers) :
      Outcome manager step (NetworkManager.unbanPeer address manager).2

/-- What a request makes of a manager, with the response to it. -/
def Explains (manager : NetworkManager) (step : Surroundings × RpcRequest)
    (answer : RpcResponse × NetworkManager) : Prop :=
  server.Outcome manager step answer.2 ∧ (answer.1.error.isSome = true → answer.2 = manager)

variable {server} {manager : NetworkManager} {step : Surroundings × RpcRequest}

/-- A response that leaves the manager as it is. -/
lemma explains_same (response : RpcResponse) : server.Explains manager step (response, manager) :=
  ⟨.same, fun _ => rfl⟩

/-- An operation that fails changes nothing, and one that succeeds is explained. -/
lemma explains_command (name verb past : String)
    (op : String → NetworkManager → Except String Unit × NetworkManager)
    (herror : ∀ value e, (op value manager).1 = .error e → (op value manager).2 = manager)
    (hok : ∀ value, step.2.param name = some value → (op value manager).1 = .ok () →
      server.Outcome manager step (op value manager).2) :
    server.Explains manager step (NetworkManager.command name verb past op step.2 manager) := by
  rw [NetworkManager.command]
  cases hparam : step.2.param name with
  | none => exact explains_same _
  | some value =>
    have herror := herror value
    have hok := hok value hparam
    rcases hop : op value manager with ⟨e | _, after⟩
    · rw [hop] at herror
      obtain rfl : after = manager := herror e rfl
      simp only [hop]
      exact explains_same _
    · rw [hop] at hok
      simp only [hop]
      exact ⟨hok rfl, fun h => absurd h (by simp [RpcRequest.succeed])⟩

/-- **What a request does.** -/
theorem explains_respond (manager : NetworkManager) (step : Surroundings × RpcRequest) :
    server.Explains manager step (server.respond it manager step) := by
  rw [respond]
  split_ifs with hauth
  · rw [NetworkManager.execute]
    split
    · exact explains_same _
    · rename_i hmethod
      refine explains_command _ _ _ _ (fun value e h => ?_) fun value hparam h => ?_
      · simp only [NetworkManager.addPeer] at h ⊢
        split_ifs at h ⊢
        rfl
      · refine .added value ⟨hauth, hmethod, hparam⟩ fun hban => ?_
        simp [NetworkManager.addPeer, hban] at h
    · rename_i hmethod
      refine explains_command _ _ _ _ (fun value e h => ?_) fun value hparam h => ?_
      · simp only [NetworkManager.removePeer] at h ⊢
        split_ifs at h ⊢
        rfl
      · refine .removed value ⟨hauth, hmethod, hparam⟩ ?_
        by_contra habsent
        simp [NetworkManager.removePeer, habsent] at h
    · split
      · exact explains_same _
      · split <;> exact explains_same _
    · rename_i hmethod
      refine explains_command _ _ _ _ (fun value e h => ?_) fun value hparam h => ?_
      · cases hlookup : manager.mockPeers.lookup value with
        | none => simp only [NetworkManager.banPeer, hlookup]
        | some peer =>
          have hmem := HashMap.mem_of_lookup hlookup
          simp [NetworkManager.banPeer, hlookup, NetworkManager.removePeer, hmem] at h
      · refine .banned value ⟨hauth, hmethod, hparam⟩ ?_
        by_contra habsent
        simp [NetworkManager.banPeer, Finmap.lookup_eq_none.mpr habsent] at h
    · rename_i hmethod
      refine explains_command _ _ _ _ (fun value e h => ?_) fun value hparam h => ?_
      · simp only [NetworkManager.unbanPeer] at h ⊢
        split_ifs at h ⊢
        rfl
      · refine .unbanned value ⟨hauth, hmethod, hparam⟩ ?_
        by_contra habsent
        simp [NetworkManager.unbanPeer, habsent] at h
    · exact ⟨.stats, fun h => absurd h (by simp [RpcRequest.succeed])⟩
    · exact explains_same _
    · split <;> exact explains_same _
    · exact ⟨.stats, fun h => absurd h (by simp [RpcRequest.succeed])⟩
    · exact explains_same _
  · exact explains_same _

/-! ## Bans over a run -/

variable (server)

/-- The manager after a request. -/
abbrev serve (manager : NetworkManager) (step : Surroundings × RpcRequest) : NetworkManager :=
  (server.respond it manager step).2

/-- What holds of an address over requests, while it is banned. -/
structure KeepsOut (address : String) (manager : NetworkManager)
    (steps : List (Surroundings × RpcRequest)) : Prop where
  /-- It is banned as long as no request unbans it. -/
  banned : Runs.Always (server.serve it) (fun manager => address ∈ manager.bannedPeers)
      manager steps ↔
    ∀ step ∈ steps, ¬ server.Asks "unban_peer" "address" address step.2
  /-- Until then no peer gets the address, -/
  peers : (∀ step ∈ steps, ¬ server.Asks "unban_peer" "address" address step.2) →
    ∀ peerId peer, (Runs.run (server.serve it) manager steps).mockPeers.lookup peerId = some peer →
      peer.address = address → manager.mockPeers.lookup peerId = some peer
  /-- and a request to add one fails. -/
  refuses : (∀ step ∈ steps, ¬ server.Asks "unban_peer" "address" address step.2) →
    Runs.Steps (server.serve it) (fun manager step =>
      server.Asks "add_peer" "address" address step.2 →
        server.respond it manager step =
          (step.2.fail (-32003) "Failed to add peer: Peer is banned", manager)) manager steps

variable {server it}

/-- A banned address stays banned by every request but one. -/
lemma Outcome.mem_bannedPeers {after : NetworkManager} (h : server.Outcome manager step after)
    {address : String} (hban : address ∈ manager.bannedPeers)
    (hask : ¬ server.Asks "unban_peer" "address" address step.2) : address ∈ after.bannedPeers := by
  cases h with
  | same => exact hban
  | stats => exact hban
  | added value asks free => rwa [NetworkManager.addPeer, if_neg free]
  | removed peerId asks present => rwa [NetworkManager.removePeer, if_pos present]
  | banned peerId asks present =>
    obtain ⟨peer, hpeer⟩ := HashMap.mem_iff_exists.mp present
    simp only [NetworkManager.banPeer, hpeer, NetworkManager.removePeer, if_pos present]
    exact Finset.mem_insert_of_mem hban
  | unbanned value asks taken =>
    rw [NetworkManager.unbanPeer, if_pos taken]
    refine Finset.mem_erase.mpr ⟨?_, hban⟩
    rintro rfl
    exact hask asks

/-- No request gives a banned address to a peer. -/
lemma Outcome.lookup_of_banned {after : NetworkManager} (h : server.Outcome manager step after)
    {address peerId : String} {peer : PeerInfo} (hban : address ∈ manager.bannedPeers)
    (hpeer : after.mockPeers.lookup peerId = some peer) (haddress : peer.address = address) :
    manager.mockPeers.lookup peerId = some peer := by
  -- What is found after a removal was there before.
  have herase {key : String} (hfound : (manager.mockPeers.erase key).lookup peerId = some peer) :
      manager.mockPeers.lookup peerId = some peer := by
    rw [HashMap.lookup_erase_ite] at hfound
    split_ifs at hfound
    exact hfound
  cases h with
  | same => exact hpeer
  | stats => exact hpeer
  | added value asks free =>
    rw [NetworkManager.addPeer, if_neg free, HashMap.lookup_insert_ite] at hpeer
    split_ifs at hpeer with heq
    · obtain rfl := Option.some.inj hpeer
      exact absurd (show value ∈ manager.bannedPeers by rwa [← haddress] at hban) free
    · exact hpeer
  | removed key asks present =>
    rw [NetworkManager.removePeer, if_pos present] at hpeer
    exact herase hpeer
  | banned key asks present =>
    obtain ⟨entry, hentry⟩ := HashMap.mem_iff_exists.mp present
    simp only [NetworkManager.banPeer, hentry, NetworkManager.removePeer, if_pos present] at hpeer
    exact herase hpeer
  | unbanned value asks taken =>
    rw [NetworkManager.unbanPeer, if_pos taken] at hpeer
    exact hpeer

/-- A request that unbans an address is carried out. -/
lemma not_mem_bannedPeers_serve {address : String}
    (hask : server.Asks "unban_peer" "address" address step.2) :
    address ∉ (server.serve it manager step).bannedPeers := by
  obtain ⟨hauth, hmethod, hparam⟩ := hask
  rw [serve, respond, if_pos hauth, NetworkManager.execute, hmethod]
  simp only [NetworkManager.command, hparam, NetworkManager.unbanPeer]
  by_cases hban : address ∈ manager.bannedPeers
  · simp [hban]
  · simp [hban]

/-- A request to add a banned address fails. -/
lemma respond_of_banned {address : String} (hban : address ∈ manager.bannedPeers)
    (hask : server.Asks "add_peer" "address" address step.2) :
    server.respond it manager step =
      (step.2.fail (-32003) "Failed to add peer: Peer is banned", manager) := by
  obtain ⟨hauth, hmethod, hparam⟩ := hask
  rw [respond, if_pos hauth, NetworkManager.execute, hmethod]
  simp only [NetworkManager.command, hparam, NetworkManager.addPeer, if_pos hban]
  rfl

/-- The steps of requests that do not unban an address, from managers that have it banned. -/
lemma steps_of_not_asks {address : String} {steps : List (Surroundings × RpcRequest)}
    (hnot : ∀ step ∈ steps, ¬ server.Asks "unban_peer" "address" address step.2) :
    Runs.Steps (server.serve it)
      (fun _ step => ¬ server.Asks "unban_peer" "address" address step.2) manager steps :=
  Runs.steps_iff_forall_mem.mpr hnot

/-- **A banned address stays out** until a request unbans it.

**Proof sketch.** Every request but one that unbans the address keeps it banned, and from a manager
that has it banned no request gives it to a peer. -/
theorem run_banned (server : RpcServer Key) (it : HashMap.Iteration String PeerInfo)
    (manager : NetworkManager) (steps : List (Surroundings × RpcRequest)) (address : String)
    (hban : address ∈ manager.bannedPeers) : server.KeepsOut it address manager steps where
  banned := by
    have hsteps : Runs.Steps (server.serve it)
        (fun _ step => ¬ server.Asks "unban_peer" "address" address step.2) manager steps ↔
        ∀ step ∈ steps, ¬ server.Asks "unban_peer" "address" address step.2 :=
      Runs.steps_iff_forall_mem
    rw [← hsteps]
    refine Runs.always_iff_steps (fun after : NetworkManager => address ∈ after.bannedPeers)
      (V := fun _ _ => True) (fun _ h => h) (fun manager step h _ hask => ?_)
      (fun manager step _ _ h hask => ?_) (Runs.steps_of_forall fun _ _ => trivial) hban
    · exact (explains_respond it manager step).1.mem_bannedPeers h hask
    · exact not_mem_bannedPeers_serve hask h
  peers hnot peerId peer hpeer haddress := by
    have hinv := Runs.run_rule
      (fun after : NetworkManager => address ∈ after.bannedPeers ∧
        (after.mockPeers.lookup peerId = some peer → manager.mockPeers.lookup peerId = some peer))
      (fun after step h hask => ⟨(explains_respond it after step).1.mem_bannedPeers h.1 hask,
        fun hfound =>
          h.2 ((explains_respond it after step).1.lookup_of_banned h.1 hfound haddress)⟩)
      (steps_of_not_asks hnot) ⟨hban, id⟩
    exact hinv.2 hpeer
  refuses hnot := Runs.steps_rule (fun manager => address ∈ manager.bannedPeers)
    (fun manager step h hask => ⟨(explains_respond it manager step).1.mem_bannedPeers h hask,
      fun hadd => respond_of_banned h hadd⟩) (steps_of_not_asks hnot) hban

/-- What a request finds at the start. -/
def sampleSurroundings : Surroundings where
  now := 0
  uuid := Uuid.nil
  probe _ := .timedOut
  memory := ⟨0, 0, 0⟩
  stop := .notSent

/-- The theorem at a manager with one ban, and two requests that would add peers. -/
theorem run_banned_sample :
    sampleServer.KeepsOut HashMap.Iteration.arbitrary "10.0.0.1:8000"
      { NetworkManager.new 0 with bannedPeers := {"10.0.0.1:8000"} }
      [(sampleSurroundings, sampleRequest "10.0.0.1:8000"),
       (sampleSurroundings, sampleRequest "10.0.0.2:8000")] :=
  run_banned sampleServer _ _ _ _ (Finset.mem_singleton_self _)

/-! ## The counters over a run -/

variable (server)

/-- A request that adds a peer does so under an identifier that is not in use. -/
def TakesUnused (manager : NetworkManager) (step : Surroundings × RpcRequest) : Prop :=
  ∀ address, server.Asks "add_peer" "address" address step.2 → address ∉ manager.bannedPeers →
    NetworkManager.newPeerId step.1 ∉ manager.mockPeers

variable {server}

end RpcServer

namespace NetworkManager

/-- The number of peers. -/
abbrev peerCount (manager : NetworkManager) : ℕ := manager.mockPeers.keys.card

/-- The number of active connections, as counted. -/
abbrev activeConnections (manager : NetworkManager) : ℕ := manager.networkStats.activeConnections

/-- The number of connections ever, as counted. -/
abbrev totalConnections (manager : NetworkManager) : ℕ := manager.networkStats.totalConnections

/-- There are at most as many peers as active connections, and as many of these as ever. -/
structure Counted (manager : NetworkManager) : Prop where
  peerCount_le : manager.peerCount ≤ manager.activeConnections
  activeConnections_le : manager.activeConnections ≤ manager.totalConnections

lemma counted_new (now : ℕ) : (new now).Counted := ⟨le_refl 0, le_refl 0⟩

/-- What is counted does not depend on the bans and the uptime. -/
lemma Counted.congr {manager manager' : NetworkManager} (h : manager.Counted)
    (hpeers : manager'.mockPeers = manager.mockPeers)
    (hactive : manager'.activeConnections = manager.activeConnections)
    (htotal : manager'.totalConnections = manager.totalConnections) : manager'.Counted := by
  constructor
  · rw [peerCount, hpeers, hactive]
    exact h.peerCount_le
  · rw [hactive, htotal]
    exact h.activeConnections_le

/-- A removal takes a peer and an active connection. -/
lemma removePeer_counts {manager : NetworkManager} {peerId : String} (h : manager.Counted)
    (hpeer : peerId ∈ manager.mockPeers) :
    (removePeer peerId manager).2.Counted ∧
      ((removePeer peerId manager).2.activeConnections = (removePeer peerId manager).2.peerCount ↔
        manager.activeConnections = manager.peerCount) := by
  have hcard : (manager.mockPeers.erase peerId).keys.card + 1 = manager.peerCount := by
    rw [Finmap.keys_erase]
    exact Finset.card_erase_add_one (Finmap.mem_keys.mpr hpeer)
  have hle := h.peerCount_le
  have hle' := h.activeConnections_le
  rw [removePeer, if_pos hpeer]
  refine ⟨⟨?_, ?_⟩, ?_⟩
  · simp only [peerCount, activeConnections] at hcard hle ⊢
    omega
  · simp only [activeConnections, totalConnections] at hle' ⊢
    omega
  · simp only [peerCount, activeConnections] at hcard hle ⊢
    omega

/-- An addition counts one connection more, and one peer more if its identifier is not in use. -/
lemma addPeer_counts {manager : NetworkManager} {address : String} (around : Surroundings)
    (h : manager.Counted) (hfree : address ∉ manager.bannedPeers) :
    (addPeer around address manager).2.Counted ∧
      ((addPeer around address manager).2.activeConnections =
          (addPeer around address manager).2.peerCount ↔
        manager.activeConnections = manager.peerCount ∧
          newPeerId around ∉ manager.mockPeers) := by
  have hle := h.peerCount_le
  have hle' := h.activeConnections_le
  rw [addPeer, if_neg hfree]
  by_cases hused : newPeerId around ∈ manager.mockPeers
  · have hcard := HashMap.card_keys_insert_of_mem (v := newPeer around address) hused
    refine ⟨⟨?_, Nat.succ_le_succ hle'⟩, ?_⟩ <;>
    · simp only [peerCount, activeConnections, hused, not_true_eq_false, and_false,
        iff_false] at hcard hle ⊢
      omega
  · have hcard : (manager.mockPeers.insert (newPeerId around) (newPeer around address)).keys.card =
        manager.mockPeers.keys.card + 1 := by
      rw [HashMap.keys_insert, Finset.card_insert_of_notMem (by rwa [Finmap.mem_keys])]
    refine ⟨⟨?_, Nat.succ_le_succ hle'⟩, ?_⟩ <;>
    · simp only [peerCount, activeConnections, hused, not_false_eq_true, and_true] at hcard hle ⊢
      omega

end NetworkManager

namespace RpcServer

variable {Key : Type} {server : RpcServer Key} {it : HashMap.Iteration String PeerInfo}
  {manager : NetworkManager} {step : Surroundings × RpcRequest}

/-- A request to add an address that is not banned is carried out. -/
lemma serve_of_free {address : String} (hask : server.Asks "add_peer" "address" address step.2)
    (hfree : address ∉ manager.bannedPeers) :
    server.serve it manager step = (NetworkManager.addPeer step.1 address manager).2 := by
  obtain ⟨hauth, hmethod, hparam⟩ := hask
  rw [serve, respond, if_pos hauth, NetworkManager.execute, hmethod]
  simp only [NetworkManager.command, hparam, NetworkManager.addPeer, if_neg hfree]

/-- A request that adds no peer leaves the counters right if they were. -/
lemma Outcome.counts {after : NetworkManager} (h : server.Outcome manager step after)
    (hcounted : manager.Counted)
    (hno : ∀ address, server.Asks "add_peer" "address" address step.2 →
      address ∈ manager.bannedPeers) :
    after.Counted ∧ (after.activeConnections = after.peerCount ↔
      manager.activeConnections = manager.peerCount) := by
  cases h with
  | same => exact ⟨hcounted, Iff.rfl⟩
  | stats => exact ⟨hcounted.congr rfl rfl rfl, Iff.rfl⟩
  | added address asks free => exact absurd (hno address asks) free
  | removed peerId asks present => exact NetworkManager.removePeer_counts hcounted present
  | banned peerId asks present =>
    obtain ⟨peer, hpeer⟩ := HashMap.mem_iff_exists.mp present
    simp only [NetworkManager.banPeer, hpeer]
    have hcounted' : NetworkManager.Counted { manager with
        bannedPeers := insert peer.address manager.bannedPeers } := hcounted.congr rfl rfl rfl
    exact NetworkManager.removePeer_counts hcounted' present
  | unbanned address asks taken =>
    rw [NetworkManager.unbanPeer, if_pos taken]
    exact ⟨hcounted.congr rfl rfl rfl, Iff.rfl⟩

/-- A request keeps the counters right iff it takes no identifier in use. -/
lemma counts_serve (hcounted : manager.Counted) :
    (server.serve it manager step).Counted ∧
      ((server.serve it manager step).activeConnections =
          (server.serve it manager step).peerCount ↔
        manager.activeConnections = manager.peerCount ∧ server.TakesUnused manager step) := by
  by_cases hadd : ∃ address, server.Asks "add_peer" "address" address step.2 ∧
      address ∉ manager.bannedPeers
  · obtain ⟨address, hask, hfree⟩ := hadd
    have hunused : server.TakesUnused manager step ↔
        NetworkManager.newPeerId step.1 ∉ manager.mockPeers :=
      ⟨fun h => h address hask hfree, fun h _ _ _ => h⟩
    rw [serve_of_free hask hfree, hunused]
    exact NetworkManager.addPeer_counts step.1 hcounted hfree
  · push Not at hadd
    have hunused : server.TakesUnused manager step :=
      fun address hask hfree => absurd (hadd address hask) hfree
    rw [and_iff_left hunused]
    exact (explains_respond it manager step).1.counts hcounted hadd

/-- **The counter counts the peers** after a run exactly if no peer was added under an identifier in
use, of which only eight digits are drawn. Else it counts too many, for good. -/
theorem activeConnections_eq_iff (server : RpcServer Key) (it : HashMap.Iteration String PeerInfo)
    (now : ℕ) (steps : List (Surroundings × RpcRequest)) :
    (Runs.run (server.serve it) (NetworkManager.new now) steps).Counted ∧
      ((Runs.run (server.serve it) (NetworkManager.new now) steps).activeConnections =
          (Runs.run (server.serve it) (NetworkManager.new now) steps).peerCount ↔
        Runs.Steps (server.serve it) server.TakesUnused (NetworkManager.new now) steps) := by
  refine ⟨Runs.run_invariant NetworkManager.Counted (fun _ _ h => (counts_serve h).1)
    (NetworkManager.counted_new now), ?_⟩
  have hiff := Runs.run_iff_steps NetworkManager.Counted
    (P := fun after => after.activeConnections = after.peerCount) (Q := server.TakesUnused)
    (V := fun _ _ => True) (fun _ _ h _ => counts_serve h)
    (Runs.steps_of_forall fun _ _ => trivial : Runs.Steps (server.serve it) _ _ steps)
    (NetworkManager.counted_new now)
  exact hiff.trans (and_iff_right rfl)

end RpcServer

end QuDAG.Protocol
