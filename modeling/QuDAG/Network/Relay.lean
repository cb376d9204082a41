import QuDAG.Lib.MapSum
import QuDAG.Protocol.StateStore

/-!
# The relay manager (`nat_traversal.rs`)

Peers that cannot be reached directly are reached through relay servers. The manager takes a permit
for the time that it establishes a relay, and gives it back when it returns. It counts the relays,
and every server has a counter of its load. A relay to a peer replaces the one that was held before,
but is counted in addition to it.

## Main definitions

* `RelayManager`, with `addRelayServer`, `establishRelay` and `closeRelay`.
* `RelayManager.Accounts` — the counters are those of the relays that are held, and there are not
  too many of these.
* `RelayManager.PicksWell` — the step picks no server that is not available or full, and lowers no
  counter that is zero.
* `RelayManager.Careful` — the calls that keep the accounts.

## Main results

* `RelayManager.accounts_iff_careful` — the runs in which the accounts are right.

## Implementation notes

The counter of a server belongs to the caller, who may share it between servers: a server has the
name of its counter, and the counters start with any values. Calls are made one after the other. A
call that waits for a permit changes nothing. The statistics that nothing here changes are left out,
and so are the address of a server and the time and the traffic of a relay.
-/

namespace QuDAG.Network

open RustStd
open QuDAG.Protocol (PeerId)

/-- Errors of NAT traversal that the relay manager returns. -/
inductive NatTraversalError
  | relayError (reason : String)
  deriving DecidableEq, Repr

/-- Relay server information. -/
structure RelayServer where
  /-- Server ID. -/
  id : PeerId
  /-- Server capacity. -/
  capacity : UInt32
  /-- The name of the counter of its load. -/
  load : ℕ
  /-- Is available. -/
  isAvailable : Bool
  deriving DecidableEq

/-- Relay connection information. -/
structure RelayConnection where
  /-- Relay server. -/
  relayServer : PeerId
  /-- Target peer. -/
  targetPeer : PeerId
  /-- Connection ID. -/
  connectionId : UInt64
  deriving DecidableEq

/-- Relay statistics. -/
structure RelayStats where
  /-- Total relay connections. -/
  totalConnections : UInt64
  /-- Active relay connections. -/
  activeConnections : UInt32

/-- Relay manager for unreachable peers. -/
structure RelayManager where
  /-- Available relay servers. -/
  relayServers : List RelayServer
  /-- Active relay connections. -/
  relayConnections : HashMap PeerId RelayConnection
  /-- Connection limit: the permits that are left. -/
  connectionLimit : ℕ
  /-- Relay statistics. -/
  stats : RelayStats
  /-- The counters of servers. -/
  loads : ℕ → UInt32

/-- Calls of the manager. -/
inductive RelayCall
  | addRelayServer (server : RelayServer)
  | establishRelay (targetPeer : PeerId) (connectionId : UInt64)
  | closeRelay (peerId : PeerId)

namespace RelayManager

/-- Create a new relay manager. -/
def new (maxConnections : ℕ) (loads : ℕ → UInt32) : RelayManager :=
  ⟨[], ∅, maxConnections, ⟨0, 0⟩, loads⟩

/-- Add a relay server. -/
def addRelayServer (server : RelayServer) (self : RelayManager) : RelayManager :=
  { self with relayServers := self.relayServers ++ [server] }

/-- Select best relay server based on load: the first one of the lowest load. -/
def selectRelayServer (self : RelayManager) : Except NatTraversalError RelayServer :=
  match (self.relayServers.filter RelayServer.isAvailable).argmin
    fun server => (self.loads server.load).toNat with
  | some server => .ok server
  | none => .error (.relayError "No relay servers available")

/-- Hold a relay through a server, and count it. -/
def hold (server : RelayServer) (targetPeer : PeerId) (connectionId : UInt64)
    (self : RelayManager) : RelayConnection × RelayManager :=
  let connection : RelayConnection := ⟨server.id, targetPeer, connectionId⟩
  (connection, { self with
    stats :=
      { totalConnections := self.stats.totalConnections + 1
        activeConnections := self.stats.activeConnections + 1 }
    loads := Function.update self.loads server.load (self.loads server.load + 1)
    relayConnections := self.relayConnections.insert targetPeer connection })

/-- Give a permit back. -/
def release (self : RelayManager) : RelayManager :=
  { self with connectionLimit := self.connectionLimit + 1 }

/-- Establish relay connection to a peer. There is no result while the call waits for a permit. The
permit is given back when the call returns. -/
def establishRelay (targetPeer : PeerId) (connectionId : UInt64) (self : RelayManager) :
    Option (Except NatTraversalError RelayConnection) × RelayManager :=
  if self.connectionLimit = 0 then (none, self)
  else
    let permitted := { self with connectionLimit := self.connectionLimit - 1 }
    match permitted.selectRelayServer with
    | .error e => (some (.error e), permitted.release)
    | .ok server =>
      let held := permitted.hold server targetPeer connectionId
      (some (.ok held.1), held.2.release)

/-- The first server with an ID. -/
def serverOf (id : PeerId) (self : RelayManager) : Option RelayServer :=
  self.relayServers.find? fun server => server.id = id

/-- Close relay connection. -/
def closeRelay (peerId : PeerId) (self : RelayManager) : RelayManager :=
  match self.relayConnections.lookup peerId with
  | none => self
  | some connection =>
    { self with
      relayConnections := self.relayConnections.erase peerId
      stats := { self.stats with activeConnections := self.stats.activeConnections - 1 }
      loads :=
        match self.serverOf connection.relayServer with
        | some server => Function.update self.loads server.load (self.loads server.load - 1)
        | none => self.loads }

/-- Make a call. -/
def apply (self : RelayManager) : RelayCall → RelayManager
  | .addRelayServer server => self.addRelayServer server
  | .establishRelay targetPeer connectionId => (self.establishRelay targetPeer connectionId).2
  | .closeRelay peerId => self.closeRelay peerId

/-! ## Accounts -/

/-- The number of relays that are held. -/
def held (self : RelayManager) : ℕ := self.relayConnections.keys.card

/-- The number of relays that are held through a server. -/
def heldThrough (id : PeerId) (self : RelayManager) : ℕ :=
  self.relayConnections.sumBy fun connection => if connection.relayServer = id then 1 else 0

/-- The counters are those of the relays that are held, of which there are at most `n`. -/
structure Accounts (n : ℕ) (s : RelayManager) : Prop where
  limited : s.held ≤ n
  active : s.stats.activeConnections.toNat = s.held
  load : ∀ server ∈ s.relayServers, (s.loads server.load).toNat = s.heldThrough server.id

/-- The call picks a server that is available and not full, and lowers no counter that is zero. -/
def PicksWell (self : RelayManager) : RelayCall → Prop
  | .addRelayServer _ => True
  | .establishRelay _ _ =>
    self.connectionLimit ≠ 0 → ∀ server, self.selectRelayServer = .ok server →
    server.isAvailable = true ∧ self.heldThrough server.id < server.capacity.toNat
  | .closeRelay peerId => ∀ connection, self.relayConnections.lookup peerId = some connection →
    self.stats.activeConnections ≠ 0 ∧
      ∀ server, self.serverOf connection.relayServer = some server → self.loads server.load ≠ 0

/-- The servers with the counter of a server are those with its ID. -/
def OwnCounter (server : RelayServer) (self : RelayManager) : Prop :=
  ∀ other ∈ self.relayServers, other.load = server.load ↔ other.id = server.id

/-- The counter of a server that is added is the number of relays held through its ID. A relay is
established for a peer that has none, when there are fewer than `n` of them, through a server that
is not full. It is established and closed through servers that have a counter of their own. -/
def Careful (n : ℕ) (self : RelayManager) : RelayCall → Prop
  | .addRelayServer server => (self.loads server.load).toNat = self.heldThrough server.id
  | .establishRelay targetPeer _ =>
    self.connectionLimit ≠ 0 → ∀ server, self.selectRelayServer = .ok server →
      targetPeer ∉ self.relayConnections ∧ self.held < n ∧ self.held + 1 < 2 ^ 32 ∧
        self.heldThrough server.id < server.capacity.toNat ∧ self.OwnCounter server
  | .closeRelay peerId => ∀ connection server,
    self.relayConnections.lookup peerId = some connection →
      self.serverOf connection.relayServer = some server → self.OwnCounter server

/-! ## Steps -/

variable {n : ℕ} {self : RelayManager}

/-- What a run keeps besides the accounts: all permits are there between calls, and the relays are
held through servers that were added. -/
structure Inv (n : ℕ) (s : RelayManager) : Prop where
  accounts : s.Accounts n
  permits : s.connectionLimit = n
  known : ∀ peer connection, s.relayConnections.lookup peer = some connection →
    ∃ server ∈ s.relayServers, server.id = connection.relayServer

/-- A server that is selected is one of the available ones. -/
lemma mem_of_selectRelayServer {server : RelayServer} (h : self.selectRelayServer = .ok server) :
    server ∈ self.relayServers ∧ server.isAvailable = true := by
  unfold selectRelayServer at h
  split at h
  · next hmin =>
    cases h
    exact List.mem_filter.mp (List.argmin_mem hmin)
  · cases h

/-- **What establishing a relay does**: nothing, or it holds a relay through the server that is
selected. The permits stay as they are. -/
lemma establishRelay_cases (self : RelayManager) (targetPeer : PeerId) (connectionId : UInt64) :
    (self.establishRelay targetPeer connectionId).2 = self ∧
        (self.connectionLimit ≠ 0 → ∀ server, self.selectRelayServer ≠ .ok server) ∨
      self.connectionLimit ≠ 0 ∧ ∃ server, self.selectRelayServer = .ok server ∧
        (self.establishRelay targetPeer connectionId).2 =
          (self.hold server targetPeer connectionId).2 := by
  unfold establishRelay
  by_cases hlimit : self.connectionLimit = 0
  · rw [if_pos hlimit]
    exact .inl ⟨rfl, fun h => absurd hlimit h⟩
  · rw [if_neg hlimit]
    have hpermits : self.connectionLimit - 1 + 1 = self.connectionLimit := by omega
    have hselect : ({ self with connectionLimit := self.connectionLimit - 1 } :
        RelayManager).selectRelayServer = self.selectRelayServer := rfl
    simp only [hselect]
    cases self.selectRelayServer with
    | error e =>
      refine .inl ⟨?_, fun _ server => nofun⟩
      simp only [release, hpermits]
    | ok server =>
      refine .inr ⟨hlimit, server, rfl, ?_⟩
      simp only [release, hold, hpermits]

/-- The relays that are held after one more. -/
lemma held_hold (server : RelayServer) {targetPeer : PeerId} (connectionId : UInt64)
    (hnew : targetPeer ∉ self.relayConnections) :
    (self.hold server targetPeer connectionId).2.held = self.held + 1 ∧
      ∀ id, (self.hold server targetPeer connectionId).2.heldThrough id =
        self.heldThrough id + if server.id = id then 1 else 0 := by
  refine ⟨?_, fun id => HashMap.sumBy_insert_of_not_mem hnew⟩
  unfold held
  rw [HashMap.card_keys_eq_sumBy, HashMap.card_keys_eq_sumBy]
  exact HashMap.sumBy_insert_of_not_mem hnew

/-- At most all relays are held through one server. -/
lemma heldThrough_le_held (self : RelayManager) (id : PeerId) :
    self.heldThrough id ≤ self.held := by
  unfold held heldThrough
  rw [HashMap.card_keys_eq_sumBy]
  refine Finset.sum_le_sum fun peer _ => ?_
  cases self.relayConnections.lookup peer with
  | none => exact le_refl _
  | some connection =>
    simp only [Option.map_some, Option.getD_some]
    split_ifs <;> omega

/-- A relay to a peer that has one already is counted and takes the place of the other. -/
lemma not_accounts_hold (h : self.Accounts n) (server : RelayServer) {targetPeer : PeerId}
    (connectionId : UInt64) (hheld : targetPeer ∈ self.relayConnections) :
    ¬ (self.hold server targetPeer connectionId).2.Accounts n := by
  intro h'
  have hsame : (self.hold server targetPeer connectionId).2.held = self.held :=
    HashMap.card_keys_insert_of_mem hheld
  have hactive := h'.active
  rw [hsame, ← h.active] at hactive
  simp only [hold, UInt32.toNat_add] at hactive
  have hlt := self.stats.activeConnections.toNat_lt
  have hone : (1 : UInt32).toNat = 1 := rfl
  omega

/-- **When a new relay keeps the accounts**: there is room for it, no counter overflows, and the
counter of its server is the server's own. -/
lemma accounts_hold_iff (h : self.Accounts n) {server : RelayServer} {targetPeer : PeerId}
    (connectionId : UInt64) (hnew : targetPeer ∉ self.relayConnections) :
    (self.hold server targetPeer connectionId).2.Accounts n ↔
      self.held < n ∧ self.held + 1 < 2 ^ 32 ∧ self.OwnCounter server := by
  obtain ⟨hheld, hthrough⟩ := held_hold server connectionId hnew
  have hone : (1 : UInt32).toNat = 1 := rfl
  have hactive : (self.hold server targetPeer connectionId).2.stats.activeConnections.toNat =
      (self.held + 1) % 2 ^ 32 := by
    simp only [hold, UInt32.toNat_add, h.active, hone]
  -- the counters of the servers after the call
  have hloads : ∀ other ∈ self.relayServers,
      ((self.hold server targetPeer connectionId).2.loads other.load).toNat =
        if other.load = server.load then (self.heldThrough other.id + 1) % 2 ^ 32
        else self.heldThrough other.id := by
    intro other hother
    simp only [hold]
    by_cases hload : other.load = server.load
    · rw [hload, Function.update_self, if_pos rfl, UInt32.toNat_add, hone, ← hload,
        h.load other hother]
    · rw [Function.update_of_ne hload, if_neg hload, h.load other hother]
  constructor
  · intro h'
    have hlimited := h'.limited
    have hcount := h'.active
    rw [hheld] at hlimited hcount
    rw [hactive] at hcount
    refine ⟨hlimited, by omega, fun other hother => ?_⟩
    have hload := h'.load other hother
    rw [hloads other hother, hthrough] at hload
    have hle := heldThrough_le_held self other.id
    split_ifs at hload with hcounter hid hid
    · exact ⟨fun _ => hid.symm, fun _ => hcounter⟩
    · omega
    · omega
    · exact ⟨fun hc => absurd hc hcounter, fun hi => absurd hi.symm hid⟩
  · rintro ⟨hroom, hfits, hown⟩
    refine ⟨hheld ▸ hroom, by rw [hactive, hheld]; omega, fun other hother => ?_⟩
    have hle := heldThrough_le_held self other.id
    rw [hloads other hother, hthrough]
    by_cases hid : other.id = server.id
    · rw [if_pos ((hown other hother).mpr hid), if_pos hid.symm]
      omega
    · rw [if_neg fun hc => hid ((hown other hother).mp hc), if_neg fun hi => hid hi.symm,
        Nat.add_zero]

/-- **Closing a relay** keeps the accounts iff the counter of its server is the server's own. -/
lemma accounts_closeRelay_iff (h : self.Accounts n) {peerId : PeerId} {connection : RelayConnection}
    (hlookup : self.relayConnections.lookup peerId = some connection) {server : RelayServer}
    (hserver : self.serverOf connection.relayServer = some server) :
    (self.closeRelay peerId).Accounts n ↔ self.OwnCounter server := by
  have hid : server.id = connection.relayServer := by
    simpa using List.find?_some hserver
  have hmem : server ∈ self.relayServers := List.mem_of_find?_eq_some hserver
  have hthrough : ∀ id, (self.closeRelay peerId).heldThrough id +
      (if server.id = id then 1 else 0) = self.heldThrough id := by
    intro id
    have hsum := HashMap.sumBy_erase_of_lookup
      (f := fun c : RelayConnection => if c.relayServer = id then 1 else 0) hlookup
    rw [← hid] at hsum
    simpa only [heldThrough, closeRelay, hlookup] using hsum
  have hheld : (self.closeRelay peerId).held + 1 = self.held := by
    have hsum := HashMap.sumBy_erase_of_lookup (f := fun _ : RelayConnection => 1) hlookup
    simpa only [held, closeRelay, hlookup, HashMap.card_keys_eq_sumBy] using hsum
  have hone : (1 : UInt32).toNat = 1 := rfl
  have hpos : ∀ word : UInt32, 1 ≤ word.toNat → (word - 1).toNat = word.toNat - 1 := by
    intro word hword
    rw [UInt32.toNat_sub_of_le _ _ (UInt32.le_iff_toNat_le.mpr (hone ▸ hword)), hone]
  have hactive : (self.closeRelay peerId).stats.activeConnections.toNat =
      (self.closeRelay peerId).held := by
    have hword : 1 ≤ self.stats.activeConnections.toNat := by rw [h.active]; omega
    simp only [closeRelay, hlookup] at hheld ⊢
    rw [hpos _ hword, h.active]
    omega
  have hone' : 1 ≤ self.heldThrough server.id := by
    have hsum := hthrough server.id
    rw [if_pos rfl] at hsum
    omega
  -- the counters of the servers after the call
  have hloads : ∀ other ∈ self.relayServers,
      ((self.closeRelay peerId).loads other.load).toNat =
        if other.load = server.load then self.heldThrough server.id - 1
        else self.heldThrough other.id := by
    intro other hother
    simp only [closeRelay, hlookup, hserver]
    by_cases hload : other.load = server.load
    · rw [hload, Function.update_self, if_pos rfl, hpos _ (h.load server hmem ▸ hone'),
        h.load server hmem]
    · rw [Function.update_of_ne hload, if_neg hload, h.load other hother]
  have hservers : (self.closeRelay peerId).relayServers = self.relayServers := by
    simp only [closeRelay, hlookup]
  constructor
  · intro h' other hother
    have hload := h'.load other (hservers ▸ hother)
    have hsum := hthrough other.id
    have hold := h.load other hother
    have hold' := h.load server hmem
    rw [hloads other hother] at hload
    split_ifs at hload hsum with hcounter hid hid
    · exact ⟨fun _ => hid.symm, fun _ => hcounter⟩
    · rw [hcounter] at hold
      omega
    · omega
    · exact ⟨fun hc => absurd hc hcounter, fun hi => absurd hi.symm hid⟩
  · intro hown
    refine ⟨by have := h.limited; omega, hactive, fun other hother => ?_⟩
    rw [hservers] at hother
    have hsum := hthrough other.id
    rw [hloads other hother]
    by_cases hid : other.id = server.id
    · rw [if_pos ((hown other hother).mpr hid)]
      rw [hid, if_pos rfl] at hsum
      rw [hid]
      omega
    · rw [if_neg fun hc => hid ((hown other hother).mp hc)]
      rw [if_neg fun hi => hid hi.symm] at hsum
      omega

/-- A server with an ID of a relay that is held is found. -/
lemma exists_serverOf (h : self.Inv n) {peerId : PeerId} {connection : RelayConnection}
    (hlookup : self.relayConnections.lookup peerId = some connection) :
    ∃ server, self.serverOf connection.relayServer = some server := by
  obtain ⟨server, hmem, hid⟩ := h.known peerId connection hlookup
  exact Option.isSome_iff_exists.mp (List.find?_isSome.mpr ⟨server, hmem, by simpa using hid⟩)

/-- The counters of a relay that is held are not zero. -/
lemma counters_ne_zero (h : self.Accounts n) {peerId : PeerId} {connection : RelayConnection}
    (hlookup : self.relayConnections.lookup peerId = some connection) {server : RelayServer}
    (hserver : self.serverOf connection.relayServer = some server) :
    self.stats.activeConnections ≠ 0 ∧ self.loads server.load ≠ 0 := by
  have hid : server.id = connection.relayServer := by
    simpa using List.find?_some hserver
  have hone : 1 ≤ self.heldThrough server.id := by
    have hle := HashMap.le_sumBy
      (f := fun c : RelayConnection => if c.relayServer = server.id then 1 else 0) hlookup
    rwa [if_pos hid.symm] at hle
  have hle := heldThrough_le_held self server.id
  have hload := h.load server (List.mem_of_find?_eq_some hserver)
  constructor
  · intro hzero
    have hactive := h.active
    rw [hzero] at hactive
    exact absurd (hactive.symm ▸ hone.trans hle) (by decide)
  · intro hzero
    rw [hzero] at hload
    exact absurd (hload.symm ▸ hone) (by decide)

/-- **The careful calls** are those that keep the accounts and pick well. -/
lemma careful_iff (h : self.Inv n) (call : RelayCall) :
    ((self.apply call).Accounts n ∧ self.PicksWell call) ↔ self.Careful n call := by
  cases call with
  | addRelayServer server =>
    refine ⟨fun h' => h'.1.load server (by simp [apply, addRelayServer]), fun hcareful => ?_⟩
    refine ⟨⟨h.accounts.limited, h.accounts.active, fun other hother => ?_⟩, trivial⟩
    rcases List.mem_append.mp hother with hother | hother
    · exact h.accounts.load other hother
    · rw [List.mem_singleton.mp hother]
      exact hcareful
  | establishRelay targetPeer connectionId =>
    simp only [apply, PicksWell, Careful]
    rcases establishRelay_cases self targetPeer connectionId with ⟨hsame, hnone⟩ |
      ⟨hlimit, server, hselect, hhold⟩
    · rw [hsame]
      exact ⟨fun _ hlimit server hserver => absurd hserver (hnone hlimit server), fun _ =>
        ⟨h.accounts, fun hlimit server hserver => absurd hserver (hnone hlimit server)⟩⟩
    · obtain ⟨hmem, havailable⟩ := mem_of_selectRelayServer hselect
      simp only [hhold, hselect, Except.ok.injEq, forall_eq', ne_eq, hlimit, not_false_eq_true,
        forall_const, havailable, true_and]
      by_cases hheld : targetPeer ∈ self.relayConnections
      · exact ⟨fun h' => absurd h'.1 (not_accounts_hold h.accounts server connectionId hheld),
          fun h' => absurd hheld h'.1⟩
      · rw [accounts_hold_iff h.accounts connectionId hheld]
        tauto
  | closeRelay peerId =>
    simp only [apply, PicksWell, Careful]
    cases hlookup : self.relayConnections.lookup peerId with
    | none =>
      have hsame : self.closeRelay peerId = self := by simp only [closeRelay, hlookup]
      rw [hsame]
      exact ⟨fun _ => nofun, fun _ => ⟨h.accounts, nofun⟩⟩
    | some connection =>
      obtain ⟨server, hserver⟩ := exists_serverOf h hlookup
      obtain ⟨hactive, hload⟩ := counters_ne_zero h.accounts hlookup hserver
      rw [accounts_closeRelay_iff h.accounts hlookup hserver]
      constructor
      · rintro ⟨hown, -⟩ _ _ hsame hfound
        cases hsame
        rw [hserver] at hfound
        cases hfound
        exact hown
      · intro hcareful
        refine ⟨hcareful connection server rfl hserver, fun _ hsame => ?_⟩
        cases hsame
        refine ⟨hactive, fun other hfound => ?_⟩
        rw [hserver] at hfound
        cases hfound
        exact hload

/-- The careful calls keep the invariant. -/
lemma inv_apply (h : self.Inv n) {call : RelayCall} (hcareful : self.Careful n call) :
    (self.apply call).Inv n := by
  refine ⟨((careful_iff h call).mpr hcareful).1, ?_, ?_⟩
  · cases call with
    | addRelayServer server => exact h.permits
    | establishRelay targetPeer connectionId =>
      rcases establishRelay_cases self targetPeer connectionId with ⟨hsame, -⟩ | ⟨-, _, -, hhold⟩
      · rw [apply, hsame]
        exact h.permits
      · rw [apply, hhold]
        exact h.permits
    | closeRelay peerId =>
      simp only [apply, closeRelay]
      split <;> exact h.permits
  · cases call with
    | addRelayServer server =>
      intro peer connection hlookup
      obtain ⟨other, hmem, hid⟩ := h.known peer connection hlookup
      exact ⟨other, List.mem_append_left _ hmem, hid⟩
    | establishRelay targetPeer connectionId =>
      rcases establishRelay_cases self targetPeer connectionId with ⟨hsame, -⟩ |
        ⟨-, server, hselect, hhold⟩
      · rw [apply, hsame]
        exact h.known
      · rw [apply, hhold]
        intro peer connection hlookup
        simp only [hold, HashMap.lookup_insert_ite] at hlookup
        split_ifs at hlookup with hpeer
        · cases hlookup
          exact ⟨server, (mem_of_selectRelayServer hselect).1, rfl⟩
        · exact h.known peer connection hlookup
    | closeRelay peerId =>
      simp only [apply, closeRelay]
      split
      · exact h.known
      · intro peer connection hlookup
        dsimp only at hlookup
        by_cases hpeer : peer = peerId
        · rw [hpeer, Finmap.lookup_erase] at hlookup
          cases hlookup
        · rw [Finmap.lookup_erase_ne hpeer] at hlookup
          exact h.known peer connection hlookup

/-! ## Runs -/

/-- **The accounts of relays** are right in exactly the runs of careful calls. -/
theorem accounts_iff_careful (n : ℕ) (loads : ℕ → UInt32) (calls : List RelayCall) :
    Runs.Always apply (Accounts n) (new n loads) calls ∧
        Runs.Steps apply PicksWell (new n loads) calls ↔
      Runs.Steps apply (Careful n) (new n loads) calls := by
  have hnew : (new n loads).Inv n := by
    refine ⟨⟨Nat.zero_le _, rfl, nofun⟩, rfl, fun peer connection hlookup => ?_⟩
    cases hlookup
  rw [Runs.always_iff_steps_after]
  have hiff : Runs.Steps apply (fun s call => (s.apply call).Accounts n ∧ s.PicksWell call)
      (new n loads) calls ↔ Runs.Steps apply (Careful n) (new n loads) calls :=
    Runs.steps_iff_steps (Inv n) (fun s call hs => careful_iff hs call)
      (fun s call hs hcareful => inv_apply hs hcareful) hnew
  rw [← hiff]
  constructor
  · rintro ⟨⟨-, haccounts⟩, hpicks⟩
    exact haccounts.and hpicks
  · intro h
    exact ⟨⟨hnew.accounts, h.imp fun _ _ hboth => hboth.1⟩, h.imp fun _ _ hboth => hboth.2⟩

/-- A server with room for four relays. -/
def sampleServer : RelayServer :=
  ⟨⟨List.replicate 32 10, List.length_replicate⟩, 4, 0, true⟩

/-- The peer that is reached twice. -/
def samplePeer : PeerId := ⟨List.replicate 32 11, List.length_replicate⟩

/-- A relay that is established to the same peer again is counted twice, and closed once. -/
theorem not_accounts_samplePeer :
    ¬ (Runs.Always apply (Accounts 2) (new 2 fun _ => 0)
        [.addRelayServer sampleServer, .establishRelay samplePeer 1, .establishRelay samplePeer 2] ∧
      Runs.Steps apply PicksWell (new 2 fun _ => 0)
        [.addRelayServer sampleServer, .establishRelay samplePeer 1,
          .establishRelay samplePeer 2]) := by
  rintro ⟨h, -⟩
  have hlast := (Runs.always_iff.mp h _ List.prefix_rfl).active
  exact absurd hlast (by decide)

end RelayManager

end QuDAG.Network
