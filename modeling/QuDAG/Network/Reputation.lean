import Mathlib.Tactic.Linarith
import QuDAG.Network.P2PRequests

/-!
# Reputation of peers (`lib.rs`)

Every peer has a score between -100 and 100. An update that leaves it below -50 puts the peer on the
blacklist, and an entry of the blacklist expires after 24 hours. A peer is blacklisted by hand with
an update by -100. That is not enough for a peer of good reputation. The score does not change when
the entry expires, so an update that raises it may put the peer on the blacklist again.

## Main definitions

* `ReputationManager`, with `updateReputation`, `addTrusted` and `cleanupExpired`.
* `NetworkManager`, with `blacklistPeer`, `handleNetworkEvent` and `maintenance`.
* `ReputationRun.Effective` — a peer that is blacklisted stays so for 24 hours, and is not
  blacklisted again without a reason.
* `ReputationRun.Decisive` — the score is low enough when a peer is blacklisted, and high enough
  when this expires.

## Main results

* `ReputationRun.effective_iff` — the runs in which blacklisting is effective.

## Implementation notes

Scores are rational numbers. Each call reads the clock once. A step of a run says how much time has
passed since the one before. The connections of the connection manager are left out, and the channel
to the background task has room; the events that the task handles are steps of the run.
-/

namespace QuDAG.Network

open RustStd

/-- Reputation management for peers. -/
structure ReputationManager where
  /-- Peer reputation scores. -/
  scores : HashMap LibP2PPeerId ℚ
  /-- Blacklisted peers. -/
  blacklist : HashMap LibP2PPeerId Instant
  /-- Trusted peers. -/
  trusted : HashMap LibP2PPeerId Instant

/-- 24 hours. -/
def expireTime : Duration := 24 * 60 * 60 * 10 ^ 9

namespace ReputationManager

/-- Nothing is known of any peer. -/
def default : ReputationManager := ⟨∅, ∅, ∅⟩

/-- Get reputation score for a peer. -/
def getReputation (peerId : LibP2PPeerId) (self : ReputationManager) : ℚ :=
  (self.scores.lookup peerId).getD 0

/-- The score after a change. -/
def clampScore (score : ℚ) : ℚ := max (-100) (min 100 score)

/-- Update reputation score. -/
def updateReputation (peerId : LibP2PPeerId) (delta : ℚ) (now : Instant)
    (self : ReputationManager) : ReputationManager :=
  let newScore := clampScore (self.getReputation peerId + delta)
  { self with
    scores := self.scores.insert peerId newScore
    blacklist := if newScore < -50 then self.blacklist.insert peerId now else self.blacklist }

/-- Check if peer is blacklisted. -/
def isBlacklisted (peerId : LibP2PPeerId) (self : ReputationManager) : Bool :=
  decide (peerId ∈ self.blacklist)

/-- Add peer to trusted list. -/
def addTrusted (peerId : LibP2PPeerId) (now : Instant) (self : ReputationManager) :
    ReputationManager :=
  { self with
    trusted := self.trusted.insert peerId now
    scores := self.scores.insert peerId 75 }

/-- Remove expired blacklist entries (24 hours). -/
def cleanupExpired (now : Instant) (self : ReputationManager) : ReputationManager :=
  { self with
    blacklist := self.blacklist.retain fun _ timestamp => timestamp.elapsed now < expireTime }

end ReputationManager

/-- Network events for inter-component communication. -/
inductive NetworkEvent
  /-- Peer connected. -/
  | peerConnected (peerId : LibP2PPeerId)
  /-- Peer disconnected. -/
  | peerDisconnected (peerId : LibP2PPeerId)
  /-- Message received. -/
  | messageReceived (sender : LibP2PPeerId) (data : List UInt8)
  /-- Discovery update. -/
  | discoveryUpdate (peers : List LibP2PPeerId)
  /-- Network error. -/
  | networkError (error : String)

/-- The network manager: the last activity of the connected peers, their reputation, and the events
that were sent to the background task. -/
structure NetworkManager where
  connectedPeers : HashMap LibP2PPeerId Instant
  reputationManager : ReputationManager
  messageTx : List NetworkEvent

namespace NetworkManager

/-- A new network manager. -/
def new : NetworkManager := ⟨∅, .default, []⟩

/-- Handle network events in background task. -/
def handleNetworkEvent (event : NetworkEvent) (now : Instant) (self : NetworkManager) :
    NetworkManager :=
  match event with
  | .peerConnected peerId => { self with connectedPeers := self.connectedPeers.insert peerId now }
  | .peerDisconnected peerId => { self with connectedPeers := self.connectedPeers.erase peerId }
  | .messageReceived sender _ =>
    { self with
      connectedPeers :=
        if sender ∈ self.connectedPeers then self.connectedPeers.insert sender now
        else self.connectedPeers
      reputationManager := self.reputationManager.updateReputation sender (1 / 10) now }
  | .discoveryUpdate _ => self
  | .networkError _ => self

/-- Disconnect from a peer. -/
def disconnectPeer (peerId : LibP2PPeerId) (self : NetworkManager) : NetworkManager :=
  { self with messageTx := self.messageTx ++ [.peerDisconnected peerId] }

/-- Update the reputation of a peer. -/
def updateReputation (peerId : LibP2PPeerId) (delta : ℚ) (now : Instant) (self : NetworkManager) :
    NetworkManager :=
  { self with reputationManager := self.reputationManager.updateReputation peerId delta now }

/-- Add peer to trusted list. -/
def addTrustedPeer (peerId : LibP2PPeerId) (now : Instant) (self : NetworkManager) :
    NetworkManager :=
  { self with reputationManager := self.reputationManager.addTrusted peerId now }

/-- Blacklist a peer. -/
def blacklistPeer (peerId : LibP2PPeerId) (now : Instant) (self : NetworkManager) :
    NetworkManager :=
  (self.updateReputation peerId (-100) now).disconnectPeer peerId

/-- Perform maintenance tasks: forget expired entries, and disconnect the peers that were inactive
for five minutes, in the order in which they are iterated over. -/
def maintenance (order : HashMap.Iteration LibP2PPeerId Instant) (now : Instant)
    (self : NetworkManager) : NetworkManager :=
  let inactive := (order.order self.connectedPeers).filter fun e =>
    300 * 10 ^ 9 < e.2.elapsed now
  inactive.foldl (fun manager e => manager.disconnectPeer e.1)
    { self with reputationManager := self.reputationManager.cleanupExpired now }

/-- Check if peer is blacklisted. -/
def isBlacklisted (peerId : LibP2PPeerId) (self : NetworkManager) : Bool :=
  self.reputationManager.isBlacklisted peerId

end NetworkManager

/-! ## Runs -/

/-- Calls of the manager, and events that its background task handles. -/
inductive ReputationCall
  | updateReputation (peerId : LibP2PPeerId) (delta : ℚ)
  | addTrustedPeer (peerId : LibP2PPeerId)
  | blacklistPeer (peerId : LibP2PPeerId)
  | handleNetworkEvent (event : NetworkEvent)
  | maintenance (order : HashMap.Iteration LibP2PPeerId Instant)

/-- A step of a run: some time passes, and a call is made. -/
structure ReputationStep where
  elapsed : Duration
  call : ReputationCall

/-- A manager at work. -/
structure ReputationRun where
  manager : NetworkManager
  /-- The clock. -/
  clock : Instant
  /-- The peers that were blacklisted by hand, and whose entry has not expired since. -/
  banned : Finset LibP2PPeerId

/-- Make a call. -/
def ReputationCall.act (call : ReputationCall) (now : Instant) (manager : NetworkManager) :
    NetworkManager :=
  match call with
  | .updateReputation peerId delta => manager.updateReputation peerId delta now
  | .addTrustedPeer peerId => manager.addTrustedPeer peerId now
  | .blacklistPeer peerId => manager.blacklistPeer peerId now
  | .handleNetworkEvent event => manager.handleNetworkEvent event now
  | .maintenance order => manager.maintenance order now

namespace ReputationRun

/-- A new manager. -/
def start : ReputationRun := ⟨.new, 0, ∅⟩

/-- Make a step. -/
def apply (s : ReputationRun) (step : ReputationStep) : ReputationRun :=
  let now := s.clock + step.elapsed
  let manager := step.call.act now s.manager
  { manager
    clock := now
    banned :=
      match step.call with
      | .blacklistPeer peerId => insert peerId s.banned
      | .maintenance _ => s.banned.filter fun peerId =>
          ¬ (s.manager.isBlacklisted peerId = true ∧ manager.isBlacklisted peerId = false)
      | _ => s.banned }

/-- If the step is a maintenance then it happens before a deadline. -/
def MaintainedBefore (deadline : Instant) (s : ReputationRun) (step : ReputationStep) : Prop :=
  match step.call with
  | .maintenance _ => s.clock + step.elapsed < deadline
  | _ => True

/-- The call does not lower the score of a peer. -/
def Harmless (peerId : LibP2PPeerId) : ReputationCall → Prop
  | .updateReputation other delta => other = peerId → 0 ≤ delta
  | .blacklistPeer other => other ≠ peerId
  | _ => True

/-- A peer that is blacklisted by hand stays on the blacklist as long as there is no maintenance
after 24 hours or more. Once this has expired, it is not blacklisted again if nothing lowers its
score. -/
def Effective (s : ReputationRun) (step : ReputationStep) : Prop :=
  match step.call with
  | .blacklistPeer peerId => ∀ steps,
    Runs.Steps apply (MaintainedBefore (s.clock + step.elapsed + expireTime)) (s.apply step) steps →
      (Runs.run apply (s.apply step) steps).manager.isBlacklisted peerId = true
  | .maintenance _ => ∀ peerId ∈ s.banned, s.manager.isBlacklisted peerId = true →
    (s.apply step).manager.isBlacklisted peerId = false →
      ∀ steps : List ReputationStep, (∀ later ∈ steps, Harmless peerId later.call) →
        (Runs.run apply (s.apply step) steps).manager.isBlacklisted peerId = false
  | _ => True

/-- A peer that is blacklisted by hand has a score below 50, or got on the blacklist at the same
moment. When its entry expires its score is not below -50. -/
def Decisive (s : ReputationRun) (step : ReputationStep) : Prop :=
  match step.call with
  | .blacklistPeer peerId =>
    s.manager.reputationManager.getReputation peerId < 50 ∨
      s.manager.reputationManager.blacklist.lookup peerId = some (s.clock + step.elapsed)
  | .maintenance _ => ∀ peerId ∈ s.banned, ∀ timestamp,
    s.manager.reputationManager.blacklist.lookup peerId = some timestamp →
      expireTime ≤ timestamp.elapsed (s.clock + step.elapsed) →
        -50 ≤ s.manager.reputationManager.getReputation peerId
  | _ => True

end ReputationRun

/-! ## What a call does to a peer -/

/-- The change of the score of a peer. -/
def ReputationCall.deltaFor (peerId : LibP2PPeerId) : ReputationCall → Option ℚ
  | .updateReputation other delta => if other = peerId then some delta else none
  | .blacklistPeer other => if other = peerId then some (-100) else none
  | .handleNetworkEvent (.messageReceived sender _) =>
    if sender = peerId then some (1 / 10) else none
  | _ => none

namespace ReputationManager

variable {peerId : LibP2PPeerId} {m : ReputationManager}

lemma isBlacklisted_iff :
    m.isBlacklisted peerId = true ↔ ∃ timestamp, m.blacklist.lookup peerId = some timestamp := by
  rw [isBlacklisted, decide_eq_true_iff, HashMap.mem_iff_exists]

lemma isBlacklisted_eq_false_iff :
    m.isBlacklisted peerId = false ↔ m.blacklist.lookup peerId = none := by
  rw [isBlacklisted, decide_eq_false_iff_not, Finmap.lookup_eq_none]

/-- An update sets the score of the peer, and may blacklist it. -/
lemma updateReputation_self (peerId : LibP2PPeerId) (delta : ℚ) (now : Instant)
    (m : ReputationManager) :
    (m.updateReputation peerId delta now).getReputation peerId =
        clampScore (m.getReputation peerId + delta) ∧
      (m.updateReputation peerId delta now).blacklist.lookup peerId =
        if clampScore (m.getReputation peerId + delta) < -50 then some now
        else m.blacklist.lookup peerId := by
  simp only [updateReputation]
  refine ⟨by simp only [getReputation, Finmap.lookup_insert, Option.getD_some], ?_⟩
  split_ifs
  · exact Finmap.lookup_insert _
  · rfl

/-- An update leaves other peers alone. -/
lemma updateReputation_of_ne {other : LibP2PPeerId} (hne : peerId ≠ other) (delta : ℚ)
    (now : Instant) (m : ReputationManager) :
    (m.updateReputation other delta now).getReputation peerId = m.getReputation peerId ∧
      (m.updateReputation other delta now).blacklist.lookup peerId = m.blacklist.lookup peerId := by
  simp only [updateReputation]
  refine ⟨by simp only [getReputation, Finmap.lookup_insert_of_ne _ hne], ?_⟩
  split_ifs
  · exact Finmap.lookup_insert_of_ne _ hne
  · rfl

/-- Entries that are not older than 24 hours are kept. -/
lemma lookup_cleanupExpired (now : Instant) :
    (m.cleanupExpired now).blacklist.lookup peerId =
      (m.blacklist.lookup peerId).filter fun timestamp => timestamp.elapsed now < expireTime := by
  refine Option.ext fun timestamp => ?_
  rw [cleanupExpired, HashMap.lookup_retain, Option.filter_eq_some_iff]

end ReputationManager

/-- Disconnecting peers does not change what is known of any. -/
lemma NetworkManager.reputationManager_maintenance (order : HashMap.Iteration LibP2PPeerId Instant)
    (now : Instant) (self : NetworkManager) :
    (self.maintenance order now).reputationManager = self.reputationManager.cleanupExpired now := by
  have hfold : ∀ (l : List (LibP2PPeerId × Instant)) (manager : NetworkManager),
      (l.foldl (fun manager e => manager.disconnectPeer e.1) manager).reputationManager =
        manager.reputationManager := by
    intro l
    induction l with
    | nil => exact fun _ => rfl
    | cons e l ih => exact fun manager => ih _
  exact hfold _ _

/-- **What a call does to a peer**: it changes its score and may blacklist it, or it keeps its entry
of the blacklist, or it forgets that entry if it is old. -/
lemma ReputationCall.act_cases (call : ReputationCall) (now : Instant) (manager : NetworkManager)
    (peerId : LibP2PPeerId) :
    let before := manager.reputationManager
    let after := (call.act now manager).reputationManager
    (∃ delta, call.deltaFor peerId = some delta ∧
      after.getReputation peerId =
        ReputationManager.clampScore (before.getReputation peerId + delta) ∧
      after.blacklist.lookup peerId =
        if ReputationManager.clampScore (before.getReputation peerId + delta) < -50 then some now
        else before.blacklist.lookup peerId) ∨
    ((after.getReputation peerId = before.getReputation peerId ∨ after.getReputation peerId = 75) ∧
      after.blacklist.lookup peerId = before.blacklist.lookup peerId ∧
      call.deltaFor peerId = none ∧ ∀ order, call ≠ .maintenance order) ∨
    (∃ order, call = .maintenance order ∧
      after.getReputation peerId = before.getReputation peerId ∧
      after.blacklist.lookup peerId = (before.blacklist.lookup peerId).filter
        fun timestamp => timestamp.elapsed now < expireTime) := by
  intro before after
  cases call with
  | updateReputation other delta =>
    by_cases heq : other = peerId
    · subst heq
      exact .inl ⟨delta, if_pos rfl, ReputationManager.updateReputation_self ..⟩
    · obtain ⟨hscore, hentry⟩ := ReputationManager.updateReputation_of_ne (Ne.symm heq)
          delta now before
      exact .inr (.inl ⟨.inl hscore, hentry, if_neg heq, fun _ => nofun⟩)
  | addTrustedPeer other =>
    refine .inr (.inl ⟨?_, rfl, rfl, fun _ => nofun⟩)
    by_cases heq : peerId = other
    · subst heq
      right
      show (Option.getD ((before.scores.insert peerId 75).lookup peerId) 0) = 75
      rw [Finmap.lookup_insert, Option.getD_some]
    · left
      show (Option.getD ((before.scores.insert other 75).lookup peerId) 0) = _
      rw [Finmap.lookup_insert_of_ne _ heq]
      rfl
  | blacklistPeer other =>
    by_cases heq : other = peerId
    · subst heq
      exact .inl ⟨-100, if_pos rfl, ReputationManager.updateReputation_self ..⟩
    · obtain ⟨hscore, hentry⟩ := ReputationManager.updateReputation_of_ne (Ne.symm heq)
          (-100) now before
      exact .inr (.inl ⟨.inl hscore, hentry, if_neg heq, fun _ => nofun⟩)
  | handleNetworkEvent event =>
    cases event with
    | messageReceived sender data =>
      by_cases heq : sender = peerId
      · subst heq
        exact .inl ⟨1 / 10, if_pos rfl, ReputationManager.updateReputation_self ..⟩
      · obtain ⟨hscore, hentry⟩ := ReputationManager.updateReputation_of_ne (Ne.symm heq)
          (1 / 10) now before
        exact .inr (.inl ⟨.inl hscore, hentry, if_neg heq, fun _ => nofun⟩)
    | _ => exact .inr (.inl ⟨.inl rfl, rfl, rfl, fun _ => nofun⟩)
  | maintenance order =>
    have hmanager : after = before.cleanupExpired now :=
      manager.reputationManager_maintenance order now
    refine .inr (.inr ⟨order, rfl, ?_, ?_⟩)
    · rw [hmanager]
      rfl
    · rw [hmanager]
      exact ReputationManager.lookup_cleanupExpired _

namespace ReputationRun

variable {s : ReputationRun} {peerId : LibP2PPeerId}

/-! ## Staying on the blacklist -/

/-- The peer is blacklisted since a moment or later. -/
def BlacklistedSince (moment : Instant) (peerId : LibP2PPeerId) (s : ReputationRun) : Prop :=
  moment ≤ s.clock ∧ ∃ timestamp, moment ≤ timestamp ∧
    s.manager.reputationManager.blacklist.lookup peerId = some timestamp

/-- A step before the deadline keeps a peer on the blacklist. -/
lemma blacklistedSince_apply {moment : Instant} (h : BlacklistedSince moment peerId s)
    {step : ReputationStep} (hstep : MaintainedBefore (moment + expireTime) s step) :
    BlacklistedSince moment peerId (s.apply step) := by
  obtain ⟨hclock, timestamp, hmoment, hentry⟩ := h
  have hnow : moment ≤ s.clock + step.elapsed := Nat.le_add_right_of_le hclock
  refine ⟨hnow, ?_⟩
  simp only [apply]
  rcases step.call.act_cases (s.clock + step.elapsed) s.manager peerId with
    ⟨delta, -, -, hentry'⟩ | ⟨-, hentry', -⟩ | ⟨order, hcall, -, hentry'⟩
  · split_ifs at hentry' with hlow
    · exact ⟨_, hnow, hentry'⟩
    · exact ⟨timestamp, hmoment, hentry'.trans hentry⟩
  · exact ⟨timestamp, hmoment, hentry'.trans hentry⟩
  · rw [MaintainedBefore, hcall] at hstep
    refine ⟨timestamp, hmoment, ?_⟩
    have hyoung : timestamp.elapsed (s.clock + step.elapsed) < expireTime := by
      have hlt : s.clock + step.elapsed < timestamp + expireTime :=
        hstep.trans_le (Nat.add_le_add_right hmoment _)
      have hpos : 0 < expireTime := by decide
      have hsub : ∀ a b c : ℕ, a < b + c → 0 < c → a - b < c := by omega
      exact hsub _ _ _ hlt hpos
    rw [hentry', hentry, Option.filter_some, if_pos (by simpa using hyoung)]

/-! ## Staying off the blacklist -/

/-- The peer is not blacklisted, and its score is not below -50. -/
def Rehabilitated (peerId : LibP2PPeerId) (s : ReputationRun) : Prop :=
  -50 ≤ s.manager.reputationManager.getReputation peerId ∧
    s.manager.reputationManager.blacklist.lookup peerId = none

/-- A change that is not negative leads below -50 only from there. -/
lemma le_clampScore {score delta : ℚ} (hscore : -50 ≤ score) (hdelta : 0 ≤ delta) :
    -50 ≤ ReputationManager.clampScore (score + delta) := by
  unfold ReputationManager.clampScore
  refine le_max_of_le_right (le_min (by norm_num) ?_)
  linarith

/-- A call that does not lower the score of a peer changes it by nothing negative. -/
lemma nonneg_of_harmless {call : ReputationCall} (h : Harmless peerId call) {delta : ℚ}
    (hdelta : call.deltaFor peerId = some delta) : 0 ≤ delta := by
  cases call with
  | updateReputation other delta' =>
    simp only [ReputationCall.deltaFor] at hdelta
    split_ifs at hdelta with heq
    cases hdelta
    exact h heq
  | blacklistPeer other =>
    simp only [ReputationCall.deltaFor] at hdelta
    split_ifs at hdelta with heq
    exact absurd heq h
  | handleNetworkEvent event =>
    cases event with
    | messageReceived sender data =>
      simp only [ReputationCall.deltaFor] at hdelta
      split_ifs at hdelta
      cases hdelta
      norm_num
    | _ => cases hdelta
  | _ => cases hdelta

/-- A call that does not lower the score of a peer does not blacklist it again. -/
lemma rehabilitated_apply (h : Rehabilitated peerId s) {step : ReputationStep}
    (hharmless : Harmless peerId step.call) : Rehabilitated peerId (s.apply step) := by
  obtain ⟨hscore, hentry⟩ := h
  simp only [Rehabilitated, apply]
  rcases step.call.act_cases (s.clock + step.elapsed) s.manager peerId with
    ⟨delta, hdelta, hscore', hentry'⟩ | ⟨hscore', hentry', -⟩ | ⟨order, -, hscore', hentry'⟩
  · have hle := le_clampScore hscore (nonneg_of_harmless hharmless hdelta)
    rw [if_neg (not_lt.mpr hle)] at hentry'
    exact ⟨hscore' ▸ hle, hentry'.trans hentry⟩
  · refine ⟨?_, hentry'.trans hentry⟩
    rcases hscore' with hsame | htrusted
    · rwa [hsame]
    · rw [htrusted]
      norm_num
  · exact ⟨hscore' ▸ hscore, by rw [hentry', hentry]; rfl⟩

/-! ## Effective blacklisting -/

/-- No entry of the blacklist is from the future. -/
def Inv (s : ReputationRun) : Prop := ∀ peerId timestamp,
  s.manager.reputationManager.blacklist.lookup peerId = some timestamp → timestamp ≤ s.clock

lemma inv_apply (h : s.Inv) (step : ReputationStep) : (s.apply step).Inv := by
  intro peerId timestamp hentry
  have hclock : s.clock ≤ s.clock + step.elapsed := Nat.le_add_right _ _
  simp only [apply] at hentry ⊢
  rcases step.call.act_cases (s.clock + step.elapsed) s.manager peerId with
    ⟨delta, -, -, hentry'⟩ | ⟨-, hentry', -⟩ | ⟨order, -, -, hentry'⟩
  · rw [hentry'] at hentry
    split_ifs at hentry with hlow
    · cases hentry
      exact le_refl _
    · exact (h _ _ hentry).trans hclock
  · exact (h _ _ (hentry'.symm.trans hentry)).trans hclock
  · rw [hentry'] at hentry
    exact (h _ _ (Option.filter_eq_some_iff.mp hentry).1).trans hclock

/-- The score that an update by -100 leaves is low enough iff it was below 50. -/
lemma clampScore_lt_iff {score : ℚ} :
    ReputationManager.clampScore (score + -100) < -50 ↔ score < 50 := by
  unfold ReputationManager.clampScore
  rw [max_lt_iff, min_lt_iff]
  constructor
  · rintro ⟨-, hlow | hlow⟩
    · norm_num at hlow
    · linarith
  · intro h
    exact ⟨by norm_num, .inr (by linarith)⟩

/-- The entry of a peer after it is blacklisted by hand. -/
lemma lookup_blacklistPeer (s : ReputationRun) (elapsed : Duration) (peerId : LibP2PPeerId) :
    (s.apply ⟨elapsed, .blacklistPeer peerId⟩).manager.reputationManager.blacklist.lookup peerId =
      if s.manager.reputationManager.getReputation peerId < 50 then some (s.clock + elapsed)
      else s.manager.reputationManager.blacklist.lookup peerId := by
  have hentry := (ReputationManager.updateReputation_self peerId (-100) (s.clock + elapsed)
    s.manager.reputationManager).2
  simp only [clampScore_lt_iff] at hentry
  exact hentry

/-- The entry of a peer after a maintenance. -/
lemma lookup_maintenance (s : ReputationRun) (elapsed : Duration)
    (order : HashMap.Iteration LibP2PPeerId Instant) (peerId : LibP2PPeerId) :
    (s.apply ⟨elapsed, .maintenance order⟩).manager.reputationManager.blacklist.lookup peerId =
      (s.manager.reputationManager.blacklist.lookup peerId).filter
        fun timestamp => timestamp.elapsed (s.clock + elapsed) < expireTime := by
  show ((s.manager.maintenance order (s.clock + elapsed)).reputationManager).blacklist.lookup _ = _
  rw [NetworkManager.reputationManager_maintenance]
  exact ReputationManager.lookup_cleanupExpired _

/-- **Blacklisting by hand** is effective for 24 hours iff the score is low enough, or the peer got
on the blacklist at the same moment. -/
lemma effective_blacklistPeer_iff (h : s.Inv) (elapsed : Duration) (peerId : LibP2PPeerId) :
    s.Effective ⟨elapsed, .blacklistPeer peerId⟩ ↔
      s.Decisive ⟨elapsed, .blacklistPeer peerId⟩ := by
  have hentry := lookup_blacklistPeer s elapsed peerId
  simp only [Effective, Decisive]
  constructor
  · intro heffective
    by_contra hnot
    obtain ⟨hscore, hother⟩ := not_or.mp hnot
    rw [if_neg hscore] at hentry
    cases hold : s.manager.reputationManager.blacklist.lookup peerId with
    | none =>
      -- the peer is not on the blacklist at all
      obtain ⟨timestamp, hsome⟩ :=
        ReputationManager.isBlacklisted_iff.mp (heffective [] trivial)
      rw [Runs.run_nil, hentry, hold] at hsome
      cases hsome
    | some timestamp =>
      -- its old entry expires too early
      have hle : timestamp ≤ s.clock + elapsed := (h _ _ hold).trans (Nat.le_add_right _ _)
      have hne : timestamp ≠ s.clock + elapsed := fun heq => hother (heq ▸ hold)
      have hpos : 0 < expireTime := by decide
      have harith : ∀ t now expire : ℕ, t ≤ now → t ≠ now → 0 < expire →
          now + (t + expire - now) < now + expire ∧ ¬ now + (t + expire - now) - t < expire := by
        omega
      obtain ⟨hbefore, hold'⟩ := harith timestamp (s.clock + elapsed) expireTime hle hne hpos
      obtain ⟨found, hsome⟩ := ReputationManager.isBlacklisted_iff.mp
        (heffective [⟨timestamp + expireTime - (s.clock + elapsed),
          .maintenance HashMap.Iteration.arbitrary⟩] ⟨hbefore, trivial⟩)
      rw [Runs.run_cons, Runs.run_nil, lookup_maintenance, hentry, hold, Option.filter_some,
        if_neg (by rw [decide_eq_true_iff]; exact hold')] at hsome
      cases hsome
  · intro hdecisive steps hsteps
    have hsince : BlacklistedSince (s.clock + elapsed) peerId
        (s.apply ⟨elapsed, .blacklistPeer peerId⟩) := by
      refine ⟨le_refl _, s.clock + elapsed, le_refl _, hentry.trans ?_⟩
      split_ifs with hscore
      · rfl
      · exact hdecisive.resolve_left hscore
    obtain ⟨-, timestamp, -, hsome⟩ := Runs.run_rule (BlacklistedSince (s.clock + elapsed) peerId)
      (fun _ _ hs hstep => blacklistedSince_apply hs hstep) hsteps hsince
    exact ReputationManager.isBlacklisted_iff.mpr ⟨timestamp, hsome⟩

/-- **An entry that expires** ends the blacklisting iff the score is not below -50 then. -/
lemma effective_maintenance_iff (elapsed : Duration)
    (order : HashMap.Iteration LibP2PPeerId Instant) :
    s.Effective ⟨elapsed, .maintenance order⟩ ↔ s.Decisive ⟨elapsed, .maintenance order⟩ := by
  simp only [Effective, Decisive]
  have hscore : ∀ peerId,
      (s.apply ⟨elapsed, .maintenance order⟩).manager.reputationManager.getReputation peerId =
        s.manager.reputationManager.getReputation peerId := by
    intro peerId
    show (s.manager.maintenance order (s.clock + elapsed)).reputationManager.getReputation _ = _
    rw [NetworkManager.reputationManager_maintenance]
    rfl
  constructor
  · intro heffective peerId hbanned timestamp hentry hexpired
    by_contra hlow
    have hafter := lookup_maintenance s elapsed order peerId
    rw [hentry, Option.filter_some, if_neg (by simpa using hexpired)] at hafter
    have hfalse := heffective peerId hbanned
      (ReputationManager.isBlacklisted_iff.mpr ⟨timestamp, hentry⟩)
      (ReputationManager.isBlacklisted_eq_false_iff.mpr hafter)
      [⟨0, .updateReputation peerId 0⟩] (by simp [Harmless])
    -- an update by nothing blacklists the peer again
    have hupdate := (ReputationManager.updateReputation_self peerId 0
      ((s.apply ⟨elapsed, .maintenance order⟩).clock + 0)
      (s.apply ⟨elapsed, .maintenance order⟩).manager.reputationManager).2
    have hclamp : ReputationManager.clampScore
        (s.manager.reputationManager.getReputation peerId + 0) < -50 := by
      unfold ReputationManager.clampScore
      rw [add_zero, max_lt_iff, min_lt_iff]
      exact ⟨by norm_num, .inr (not_le.mp hlow)⟩
    rw [hscore, if_pos hclamp] at hupdate
    have hnone := ReputationManager.isBlacklisted_eq_false_iff.mp hfalse
    exact nomatch hupdate.symm.trans hnone
  · intro hdecisive peerId hbanned hbefore hafter steps hsteps
    obtain ⟨timestamp, hentry⟩ := ReputationManager.isBlacklisted_iff.mp hbefore
    have hnone := ReputationManager.isBlacklisted_eq_false_iff.mp hafter
    have hfilter := hnone
    rw [lookup_maintenance, hentry, Option.filter_some] at hfilter
    have hexpired : expireTime ≤ timestamp.elapsed (s.clock + elapsed) := by
      by_contra hyoung
      rw [if_pos (by simpa using hyoung)] at hfilter
      cases hfilter
    have hstart : Rehabilitated peerId (s.apply ⟨elapsed, .maintenance order⟩) :=
      ⟨hscore peerId ▸ hdecisive peerId hbanned timestamp hentry hexpired, hnone⟩
    have hrun : ∀ (steps : List ReputationStep) {t : ReputationRun}, Rehabilitated peerId t →
        (∀ later ∈ steps, Harmless peerId later.call) →
          Rehabilitated peerId (Runs.run apply t steps) := by
      intro steps
      induction steps with
      | nil => exact fun ht _ => ht
      | cons later steps ih =>
        exact fun ht hall => ih (rehabilitated_apply ht (hall _ List.mem_cons_self))
          fun other hother => hall other (List.mem_cons_of_mem _ hother)
    exact ReputationManager.isBlacklisted_eq_false_iff.mpr (hrun steps hstart hsteps).2

/-- **Blacklisting is effective** in exactly the runs whose steps are decisive. -/
theorem effective_iff (steps : List ReputationStep) :
    Runs.Steps apply Effective start steps ↔ Runs.Steps apply Decisive start steps := by
  refine Runs.steps_iff_steps Inv (fun s step h => ?_) (fun s step h _ => inv_apply h step)
    (fun peerId timestamp hentry => ?_)
  · obtain ⟨elapsed, call⟩ := step
    cases call with
    | blacklistPeer peerId => exact effective_blacklistPeer_iff h elapsed peerId
    | maintenance order => exact effective_maintenance_iff elapsed order
    | _ => exact Iff.rfl
  · cases hentry

/-- A trusted peer that is blacklisted by hand is not on the blacklist. -/
theorem not_effective_trusted : ¬ Runs.Steps apply Effective start
    [⟨0, .addTrustedPeer [1]⟩, ⟨0, .blacklistPeer [1]⟩] := by
  rintro ⟨-, heffective, -⟩
  have h := heffective [] trivial
  exact absurd h (by decide +kernel)

end ReputationRun

end QuDAG.Network
