import QuDAG.Dag.Voting
import QuDAG.Lib.Runs

/-!
# Requests of the P2P node (`p2p.rs`)

A node has one event loop, which takes events of the swarm and commands of its handles in turn. The
command to send a request stores the sender of a channel in a table, under the identifier that the
caller chose, and then waits for the other end of the channel, inside the event loop. The response
is an event of the swarm, and is looked up under the identifier that the swarm chose. While the loop
waits it takes no event, so nothing is ever looked up while the table has an entry.

## Main definitions

* `P2PNode`, with `handleRequestResponseEvent` and `sendRequestInternal`.
* `P2PSystem` — a node with its loop, its swarm and the callers of its handles.
* `P2PSystem.Correlated` — requests get their own answers, and the loop is free to take events.
* `P2PSystem.SendsNothing` — the step does not take the command to send a request.

## Main results

* `P2PSystem.correlated_iff` — the runs in which requests are correlated.
* `P2PSystem.result_eq_timeout` — every request that ends has timed out.

## Implementation notes

The swarm is a list of events that are ready, with the numbers that it gave to requests. It may
become ready with any event at any time. Other commands of the handles, and the handling of events
other than those of the request-response protocol, do not touch requests. The node and one of its
handles are kept, so no channel between them is closed. `bincode` does not fail on a request. A
number is printed in decimal.
-/

namespace QuDAG.Network

open RustStd

/-- The identity of a peer in the swarm. -/
abbrev LibP2PPeerId : Type := List UInt8

/-- The number that the swarm gives to a request. -/
abbrev OutboundRequestId : Type := ℕ

/-- Request of the custom protocol. -/
structure QuDagRequest where
  requestId : String
  payload : List UInt8
  deriving DecidableEq, Repr

/-- Response of the custom protocol. -/
structure QuDagResponse where
  requestId : String
  payload : List UInt8
  deriving DecidableEq, Repr

/-- Events of the request-response protocol, and others. -/
inductive P2PSwarmEvent
  /-- A request of a peer, and whether its channel takes a response. -/
  | request (peer : LibP2PPeerId) (request : QuDagRequest) (channelOpen : Bool)
  | response (requestId : OutboundRequestId) (response : QuDagResponse)
  | outboundFailure (requestId : OutboundRequestId)
  | inboundFailure
  | other

/-- A channel for one response. -/
inductive OneshotState
  | empty
  | sent (response : QuDagResponse)
  /-- The sender is gone. -/
  | canceled
  deriving DecidableEq, Repr

/-- The requests of a node. A call of a handle is known by its number, and so is its channel. -/
structure P2PNode where
  /-- Pending requests. -/
  pendingRequests : HashMap String ℕ
  /-- The timeout of the configuration. -/
  timeout : Duration
  /-- The channels. -/
  channels : ℕ → OneshotState
  /-- The responses to requests of peers. -/
  replies : List QuDagResponse
  /-- The requests of peers that the application was told of. -/
  received : List (LibP2PPeerId × QuDagRequest)

/-- What the event loop is doing. -/
inductive LoopState
  /-- It waits for an event or a command. -/
  | selecting
  /-- It waits for the response to a call, until a deadline. -/
  | awaiting (call : ℕ) (requestId : String) (deadline : Instant)
  /-- It has ended with an error. -/
  | stopped (reason : String)
  deriving DecidableEq, Repr

namespace P2PNode

/-- Give up the sender of a channel. -/
def dropSender (call : ℕ) (self : P2PNode) : P2PNode :=
  { self with
    channels := Function.update self.channels call
      (if self.channels call = .empty then .canceled else self.channels call) }

/-- Handle request-response events. -/
def handleRequestResponseEvent (event : P2PSwarmEvent) (self : P2PNode) :
    Except String Unit × P2PNode :=
  match event with
  | .request peer request channelOpen =>
    let response : QuDagResponse := ⟨request.requestId, []⟩
    if channelOpen then
      (.ok (), { self with
        replies := self.replies ++ [response]
        received := self.received ++ [(peer, request)] })
    else (.error "Failed to send response", self)
  | .response requestId response =>
    match self.pendingRequests.lookup (toString requestId) with
    | some call =>
      (.ok (), { self with
        pendingRequests := self.pendingRequests.erase (toString requestId)
        channels := Function.update self.channels call (.sent response) })
    | none => (.ok (), self)
  | .outboundFailure requestId =>
    match self.pendingRequests.lookup (toString requestId) with
    | some call =>
      (.ok (), { self.dropSender call with
        pendingRequests := self.pendingRequests.erase (toString requestId) })
    | none => (.ok (), self)
  | .inboundFailure => (.ok (), self)
  | .other => (.ok (), self)

/-- Store the sender of a channel for a request. A sender that is replaced is dropped. -/
def insertPending (requestId : String) (call : ℕ) (self : P2PNode) : P2PNode :=
  let replaced :=
    match self.pendingRequests.lookup requestId with
    | some other => self.dropSender other
    | none => self
  { replaced with
    pendingRequests := self.pendingRequests.insert requestId call
    channels := Function.update replaced.channels call .empty }

/-- The first part of sending a request, up to where it waits. -/
def sendRequestInternal (call : ℕ) (request : QuDagRequest) (now : Instant) (self : P2PNode) :
    LoopState × P2PNode :=
  (.awaiting call request.requestId (now + self.timeout), self.insertPending request.requestId call)

/-- The second part: look whether the wait is over. -/
def pollResponse (call : ℕ) (requestId : String) (deadline now : Instant) (self : P2PNode) :
    Option (Except String QuDagResponse) × P2PNode :=
  match self.channels call with
  | .sent response => (some (.ok response), self)
  | .canceled => (some (.error "Response channel closed"), self)
  | .empty =>
    if deadline ≤ now then
      (some (.error "Request timeout"),
        { self with pendingRequests := self.pendingRequests.erase requestId })
    else (none, self)

end P2PNode

/-- A call of `send_request`. -/
structure RequestCall where
  peerId : LibP2PPeerId
  request : QuDagRequest

/-- A node at work. What the last four fields record is not seen by the node. -/
structure P2PSystem where
  node : P2PNode
  /-- The event loop. -/
  loop : LoopState
  /-- The clock. -/
  now : Instant
  /-- The calls that were made. -/
  calls : List RequestCall
  /-- Those whose command waits for the loop. -/
  commands : List ℕ
  /-- The events that the swarm has ready. -/
  events : List P2PSwarmEvent
  /-- What the calls have returned. -/
  results : ℕ → Option (Except String QuDagResponse)
  /-- The call of a number of the swarm. -/
  callOf : OutboundRequestId → Option ℕ
  /-- The deadline of a call. -/
  deadlines : ℕ → Option Instant
  /-- The response to a call, and when the swarm had it. -/
  responses : ℕ → Option (QuDagResponse × Instant)
  /-- Whether the swarm had a failure of a call. -/
  failures : ℕ → Bool

/-- What happens next. -/
inductive P2PStep
  /-- A handle is called. -/
  | call (call : RequestCall)
  /-- The loop takes a command, and the swarm gives a number to the request. -/
  | takeCommand (requestId : OutboundRequestId)
  /-- The swarm has an event ready. -/
  | ready (event : P2PSwarmEvent)
  /-- The loop takes an event. -/
  | takeEvent
  /-- The wait for a response is looked at. -/
  | poll
  /-- Time passes. -/
  | tick (duration : Duration)

namespace P2PSystem

/-- A new node. -/
def start (timeout : Duration) : P2PSystem where
  node := ⟨∅, timeout, fun _ => .empty, [], []⟩
  loop := .selecting
  now := 0
  calls := []
  commands := []
  events := []
  results := fun _ => none
  callOf := fun _ => none
  deadlines := fun _ => none
  responses := fun _ => none
  failures := fun _ => false

/-- The swarm becomes ready with an event. Of several responses to a call the first one counts. -/
def ready (s : P2PSystem) (event : P2PSwarmEvent) : P2PSystem :=
  let s := { s with events := s.events ++ [event] }
  match event with
  | .response requestId response =>
    match s.callOf requestId with
    | some call =>
      if s.responses call = none then
        { s with responses := Function.update s.responses call (some (response, s.now)) }
      else s
    | none => s
  | .outboundFailure requestId =>
    match s.callOf requestId with
    | some call => { s with failures := Function.update s.failures call true }
    | none => s
  | _ => s

/-- The loop takes the next command. -/
def takeCommand (s : P2PSystem) (requestId : OutboundRequestId) : P2PSystem :=
  match s.loop, s.commands with
  | .selecting, call :: commands =>
    match s.calls[call]? with
    | some request =>
      let result := s.node.sendRequestInternal call request.request s.now
      { s with
        node := result.2
        loop := result.1
        commands
        callOf := Function.update s.callOf requestId (some call)
        deadlines := Function.update s.deadlines call (some (s.now + s.node.timeout)) }
    | none => s
  | _, _ => s

/-- The loop takes the next event. If handling it fails the loop ends. -/
def takeEvent (s : P2PSystem) : P2PSystem :=
  match s.loop, s.events with
  | .selecting, event :: events =>
    match s.node.handleRequestResponseEvent event with
    | (.ok _, node) => { s with node, events }
    | (.error reason, node) => { s with node, events, loop := .stopped reason }
  | _, _ => s

/-- Look whether the wait for a response is over. If it is the call returns. -/
def poll (s : P2PSystem) : P2PSystem :=
  match s.loop with
  | .awaiting call requestId deadline =>
    match s.node.pollResponse call requestId deadline s.now with
    | (some result, node) =>
      { s with
        node
        loop := .selecting
        results := Function.update s.results call (some result) }
    | (none, _) => s
  | _ => s

/-- Make a step. A step that is not possible changes nothing. -/
def apply (s : P2PSystem) : P2PStep → P2PSystem
  | .call call => { s with calls := s.calls ++ [call], commands := s.commands ++ [s.calls.length] }
  | .takeCommand requestId => s.takeCommand requestId
  | .ready event => s.ready event
  | .takeEvent => s.takeEvent
  | .poll => s.poll
  | .tick duration => { s with now := s.now + duration }

/-- Requests get their own answers. -/
structure Correlated (s : P2PSystem) : Prop where
  /-- If the response is there before the deadline then it is what the call returns. -/
  answered : ∀ call response arrived deadline result,
    s.responses call = some (response, arrived) → s.deadlines call = some deadline →
      arrived < deadline → s.results call = some result → result = .ok response
  /-- A response that a call returns is the response to it. -/
  own_response : ∀ call response, s.results call = some (.ok response) →
    ∃ arrived, s.responses call = some (response, arrived)
  /-- A call returns an error only after its own deadline or failure. -/
  own_error : ∀ call reason, s.results call = some (.error reason) →
    (∃ deadline, s.deadlines call = some deadline ∧ deadline ≤ s.now) ∨ s.failures call = true
  /-- The loop is able to take the next event. -/
  free : ∀ call requestId deadline, s.loop ≠ .awaiting call requestId deadline

/-- The step does not take the command to send a request. -/
def SendsNothing (s : P2PSystem) : P2PStep → Prop
  | .takeCommand _ => s.loop = .selecting → s.commands = []
  | _ => True

/-! ## Runs that send nothing -/

/-- No call was taken from its queue so far. -/
structure Quiet (s : P2PSystem) : Prop where
  free : ∀ call requestId deadline, s.loop ≠ .awaiting call requestId deadline
  no_result : ∀ call, s.results call = none
  commands_lt : ∀ call ∈ s.commands, call < s.calls.length

/-- What becomes ready in the swarm changes neither the loop nor the calls. -/
lemma ready_frame (s : P2PSystem) (event : P2PSwarmEvent) :
    (s.ready event).loop = s.loop ∧ (s.ready event).results = s.results ∧
      (s.ready event).commands = s.commands ∧ (s.ready event).calls = s.calls ∧
      (s.ready event).node = s.node := by
  unfold ready
  cases event with
  | response requestId response =>
    simp only
    cases s.callOf requestId with
    | none => exact ⟨rfl, rfl, rfl, rfl, rfl⟩
    | some call =>
      simp only
      split_ifs <;> exact ⟨rfl, rfl, rfl, rfl, rfl⟩
  | outboundFailure requestId =>
    simp only
    cases s.callOf requestId <;> exact ⟨rfl, rfl, rfl, rfl, rfl⟩
  | _ => exact ⟨rfl, rfl, rfl, rfl, rfl⟩

/-- Taking an event does not make the loop wait. -/
lemma takeEvent_frame (s : P2PSystem) :
    (s.takeEvent = s ∨ s.loop = .selecting ∧
      (s.takeEvent.loop = .selecting ∨ ∃ reason, s.takeEvent.loop = .stopped reason)) ∧
      s.takeEvent.results = s.results ∧ s.takeEvent.commands = s.commands ∧
      s.takeEvent.calls = s.calls := by
  unfold takeEvent
  split
  · next hloop _ =>
    split
    · exact ⟨.inr ⟨hloop, .inl hloop⟩, rfl, rfl, rfl⟩
    · exact ⟨.inr ⟨hloop, .inr ⟨_, rfl⟩⟩, rfl, rfl, rfl⟩
  · exact ⟨.inl rfl, rfl, rfl, rfl⟩

/-- Taking a command makes the loop wait, or there is none to take. -/
lemma takeCommand_cases (s : P2PSystem) (requestId : OutboundRequestId)
    (hcommands : ∀ call ∈ s.commands, call < s.calls.length) :
    (s.takeCommand requestId = s ∧ (s.loop = .selecting → s.commands = [])) ∨
      ∃ call commands, ∃ request : RequestCall, s.loop = .selecting ∧
        s.commands = call :: commands ∧ s.takeCommand requestId =
          { s with
            node := s.node.insertPending request.request.requestId call
            loop := .awaiting call request.request.requestId (s.now + s.node.timeout)
            commands
            callOf := Function.update s.callOf requestId (some call)
            deadlines := Function.update s.deadlines call (some (s.now + s.node.timeout)) } := by
  unfold takeCommand
  split
  · next call commands hloop hqueue =>
    obtain ⟨request, hrequest⟩ : ∃ request, s.calls[call]? = some request :=
      ⟨_, List.getElem?_eq_getElem (hcommands call (by simp [hqueue]))⟩
    refine .inr ⟨call, commands, request, hloop, hqueue, ?_⟩
    simp only [hrequest]
    rfl
  · next hnot =>
    refine .inl ⟨rfl, fun hloop => ?_⟩
    cases hqueue : s.commands with
    | nil => rfl
    | cons call commands => exact absurd hqueue (hnot call commands hloop)

/-- A step that sends nothing keeps the system quiet. -/
lemma quiet_apply {s : P2PSystem} (h : s.Quiet) {step : P2PStep} (hstep : s.SendsNothing step) :
    (s.apply step).Quiet := by
  obtain ⟨hfree, hresult, hcommands⟩ := h
  cases step with
  | call call =>
    refine ⟨hfree, hresult, fun n hn => ?_⟩
    show n < (s.calls ++ [call]).length
    rw [List.length_append, List.length_singleton]
    rcases List.mem_append.mp hn with hn | hn
    · exact (hcommands n hn).trans (Nat.lt_succ_self _)
    · rw [List.mem_singleton.mp hn]
      exact Nat.lt_succ_self _
  | takeCommand requestId =>
    rcases takeCommand_cases s requestId hcommands with ⟨hsame, -⟩ |
      ⟨call, commands, request, hloop, hqueue, -⟩
    · rw [apply, hsame]
      exact ⟨hfree, hresult, hcommands⟩
    · rw [hstep hloop] at hqueue
      cases hqueue
  | ready event =>
    obtain ⟨hloop, hresults, hqueue, hcalls, -⟩ := ready_frame s event
    exact ⟨hloop.symm ▸ hfree, hresults.symm ▸ hresult, hqueue.symm ▸ hcalls.symm ▸ hcommands⟩
  | takeEvent =>
    obtain ⟨hloop, hresults, hqueue, hcalls⟩ := takeEvent_frame s
    refine ⟨fun call requestId deadline hwait => ?_, hresults.symm ▸ hresult,
      hqueue.symm ▸ hcalls.symm ▸ hcommands⟩
    rcases hloop with hsame | ⟨-, hselect | ⟨reason, hstop⟩⟩
    · exact hfree call requestId deadline (hsame ▸ hwait)
    · exact nomatch hselect.symm.trans hwait
    · exact nomatch hstop.symm.trans hwait
  | poll =>
    have hsame : s.poll = s := by
      unfold poll
      cases hloop : s.loop with
      | awaiting call requestId deadline => exact absurd hloop (hfree _ _ _)
      | _ => rfl
    rw [apply, hsame]
    exact ⟨hfree, hresult, hcommands⟩
  | tick duration => exact ⟨hfree, hresult, hcommands⟩

/-- A quiet system is correlated. -/
lemma correlated_of_quiet {s : P2PSystem} (h : s.Quiet) : s.Correlated where
  answered call _ _ _ _ _ _ _ hresult := nomatch (h.no_result call).symm.trans hresult
  own_response call _ hresult := nomatch (h.no_result call).symm.trans hresult
  own_error call _ hresult := nomatch (h.no_result call).symm.trans hresult
  free := h.free

/-- **Requests are correlated** in exactly the runs in which the loop never takes the command to
send one. -/
theorem correlated_iff (timeout : Duration) (steps : List P2PStep) :
    Runs.Always apply Correlated (start timeout) steps ↔
      Runs.Steps apply SendsNothing (start timeout) steps := by
  refine Runs.always_iff_steps Quiet (fun s h => correlated_of_quiet h)
    (fun s step h _ hstep => quiet_apply h hstep) (fun s step h _ hcorrelated => ?_)
    (Runs.steps_of_forall (P := fun _ _ => True) fun _ _ => trivial)
    ⟨fun _ _ _ => nofun, fun _ => rfl, nofun⟩
  cases step with
  | takeCommand requestId =>
    rcases takeCommand_cases s requestId h.commands_lt with ⟨-, hnone⟩ |
      ⟨call, commands, request, -, -, htake⟩
    · exact hnone
    · rw [apply, htake] at hcorrelated
      exact absurd rfl (hcorrelated.free _ _ _)
  | _ => trivial

/-! ## What requests return -/

/-- The table has an entry only for the call that the loop waits for, and nothing has been sent to
that call. All calls that have returned have timed out. -/
structure TimesOut (s : P2PSystem) : Prop where
  pending : ∀ requestId call, s.node.pendingRequests.lookup requestId = some call →
    ∃ deadline, s.loop = .awaiting call requestId deadline
  waiting : ∀ call requestId deadline, s.loop = .awaiting call requestId deadline →
    s.node.channels call = .empty
  results : ∀ call result, s.results call = some result → result = .error "Request timeout"
  commands_lt : ∀ call ∈ s.commands, call < s.calls.length

/-- An event finds nothing in an empty table. -/
lemma handleRequestResponseEvent_of_empty {node : P2PNode}
    (hnone : ∀ requestId, node.pendingRequests.lookup requestId = none) (event : P2PSwarmEvent) :
    (node.handleRequestResponseEvent event).2.pendingRequests = node.pendingRequests ∧
      (node.handleRequestResponseEvent event).2.channels = node.channels := by
  unfold P2PNode.handleRequestResponseEvent
  cases event with
  | request peer request channelOpen => cases channelOpen <;> exact ⟨rfl, rfl⟩
  | response requestId response =>
    simp only [hnone, and_self]
  | outboundFailure requestId =>
    simp only [hnone, and_self]
  | _ => exact ⟨rfl, rfl⟩

/-- Unless the loop waits the table is empty. -/
lemma TimesOut.lookup_eq_none {s : P2PSystem} (h : s.TimesOut)
    (hfree : ∀ call requestId deadline, s.loop ≠ .awaiting call requestId deadline)
    (requestId : String) : s.node.pendingRequests.lookup requestId = none := by
  cases hlookup : s.node.pendingRequests.lookup requestId with
  | none => rfl
  | some call =>
    obtain ⟨deadline, hloop⟩ := h.pending _ _ hlookup
    exact absurd hloop (hfree _ _ _)

/-- An event that is taken changes neither the table nor the channels. -/
lemma timesOut_takeEvent {s : P2PSystem} (h : s.TimesOut) : s.takeEvent.TimesOut := by
  obtain ⟨hloop, hresults, hqueue, hcalls⟩ := takeEvent_frame s
  rcases hloop with hsame | ⟨hselect, hloop⟩
  · rwa [hsame]
  · have hfree : ∀ call requestId deadline, s.loop ≠ .awaiting call requestId deadline := by
      rw [hselect]
      exact fun _ _ _ => nofun
    have hnone := h.lookup_eq_none hfree
    have hnode : s.takeEvent.node.pendingRequests = s.node.pendingRequests := by
      unfold takeEvent
      split
      · next event _ _ hqueue =>
        have hpending := (handleRequestResponseEvent_of_empty hnone event).1
        split <;> next hhandle => rw [hhandle] at hpending; exact hpending
      · rfl
    refine ⟨fun requestId call hlookup => ?_, fun call requestId deadline hwait => ?_,
      hresults.symm ▸ h.results, hqueue.symm ▸ hcalls.symm ▸ h.commands_lt⟩
    · rw [hnode, hnone] at hlookup
      cases hlookup
    · rcases hloop with hselect' | ⟨reason, hstop⟩
      · exact nomatch hselect'.symm.trans hwait
      · exact nomatch hstop.symm.trans hwait

/-- A wait ends with the timeout. -/
lemma timesOut_poll {s : P2PSystem} (h : s.TimesOut) : s.poll.TimesOut := by
  unfold poll
  cases hloop : s.loop with
  | selecting => exact h
  | stopped reason => exact h
  | awaiting call requestId deadline =>
    simp only [P2PNode.pollResponse, h.waiting _ _ _ hloop]
    split_ifs with hdeadline
    · dsimp only
      refine ⟨fun other call' hlookup => ?_, fun _ _ _ => nofun, fun call' result hresult => ?_,
        h.commands_lt⟩
      · by_cases heq : other = requestId
        · rw [heq, Finmap.lookup_erase] at hlookup
          cases hlookup
        · rw [Finmap.lookup_erase_ne heq] at hlookup
          obtain ⟨deadline', hloop'⟩ := h.pending _ _ hlookup
          rw [hloop] at hloop'
          cases hloop'
          exact absurd rfl heq
      · dsimp only at hresult
        by_cases heq : call' = call
        · rw [heq, Function.update_self] at hresult
          exact (Option.some.inj hresult).symm
        · rw [Function.update_of_ne heq] at hresult
          exact h.results _ _ hresult
    · exact h

/-- A command that is taken is the only entry of the table. -/
lemma timesOut_takeCommand {s : P2PSystem} (h : s.TimesOut) (requestId : OutboundRequestId) :
    (s.takeCommand requestId).TimesOut := by
  rcases takeCommand_cases s requestId h.commands_lt with ⟨hsame, -⟩ |
    ⟨call, commands, request, hloop, hqueue, htake⟩
  · rwa [hsame]
  · have hnone := h.lookup_eq_none (by rw [hloop]; exact fun _ _ _ => nofun)
    rw [htake]
    refine ⟨fun other call' hlookup => ?_, fun call' other deadline hwait => ?_, h.results,
      fun n hn => h.commands_lt n (hqueue ▸ List.mem_cons_of_mem _ hn)⟩
    · simp only [P2PNode.insertPending, HashMap.lookup_insert_ite] at hlookup
      split_ifs at hlookup with heq
      · cases hlookup
        exact ⟨_, by rw [heq]⟩
      · rw [hnone] at hlookup
        cases hlookup
    · cases hwait
      simp only [P2PNode.insertPending, Function.update_self]

/-- Every step keeps it so. -/
lemma timesOut_apply {s : P2PSystem} (h : s.TimesOut) (step : P2PStep) :
    (s.apply step).TimesOut := by
  cases step with
  | call call =>
    refine ⟨h.pending, h.waiting, h.results, fun n hn => ?_⟩
    show n < (s.calls ++ [call]).length
    rw [List.length_append, List.length_singleton]
    rcases List.mem_append.mp hn with hn | hn
    · exact (h.commands_lt n hn).trans (Nat.lt_succ_self _)
    · rw [List.mem_singleton.mp hn]
      exact Nat.lt_succ_self _
  | takeCommand requestId => exact timesOut_takeCommand h requestId
  | ready event =>
    obtain ⟨hloop, hresults, hqueue, hcalls, hnode⟩ := ready_frame s event
    rw [apply]
    exact ⟨hnode.symm ▸ hloop.symm ▸ h.pending, hnode.symm ▸ hloop.symm ▸ h.waiting,
      hresults.symm ▸ h.results, hqueue.symm ▸ hcalls.symm ▸ h.commands_lt⟩
  | takeEvent => exact timesOut_takeEvent h
  | poll => exact timesOut_poll h
  | tick duration => exact ⟨h.pending, h.waiting, h.results, h.commands_lt⟩

/-- **Every request that ends has timed out**, whatever the swarm has ready and when. -/
theorem result_eq_timeout (timeout : Duration) (steps : List P2PStep) {call : ℕ}
    {result : Except String QuDagResponse}
    (h : (Runs.run apply (start timeout) steps).results call = some result) :
    result = .error "Request timeout" := by
  have hinv : (Runs.run apply (start timeout) steps).TimesOut := by
    refine Runs.run_invariant TimesOut (fun s step hs => timesOut_apply hs step) ?_
    refine ⟨fun requestId call hlookup => ?_, fun _ _ _ => nofun, fun _ _ => nofun, nofun⟩
    cases hlookup
  exact hinv.results call result h

/-- A request to a peer. -/
def sampleCall : RequestCall := ⟨[1], ⟨"a", [7]⟩⟩

/-- A request whose response is ready after one second, with a timeout of 20 seconds. -/
def sampleSteps : List P2PStep :=
  [.call sampleCall, .takeCommand 1, .tick (10 ^ 9), .ready (.response 1 ⟨"a", []⟩), .takeEvent,
    .tick (19 * 10 ^ 9), .poll]

/-- The response is ready in time, and the request times out. The loop could not take the event. -/
theorem not_correlated_sampleSteps :
    ¬ Runs.Always apply Correlated (start (20 * 10 ^ 9)) sampleSteps := by
  intro h
  have hlast := (Runs.always_iff.mp h sampleSteps List.prefix_rfl).answered 0 ⟨"a", []⟩ (10 ^ 9)
    (20 * 10 ^ 9) (.error "Request timeout") rfl rfl (by decide) rfl
  cases hlast

/-- The request that has its response ready ends so, too. -/
theorem result_eq_timeout_sampleSteps :
    ∃ result, (Runs.run apply (start (20 * 10 ^ 9)) sampleSteps).results 0 = some result ∧
      result = .error "Request timeout" :=
  ⟨_, rfl, @result_eq_timeout (20 * 10 ^ 9) sampleSteps 0 _ rfl⟩

end P2PSystem

end QuDAG.Network
