import QuDAG.Protocol.MachineInvariants

/-!
# The discipline of state changes

Transitions and updates of sessions are checked against the transition relation. A handshake
message, however, writes the state of the machine into its session without a check, and asks for
a transition from four states from which the relation does not have it.

## Main definitions

* `ProtocolStateMachine.Disciplined` — every change of a call is in the relation, and the
  transitions it asks for are not refused.
* `ProtocolStateMachine.Allowed` — the calls that are.

## Main results

* `ProtocolStateMachine.run_dispatch` — the transitions of a handshake message.
* `ProtocolStateMachine.disciplined_iff` — one call.
* `ProtocolStateMachine.steps_disciplined_iff` — every run.
-/

namespace QuDAG.Protocol

open RustStd

/-- A change of state is accepted by the transition relation. -/
def Accepted (fromState toState : ProtocolState) : Prop :=
  fromState ≠ toState → isValidTransition fromState toState = true

/-- Every state may be left for the shutdown. -/
lemma accepted_shutdown (fromState : ProtocolState) : Accepted fromState .shutdown := by
  intro h
  cases fromState with
  | shutdown => exact absurd rfl h
  | initial => rfl
  | handshake s | active s | synchronizing s | error s => cases s <;> rfl

/-- No change is accepted. -/
lemma Accepted.refl (state : ProtocolState) : Accepted state state := fun h => absurd rfl h

namespace ProtocolStateMachine

/-! ## The transitions of handshake messages -/

/-- The states in which a handshake init is dispatched to a transition that is refused. -/
def refusesInit : ProtocolState → Bool
  | .initial => true
  | .handshake .processing => true
  | .handshake .completed => true
  | .handshake .failed => true
  | _ => false

/-- The state after a handshake message that is not refused. -/
def stateAfter (handshakeType : HandshakeType) (currentState : ProtocolState) : ProtocolState :=
  match handshakeType, currentState with
  | .init, .handshake _ => .handshake .inProgress
  | .response, .handshake .inProgress => .handshake .processing
  | .complete, .handshake .processing => .active .normal
  | _, _ => currentState

variable {machine : ProtocolStateMachine}

/-- A transition of the relation to a state in which nothing is done. -/
lemma run_transitionTo_of_valid {clock : Clock} {currentState newState : ProtocolState}
    {reason : String} (hstate : machine.currentState = currentState)
    (hvalid : isValidTransition currentState newState = true)
    (hentry : ∀ machine : ProtocolStateMachine, machine.currentState = newState →
      machine.onStateEntry clock.cleanup = machine) :
    (transitionTo clock newState reason).run machine =
      (.ok (), machine.record clock.transition newState reason) := by
  rw [run_transitionTo, hstate, if_pos hvalid, hentry _ rfl]

/-- Nothing is done on entering a handshake state other than the failure. -/
lemma onStateEntry_handshake {handshakeState : HandshakeState}
    (hstate : machine.currentState = .handshake handshakeState)
    (hfailed : handshakeState ≠ .failed) (now : ℕ) : machine.onStateEntry now = machine := by
  unfold onStateEntry
  rw [hstate]
  cases handshakeState with
  | failed => exact absurd rfl hfailed
  | _ => rfl

/-- Nothing is done on entering an active state. -/
lemma onStateEntry_active {activeState : ActiveState}
    (hstate : machine.currentState = .active activeState) (now : ℕ) :
    machine.onStateEntry now = machine := by
  unfold onStateEntry
  rw [hstate]

/-- An init is refused in these states, and nothing changes. -/
lemma run_dispatch_refused {clock : Clock} (h : refusesInit machine.currentState = true) :
    dispatch clock .init machine.currentState ≠ [] ∧
      (Fallible.sequence (dispatch clock .init machine.currentState)).run machine =
        (.error (.invalidTransition machine.currentState (.handshake .inProgress)), machine) := by
  have hrefused : isValidTransition machine.currentState (.handshake .inProgress) = false ∧
      dispatch clock .init machine.currentState =
        [transitionTo clock (.handshake .inProgress) "Received handshake init"] := by
    revert h
    cases machine.currentState with
    | handshake handshakeState =>
      cases handshakeState <;> first | exact fun _ => ⟨rfl, rfl⟩ | exact nofun
    | initial => exact fun _ => ⟨rfl, rfl⟩
    | _ => exact nofun
  rw [hrefused.2]
  refine ⟨List.cons_ne_nil _ _, Fallible.run_bind_of_error ?_⟩
  rw [run_transitionTo, hrefused.1]
  rfl

/-- **The transitions of a handshake message** that is not refused: they lead to the state of the
table and leave the sessions alone. -/
lemma run_dispatch {handshakeType : HandshakeType} {clock : Clock}
    (h : ¬ (handshakeType = .init ∧ refusesInit machine.currentState = true)) :
    ∃ machine', (Fallible.sequence (dispatch clock handshakeType machine.currentState)).run
        machine = (.ok (), machine') ∧
      machine'.currentState = stateAfter handshakeType machine.currentState ∧
      machine'.sessions = machine.sessions := by
  cases handshakeType with
  | init =>
    cases hstate : machine.currentState with
    | handshake handshakeState =>
      have hvalid :
          isValidTransition (.handshake handshakeState) (.handshake .inProgress) = true := by
        rw [hstate] at h
        cases handshakeState with
        | waiting | inProgress => rfl
        | processing | completed | failed => exact absurd ⟨rfl, rfl⟩ h
      exact ⟨_, Fallible.run_bind_of_ok (run_transitionTo_of_valid hstate hvalid
        fun _ hentry => onStateEntry_handshake hentry (by decide) _), rfl, rfl⟩
    | initial => exact absurd ⟨rfl, by rw [hstate]; rfl⟩ h
    | _ => exact ⟨machine, rfl, hstate, rfl⟩
  | response =>
    cases hstate : machine.currentState with
    | handshake handshakeState =>
      cases handshakeState with
      | inProgress =>
        exact ⟨_, Fallible.run_bind_of_ok (run_transitionTo_of_valid hstate rfl
          fun _ hentry => onStateEntry_handshake hentry (by decide) _), rfl, rfl⟩
      | _ => exact ⟨machine, rfl, hstate, rfl⟩
    | _ => exact ⟨machine, rfl, hstate, rfl⟩
  | complete =>
    cases hstate : machine.currentState with
    | handshake handshakeState =>
      cases handshakeState with
      | processing =>
        -- the second transition starts where the first one ends
        have hcompleted : (transitionTo clock (.handshake .completed) "Handshake completed").run
            machine = (.ok (), _) :=
          run_transitionTo_of_valid hstate rfl
            fun _ hentry => onStateEntry_handshake hentry (by decide) _
        exact ⟨_, (Fallible.run_bind_of_ok hcompleted).trans
          (Fallible.run_bind_of_ok (run_transitionTo_of_valid rfl rfl
            fun _ hentry => onStateEntry_active hentry _)), rfl, rfl⟩
      | _ => exact ⟨machine, rfl, hstate, rfl⟩
    | _ => exact ⟨machine, rfl, hstate, rfl⟩
  | versionNegotiation =>
    exact ⟨machine, rfl, rfl, rfl⟩

/-- A handshake message touches its session, makes its transitions, and then writes the state of
the machine into the session. -/
lemma run_processMessage_eq {message : Message} {handshakeType : HandshakeType}
    (htype : message.msgType = .handshake handshakeType) (clock : Clock)
    (sessionId : Option Uuid) (machine : ProtocolStateMachine) :
    (processMessage clock message sessionId).run machine =
      (Fallible.sequence (dispatch clock handshakeType machine.currentState) >>= fun _ =>
        Fallible.modify fun machine => machine.updateSession sessionId fun session =>
          { session with state := machine.currentState }).run
        (machine.updateSession sessionId (SessionInfo.touch clock.activity message)) := by
  unfold processMessage
  rw [Fallible.run_bind_of_ok (Fallible.run_modify _ _), htype]
  unfold processHandshakeMessage
  rw [Fallible.run_bind_of_ok (Fallible.run_get _), currentState_updateSession]

/-- Processing a handshake message: the session is touched, the transitions are made, and unless
they are refused the state of the machine is written into the session. -/
lemma run_processMessage {message : Message} {handshakeType : HandshakeType}
    (htype : message.msgType = .handshake handshakeType) (clock : Clock)
    (sessionId : Option Uuid) (machine : ProtocolStateMachine) :
    let touched := machine.updateSession sessionId (SessionInfo.touch clock.activity message)
    (handshakeType = .init ∧ refusesInit machine.currentState = true ∧
      (processMessage clock message sessionId).run machine =
        (.error (.invalidTransition machine.currentState (.handshake .inProgress)), touched)) ∨
    ¬ (handshakeType = .init ∧ refusesInit machine.currentState = true) ∧
      ∃ machine' : ProtocolStateMachine, (processMessage clock message sessionId).run machine =
        (.ok (), machine'.updateSession sessionId fun session =>
          { session with state := stateAfter handshakeType machine.currentState }) ∧
        machine'.sessions = touched.sessions := by
  intro touched
  have htouched : touched.currentState = machine.currentState :=
    currentState_updateSession _ _ _
  rw [run_processMessage_eq htype, ← htouched]
  by_cases h : handshakeType = .init ∧ refusesInit touched.currentState = true
  · obtain ⟨rfl, hrefused⟩ := h
    exact .inl ⟨rfl, hrefused, Fallible.run_bind_of_error (run_dispatch_refused hrefused).2⟩
  · obtain ⟨machine', hmachine', hstate, hsessions⟩ :=
      @run_dispatch touched handshakeType clock h
    refine .inr ⟨h, machine', ?_, hsessions⟩
    rw [Fallible.run_bind_of_ok hmachine', Fallible.run_modify, hstate]

/-! ## The discipline -/

/-- The machines that a call goes through: each change of the machine's own state is one from one
of them to the next. -/
def visits (machine : ProtocolStateMachine) : Call → List ProtocolStateMachine
  | .processMessage clock message sessionId =>
    match message.msgType with
    | .handshake handshakeType =>
      Fallible.visited (dispatch clock handshakeType machine.currentState)
        (machine.updateSession sessionId (SessionInfo.touch clock.activity message))
    | _ => [machine, machine.applyCall (.processMessage clock message sessionId)]
  | call => [machine, machine.applyCall call]

/-- The discipline of state changes, for one call. -/
structure Disciplined (machine : ProtocolStateMachine) (call : Call) : Prop where
  /-- Changes of the machine's own state are accepted by the transition relation. -/
  machine_accepted : (machine.visits call).IsChain fun before after =>
    Accepted before.currentState after.currentState
  /-- So are changes of the state of a session. -/
  sessions_accepted : ∀ id session session', machine.sessions.lookup id = some session →
    (machine.applyCall call).sessions.lookup id = some session' →
      Accepted session.state session'.state
  /-- The transitions that a handshake message is dispatched to are not refused. -/
  dispatched : ∀ clock message sessionId handshakeType,
    call = .processMessage clock message sessionId → message.msgType = .handshake handshakeType →
    dispatch clock handshakeType machine.currentState ≠ [] →
    ∀ fromState toState, ((processMessage clock message sessionId).run machine).1 ≠
      .error (.invalidTransition fromState toState)

/-- The handshake messages that keep the discipline: no init in a state in which it is refused, and
none for a session whose state must not become that of the machine. -/
def HandshakeAllowed (machine : ProtocolStateMachine) (handshakeType : HandshakeType)
    (sessionId : Option Uuid) : Prop :=
  ¬ (handshakeType = .init ∧ refusesInit machine.currentState = true) ∧
    ∀ session ∈ sessionId.bind fun id => machine.sessions.lookup id,
      Accepted session.state (stateAfter handshakeType machine.currentState)

/-- The calls that keep the discipline. -/
def Allowed (machine : ProtocolStateMachine) : Call → Prop
  | .processMessage _ message sessionId =>
    match message.msgType with
    | .handshake handshakeType => HandshakeAllowed machine handshakeType sessionId
    | _ => True
  | _ => True

/-- The identifier of a new session is new. -/
def Fresh (machine : ProtocolStateMachine) : Call → Prop
  | .createSession _ sessionId _ _ _ => sessionId ∉ machine.sessions
  | _ => True

instance instDecidableAccepted (fromState toState : ProtocolState) :
    Decidable (Accepted fromState toState) :=
  inferInstanceAs (Decidable (fromState ≠ toState → isValidTransition fromState toState = true))

instance instDecidableHandshakeAllowed (machine : ProtocolStateMachine)
    (handshakeType : HandshakeType) (sessionId : Option Uuid) :
    Decidable (HandshakeAllowed machine handshakeType sessionId) :=
  inferInstanceAs (Decidable (_ ∧ _))

instance instDecidableAllowed (machine : ProtocolStateMachine) :
    ∀ call, Decidable (Allowed machine call)
  | .processMessage _ message sessionId =>
    match h : message.msgType with
    | .handshake handshakeType =>
      decidable_of_iff (HandshakeAllowed machine handshakeType sessionId)
        (by simp only [Allowed, h])
    | .consensus _ | .routing _ | .anonymous _ | .control _ | .sync _ | .data _ =>
      isTrue (by simp only [Allowed, h])
  | .transitionTo _ _ _ => instDecidableTrue
  | .createSession _ _ _ _ _ => instDecidableTrue
  | .updateSessionState _ _ _ => instDecidableTrue
  | .removeSession _ => instDecidableTrue

instance instDecidableFresh (machine : ProtocolStateMachine) :
    ∀ call, Decidable (Fresh machine call)
  | .createSession _ sessionId _ _ _ => inferInstanceAs (Decidable (sessionId ∉ machine.sessions))
  | .transitionTo _ _ _ => instDecidableTrue
  | .updateSessionState _ _ _ => instDecidableTrue
  | .removeSession _ => instDecidableTrue
  | .processMessage _ _ _ => instDecidableTrue

/-- A transition changes the state as the relation allows. -/
lemma accepted_transitionTo (clock : Clock) (newState : ProtocolState) (reason : String)
    (machine : ProtocolStateMachine) :
    Accepted machine.currentState
      ((transitionTo clock newState reason).run machine).2.currentState := by
  rw [run_transitionTo]
  split_ifs with hvalid
  · rw [(entryOf_onStateEntry _ _).currentState]
    exact fun _ => hvalid
  · exact .refl _

/-- A transition leaves the states of sessions, or closes all of them. -/
lemma sessions_transitionTo {clock : Clock} {newState : ProtocolState} {reason : String}
    {id : Uuid} {session' : SessionInfo}
    (h : ((transitionTo clock newState reason).run machine).2.sessions.lookup id = some session') :
    ∃ session, machine.sessions.lookup id = some session ∧
      Accepted session.state session'.state := by
  rw [run_transitionTo] at h
  split_ifs at h
  · obtain ⟨session, hsession, heq | ⟨-, heq⟩⟩ :=
      (entryOf_onStateEntry _ _).sessions id session' h
    · exact ⟨session, hsession, heq ▸ .refl _⟩
    · exact ⟨session, hsession, heq ▸ accepted_shutdown _⟩
  · exact ⟨session', h, .refl _⟩

/-- A call other than a handshake message that leaves the state of the machine alone is disciplined
if its changes of sessions are accepted. -/
lemma disciplined_of_sessions {call : Call}
    (hvisits : machine.visits call = [machine, machine.applyCall call])
    (hcall : ∀ clock message sessionId handshakeType,
      call = .processMessage clock message sessionId →
        message.msgType ≠ .handshake handshakeType)
    {sessions : HashMap Uuid SessionInfo}
    (happly : machine.applyCall call = { machine with sessions := sessions })
    (hsessions : ∀ id session session', machine.sessions.lookup id = some session →
      sessions.lookup id = some session' → Accepted session.state session'.state) :
    Disciplined machine call := by
  refine ⟨?_, fun id session session' hbefore hafter => ?_,
    fun clock message sessionId handshakeType heq htype => ?_⟩
  · rw [hvisits, happly]
    exact List.isChain_pair.mpr (.refl _)
  · rw [happly] at hafter
    exact hsessions id session session' hbefore hafter
  · exact absurd htype (hcall clock message sessionId handshakeType heq)

/-- Leaving the sessions alone is accepted. -/
lemma accepted_same {sessions : HashMap Uuid SessionInfo} {id : Uuid} {before after : SessionInfo}
    (hbefore : sessions.lookup id = some before) (hafter : sessions.lookup id = some after) :
    Accepted before.state after.state := by
  rw [hbefore] at hafter
  rw [Option.some.inj hafter]
  exact .refl _

/-- A call that changes nothing is disciplined. -/
lemma disciplined_of_same {call : Call}
    (hvisits : machine.visits call = [machine, machine.applyCall call])
    (hcall : ∀ clock message sessionId handshakeType,
      call = .processMessage clock message sessionId →
        message.msgType ≠ .handshake handshakeType)
    (happly : machine.applyCall call = machine) : Disciplined machine call :=
  @disciplined_of_sessions machine call hvisits hcall machine.sessions happly
    fun _ _ _ => accepted_same

/-- Replacing a session changes one state. -/
lemma accepted_insert {sessions : HashMap Uuid SessionInfo} {sessionId : Uuid}
    {session' : SessionInfo}
    (h : ∀ session, sessions.lookup sessionId = some session →
      Accepted session.state session'.state)
    {id : Uuid} {before after : SessionInfo} (hbefore : sessions.lookup id = some before)
    (hafter : (sessions.insert sessionId session').lookup id = some after) :
    Accepted before.state after.state := by
  rw [HashMap.lookup_insert_ite] at hafter
  split_ifs at hafter with hid
  · subst hid
    rw [← Option.some.inj hafter]
    exact h before hbefore
  · exact accepted_same hbefore hafter

/-- Touching a session keeps its state. -/
lemma accepted_touch {now : ℕ} {message : Message} {sessionId : Option Uuid} {id : Uuid}
    {before after : SessionInfo} (hbefore : machine.sessions.lookup id = some before)
    (hafter : (machine.updateSession sessionId (SessionInfo.touch now message)).sessions.lookup id =
      some after) : after.state = before.state := by
  rw [lookup_updateSession, hbefore] at hafter
  split_ifs at hafter
  · rw [Option.map_some] at hafter
    rw [← Option.some.inj hafter]
    rfl
  · rw [← Option.some.inj hafter]

/-- A handshake message keeps the discipline iff it is allowed. -/
lemma disciplined_handshake_iff {message : Message} {handshakeType : HandshakeType}
    (htype : message.msgType = .handshake handshakeType) (clock : Clock)
    (sessionId : Option Uuid) :
    Disciplined machine (.processMessage clock message sessionId) ↔
      HandshakeAllowed machine handshakeType sessionId := by
  have hrun := run_processMessage htype clock sessionId machine
  dsimp only at hrun
  constructor
  · intro h
    rcases hrun with ⟨rfl, hrefused, herror⟩ | ⟨hnot, machine', hok, hsessions⟩
    · have hdispatched : dispatch clock .init machine.currentState ≠ [] :=
        (run_dispatch_refused hrefused).1
      exact absurd (congrArg Prod.fst herror)
        (h.dispatched clock message sessionId .init rfl htype hdispatched _ _)
    · refine ⟨hnot, fun session hsession => ?_⟩
      obtain ⟨id, rfl, hlookup⟩ := Option.bind_eq_some_iff.mp hsession
      -- the session of the message ends in the state of the machine
      have hafter : (machine.applyCall (.processMessage clock message (some id))).sessions.lookup
          id = some { SessionInfo.touch clock.activity message session with
            state := stateAfter handshakeType machine.currentState } := by
        show ((processMessage clock message (some id)).run machine).2.sessions.lookup id = _
        rw [hok, lookup_updateSession, if_pos rfl, hsessions, lookup_updateSession, if_pos rfl,
          hlookup]
        rfl
      exact h.sessions_accepted id session _ hlookup hafter
  · rintro ⟨hnot, hallowed⟩
    obtain ⟨-, machine', hok, hsessions⟩ := hrun.resolve_left fun h => hnot ⟨h.1, h.2.1⟩
    refine ⟨?_, fun id session session' hbefore hafter => ?_, ?_⟩
    · simp only [visits, htype]
      refine Fallible.isChain_visited fun m hm machine => ?_
      obtain ⟨clock, newState, reason, rfl⟩ := mem_dispatch hm
      exact accepted_transitionTo clock newState reason machine
    · change ((processMessage clock message sessionId).run machine).2.sessions.lookup id = _
        at hafter
      rw [hok, lookup_updateSession, hsessions] at hafter
      by_cases hid : sessionId = some id
      · rw [if_pos hid, Option.map_eq_some_iff] at hafter
        obtain ⟨touched, -, rfl⟩ := hafter
        exact hallowed session (by rw [hid, Option.bind_some, Option.mem_def, hbefore])
      · rw [if_neg hid] at hafter
        rw [accepted_touch hbefore hafter]
        exact .refl _
    · rintro clock' message' sessionId' handshakeType' heq - - fromState toState
      obtain ⟨rfl, rfl, rfl⟩ := Call.processMessage.inj heq
      rw [hok]
      exact nofun

/-- A message other than those of the handshake keeps the discipline: it touches its session. -/
lemma disciplined_other {message : Message}
    (htype : ∀ handshakeType, message.msgType ≠ .handshake handshakeType) (clock : Clock)
    (sessionId : Option Uuid) : Disciplined machine (.processMessage clock message sessionId) := by
  have hrun : (processMessage clock message sessionId).run machine =
      (.ok (), machine.updateSession sessionId (SessionInfo.touch clock.activity message)) := by
    unfold processMessage
    rw [Fallible.run_bind_of_ok (Fallible.run_modify _ _)]
    split
    · exact absurd ‹_› (htype _)
    · rfl
  have hvisits : machine.visits (.processMessage clock message sessionId) =
      [machine, machine.applyCall (.processMessage clock message sessionId)] := by
    unfold visits
    dsimp only
    split
    · exact absurd ‹_› (htype _)
    · rfl
  have happly : machine.applyCall (.processMessage clock message sessionId) =
      machine.updateSession sessionId (SessionInfo.touch clock.activity message) := by
    simp only [applyCall, hrun]
  refine ⟨?_, fun id before after hbefore hafter => ?_, ?_⟩
  · rw [hvisits, happly]
    exact List.isChain_pair.mpr (currentState_updateSession _ _ _ ▸ .refl _)
  · rw [happly] at hafter
    rw [accepted_touch hbefore hafter]
    exact .refl _
  · rintro clock' message' sessionId' handshakeType heq htype'
    obtain ⟨rfl, rfl, rfl⟩ := Call.processMessage.inj heq
    exact absurd htype' (htype handshakeType)

/-- **One call** keeps the discipline iff it is allowed. -/
lemma disciplined_iff {call : Call} (hfresh : Fresh machine call) :
    Disciplined machine call ↔ Allowed machine call := by
  cases call with
  | transitionTo clock newState reason =>
    refine iff_of_true ⟨?_, fun id session session' hbefore hafter => ?_, ?_⟩ trivial
    · exact List.isChain_pair.mpr (accepted_transitionTo clock newState reason machine)
    · obtain ⟨before, hlookup, haccepted⟩ := sessions_transitionTo hafter
      rw [hbefore] at hlookup
      rwa [Option.some.inj hlookup]
    · rintro _ _ _ _ ⟨⟩
  | createSession now sessionId peerId protocolVersion capabilities =>
    refine iff_of_true ?_ trivial
    rcases createSession_cases now sessionId peerId protocolVersion capabilities machine with
      ⟨e, he⟩ | ⟨-, session, -, hok⟩
    · exact disciplined_of_same rfl (by rintro _ _ _ _ ⟨⟩) (by simp only [applyCall, he])
    · refine disciplined_of_sessions rfl (by rintro _ _ _ _ ⟨⟩) (by simp only [applyCall, hok]; rfl)
        fun _ _ _ => accepted_insert fun old hold => ?_
      exact absurd (HashMap.mem_of_lookup hold) hfresh
  | updateSessionState now sessionId newState =>
    refine iff_of_true ?_ trivial
    rcases updateSessionState_cases now sessionId newState machine with
      ⟨e, he⟩ | ⟨session, session', hsession, hvalid, rfl, hok⟩
    · exact disciplined_of_same rfl (by rintro _ _ _ _ ⟨⟩) (by simp only [applyCall, he])
    · refine disciplined_of_sessions rfl (by rintro _ _ _ _ ⟨⟩) (by simp only [applyCall, hok]; rfl)
        fun _ _ _ => accepted_insert fun old hold => ?_
      rw [hsession] at hold
      rw [← Option.some.inj hold]
      exact fun _ => hvalid
  | removeSession sessionId =>
    refine iff_of_true (disciplined_of_sessions rfl (by rintro _ _ _ _ ⟨⟩) rfl ?_) trivial
    intro id before after hbefore hafter
    by_cases hid : id = sessionId
    · rw [hid, Finmap.lookup_erase] at hafter
      cases hafter
    · rw [Finmap.lookup_erase_ne hid] at hafter
      exact accepted_same hbefore hafter
  | processMessage clock message sessionId =>
    cases htype : message.msgType with
    | handshake handshakeType =>
      rw [disciplined_handshake_iff htype]
      simp only [Allowed, htype]
    | _ =>
      refine iff_of_true (disciplined_other (by simp [htype]) clock sessionId) ?_
      simp only [Allowed, htype]

/-- **Every run** keeps the discipline iff its calls are allowed. -/
theorem steps_disciplined_iff {calls : List Call}
    (hfresh : Runs.Steps applyCall Fresh machine calls) :
    Runs.Steps applyCall Disciplined machine calls ↔ Runs.Steps applyCall Allowed machine calls :=
  Runs.steps_congr_of (fun _ _ h => disciplined_iff h) hfresh

/-! ## A handshake of a session -/

/-- A handshake message. -/
def handshakeMessage (handshakeType : HandshakeType) : Message :=
  .new (.handshake handshakeType) [] .nil 0

/-- A session. -/
def session : Uuid := ⟨List.replicate 16 1, rfl⟩

/-- A session is created, the machine waits for a handshake, and its init and response arrive. -/
def handshakeCalls : List Call :=
  [.createSession 0 session [9] .current [],
    .transitionTo ⟨1, 1, 1, 1⟩ (.handshake .waiting) "Ready",
    .processMessage ⟨2, 2, 2, 2⟩ (handshakeMessage .init) (some session),
    .processMessage ⟨3, 3, 3, 3⟩ (handshakeMessage .response) (some session)]

/-- The first messages of the handshake keep the discipline. -/
theorem steps_disciplined_iff_handshake :
    Runs.Steps applyCall Disciplined (new .current 0) handshakeCalls :=
  (@steps_disciplined_iff (new .current 0) handshakeCalls (by decide +kernel)).mpr
    (by decide +kernel)

/-- A new machine dispatches a handshake init to a transition that it refuses, and the complete
message of an ordinary handshake takes its session from processing to active. -/
theorem not_disciplined :
    (dispatch ⟨0, 0, 0, 0⟩ .init (new .current 0).currentState ≠ [] ∧
      ((processMessage ⟨0, 0, 0, 0⟩ (handshakeMessage .init) none).run (new .current 0)).1 =
        .error (.invalidTransition .initial (.handshake .inProgress))) ∧
    (let machine := Runs.run applyCall (new .current 0) handshakeCalls
      let completed :=
        machine.applyCall (.processMessage ⟨4, 4, 4, 4⟩ (handshakeMessage .complete) (some session))
      (machine.sessions.lookup session).map SessionInfo.state = some (.handshake .processing) ∧
        (completed.sessions.lookup session).map SessionInfo.state = some (.active .normal) ∧
        isValidTransition (.handshake .processing) (.active .normal) = false ∧
        ¬ Disciplined machine
          (.processMessage ⟨4, 4, 4, 4⟩ (handshakeMessage .complete) (some session))) := by
  refine ⟨⟨List.cons_ne_nil _ _, by decide +kernel⟩, by decide +kernel, by decide +kernel, rfl, ?_⟩
  exact fun h => absurd ((disciplined_iff (by exact trivial)).mp h) (by decide +kernel)

end ProtocolStateMachine

end QuDAG.Protocol
