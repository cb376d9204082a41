import QuDAG.Lib.Runs
import QuDAG.Protocol.State

/-!
# Invariants of the protocol state machine

Whatever is called: the history stays a chain of transitions that ends in the current state, the
limits of the configuration hold, and a machine that was shut down stays so.

## Main definitions

* `ProtocolStateMachine.WellFormed` — the invariant.
* `ProtocolStateMachine.EntryOf` — what entering a state can change.

## Main results

* `ProtocolStateMachine.entryOf_onStateEntry` — entering a state changes no more.
* `ProtocolStateMachine.wellFormed_applyCall` — every call keeps the invariant.
* `ProtocolStateMachine.invariants_always` — the invariants of every run.
-/

namespace QuDAG.Protocol

open RustStd

/-- Nothing follows after the shutdown. -/
lemma isValidTransition_shutdown (newState : ProtocolState) :
    isValidTransition .shutdown newState = false := by
  cases newState <;> rfl

namespace ProtocolStateMachine

/-! ## Entering a state -/

/-- What entering a state can change: the history loses its oldest records, sessions are removed,
and at the shutdown they are closed. -/
structure EntryOf (before after : ProtocolStateMachine) : Prop where
  /-- The state stays. -/
  currentState : after.currentState = before.currentState
  /-- So does the configuration. -/
  config : after.config = before.config
  /-- The latest records of the history stay. -/
  stateHistory : after.stateHistory <:+ before.stateHistory
  /-- A session that is left was there before; its state is that of before, or it is closed. -/
  sessions : ∀ id session', after.sessions.lookup id = some session' →
    ∃ session, before.sessions.lookup id = some session ∧
      (session'.state = session.state ∨
        before.currentState = .shutdown ∧ session'.state = .shutdown)

/-- Removing sessions. -/
lemma entryOf_retain (machine : ProtocolStateMachine) (keep : Uuid → SessionInfo → Bool) :
    EntryOf machine { machine with sessions := machine.sessions.retain keep } := by
  refine ⟨rfl, rfl, List.suffix_rfl, fun id session' h => ?_⟩
  exact ⟨session', (HashMap.lookup_retain.mp h).1, .inl rfl⟩

/-- Changing nothing. -/
lemma EntryOf.refl (machine : ProtocolStateMachine) : EntryOf machine machine :=
  ⟨rfl, rfl, List.suffix_rfl, fun _ session' h => ⟨session', h, .inl rfl⟩⟩

/-- Cleaning up the resources. -/
lemma entryOf_cleanupResources (now : ℕ) (machine : ProtocolStateMachine) :
    EntryOf machine (machine.cleanupResources now) := by
  unfold cleanupResources
  dsimp only
  split_ifs
  · refine ⟨rfl, rfl, List.drop_suffix _ _, fun id session' h => ?_⟩
    exact ⟨session', (HashMap.lookup_retain.mp h).1, .inl rfl⟩
  · exact entryOf_retain machine _

/-- **Entering a state** changes no more than that. -/
lemma entryOf_onStateEntry (now : ℕ) (machine : ProtocolStateMachine) :
    EntryOf machine (machine.onStateEntry now) := by
  unfold onStateEntry
  split
  case h_1 =>
    refine ⟨rfl, rfl, List.suffix_rfl, fun id session' h => ?_⟩
    rw [Finmap.lookup_empty] at h
    cases h
  case h_2 => exact entryOf_retain machine _
  case h_6 errorState _ =>
    cases errorState with
    | networkError => exact entryOf_retain machine _
    | resourceError => exact entryOf_cleanupResources now machine
    | consensusError | cryptoError | internalError => exact .refl machine
  case h_7 hshutdown =>
    refine ⟨rfl, rfl, List.suffix_rfl, fun id session' h => ?_⟩
    rw [beginShutdown, HashMap.lookup_mapValues, Option.map_eq_some_iff] at h
    obtain ⟨session, hsession, rfl⟩ := h
    exact ⟨session, hsession, .inr ⟨hshutdown, rfl⟩⟩
  all_goals exact .refl machine

/-- Entering a state adds no session. -/
lemma EntryOf.card_le {before after : ProtocolStateMachine} (h : EntryOf before after) :
    after.sessions.keys.card ≤ before.sessions.keys.card := by
  refine Finset.card_le_card fun id hid => ?_
  obtain ⟨session', hsession'⟩ := HashMap.mem_iff_exists.mp (Finmap.mem_keys.mp hid)
  obtain ⟨session, hsession, -⟩ := h.sessions id session' hsession'
  exact Finmap.mem_keys.mpr (HashMap.mem_of_lookup hsession)

/-! ## The invariant -/

/-- The invariant of a machine with a configuration. -/
structure WellFormed (config : StateMachineConfig) (machine : ProtocolStateMachine) : Prop where
  /-- The configuration does not change. -/
  config_eq : machine.config = config
  /-- The size of the history is limited. -/
  history_le : machine.stateHistory.length ≤ config.maxHistorySize
  /-- Each record starts in the state in which the one before it ends. -/
  chained : machine.stateHistory.IsChain fun a b => b.fromState = a.toState
  /-- The last record ends in the current state. -/
  last_toState : ∀ transition, machine.stateHistory.getLast? = some transition →
    transition.toState = machine.currentState
  /-- The number of sessions is limited. -/
  sessions_le : machine.sessions.keys.card ≤ config.maxSessions

variable {config : StateMachineConfig} {machine : ProtocolStateMachine}

/-- A new machine is well-formed. -/
lemma wellFormed_withConfig (protocolVersion : ProtocolVersion) (config : StateMachineConfig)
    (startedAt : ℕ) : WellFormed config (withConfig protocolVersion config startedAt) :=
  ⟨rfl, Nat.zero_le _, .nil, fun _ h => absurd h (by simp [withConfig]), Nat.zero_le _⟩

/-- Changing sessions without adding any keeps the invariant. -/
lemma WellFormed.setSessions (h : WellFormed config machine)
    {sessions : HashMap Uuid SessionInfo} (hle : sessions.keys.card ≤ config.maxSessions) :
    WellFormed config { machine with sessions := sessions } :=
  ⟨h.config_eq, h.history_le, h.chained, h.last_toState, hle⟩

/-- Entering a state keeps the invariant. -/
lemma WellFormed.entry {after : ProtocolStateMachine} (h : WellFormed config machine)
    (hentry : EntryOf machine after) : WellFormed config after := by
  obtain ⟨dropped, hdropped⟩ := hentry.stateHistory
  refine ⟨hentry.config.trans h.config_eq, hentry.stateHistory.length_le.trans h.history_le,
    h.chained.suffix hentry.stateHistory, fun transition hlast => ?_,
    hentry.card_le.trans h.sessions_le⟩
  rw [hentry.currentState]
  refine h.last_toState transition ?_
  rw [← hdropped, List.getLast?_append, hlast]
  rfl

/-- The history after a transition: the record of it at the end, and the oldest one dropped if
there are too many. -/
lemma stateHistory_record (now : ℕ) (newState : ProtocolState) (reason : String)
    (machine : ProtocolStateMachine) :
    ∃ transition : StateTransition, transition.fromState = machine.currentState ∧
      transition.toState = newState ∧
      (machine.record now newState reason).stateHistory =
        if machine.config.maxHistorySize < machine.stateHistory.length + 1 then
          (machine.stateHistory ++ [transition]).tail
        else machine.stateHistory ++ [transition] := by
  unfold record
  dsimp only
  rw [List.length_append, List.length_singleton]
  refine ⟨_, ?_, ?_, rfl⟩
  · rfl
  · rfl

/-- A new record continues the chain. -/
lemma WellFormed.record (h : WellFormed config machine) (now : ℕ) (newState : ProtocolState)
    (reason : String) : WellFormed config (machine.record now newState reason) := by
  obtain ⟨transition, hfrom, hto, hhistory⟩ := stateHistory_record now newState reason machine
  have hlength := h.history_le
  have hchained : (machine.stateHistory ++ [transition]).IsChain
      fun a b => b.fromState = a.toState := by
    refine h.chained.append (List.isChain_singleton _) fun a ha b hb => ?_
    obtain rfl := Option.some.inj hb
    rw [hfrom, h.last_toState a ha]
  refine ⟨h.config_eq, ?_, ?_, fun last hlast => ?_, h.sessions_le⟩
  · rw [hhistory, h.config_eq]
    split_ifs with hfull
    · rw [List.length_tail, List.length_append, List.length_singleton]
      omega
    · rw [List.length_append, List.length_singleton]
      omega
  · rw [hhistory]
    split_ifs
    · exact hchained.tail
    · exact hchained
  · have hlast' : (machine.stateHistory ++ [transition]).getLast? = some last := by
      rw [hhistory] at hlast
      split_ifs at hlast
      · rw [List.getLast?_tail] at hlast
        split_ifs at hlast
        exact hlast
      · exact hlast
    rw [List.getLast?_concat] at hlast'
    rw [← Option.some.inj hlast', hto]
    rfl

/-! ## What every call keeps -/

/-- The transitions of a handshake message are transitions. -/
lemma mem_dispatch {clock : Clock} {handshakeType : HandshakeType} {currentState : ProtocolState}
    {m : Fallible StateError ProtocolStateMachine Unit}
    (hm : m ∈ dispatch clock handshakeType currentState) :
    ∃ clock newState reason, m = transitionTo clock newState reason := by
  unfold dispatch at hm
  split at hm <;> simp at hm
  case h_4 =>
    rcases hm with rfl | rfl
    · exact ⟨_, _, _, rfl⟩
    · exact ⟨_, _, _, rfl⟩
  all_goals exact ⟨_, _, _, hm⟩

/-- Sessions that may replace those of a machine: no more than there were, or than there may be. -/
def Admits (machine : ProtocolStateMachine) (sessions : HashMap Uuid SessionInfo) : Prop :=
  sessions.keys.card ≤ machine.sessions.keys.card ∨
    sessions.keys.card ≤ machine.config.maxSessions

/-- Replacing a session adds none. -/
lemma admits_insert {sessionId : Uuid} {session : SessionInfo}
    (h : machine.sessions.lookup sessionId = some session) (session' : SessionInfo) :
    machine.Admits (machine.sessions.insert sessionId session') :=
  .inl (HashMap.card_keys_insert_of_mem (HashMap.mem_of_lookup h)).le

section Rule

variable {Inv : ProtocolStateMachine → Prop}

/-- Changing a session replaces the sessions by others that the machine admits. -/
lemma keeps_updateSession
    (hsessions : ∀ machine sessions, Inv machine → machine.Admits sessions →
      Inv { machine with sessions := sessions })
    (sessionId : Option Uuid) (f : SessionInfo → SessionInfo) (h : Inv machine) :
    Inv (machine.updateSession sessionId f) := by
  rcases updateSession_cases machine sessionId f with ⟨id, session, -, hsession, heq⟩ | ⟨-, heq⟩
  · rw [heq]
    exact hsessions _ _ h (admits_insert hsession _)
  · rwa [heq]

/-- **What every call keeps**: what transitions keep, and what does not depend on the sessions
beyond their number. -/
lemma keeps_applyCall
    (htransition : ∀ clock newState reason, (transitionTo clock newState reason).Keeps Inv)
    (hsessions : ∀ machine sessions, Inv machine → machine.Admits sessions →
      Inv { machine with sessions := sessions })
    (h : Inv machine) (call : Call) : Inv (machine.applyCall call) := by
  cases call with
  | transitionTo clock newState reason => exact htransition clock newState reason machine h
  | createSession now sessionId peerId protocolVersion capabilities =>
    show Inv ((createSession _ _ _ _ _).run machine).2
    rcases createSession_cases now sessionId peerId protocolVersion capabilities machine with
      ⟨e, he⟩ | ⟨hlt, session, -, hok⟩
    · rw [he]
      exact h
    · rw [hok]
      exact hsessions _ _ h (.inr ((HashMap.card_keys_insert_le _ _ _).trans hlt))
  | updateSessionState now sessionId newState =>
    show Inv ((updateSessionState _ _ _).run machine).2
    rcases updateSessionState_cases now sessionId newState machine with
      ⟨e, he⟩ | ⟨session, session', hsession, -, -, hok⟩
    · rw [he]
      exact h
    · rw [hok]
      exact hsessions _ _ h (admits_insert hsession _)
  | removeSession sessionId =>
    refine hsessions _ _ h (.inl ?_)
    rw [Finmap.keys_erase]
    exact Finset.card_erase_le
  | processMessage clock message sessionId =>
    have hkeeps : (processMessage clock message sessionId).Keeps Inv := by
      refine Fallible.keeps_bind
        (Fallible.keeps_modify fun _ h => keeps_updateSession hsessions _ _ h) fun _ => ?_
      cases message.msgType with
      | handshake handshakeType =>
        refine Fallible.keeps_bind (fun _ h => h) fun machine => ?_
        refine Fallible.keeps_bind (Fallible.keeps_sequence fun m hm => ?_) fun _ =>
          Fallible.keeps_modify fun _ h => keeps_updateSession hsessions _ _ h
        obtain ⟨clock, newState, reason, rfl⟩ := mem_dispatch hm
        exact htransition clock newState reason
      | _ => exact fun _ h => h
    exact hkeeps machine h

end Rule

/-- **Every call keeps the invariant.** -/
lemma wellFormed_applyCall (h : WellFormed config machine) (call : Call) :
    WellFormed config (machine.applyCall call) := by
  refine keeps_applyCall (fun clock newState reason machine h => ?_)
    (fun machine sessions h hadmits => ?_) h call
  · rw [run_transitionTo]
    split_ifs
    · exact (h.record _ _ _).entry (entryOf_onStateEntry _ _)
    · exact h
  · refine h.setSessions (hadmits.elim (fun hle => hle.trans h.sessions_le) fun hle => ?_)
    rwa [h.config_eq] at hle

/-- The machine stays shut down whatever is called: every transition is refused. -/
lemma shutdown_applyCall (h : machine.currentState = .shutdown) (call : Call) :
    (machine.applyCall call).currentState = .shutdown := by
  refine @keeps_applyCall machine (fun machine => machine.currentState = .shutdown)
    (fun clock newState reason machine h => ?_) (fun _ _ h _ => h) h call
  rw [run_transitionTo, h, isValidTransition_shutdown]
  exact h

/-- A refused transition leaves the machine as it was. -/
lemma atomicAt_transitionTo (clock : Clock) (newState : ProtocolState) (reason : String)
    (machine : ProtocolStateMachine) : (transitionTo clock newState reason).AtomicAt machine := by
  intro e t h
  rw [run_transitionTo] at h
  split_ifs at h
  · cases h
  · exact (Prod.mk.inj h).2.symm

/-- **The invariants of every run**: the machine is well-formed in every state, it stays shut down
once it is, and a refused transition leaves it as it was. -/
theorem invariants_always (protocolVersion : ProtocolVersion) (config : StateMachineConfig)
    (startedAt : ℕ) (calls : List Call) :
    Runs.Always applyCall
      (fun machine => WellFormed config machine ∧
        (machine.currentState = .shutdown →
          ∀ calls', (Runs.run applyCall machine calls').currentState = .shutdown) ∧
        ∀ clock newState reason, (transitionTo clock newState reason).AtomicAt machine)
      (withConfig protocolVersion config startedAt) calls := by
  have hwellFormed : Runs.Always applyCall (WellFormed config)
      (withConfig protocolVersion config startedAt) calls :=
    Runs.always_iff.mpr fun _ _ => Runs.run_invariant (WellFormed config)
      (fun _ call h => wellFormed_applyCall h call) (wellFormed_withConfig _ _ _)
  refine hwellFormed.imp fun machine h => ⟨h, fun hshutdown calls' => ?_, fun _ _ _ => ?_⟩
  · exact Runs.run_invariant
      (fun machine : ProtocolStateMachine => machine.currentState = .shutdown)
      (fun _ call h => shutdown_applyCall h call) hshutdown
  · exact atomicAt_transitionTo _ _ _ machine

end ProtocolStateMachine

end QuDAG.Protocol
