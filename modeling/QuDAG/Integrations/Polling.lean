import QuDAG.Integrations.MemberConnection

/-!
# Polling (`readRecent` in `ruflo-nostr/client.mjs`)

A member reads again and again from a relay that keeps the rules: it answers every request with the
stored events that match it and an end marker, some time later. All reads have the same name, so a
frame of a read that has timed out is taken for one of the next read. An event that was read before
is rejected as a replay, and that closes the connection.

## Main definitions

* `Polling` — a connection, the frames under way and the events that match.
* `Polling.apply` — a read, the arrival of a frame, or a timeout.
* `Polling.Polls` — reads return the matching events that are new, and the connection stays ready.
* `Polling.Good` — the steps that cannot go wrong.

## Main results

* `Polling.polls_of_good` — good steps keep what is promised.

## Implementation notes

All reads use the boundary `0`. The frames under way carry the number of the read that they answer,
which the connection does not see.
-/

namespace QuDAG.Integrations

open RustStd MemberConnection

/-- A frame, with the number of the read that it answers. -/
abbrev Answer : Type := ℕ × List Json

/-- A connection that polls: the frames under way, the events that match each read, and for every
frame that came while a read was waiting the number of that read. -/
structure Polling where
  connection : MemberConnection
  pipe : List Answer
  matching : List (List Json)
  served : List (ℕ × ℕ)

namespace Polling

open EventBoundary Publisher

/-- What happens: a call of `readRecent` while a relay stores some events, the arrival of the next
frame, or the timeout of a read. -/
inductive PollEvent
  | read (stored : List Json) (now : ℚ)
  | deliver (length : ℕ) (now clock : ℚ)
  | timeout

/-! ## The relay -/

/-- The frame of an event of a read. -/
def eventFrame (event : Json) : List Json := [.string "EVENT", .string "qudag-read", event]

/-- The frame at the end of the stored events. -/
def endFrame : List Json := [.string "EOSE", .string "qudag-read"]

/-- A tag has the name and the value. -/
def hasTag (name value : String) (tags : List Json) : Bool :=
  (EventBoundary.tagged tags name).any fun tag => tag[1]?.bind Json.asStr = some value

/-- An event matches a request: its kind, its author, its group and its age. -/
def isMatch (authors : List String) (since : ℚ) (event : Json) : Bool :=
  (event.get "kind").bind Json.asNumber = some 1 &&
    (((event.get "pubkey").bind Json.asStr).any fun pubkey => authors.contains pubkey) &&
    (((event.get "tags").bind Json.asArray).any (hasTag "t" group)) &&
    ((event.get "created_at").bind Json.asNumber).any fun createdAt => since ≤ createdAt

variable (m : Member)

/-- The first 100 stored events that match a request, in the order in which the relay sends them. -/
def answer (stored : List Json) (now : ℚ) : List Json :=
  let options := (m.boundaries 0).options
  (stored.filter (isMatch options.allowedPubkeys (now - options.maxAgeSeconds))).take 100

/-- The frames of some events, with the end marker, as the answer to a read. -/
def framesOf (n : ℕ) (events : List Json) : List Answer :=
  (events.map fun event => (n, eventFrame event)) ++ [(n, endFrame)]

/-- What happens. -/
def apply (s : Polling) : PollEvent → Polling
  | .read stored now =>
    let connection := s.connection.apply m (.readRecent (some 0) now)
    -- a read that is refused sends no request
    let requested := s.connection.sent.length < connection.sent.length
    { s with
      connection := connection
      pipe := s.pipe ++
        if requested then framesOf s.connection.reads.calls (answer m stored now) else []
      matching := s.matching ++ [answer m stored now] }
  | .deliver length now clock =>
    match s.pipe with
    | [] => s
    | frame :: pipe =>
      { s with
        connection := s.connection.apply m (.message length (some (.array frame.2)) now clock)
        pipe := pipe
        served := s.served ++ s.connection.reads.waiting.map fun w => (frame.1, w.2) }
  | .timeout => { s with connection := s.connection.apply m .readTimeout }

/-! ## What is promised -/

/-- A result of a read. -/
abbrev ReadResult : Type := ℕ × Except Thrown (List EventBoundary.Accepted)

/-- The identifiers that a result returns. -/
def ReadResult.ids (result : ReadResult) : List String :=
  match result.2 with
  | .ok events => events.map EventBoundary.Accepted.eventId
  | .error _ => []

/-- The identifiers that reads before a read have returned. -/
def returnedBefore (results : List ReadResult) (n : ℕ) : List String :=
  (results.filter fun result => result.1 < n).flatMap ReadResult.ids

/-- The connection is ready. A read that has a result has timed out, or it has returned exactly the
matching events that no earlier read has returned; all others wait for frames that are under way. No
frame has come to a read that it does not answer. -/
structure Polls (s : Polling) : Prop where
  ready : s.connection.ready = true
  settled : s.connection.reads.Sound
  returned : ∀ n events, (n, .ok events) ∈ s.connection.reads.results →
    ∃ matching, s.matching[n]? = some matching ∧
      events.map EventBoundary.Accepted.event = matching.filter fun event =>
        idOf event ∉ returnedBefore s.connection.reads.results n
  failed : ∀ n thrown, (n, .error thrown) ∈ s.connection.reads.results →
    thrown = .error "Read timeout"
  waiting : s.pipe = [] → s.connection.reads.waiting = []
  served : ∀ pair ∈ s.served, pair.1 = pair.2

/-- An event passes the checks of the boundary when it comes, the boundary neither remembers it nor
is full, and no read has returned it. -/
structure New (c : MemberConnection) (clock : ℚ) (event : Json) : Prop where
  reads : m.publisher.Reads m.js event
  valid : ∃ accepted, EventBoundary.validate m.js (m.boundaries 0) clock
    (some (m.publisher.stringify event)) none = .ok accepted
  unseen : idOf event ∉ EventBoundary.purge clock (c.seen 0)
  room :
    ((EventBoundary.purge clock (c.seen 0)).keys.card : ℚ) < (m.boundaries 0).options.maxEntries
  fresh : idOf event ∉ returnedBefore c.reads.results c.reads.calls

/-- A step that cannot go wrong: a read begins when no frames of earlier reads are under way, and an
event that comes to a waiting read is new. -/
def Good (s : Polling) : PollEvent → Prop
  | .read _ _ => s.pipe = []
  | .deliver length _ clock => length ≤ 65536 ∧ ∀ n event,
      s.pipe.head? = some (n, eventFrame event) → s.connection.reading.isSome →
        New m s.connection clock event
  | .timeout => True

/-- A connection that has been authenticated and has not read yet. -/
structure Fresh (c : MemberConnection) : Prop where
  ready : c.ready = true
  socket : c.socket = some .opened
  reading : c.reading = none
  reads : c.reads = .empty

/-- A connection that begins to poll. -/
def start (c : MemberConnection) : Polling := ⟨c, [], [], []⟩

/-! ## The identifiers that were returned -/

section Returned

variable {results : List ReadResult} {n k : ℕ}

/-- A result of a later read does not count. -/
lemma returnedBefore_concat {r : Except Thrown (List EventBoundary.Accepted)} (h : n ≤ k) :
    returnedBefore (results ++ [(k, r)]) n = returnedBefore results n := by
  rw [returnedBefore, List.filter_append, List.filter_singleton]
  simp [Nat.not_lt.mpr h, returnedBefore]

/-- More reads have returned more. -/
lemma returnedBefore_subset (h : n ≤ k) : returnedBefore results n ⊆ returnedBefore results k := by
  intro id hid
  obtain ⟨result, hresult, hmem⟩ := List.mem_flatMap.mp hid
  obtain ⟨hresult, hlt⟩ := List.mem_filter.mp hresult
  exact List.mem_flatMap.mpr ⟨result, List.mem_filter.mpr
    ⟨hresult, decide_eq_true ((of_decide_eq_true hlt).trans_le h)⟩, hmem⟩

end Returned

/-! ## What the connection does -/

section Connection

variable {m} {c : MemberConnection} {length : ℕ} {now clock : ℚ} {event : Json}

/-- The frames of a read are handled as such. -/
lemma handle_eventFrame : handle m (eventFrame event) now clock c =
    handleRead m (eventFrame event) "qudag-read" clock c := by
  simp [handle, eventFrame, isText, Json.asStr]

lemma handle_endFrame :
    handle m endFrame now clock c = handleRead m endFrame "qudag-read" clock c := by
  simp [handle, endFrame, isText, Json.asStr]

lemma endFrame_ne_eventFrame : endFrame ≠ eventFrame event := by
  simp [endFrame, eventFrame]

lemma isText_eventFrame : isText (eventFrame event) 0 "EVENT" = true := by
  simp [eventFrame, isText, Json.asStr]

lemma getElem?_eventFrame :
    (eventFrame event)[2]?.map m.publisher.stringify = some (m.publisher.stringify event) := rfl

/-- A frame comes to an open socket. -/
lemma apply_message {frame : List Json} (hsocket : c.socket = some .opened)
    (hlength : length ≤ 65536) :
    c.apply m (.message length (some (.array frame)) now clock) =
      if (handle m frame now clock c).1 then
        fail "Relay protocol or authentication failure" (handle m frame now clock c).2
      else (handle m frame now clock c).2 := by
  simp only [MemberConnection.apply, hsocket, Option.isSome_some, if_true, receive,
    Nat.not_lt.mpr hlength, if_false, Option.bind_some, Json.asArray]

/-- A frame is ignored if no read waits. -/
lemma apply_message_idle {frame : List Json} (hsocket : c.socket = some .opened)
    (hlength : length ≤ 65536) (hreading : c.reading = none)
    (hframe : (∃ event, frame = eventFrame event) ∨ frame = endFrame) :
    c.apply m (.message length (some (.array frame)) now clock) = c := by
  have hhandle : handle m frame now clock c = (false, c) := by
    rcases hframe with ⟨event, rfl⟩ | rfl
    · rw [handle_eventFrame, handleRead, hreading]
    · rw [handle_endFrame, handleRead, hreading]
  rw [apply_message hsocket hlength, hhandle]
  rfl

/-- The end marker completes a read. -/
lemma apply_endFrame {reading : Reading} (hsocket : c.socket = some .opened)
    (hlength : length ≤ 65536) (hreading : c.reading = some reading) :
    c.apply m (.message length (some (.array endFrame)) now clock) =
      { c with
        reading := none
        sent := c.sent ++ [.close]
        reads := c.reads.settle () (.ok reading.events) } := by
  rw [apply_message hsocket hlength, handle_endFrame, handleRead, hreading]
  simp [endFrame, isText, Json.asStr]

/-- A new event is added to a read, and the boundary remembers it. -/
lemma apply_eventFrame (now : ℚ) {events : List EventBoundary.Accepted}
    (hsocket : c.socket = some .opened) (hlength : length ≤ 65536)
    (hreading : c.reading = some ⟨0, events⟩) (hroom : events.length < 100)
    (hnew : New m c clock event) :
    ∃ accepted, accepted.event = event ∧ accepted.eventId = idOf event ∧
      event.get "created_at" = some (.number accepted.createdAt) ∧
      c.apply m (.message length (some (.array (eventFrame event))) now clock) =
        { c with
          seen := Function.update c.seen 0
            ((EventBoundary.purge clock (c.seen 0)).insert (idOf event)
              (accepted.createdAt + (m.boundaries 0).options.maxAgeSeconds))
          reading := some ⟨0, events ++ [accepted]⟩ } := by
  obtain ⟨accepted, hvalid⟩ := hnew.valid
  obtain ⟨hparse, -, hid, hcreatedAt, -⟩ := EventBoundary.of_validate_eq_ok hvalid
  have hevent : accepted.event = event :=
    Option.some.inj (hparse.symm.trans (show m.js.parse _ = _ from hnew.reads))
  have hid : accepted.eventId = idOf event := by
    rw [← hevent, idOf, hid]
    rfl
  have haccept : EventBoundary.accept m.js (m.boundaries 0) clock
      (some (m.publisher.stringify event)) none (c.seen 0) =
      (.ok accepted, (EventBoundary.purge clock (c.seen 0)).insert (idOf event)
        (accepted.createdAt + (m.boundaries 0).options.maxAgeSeconds)) := by
    rw [EventBoundary.accept, hvalid]
    simp only [EventBoundary.remember]
    rw [hid, if_neg hnew.unseen, if_neg (not_le.mpr hnew.room)]
  refine ⟨accepted, hevent, hid, hevent ▸ hcreatedAt, ?_⟩
  rw [apply_message hsocket hlength, handle_eventFrame, handleRead, hreading]
  simp only [isText_eventFrame, beq_self_eq_true, Bool.and_true, if_true, Nat.not_le.mpr hroom,
    if_false, getElem?_eventFrame, haccept]
  rfl

/-- **A replay closes the connection**: so does an event that the boundary remembers. -/
lemma ready_of_replay {events : List EventBoundary.Accepted} {accepted : EventBoundary.Accepted}
    (hsocket : c.socket = some .opened) (hlength : length ≤ 65536)
    (hreading : c.reading = some ⟨0, events⟩)
    (hvalid : EventBoundary.validate m.js (m.boundaries 0) clock
      (some (m.publisher.stringify event)) none = .ok accepted)
    (hseen : accepted.eventId ∈ EventBoundary.purge clock (c.seen 0)) :
    (c.apply m (.message length (some (.array (eventFrame event))) now clock)).ready = false := by
  have haccept : EventBoundary.accept m.js (m.boundaries 0) clock
      (some (m.publisher.stringify event)) none (c.seen 0) =
      (.error (.error "Replay rejected"), EventBoundary.purge clock (c.seen 0)) := by
    rw [EventBoundary.accept, hvalid]
    simp only [EventBoundary.remember]
    rw [if_pos hseen]
  rw [apply_message hsocket hlength, handle_eventFrame, handleRead, hreading]
  simp only [isText_eventFrame, beq_self_eq_true, Bool.and_true, if_true, getElem?_eventFrame,
    haccept]
  split <;> rfl

/-- A read begins. -/
lemma apply_readRecent (hready : c.ready = true) (hreading : c.reading = none)
    (hprofile : (m.boundaries 0).options.profile = m.profile)
    (hallowed : (m.boundaries 0).options.allowedPubkeys ≠ []) :
    c.apply m (.readRecent (some 0) now) =
      { c with
        reading := some ⟨0, []⟩
        reads := c.reads.wait ()
        sent := c.sent ++ [.request (m.boundaries 0).options.allowedPubkeys
          (now - (m.boundaries 0).options.maxAgeSeconds)] } := by
  simp [MemberConnection.apply, readRecent, hready, hreading, hprofile, hallowed]

end Connection

/-! ## The invariant -/

variable {m} {s : Polling}

/-- Where the reads are. -/
inductive Phase (s : Polling) : Prop
  /-- No read waits; frames of a read that has timed out may be under way. -/
  | idle (reading : s.connection.reading = none) (waiting : s.connection.reads.waiting = [])
    (frames : ∀ frame ∈ s.pipe, (∃ event, frame.2 = eventFrame event) ∨ frame.2 = endFrame)
  /-- A read waits. Some of its events have come, and the others are under way. -/
  | busy (n : ℕ) (events : List EventBoundary.Accepted) (rest : List Json)
    (reading : s.connection.reading = some ⟨0, events⟩)
    (waiting : s.connection.reads.waiting = [((), n)])
    (last : n + 1 = s.connection.reads.calls)
    (pipe : s.pipe = framesOf n rest)
    (matching : s.matching[n]? = some (events.map EventBoundary.Accepted.event ++ rest))
    (room : events.length + rest.length ≤ 100)
    (fresh : ∀ accepted ∈ events,
      idOf accepted.event ∉ returnedBefore s.connection.reads.results n)

/-- What every good step keeps. -/
structure Inv (s : Polling) : Prop where
  ready : s.connection.ready = true
  socket : s.connection.socket = some .opened
  settled : s.connection.reads.Sound
  calls : s.connection.reads.calls = s.matching.length
  returned : ∀ n events, (n, .ok events) ∈ s.connection.reads.results →
    ∃ matching, s.matching[n]? = some matching ∧
      events.map EventBoundary.Accepted.event = matching.filter fun event =>
        idOf event ∉ returnedBefore s.connection.reads.results n
  failed : ∀ n thrown, (n, .error thrown) ∈ s.connection.reads.results →
    thrown = .error "Read timeout"
  served : ∀ pair ∈ s.served, pair.1 = pair.2
  phase : Phase s

/-- The invariant gives what is promised. -/
lemma Inv.polls (h : Inv s) : Polls s where
  ready := h.ready
  settled := h.settled
  returned := h.returned
  failed := h.failed
  waiting hpipe := by
    cases h.phase with
    | idle reading waiting frames => exact waiting
    | busy n events rest reading waiting last pipe matching room fresh =>
      rw [pipe, framesOf] at hpipe
      exact absurd (List.append_eq_nil_iff.mp hpipe).2 (List.cons_ne_nil _ _)
  served := h.served

/-- A connection that has not read yet. -/
lemma inv_start {c : MemberConnection} (h : Fresh c) : Inv (start c) where
  ready := h.ready
  socket := h.socket
  settled := h.reads ▸ Promises.sound_empty
  calls := congrArg Promises.calls h.reads
  returned n events hmem := by
    rw [start, h.reads] at hmem
    exact absurd hmem List.not_mem_nil
  failed n thrown hmem := by
    rw [start, h.reads] at hmem
    exact absurd hmem List.not_mem_nil
  served pair hmem := absurd hmem List.not_mem_nil
  phase := .idle h.reading (congrArg Promises.waiting h.reads) fun frame hmem =>
    absurd hmem List.not_mem_nil

/-- The results after the only waiting read gets one. -/
lemma results_settle {reads : Promises Unit (Except Thrown (List EventBoundary.Accepted))} {n : ℕ}
    (hwaiting : reads.waiting = [((), n)])
    (r : Except Thrown (List EventBoundary.Accepted)) :
    (reads.settle () r).results = reads.results ++ [(n, r)] ∧
      (reads.settle () r).waiting = [] := by
  rw [Promises.settle, hwaiting]
  exact ⟨rfl, rfl⟩

/-- The results after the only waiting read times out, or returns the events that match it. -/
lemma Inv.returned_settle (h : Inv s) {n : ℕ}
    (hwaiting : s.connection.reads.waiting = [((), n)])
    (hlast : n + 1 = s.connection.reads.calls) {r : Except Thrown (List EventBoundary.Accepted)}
    (hr : ∀ events, r = .ok events → ∃ matching, s.matching[n]? = some matching ∧
      events.map EventBoundary.Accepted.event = matching.filter fun event =>
        idOf event ∉ returnedBefore s.connection.reads.results n) :
    ∀ k events, (k, .ok events) ∈ (s.connection.reads.settle () r).results →
      ∃ matching, s.matching[k]? = some matching ∧
        events.map EventBoundary.Accepted.event = matching.filter fun event =>
          idOf event ∉ returnedBefore (s.connection.reads.settle () r).results k := by
  intro k events hmem
  rw [(results_settle hwaiting r).1] at hmem ⊢
  have hle : k ≤ n := by
    rcases List.mem_append.mp hmem with hmem | hmem
    · have hlt := h.settled.lt_calls hmem
      omega
    · obtain ⟨rfl, -⟩ := Prod.mk.inj (List.mem_singleton.mp hmem)
      exact le_refl _
  rw [returnedBefore_concat hle]
  rcases List.mem_append.mp hmem with hmem | hmem
  · exact h.returned k events hmem
  · obtain ⟨rfl, hok⟩ := Prod.mk.inj (List.mem_singleton.mp hmem)
    exact hr events hok.symm

/-- The only waiting read times out. -/
lemma Inv.failed_settle (h : Inv s) {n : ℕ} (hwaiting : s.connection.reads.waiting = [((), n)])
    {r : Except Thrown (List EventBoundary.Accepted)}
    (hr : ∀ thrown, r = .error thrown → thrown = .error "Read timeout") :
    ∀ k thrown, (k, .error thrown) ∈ (s.connection.reads.settle () r).results →
      thrown = .error "Read timeout" := by
  intro k thrown hmem
  rw [(results_settle hwaiting r).1] at hmem
  rcases List.mem_append.mp hmem with hmem | hmem
  · exact h.failed k thrown hmem
  · exact hr thrown (Prod.mk.inj (List.mem_singleton.mp hmem)).2.symm

/-- A read begins. -/
lemma Inv.read (h : Inv s) (hprofile : (m.boundaries 0).options.profile = m.profile)
    (hallowed : (m.boundaries 0).options.allowedPubkeys ≠ []) (stored : List Json) (now : ℚ)
    (hpipe : s.pipe = []) : Inv (apply m s (.read stored now)) := by
  cases h.phase with
  | busy n events rest reading waiting last pipe matching room fresh =>
    rw [hpipe, framesOf] at pipe
    exact absurd (List.append_eq_nil_iff.mp pipe.symm).2 (List.cons_ne_nil _ _)
  | idle reading waiting frames =>
    have hlen {l : List Sent} {a : Sent} : l.length < (l ++ [a]).length := by simp
    rw [apply, apply_readRecent h.ready reading hprofile hallowed, hpipe]
    simp only [hlen, if_true, List.nil_append]
    refine ⟨h.ready, h.socket, h.settled.wait ?_, ?_, fun n events hmem => ?_, h.failed, h.served,
      .busy s.connection.reads.calls [] (answer m stored now) rfl ?_ rfl rfl ?_ ?_ ?_⟩
    · rw [Promises.Waits, waiting]
      exact List.not_mem_nil
    · rw [Promises.wait, List.length_append, h.calls]
      rfl
    · obtain ⟨matching, hmatching, hevents⟩ := h.returned n events hmem
      have hlt := (List.getElem?_eq_some_iff.mp hmatching).1
      exact ⟨matching, (List.getElem?_append_left hlt).trans hmatching, hevents⟩
    · rw [Promises.wait, waiting]
      rfl
    · rw [h.calls]
      simp
    · rw [answer]
      simp
    · exact fun accepted hmem => absurd hmem List.not_mem_nil

/-- A frame comes. -/
lemma Inv.deliver (h : Inv s) {length : ℕ} {now clock : ℚ}
    (hgood : Good m s (.deliver length now clock)) :
    Inv (apply m s (.deliver length now clock)) := by
  obtain ⟨hlength, hnew⟩ := hgood
  cases h.phase with
  | idle reading waiting frames =>
    cases hpipe : s.pipe with
    | nil =>
      rw [apply, hpipe]
      exact h
    | cons frame pipe =>
      have hframe := frames frame (hpipe ▸ List.mem_cons_self)
      rw [apply, hpipe]
      simp only [apply_message_idle h.socket hlength reading hframe, waiting, List.map_nil,
        List.append_nil]
      exact ⟨h.ready, h.socket, h.settled, h.calls, h.returned, h.failed, h.served,
        .idle reading waiting fun frame hmem => frames frame (hpipe ▸ List.mem_cons_of_mem _ hmem)⟩
  | busy n events rest reading waiting last pipe matching room fresh =>
    have hserved : ∀ pair ∈ s.served ++ s.connection.reads.waiting.map fun w => (n, w.2),
        pair.1 = pair.2 := by
      intro pair hmem
      rcases List.mem_append.mp hmem with hmem | hmem
      · exact h.served pair hmem
      · rw [waiting] at hmem
        rw [List.mem_singleton.mp hmem]
    cases rest with
    | nil =>
      have hpipe : s.pipe = [(n, endFrame)] := pipe
      have hfilter : (events.map EventBoundary.Accepted.event).filter (fun event =>
          idOf event ∉ returnedBefore s.connection.reads.results n) =
          events.map EventBoundary.Accepted.event := by
        refine List.filter_eq_self.mpr fun event hmem => ?_
        obtain ⟨accepted, haccepted, rfl⟩ := List.mem_map.mp hmem
        exact decide_eq_true (fresh accepted haccepted)
      rw [apply, hpipe]
      simp only [apply_endFrame h.socket hlength reading]
      refine ⟨h.ready, h.socket, h.settled.settle _ _, h.calls,
        h.returned_settle waiting last fun _ hr => ⟨_, matching, ?_⟩,
        h.failed_settle waiting fun _ hr => (nomatch hr), hserved,
        .idle rfl (results_settle waiting _).2 fun frame hmem => absurd hmem List.not_mem_nil⟩
      cases hr
      rw [List.append_nil, hfilter]
    | cons event rest =>
      have hpipe : s.pipe = (n, eventFrame event) :: framesOf n rest := pipe
      have hroom : events.length < 100 := by
        rw [List.length_cons] at room
        omega
      have hnew := hnew n event (by rw [hpipe]; rfl) (by rw [reading]; rfl)
      obtain ⟨accepted, hevent, hid, -, happly⟩ :=
        apply_eventFrame now h.socket hlength reading hroom hnew
      rw [apply, hpipe]
      simp only [happly]
      refine ⟨h.ready, h.socket, h.settled, h.calls, h.returned, h.failed, hserved,
        .busy n (events ++ [accepted]) rest rfl waiting last rfl ?_ ?_ ?_⟩
      · rw [List.map_append, List.map_singleton, hevent, List.append_assoc]
        exact matching
      · rw [List.length_append, List.length_singleton]
        rw [List.length_cons] at room
        omega
      · intro accepted' hmem
        rcases List.mem_append.mp hmem with hmem | hmem
        · exact fresh accepted' hmem
        · rw [List.mem_singleton.mp hmem, hevent]
          exact fun hmem => hnew.fresh (returnedBefore_subset (by omega) hmem)

/-- A read times out. -/
lemma Inv.timeout (h : Inv s) : Inv (apply m s .timeout) := by
  cases h.phase with
  | idle reading waiting frames =>
    rw [apply, MemberConnection.apply, reading]
    exact h
  | busy n events rest reading waiting last pipe matching room fresh =>
    rw [apply, MemberConnection.apply, reading]
    refine ⟨h.ready, h.socket, h.settled.settle _ _, h.calls,
      h.returned_settle waiting last fun _ hr => (by cases hr),
      h.failed_settle waiting fun _ hr => (Except.error.inj hr).symm, h.served,
      .idle rfl (results_settle waiting _).2 fun frame hmem => ?_⟩
    rw [show s.pipe = framesOf n rest from pipe] at hmem
    rcases List.mem_append.mp hmem with hmem | hmem
    · obtain ⟨event, -, rfl⟩ := List.mem_map.mp hmem
      exact .inl ⟨event, rfl⟩
    · exact .inr (congrArg Prod.snd (List.mem_singleton.mp hmem))

/-- **Polling with good steps**: if no read begins while frames of earlier reads are under way, and
only new events come to a waiting read, every read that does not time out returns the matching
events that were not returned before, no frame comes to a read that it does not answer, and the
connection stays ready. -/
theorem polls_of_good (m : Member) (hprofile : (m.boundaries 0).options.profile = m.profile)
    (hallowed : (m.boundaries 0).options.allowedPubkeys ≠ []) {c : MemberConnection}
    (hfresh : Fresh c) (events : List PollEvent)
    (hgood : Runs.Steps (apply m) (Good m) (start c) events) :
    Runs.Always (apply m) Polls (start c) events := by
  refine Runs.Always.imp (fun _ => Inv.polls)
    (Runs.always_rule Inv (fun s event h hgood => ?_) hgood (inv_start hfresh))
  cases event with
  | read stored now => exact h.read hprofile hallowed stored now hgood
  | deliver length now clock => exact h.deliver hgood
  | timeout => exact h.timeout

/-! ## A relay with one event -/

/-- A member with the boundary. -/
def sampleMember : Member where
  publisher := samplePublisher
  js := sampleReader 1
  key := sampleSecret
  profile := "current"
  boundaries _ := sampleBoundary

/-- A connection that a relay has authenticated. -/
def sampleConnection : MemberConnection :=
  after sampleMember
    [.connect, .opened,
      .message 100 (some (.array [.string "AUTH", .string "challenge"])) 1000 1000,
      .message 100 (some (.array [.string "OK", .string (String.ofList (List.replicate 64 'e')),
        .bool true])) 1000 1000]

lemma fresh_sampleConnection : Fresh sampleConnection where
  ready := rfl
  socket := rfl
  reading := rfl
  reads := rfl

/-- The event matches. -/
lemma answer_sample : answer sampleMember [sampleFinalized 1] 1000 = [sampleFinalized 1] := by
  have hget : (sampleFinalized 1).get "tags" =
    some (.array (tagItems "Status" "wss://relay.ruv.io")) := rfl
  have htags : hasTag "t" group (tagItems "Status" "wss://relay.ruv.io") = true := by
    rw [hasTag, (tagged_tagItems _ _).1]
    decide
  have hmatch : isMatch [sampleKey] (1000 - 300) (sampleFinalized 1) = true := by
    simp only [isMatch, hget, Option.bind_some, Json.asArray, Option.any_some, htags]
    simp [sampleFinalized, eventOf, signed, Json.get, List.lookup_cons, Json.asStr, Json.asNumber]
  exact congrArg (List.take 100) (List.filter_eq_self.mpr fun event hmem =>
    (List.mem_singleton.mp hmem) ▸ hmatch)

/-- The event passes the checks of the boundary. -/
lemma validate_sample : ∃ id, validate (sampleReader 1) sampleBoundary 1000
    (some (samplePublisher.stringify (sampleFinalized 1))) none =
      .ok ⟨sampleFinalized 1, id, sampleKey, 1000,
        ⟨"Status", received "1970-01-01T00:16:40.000Z" (samplePayload 1)⟩, false⟩ := by
  have hparts := published_sample (n := 1) (by decide)
  refine validate_eventOf hparts (List.mem_singleton_self _) (by decide +kernel) rfl
    (reads_sample 1).1 (reads_sample 1).2 (verifyEvent_sample 1) (by decide +kernel) ?_
  decide +kernel

/-- The event is new. -/
lemma new_sample {c : MemberConnection} (hseen : c.seen 0 = ∅)
    (hresults : c.reads.results = []) : New sampleMember c 1000 (sampleFinalized 1) where
  reads := (reads_sample 1).2
  valid := validate_sample.imp' _ fun _ h => h
  unseen := by
    rw [hseen, purge_empty]
    exact Finmap.notMem_empty
  room := by
    rw [hseen, purge_empty, Finmap.keys_empty, Finset.card_empty]
    decide +kernel
  fresh := by
    rw [hresults]
    exact List.not_mem_nil

/-- A read of the event. -/
def sampleRead : List PollEvent :=
  [.read [sampleFinalized 1] 1000, .deliver 100 1000 1000, .deliver 100 1000 1000]

/-- The state after a read begins. -/
lemma apply_read_sample {s : Polling} (hready : s.connection.ready = true)
    (hreading : s.connection.reading = none) :
    apply sampleMember s (.read [sampleFinalized 1] 1000) =
      { s with
        connection := { s.connection with
          reading := some ⟨0, []⟩
          reads := s.connection.reads.wait ()
          sent := s.connection.sent ++ [.request [sampleKey] (1000 - 300)] }
        pipe := s.pipe ++ framesOf s.connection.reads.calls [sampleFinalized 1]
        matching := s.matching ++ [[sampleFinalized 1]] } := by
  have happly : MemberConnection.apply sampleMember s.connection (.readRecent (some 0) 1000) = _ :=
    apply_readRecent hready hreading rfl (List.cons_ne_nil _ _)
  have hlen {l : List Sent} {a : Sent} : l.length < (l ++ [a]).length := by simp
  simp only [apply, happly, answer_sample, hlen, if_true]
  rfl

/-- The connection after the read begins. -/
def sampleReading : MemberConnection :=
  { sampleConnection with
    reading := some ⟨0, []⟩
    reads := sampleConnection.reads.wait ()
    sent := sampleConnection.sent ++ [.request [sampleKey] (1000 - 300)] }

lemma apply_start_sample : apply sampleMember (start sampleConnection)
    (.read [sampleFinalized 1] 1000) =
      ⟨sampleReading, framesOf 0 [sampleFinalized 1], [[sampleFinalized 1]], []⟩ :=
  apply_read_sample rfl rfl

/-- The theorem at one read of the event. -/
theorem polls_of_good_sample :
    Runs.Always (apply sampleMember) Polls (start sampleConnection) sampleRead := by
  refine polls_of_good sampleMember rfl (List.cons_ne_nil _ _) fresh_sampleConnection sampleRead
    ⟨rfl, ⟨by decide, fun n event hhead _ => ?_⟩, ⟨by decide, fun n event hhead _ => ?_⟩, trivial⟩
  · rw [apply_start_sample] at hhead ⊢
    cases hhead
    exact new_sample rfl rfl
  · rw [apply_start_sample] at hhead
    exact absurd (Prod.mk.inj (Option.some.inj hhead)).2 endFrame_ne_eventFrame

/-- After the read, the boundary remembers the event. -/
lemma run_sampleRead :
    let s := Runs.run (apply sampleMember) (start sampleConnection) sampleRead
    s.connection.ready = true ∧ s.connection.socket = some .opened ∧ s.connection.reading = none ∧
      s.pipe = [] ∧ (s.connection.seen 0).lookup (idOf (sampleFinalized 1)) = some 1300 := by
  have hlength : 100 ≤ 65536 := by decide
  obtain ⟨accepted, -, -, hcreatedAt, haccepted⟩ := apply_eventFrame 1000
    (show sampleReading.socket = some .opened from rfl) hlength rfl (by decide)
    (new_sample (c := sampleReading) rfl rfl)
  have hevent : apply sampleMember
      ⟨sampleReading, framesOf 0 [sampleFinalized 1], [[sampleFinalized 1]], []⟩
      (.deliver 100 1000 1000) = _ :=
    congrArg (fun c => Polling.mk c [(0, endFrame)] [[sampleFinalized 1]] [(0, 0)]) haccepted
  have hexpiry : accepted.createdAt + (sampleMember.boundaries 0).options.maxAgeSeconds = 1300 := by
    have htime : (1000 : ℚ) = accepted.createdAt := Json.number.inj (Option.some.inj hcreatedAt)
    rw [← htime]
    decide +kernel
  simp only [sampleRead, Runs.run_cons, Runs.run_nil, apply_start_sample, hevent]
  refine ⟨rfl, rfl, rfl, rfl, ?_⟩
  refine Eq.trans (b := ((purge 1000 (sampleReading.seen 0)).insert (idOf (sampleFinalized 1))
    (accepted.createdAt + (sampleMember.boundaries 0).options.maxAgeSeconds)).lookup
      (idOf (sampleFinalized 1))) rfl ?_
  rw [Finmap.lookup_insert, hexpiry]

/-- A read of an event that the boundary remembers closes the connection. -/
lemma ready_second_sample {s : Polling} (hready : s.connection.ready = true)
    (hsocket : s.connection.socket = some .opened) (hreading : s.connection.reading = none)
    (hpipe : s.pipe = [])
    (hseen : (s.connection.seen 0).lookup (idOf (sampleFinalized 1)) = some 1300) :
    (Runs.run (apply sampleMember) s
      [.read [sampleFinalized 1] 1000, .deliver 100 1000 1000]).connection.ready = false := by
  obtain ⟨id, hvalid⟩ := validate_sample
  obtain ⟨-, -, hid, -, -⟩ := of_validate_eq_ok hvalid
  have hlive : (1000 : ℚ) ≤ 1300 := by decide +kernel
  have hlookup := lookup_purge.mpr ⟨hseen, hlive⟩
  rw [Runs.run_cons, apply_read_sample hready hreading, Runs.run_cons, Runs.run_nil, hpipe]
  refine ready_of_replay (m := sampleMember) hsocket (by decide) rfl hvalid ?_
  have hid : idOf (sampleFinalized 1) = id := by
    rw [idOf, hid]
    rfl
  exact hid ▸ HashMap.mem_of_lookup hlookup

/-- A relay with one event: a second read closes the connection, and the end marker of a read that
has timed out completes the next one without the event. -/
theorem not_polls_sample :
    ¬ Polls (Runs.run (apply sampleMember) (start sampleConnection)
      (sampleRead ++ [.read [sampleFinalized 1] 1000, .deliver 100 1000 1000])) ∧
    ¬ Polls (Runs.run (apply sampleMember) (start sampleConnection)
      [.read [] 1000, .timeout, .read [sampleFinalized 1] 1000, .deliver 100 1000 1000]) := by
  constructor
  · intro h
    obtain ⟨hready, hsocket, hreading, hpipe, hseen⟩ := run_sampleRead
    have hdown := ready_second_sample hready hsocket hreading hpipe hseen
    rw [Runs.run_append] at h
    rw [h.ready] at hdown
    cases hdown
  · intro h
    have hmatching : ∀ stored, (Runs.run (apply sampleMember) (start sampleConnection)
        [.read [] 1000, .timeout, .read stored 1000, .deliver 100 1000 1000]).matching[1]? =
        some (answer sampleMember stored 1000) := fun _ => rfl
    obtain ⟨matching, hsome, hevents⟩ := h.returned 1 [] (List.mem_cons_of_mem _
      (List.mem_singleton_self _))
    rw [hmatching, answer_sample] at hsome
    cases hsome
    have hnone : returnedBefore [(0, .error (.error "Read timeout")), (1, .ok [])] 1 = [] := rfl
    have hevents : [] = [sampleFinalized 1].filter fun event => idOf event ∉
      returnedBefore [(0, .error (.error "Read timeout")), (1, .ok [])] 1 := hevents
    simp [hnone] at hevents

end Polling

end QuDAG.Integrations
