import Mathlib.Algebra.Group.Nat.Defs
import QuDAG.Lib.Bytes
import QuDAG.Lib.JsonText
import QuDAG.Lib.Lines
import QuDAG.Lib.Promises
import QuDAG.Lib.Runs

/-!
# Requests to AgentBBS (`agentbbs/client.mjs`)

A client writes requests to a child process and reads lines from it. A line that answers a waiting
request settles it; everything else that the child writes stops the client. The child chooses all
bytes, and they come in any chunks.

## Main definitions

* `AgentBbsClient` — the fields of a client, with the promises of its requests.
* `AgentBbsClient.apply` — what an event does.
* `AgentBbsClient.Contract` — what is promised after some events.
* `AgentBbsClient.Good` — no line has an error that counts as false.

## Main results

* `AgentBbsClient.outcome_eq_of_bytewise_eq` — the chunks do not matter.
* `AgentBbsClient.contract_of_good` — good events keep the promise.

## Implementation notes

The public methods make requests and stop the client at times that depend on earlier results; here
they come at any time. The timer of a request is cleared when the request is settled. Identifiers
are exact, as there are fewer than 2^53 requests.
-/

namespace QuDAG.Integrations

/-- What a client is made of: a bound of what it buffers, `JSON.parse` of the text of a line, and
the text of a number. -/
structure AgentBbs where
  maxBytes : ℕ
  bounds : 1024 ≤ maxBytes ∧ maxBytes ≤ 16777216
  parse : List UInt8 → Option Json
  number : ℚ → String

/-- The bytes of a request. -/
def AgentBbs.bytesOf (m : AgentBbs) (id : ℕ) (method : String) (params : Json) : List UInt8 :=
  Bytes.ofString ((Json.object [("jsonrpc", .string "2.0"), ("id", .number id),
    ("method", .string method), ("params", params)]).stringify m.number) ++ [10]

/-- The promises of requests, under their identifiers. A result is nothing if it is `undefined`. -/
abbrev Requests : Type := Promises ℕ (Except String (Option Json))

/-- The fields of a client and of its handlers. What the child has written is not read again. -/
structure AgentBbsClient where
  started : Bool
  closed : Bool
  nextId : ℕ
  requests : Requests
  buffer : List UInt8
  stderrBytes : ℕ
  sent : List (List UInt8)
  output : List UInt8

/-- What happens to a client: requests, timeouts, a call of `close`, and events of the child. -/
inductive ClientEvent
  | request (method : String) (params : Json)
  | timeout (id : ℕ)
  | close
  | stdout (chunk : List UInt8)
  | stderr (length : ℕ)
  | processError
  | exited
  | inputError

namespace AgentBbsClient

/-! ## The code -/

/-- A new client. -/
def new : AgentBbsClient where
  started := false
  closed := false
  nextId := 0
  requests := .empty
  buffer := []
  stderrBytes := 0
  sent := []
  output := []

/-- Reject all requests and kill the child. -/
def stop (reason : String) (c : AgentBbsClient) : AgentBbsClient :=
  { c with closed := true, requests := c.requests.settleAll (.error reason), buffer := [] }

/-- The largest safe integer. -/
def maxSafeInteger : ℕ := 2 ^ 53 - 1

/-- The identifier of a waiting request that a response has, if it is a response to one. -/
def responseId (requests : Requests) (response : Json) : Option ℕ := do
  let version ← (response.get "jsonrpc").bind Json.asStr
  let number ← (response.get "id").bind Json.asNumber
  let id := number.num.toNat
  if version = "2.0" ∧ number = id ∧ id ≤ maxSafeInteger ∧ requests.Waits id ∧
      (response.get "result").isSome ≠ (response.get "error").isSome
  then some id else none

/-- A response rejects its request: its error counts as true, or so does a member of its result. -/
def rejects (response : Json) : Bool :=
  (response.get "error").any Json.truthy ||
    ((response.get "result").bind (Json.get "isError")).any Json.truthy

variable (m : AgentBbs)

/-- Settle a request, or return the reason to stop. -/
def takeLine (requests : Requests) (line : List UInt8) : Except String Requests :=
  match m.parse line with
  | none => .error "Invalid AgentBBS JSON"
  | some response =>
    match responseId requests response with
    | none => .error "Invalid AgentBBS response"
    | some id =>
      .ok (requests.settle id (if rejects response then .error "AgentBBS request rejected"
        else .ok (response.get "result")))

/-- Take lines up to one that is a reason to stop. -/
def takeLines : List (List UInt8) → Requests → Option String × Requests
  | [], requests => (none, requests)
  | line :: lines, requests =>
    match takeLine m requests line with
    | .error reason => (some reason, requests)
    | .ok requests => takeLines lines requests

/-- The lines that a chunk completes, and the unfinished line. -/
def linesOf (c : AgentBbsClient) (chunk : List UInt8) : List (List UInt8) × List UInt8 :=
  Lines.split 10 (c.buffer ++ chunk)

/-- A chunk of the output of the child. -/
def receive (chunk : List UInt8) (c : AgentBbsClient) : AgentBbsClient :=
  if m.maxBytes < c.buffer.length + chunk.length then stop "AgentBBS output limit" c
  else
    let (lines, rest) := linesOf c chunk
    let (reason, requests) := takeLines m lines c.requests
    let c := { c with requests := requests, buffer := rest }
    match reason with
    | some reason => stop reason c
    | none => c

/-- Make a request. The first one starts the child. -/
def request (method : String) (params : Json) (c : AgentBbsClient) : AgentBbsClient :=
  if c.closed then
    { c with requests := c.requests.refuse (.error "AgentBBS client closed") }
  else
    let c := { c with started := true, nextId := c.nextId + 1 }
    let bytes := m.bytesOf c.nextId method params
    if m.maxBytes < bytes.length ∨ 16 ≤ c.requests.waiting.length then
      { c with requests := c.requests.refuse (.error "AgentBBS request limit") }
    else { c with requests := c.requests.wait c.nextId, sent := c.sent ++ [bytes] }

/-- What an event does. There are no events of a child before it is started. -/
def apply (c : AgentBbsClient) : ClientEvent → AgentBbsClient
  | .request method params => request m method params c
  | .timeout id => if c.requests.Waits id then stop "AgentBBS request timeout" c else c
  | .close => stop "AgentBBS client closed" c
  | .stdout chunk =>
    if c.started then receive m chunk { c with output := c.output ++ chunk } else c
  | .stderr length =>
    if c.started then
      let c := { c with stderrBytes := c.stderrBytes + length }
      if m.maxBytes < c.stderrBytes then stop "AgentBBS stderr limit" c else c
    else c
  | .processError => if c.started then stop "AgentBBS process failed" c else c
  | .exited => if c.started then stop "AgentBBS process exited" c else c
  | .inputError => if c.started then stop "AgentBBS input failed" c else c

/-! ## What is promised -/

/-- The client after some events. -/
def after (events : List ClientEvent) : AgentBbsClient := Runs.run (apply m) new events

/-- A line is a response with the result to the request with the identifier. -/
def Answers (line : List UInt8) (id : ℕ) (result : Json) : Prop :=
  ∃ response, m.parse line = some response ∧
    response.get "jsonrpc" = some (.string "2.0") ∧ response.get "id" = some (.number id) ∧
    response.get "result" = some result ∧ response.get "error" = none

/-- A line is a response to a waiting request, with either a result or an error. -/
def IsResponse (requests : Requests) (line : List UInt8) : Prop :=
  ∃ (response : Json) (id : ℕ), m.parse line = some response ∧
    response.get "jsonrpc" = some (.string "2.0") ∧ response.get "id" = some (.number id) ∧
    id ≤ maxSafeInteger ∧ requests.Waits id ∧
    ((∃ result, response.get "result" = some result) ↔ response.get "error" = none)

/-- The requests that wait when the child violates the protocol: with too much output, with a line
that is no response to a waiting request, after which no more lines are taken, or with too much on
the error stream. -/
inductive Violates (c : AgentBbsClient) : ClientEvent → Requests → Prop
  | output (chunk : List UInt8) (hlimit : m.maxBytes < c.buffer.length + chunk.length) :
      Violates c (.stdout chunk) c.requests
  | line (chunk : List UInt8) (lines more : List (List UInt8)) (line : List UInt8)
      (requests : Requests) (hlimit : c.buffer.length + chunk.length ≤ m.maxBytes)
      (hlines : (linesOf c chunk).1 = lines ++ line :: more)
      (htaken : takeLines m lines c.requests = (none, requests))
      (hline : ¬ IsResponse m requests line) : Violates c (.stdout chunk) requests
  | stderr (length : ℕ) (hlimit : m.maxBytes < c.stderrBytes + length) :
      Violates c (.stderr length) c.requests

/-- The events with one byte in each chunk. -/
def bytewise (events : List ClientEvent) : List ClientEvent :=
  events.flatMap fun event =>
    match event with
    | .stdout chunk => chunk.map fun byte => .stdout [byte]
    | event => [event]

/-- What is buffered stays within the bound. -/
def Within (c : AgentBbsClient) : ClientEvent → Prop
  | .stdout chunk => c.buffer.length + chunk.length ≤ m.maxBytes
  | _ => True

/-- What others see of a client. -/
def outcome (c : AgentBbsClient) : Bool × ℕ × Requests × List (List UInt8) :=
  (c.closed, c.nextId, c.requests, c.sent)

/-- The requests that have resolved did so with the result of a line that answers them. -/
def Resolved (c : AgentBbsClient) : Prop :=
  ∀ n value, (n, .ok value) ∈ c.requests.results →
    ∃ id result, (n, id) ∈ c.requests.keys ∧ value = some result ∧
      ∃ line ∈ (Lines.split 10 c.output).1, Answers m line id result

/-- What is promised after some events. Every request waits or has one result, and at most 16 wait;
a waiting one is rejected by its timeout. A request resolves with the result of a line that answers
it. When the child violates the protocol, all requests that wait are rejected and nothing is sent
any more. Other chunks of the same bytes have the same outcome. -/
structure Contract (events : List ClientEvent) : Prop where
  settled : (after m events).requests.Sound
  pending : (after m events).requests.waiting.length ≤ 16
  expires : ∀ id n, (id, n) ∈ (after m events).requests.waiting →
    ∃ reason, (n, .error reason) ∈ (apply m (after m events) (.timeout id)).requests.results
  resolved : Resolved m (after m events)
  violation : ∀ past event future requests, events = past ++ event :: future →
    (after m past).started = true → Violates m (after m past) event requests →
      (after m events).requests.waiting = [] ∧
      (after m events).sent = (after m past).sent ∧
      ∀ w ∈ requests.waiting, ∃ reason, (w.2, .error reason) ∈ (after m events).requests.results
  chunks : ∀ events', bytewise events' = bytewise events →
    Runs.Steps (apply m) (Within m) new events → Runs.Steps (apply m) (Within m) new events' →
      outcome (after m events') = outcome (after m events)

/-- No line that an event completes has an error that counts as false. -/
def Good (c : AgentBbsClient) : ClientEvent → Prop
  | .stdout chunk => ∀ line ∈ (linesOf c chunk).1, ∀ response error,
      m.parse line = some response → response.get "error" = some error → error.truthy = true
  | _ => True

/-! ## Lines -/

section Lines

variable {m} {requests requests' : Requests} {line : List UInt8} {lines more : List (List UInt8)}
  {response : Json} {id : ℕ}

/-- What is known of a response. -/
lemma responseId_eq_some : responseId requests response = some id ↔
    response.get "jsonrpc" = some (.string "2.0") ∧ response.get "id" = some (.number id) ∧
      id ≤ maxSafeInteger ∧ requests.Waits id ∧
      ((∃ result, response.get "result" = some result) ↔ response.get "error" = none) := by
  have hiff : (response.get "result").isSome ≠ (response.get "error").isSome ↔
      ((∃ result, response.get "result" = some result) ↔ response.get "error" = none) := by
    cases response.get "result" <;> cases response.get "error" <;> simp
  simp only [responseId, Option.bind_eq_bind, Option.bind_eq_some_iff]
  constructor
  · rintro ⟨version, ⟨value, hversion, hvalue⟩, number, ⟨value', hnumber, hvalue'⟩, h⟩
    split at h
    · rename_i hchecks
      obtain ⟨rfl, hnat, hsafe, hwaits, hone⟩ := hchecks
      cases h
      rw [Json.asStr_eq_some] at hvalue
      rw [Json.asNumber_eq_some] at hvalue'
      exact ⟨hvalue ▸ hversion, hnat ▸ hvalue' ▸ hnumber, hsafe, hwaits, hiff.mp hone⟩
    · cases h
  · rintro ⟨hversion, hid, hsafe, hwaits, hone⟩
    refine ⟨"2.0", ⟨_, hversion, rfl⟩, id, ⟨_, hid, rfl⟩, ?_⟩
    have hnat : (id : ℚ).num.toNat = id := by simp
    rw [hnat, if_pos ⟨rfl, rfl, hsafe, hwaits, hiff.mpr hone⟩]

/-- A line is taken exactly if it is a response, and settles the request with its identifier. -/
lemma takeLine_cases (m : AgentBbs) (requests : Requests) (line : List UInt8) :
    (¬ IsResponse m requests line ∧ ∃ reason, takeLine m requests line = .error reason) ∨
    ∃ response id, m.parse line = some response ∧ responseId requests response = some id ∧
      takeLine m requests line = .ok (requests.settle id
        (if rejects response then .error "AgentBBS request rejected"
          else .ok (response.get "result"))) := by
  rw [takeLine]
  cases hparse : m.parse line with
  | none =>
    refine .inl ⟨?_, _, rfl⟩
    rintro ⟨response, id, hsome, -⟩
    rw [hparse] at hsome
    cases hsome
  | some response =>
    simp only
    cases hid : responseId requests response with
    | none =>
      refine .inl ⟨?_, _, rfl⟩
      rintro ⟨response', id, hsome, h⟩
      cases hparse.symm.trans hsome
      rw [responseId_eq_some.mpr h] at hid
      cases hid
    | some id => exact .inr ⟨response, id, rfl, hid, rfl⟩

/-- More lines are taken if nothing was a reason to stop. -/
lemma takeLines_append (more : List (List UInt8)) (h : (takeLines m lines requests).1 = none) :
    takeLines m (lines ++ more) requests = takeLines m more (takeLines m lines requests).2 := by
  induction lines generalizing requests with
  | nil => rfl
  | cons line lines ih =>
    rw [takeLines] at h ⊢
    rw [List.cons_append, takeLines]
    cases htake : takeLine m requests line with
    | error reason =>
      rw [htake] at h
      cases h
    | ok requests =>
      rw [htake] at h
      exact ih h

/-- No more lines are taken after a reason to stop. -/
lemma takeLines_append_of_stop {reason : String} (more : List (List UInt8))
    (h : (takeLines m lines requests).1 = some reason) :
    takeLines m (lines ++ more) requests = takeLines m lines requests := by
  induction lines generalizing requests with
  | nil => cases h
  | cons line lines ih =>
    rw [takeLines] at h ⊢
    rw [List.cons_append, takeLines]
    cases htake : takeLine m requests line with
    | error reason => rfl
    | ok requests =>
      rw [htake] at h
      exact ih h

/-- Without waiting requests no line is a response. -/
lemma takeLines_of_waiting_eq_nil (h : requests.waiting = []) (lines : List (List UInt8)) :
    (takeLines m lines requests).2 = requests := by
  cases lines with
  | nil => rfl
  | cons line lines =>
    rw [takeLines]
    rcases takeLine_cases m requests line with ⟨-, reason, htake⟩ | ⟨response, id, -, hid, -⟩
    · rw [htake]
    · have hwaits := (responseId_eq_some.mp hid).2.2.2.1
      rw [Promises.Waits, h] at hwaits
      exact absurd hwaits List.not_mem_nil

/-- What taking lines does to the requests. -/
structure Taken (m : AgentBbs) (lines : List (List UInt8)) (requests requests' : Requests) :
    Prop where
  sound : requests.Sound → requests'.Sound
  waiting : requests'.waiting.Sublist requests.waiting
  keys : requests'.keys = requests.keys
  resolved : requests.Sound →
    (∀ line ∈ lines, ∀ response error, m.parse line = some response →
      response.get "error" = some error → error.truthy = true) →
    ∀ n value, (n, .ok value) ∈ requests'.results → (n, .ok value) ∈ requests.results ∨
      ∃ id result, (n, id) ∈ requests.keys ∧ value = some result ∧
        ∃ line ∈ lines, Answers m line id result

/-- A response settles its request. -/
lemma taken_settle (hparse : m.parse line = some response)
    (hid : responseId requests response = some id) :
    Taken m [line] requests (requests.settle id
      (if rejects response then .error "AgentBBS request rejected"
        else .ok (response.get "result"))) where
  sound h := h.settle _ _
  waiting := List.filter_sublist
  keys := rfl
  resolved hsound hgood n value hmem := by
    obtain ⟨hversion, hid, -, -, hone⟩ := responseId_eq_some.mp hid
    rcases Promises.mem_results_settle.mp hmem with hold | ⟨hwaits, hvalue⟩
    · exact .inl hold
    · split at hvalue
      · cases hvalue
      · rename_i hrejects
        -- a line that is not rejected has no error, as all errors count as true
        have herror : response.get "error" = none := by
          rw [Option.eq_none_iff_forall_ne_some]
          intro error herror
          have htruthy := hgood line (List.mem_singleton_self _) response error hparse herror
          simp [rejects, herror, htruthy] at hrejects
        obtain ⟨result, hresult⟩ := hone.mpr herror
        refine .inr ⟨id, result, hsound.keyed _ hwaits, (Except.ok.inj hvalue).trans hresult, line,
          List.mem_singleton_self _, response, hparse, hversion, hid, hresult, herror⟩

/-- Lines settle their requests, up to one that is no response. -/
lemma taken_takeLines (m : AgentBbs) (lines : List (List UInt8)) (requests : Requests) :
    Taken m lines requests (takeLines m lines requests).2 := by
  induction lines generalizing requests with
  | nil => exact ⟨fun h => h, .refl _, rfl, fun _ _ n value hmem => .inl hmem⟩
  | cons line lines ih =>
    rw [takeLines]
    rcases takeLine_cases m requests line with ⟨-, reason, htake⟩ |
      ⟨response, id, hparse, hid, htake⟩
    · rw [htake]
      exact ⟨fun h => h, .refl _, rfl, fun _ _ n value hmem => .inl hmem⟩
    · rw [htake]
      have hfirst := taken_settle hparse hid
      have hrest := ih (requests.settle id (if rejects response then
        .error "AgentBBS request rejected" else .ok (response.get "result")))
      refine ⟨fun h => hrest.sound (hfirst.sound h), hrest.waiting.trans hfirst.waiting,
        hrest.keys.trans hfirst.keys, fun hsound hgood n value hmem => ?_⟩
      have hgood := List.forall_mem_cons.mp hgood
      rcases hrest.resolved (hfirst.sound hsound) hgood.2 n value hmem with
        hmem | ⟨id, result, hkey, hvalue, line', hline, hanswers⟩
      · rcases hfirst.resolved hsound (by simpa using hgood.1) n value hmem with
          hmem | ⟨id, result, hkey, hvalue, line', hline, hanswers⟩
        · exact .inl hmem
        · rw [List.mem_singleton] at hline
          exact .inr ⟨id, result, hkey, hvalue, line', hline ▸ List.mem_cons_self, hanswers⟩
      · exact .inr ⟨id, result, hfirst.keys ▸ hkey, hvalue, line', List.mem_cons_of_mem _ hline,
          hanswers⟩

end Lines

/-! ## A client that has stopped -/

section Stopped

variable {m} {c c' : AgentBbsClient} {event : ClientEvent}

/-- The client has stopped. -/
def Down (c : AgentBbsClient) : Prop := c.closed = true ∧ c.requests.waiting = []

lemma down_stop (reason : String) (c : AgentBbsClient) : (stop reason c).Down := ⟨rfl, rfl⟩

/-- Stopping again does not change what others see. -/
lemma outcome_stop (h : c.Down) (reason : String) : outcome (stop reason c) = outcome c := by
  rw [outcome, outcome, stop, Promises.settleAll_of_waiting_eq_nil h.2, h.1]

/-- A chunk is read, unless it is too long. -/
lemma receive_eq (chunk : List UInt8) (c : AgentBbsClient)
    (hlimit : c.buffer.length + chunk.length ≤ m.maxBytes) :
    receive m chunk c =
      if (takeLines m (linesOf c chunk).1 c.requests).1 = none then
        { c with
          requests := (takeLines m (linesOf c chunk).1 c.requests).2
          buffer := (linesOf c chunk).2 }
      else
        stop ((takeLines m (linesOf c chunk).1 c.requests).1.getD "")
          { c with requests := (takeLines m (linesOf c chunk).1 c.requests).2 } := by
  rw [receive, if_neg (not_lt.mpr hlimit)]
  cases hreason : (takeLines m (linesOf c chunk).1 c.requests).1 with
  | none => simp only [hreason, if_true]
  | some reason => simp [hreason, stop]

/-- What others see after a stopped client has read a chunk. -/
lemma down_receive (h : c.Down) (chunk : List UInt8) :
    (receive m chunk c).Down ∧ outcome (receive m chunk c) = outcome c := by
  by_cases hlimit : c.buffer.length + chunk.length ≤ m.maxBytes
  · rw [receive_eq chunk c hlimit, takeLines_of_waiting_eq_nil h.2]
    split
    · exact ⟨h, rfl⟩
    · exact ⟨down_stop _ _, outcome_stop h _⟩
  · rw [receive, if_pos (not_le.mp hlimit)]
    exact ⟨down_stop _ _, outcome_stop h _⟩

/-- A stopped client refuses requests. -/
lemma apply_request_of_down (h : c.Down) (method : String) (params : Json) :
    apply m c (.request method params) =
      { c with requests := c.requests.refuse (.error "AgentBBS client closed") } := by
  rw [apply, request, if_pos h.1]

/-- Stopping again on a condition does not change what others see. -/
lemma down_ite_stop (h : c.Down) (reason : String) (p : Prop) [Decidable p] :
    (if p then stop reason c else c).Down ∧
      outcome (if p then stop reason c else c) = outcome c := by
  split
  · exact ⟨down_stop _ _, outcome_stop h _⟩
  · exact ⟨h, rfl⟩

/-- Other events do not change what others see of a stopped client. -/
lemma outcome_apply_of_down (h : c.Down)
    (hevent : ∀ method params, event ≠ .request method params) :
    (apply m c event).Down ∧ outcome (apply m c event) = outcome c := by
  cases event with
  | request method params => exact absurd rfl (hevent method params)
  | timeout id => exact down_ite_stop h _ _
  | close => exact ⟨down_stop _ _, outcome_stop h _⟩
  | stdout chunk =>
    rw [apply]
    split
    · exact down_receive (c := { c with output := c.output ++ chunk }) h chunk
    · exact ⟨h, rfl⟩
  | stderr length =>
    rw [apply]
    split
    · exact down_ite_stop (c := { c with stderrBytes := c.stderrBytes + length }) h _ _
    · exact ⟨h, rfl⟩
  | processError => exact down_ite_stop h _ _
  | exited => exact down_ite_stop h _ _
  | inputError => exact down_ite_stop h _ _

/-- A stopped client sends nothing, and keeps the results of its requests. -/
lemma down_apply (h : c.Down) (event : ClientEvent) :
    (apply m c event).Down ∧ (apply m c event).sent = c.sent ∧
      c.requests.results ⊆ (apply m c event).requests.results := by
  by_cases hevent : ∀ method params, event ≠ .request method params
  · obtain ⟨hdown, houtcome⟩ := outcome_apply_of_down (m := m) h hevent
    simp only [outcome, Prod.mk.injEq] at houtcome
    obtain ⟨-, -, hrequests, hsent⟩ := houtcome
    exact ⟨hdown, hsent, hrequests ▸ List.Subset.refl _⟩
  · push Not at hevent
    obtain ⟨method, params, rfl⟩ := hevent
    rw [apply_request_of_down h]
    exact ⟨h, rfl, List.subset_append_left _ _⟩

/-- A stopped client sends nothing more in any run, and keeps the results of its requests. -/
lemma down_run (h : c.Down) (events : List ClientEvent) :
    (Runs.run (apply m) c events).Down ∧ (Runs.run (apply m) c events).sent = c.sent ∧
      c.requests.results ⊆ (Runs.run (apply m) c events).requests.results := by
  induction events generalizing c with
  | nil => exact ⟨h, rfl, List.Subset.refl _⟩
  | cons event events ih =>
    obtain ⟨hdown, hsent, hresults⟩ := down_apply (m := m) h event
    obtain ⟨hdown', hsent', hresults'⟩ := ih hdown
    exact ⟨hdown', hsent'.trans hsent, List.Subset.trans hresults hresults'⟩

/-- Stopped clients that look the same keep looking the same. -/
lemma outcome_apply_congr (h : c.Down) (h' : c'.Down) (hsame : outcome c = outcome c')
    (event : ClientEvent) : outcome (apply m c event) = outcome (apply m c' event) := by
  by_cases hevent : ∀ method params, event ≠ .request method params
  · rw [(outcome_apply_of_down h hevent).2, (outcome_apply_of_down h' hevent).2, hsame]
  · push Not at hevent
    obtain ⟨method, params, rfl⟩ := hevent
    rw [apply_request_of_down h, apply_request_of_down h']
    simp only [outcome, Prod.mk.injEq] at hsame ⊢
    obtain ⟨hclosed, hnextId, hrequests, hsent⟩ := hsame
    exact ⟨hclosed, hnextId, by rw [hrequests], hsent⟩

end Stopped

/-! ## Chunks -/

section Chunks

variable {m} {c c' c'' : AgentBbsClient} {events events' : List ClientEvent}

/-- Two clients are the same, or both have stopped and look the same. -/
def Same (c c' : AgentBbsClient) : Prop := c = c' ∨ c.Down ∧ c'.Down ∧ outcome c = outcome c'

lemma Same.outcome_eq (h : Same c c') : outcome c = outcome c' := by
  rcases h with rfl | ⟨-, -, h⟩
  · rfl
  · exact h

lemma Same.trans (h : Same c c') (h' : Same c' c'') : Same c c'' := by
  rcases h with rfl | ⟨hdown, hdown', hsame⟩
  · exact h'
  · rcases h' with rfl | ⟨-, hdown'', hsame'⟩
    · exact .inr ⟨hdown, hdown', hsame⟩
    · exact .inr ⟨hdown, hdown'', hsame.trans hsame'⟩

/-- Events keep clients the same. -/
lemma same_apply (h : Same c c') (event : ClientEvent) :
    Same (apply m c event) (apply m c' event) := by
  rcases h with rfl | ⟨hdown, hdown', hsame⟩
  · exact .inl rfl
  · exact .inr ⟨(down_apply hdown event).1, (down_apply hdown' event).1,
      outcome_apply_congr hdown hdown' hsame event⟩

lemma same_run (h : Same c c') (events : List ClientEvent) :
    Same (Runs.run (apply m) c events) (Runs.run (apply m) c' events) := by
  induction events generalizing c c' with
  | nil => exact h
  | cons event events ih => exact ih (same_apply h event)

/-- A chunk of the output of a child that is started. -/
lemma apply_stdout (hstarted : c.started = true) {chunk : List UInt8}
    (hlimit : c.buffer.length + chunk.length ≤ m.maxBytes) :
    apply m c (.stdout chunk) =
      if (takeLines m (linesOf c chunk).1 c.requests).1 = none then
        { c with
          requests := (takeLines m (linesOf c chunk).1 c.requests).2
          buffer := (linesOf c chunk).2
          output := c.output ++ chunk }
      else
        stop ((takeLines m (linesOf c chunk).1 c.requests).1.getD "")
          { c with
            requests := (takeLines m (linesOf c chunk).1 c.requests).2
            output := c.output ++ chunk } := by
  rw [apply, if_pos hstarted, receive_eq (c := { c with output := c.output ++ chunk }) chunk hlimit]
  rfl

/-- A chunk of the output of a child that is not started. -/
lemma apply_stdout_of_not (hstarted : c.started = false) (chunk : List UInt8) :
    apply m c (.stdout chunk) = c := by
  rw [apply, hstarted, if_neg Bool.false_ne_true]

/-- The child stays started, and the unfinished line is not longer than what came. -/
lemma started_apply_stdout (hstarted : c.started = true) {chunk : List UInt8}
    (hlimit : c.buffer.length + chunk.length ≤ m.maxBytes) :
    (apply m c (.stdout chunk)).started = true ∧ 10 ∉ (apply m c (.stdout chunk)).buffer ∧
      (apply m c (.stdout chunk)).buffer.length ≤ c.buffer.length + chunk.length := by
  rw [apply_stdout hstarted hlimit]
  split
  · refine ⟨hstarted, Lines.notMem_snd_split _, ?_⟩
    exact (Lines.length_snd_split_le _).trans (List.length_append ▸ le_refl _)
  · exact ⟨hstarted, List.not_mem_nil, Nat.zero_le _⟩

/-- **Two chunks are read like one.** -/
lemma same_apply_append (hstarted : c.started = true) (chunk more : List UInt8)
    (hlimit : c.buffer.length + chunk.length + more.length ≤ m.maxBytes) :
    Same (apply m c (.stdout (chunk ++ more)))
      (apply m (apply m c (.stdout chunk)) (.stdout more)) := by
  have hfirst : c.buffer.length + chunk.length ≤ m.maxBytes := by omega
  have hwhole : c.buffer.length + (chunk ++ more).length ≤ m.maxBytes := by
    rw [List.length_append]
    omega
  obtain ⟨hstarted', -, hlength⟩ := started_apply_stdout (m := m) hstarted hfirst
  have hsecond : (apply m c (.stdout chunk)).buffer.length + more.length ≤ m.maxBytes := by omega
  have hlines : linesOf c (chunk ++ more) =
      ((linesOf c chunk).1 ++ (Lines.split 10 ((linesOf c chunk).2 ++ more)).1,
        (Lines.split 10 ((linesOf c chunk).2 ++ more)).2) := by
    rw [linesOf, ← List.append_assoc, Lines.split_append]
    rfl
  rw [apply_stdout hstarted hwhole, hlines]
  cases hreason : (takeLines m (linesOf c chunk).1 c.requests).1 with
  | none =>
    left
    rw [apply_stdout hstarted' hsecond]
    rw [apply_stdout hstarted hfirst, if_pos hreason]
    simp only [takeLines_append _ hreason, List.append_assoc]
    rfl
  | some reason =>
    right
    have hdown : (apply m c (.stdout chunk)).Down ∧ outcome (apply m c (.stdout chunk)) =
        outcome (stop reason { c with
          requests := (takeLines m (linesOf c chunk).1 c.requests).2 }) := by
      rw [apply_stdout hstarted hfirst, if_neg (by rw [hreason]; exact Option.some_ne_none _),
        hreason]
      exact ⟨down_stop _ _, rfl⟩
    have hevent (method : String) (params : Json) :
        ClientEvent.stdout more ≠ .request method params := ClientEvent.noConfusion
    obtain ⟨hdown', hsame⟩ := outcome_apply_of_down (m := m) hdown.1 hevent
    simp only [takeLines_append_of_stop _ hreason, hreason]
    refine ⟨down_stop _ _, hdown', ?_⟩
    rw [hsame, hdown.2]
    rfl

/-- An empty chunk changes nothing. -/
lemma apply_stdout_nil (hline : 10 ∉ c.buffer)
    (hlimit : c.buffer.length + ([] : List UInt8).length ≤ m.maxBytes) :
    apply m c (.stdout []) = c := by
  cases hstarted : c.started with
  | false => exact apply_stdout_of_not hstarted []
  | true =>
    have hlines : linesOf c [] = ([], c.buffer) := by
      rw [linesOf, List.append_nil, Lines.split_of_notMem hline]
    rw [apply_stdout hstarted hlimit, hlines, List.append_nil]
    rfl

/-- A chunk is read like its bytes. -/
lemma same_run_bytes (chunk : List UInt8) (hline : 10 ∉ c.buffer)
    (hlimit : c.buffer.length + chunk.length ≤ m.maxBytes) :
    Same (apply m c (.stdout chunk))
      (Runs.run (apply m) c (chunk.map fun byte => .stdout [byte])) := by
  induction chunk generalizing c with
  | nil => exact .inl (apply_stdout_nil hline hlimit)
  | cons byte chunk ih =>
    rw [List.length_cons] at hlimit
    cases hstarted : c.started with
    | false =>
      have hrun := ih hline (by omega)
      rw [apply_stdout_of_not hstarted] at hrun ⊢
      rw [List.map_cons, Runs.run_cons, apply_stdout_of_not hstarted]
      exact hrun
    | true =>
      have hbyte : c.buffer.length + [byte].length ≤ m.maxBytes := by
        rw [List.length_singleton]
        omega
      obtain ⟨-, hline', hlength⟩ := started_apply_stdout (m := m) hstarted hbyte
      rw [List.length_singleton] at hlength
      have happend := same_apply_append (m := m) hstarted [byte] chunk
        (by rw [List.length_singleton]; omega)
      exact happend.trans (ih hline' (by omega))

/-- No chunk leaves a complete line unread. -/
lemma notMem_buffer_apply (hline : 10 ∉ c.buffer) (event : ClientEvent) :
    10 ∉ (apply m c event).buffer := by
  have hstop (reason : String) (p : Prop) [Decidable p] :
      10 ∉ (if p then stop reason c else c).buffer := by
    split
    · exact List.not_mem_nil
    · exact hline
  cases event with
  | request method params =>
    rw [apply, request]
    split
    · exact hline
    · dsimp only
      split <;> exact hline
  | timeout id => exact hstop _ _
  | close => exact List.not_mem_nil
  | stdout chunk =>
    cases hstarted : c.started with
    | false =>
      rw [apply_stdout_of_not hstarted]
      exact hline
    | true =>
      by_cases hlimit : c.buffer.length + chunk.length ≤ m.maxBytes
      · exact (started_apply_stdout hstarted hlimit).2.1
      · rw [apply, if_pos hstarted, receive, if_pos (not_le.mp hlimit)]
        exact List.not_mem_nil
  | stderr length =>
    rw [apply]
    split
    · dsimp only
      split
      · exact List.not_mem_nil
      · exact hline
    · exact hline
  | processError => exact hstop _ _
  | exited => exact hstop _ _
  | inputError => exact hstop _ _

lemma bytewise_cons (event : ClientEvent) (events : List ClientEvent) :
    bytewise (event :: events) = bytewise [event] ++ bytewise events := by
  rw [bytewise, bytewise, bytewise, List.flatMap_cons, List.flatMap_singleton]

/-- One event is like its bytes. -/
lemma same_run_bytewise_singleton (hline : 10 ∉ c.buffer) {event : ClientEvent}
    (hwithin : Within m c event) :
    Same (apply m c event) (Runs.run (apply m) c (bytewise [event])) := by
  cases event with
  | stdout chunk =>
    rw [bytewise, List.flatMap_singleton]
    exact same_run_bytes chunk hline hwithin
  | _ => exact .inl rfl

/-- **Events are like their bytes**, if what is buffered stays within the bound. -/
lemma same_run_bytewise (hline : 10 ∉ c.buffer)
    (hwithin : Runs.Steps (apply m) (Within m) c events) :
    Same (Runs.run (apply m) c events) (Runs.run (apply m) c (bytewise events)) := by
  induction events generalizing c with
  | nil => exact .inl rfl
  | cons event events ih =>
    rw [bytewise_cons, Runs.run_append]
    exact (ih (notMem_buffer_apply hline event) hwithin.2).trans
      (same_run (same_run_bytewise_singleton hline hwithin.1) _)

/-- **The chunks do not matter**: the same bytes have the same outcome. -/
lemma outcome_eq_of_bytewise_eq (heq : bytewise events' = bytewise events)
    (hwithin : Runs.Steps (apply m) (Within m) new events)
    (hwithin' : Runs.Steps (apply m) (Within m) new events') :
    outcome (after m events') = outcome (after m events) := by
  have hline : (10 : UInt8) ∉ new.buffer := List.not_mem_nil
  rw [after, after, (same_run_bytewise hline hwithin).outcome_eq,
    (same_run_bytewise hline hwithin').outcome_eq, heq]

end Chunks

/-! ## The invariant -/

section Invariant

variable {m} {c : AgentBbsClient} {event : ClientEvent}

/-- What every good event keeps. -/
structure Inv (m : AgentBbs) (c : AgentBbsClient) : Prop where
  settled : c.requests.Sound
  pending : c.requests.waiting.length ≤ 16
  le_nextId : ∀ w ∈ c.requests.waiting, w.1 ≤ c.nextId
  resolved : Resolved m c
  down : c.closed = true → c.requests.waiting = []
  buffer : c.closed = false → c.buffer = (Lines.split 10 c.output).2

/-- Results stay right when the child writes more. -/
lemma Resolved.output (h : Resolved m c) (chunk : List UInt8) :
    Resolved m { c with output := c.output ++ chunk } := by
  intro n value hmem
  obtain ⟨id, result, hkey, hvalue, line, hline, hanswers⟩ := h n value hmem
  exact ⟨id, result, hkey, hvalue, line, Lines.mem_fst_split_append hline chunk, hanswers⟩

/-- Stopping keeps the invariant. -/
lemma inv_stop (hsettled : c.requests.Sound) (hresolved : Resolved m c) (reason : String) :
    Inv m (stop reason c) where
  settled := hsettled.settleAll _
  pending := Nat.zero_le _
  le_nextId _ hw := absurd hw List.not_mem_nil
  resolved n value hmem := by
    rcases Promises.mem_results_settleAll.mp hmem with hold | ⟨-, hvalue⟩
    · exact hresolved n value hold
    · cases hvalue
  down _ := rfl
  buffer hopen := Bool.noConfusion hopen

/-- Refusing a request keeps the invariant. -/
lemma Inv.refuse (h : Inv m c) (reason : String) :
    Inv m { c with requests := c.requests.refuse (.error reason) } where
  settled := h.settled.refuse _
  pending := h.pending
  le_nextId := h.le_nextId
  resolved n value hmem := by
    rcases Promises.mem_results_refuse.mp hmem with hold | ⟨-, hvalue⟩
    · exact h.resolved n value hold
    · cases hvalue
  down := h.down
  buffer := h.buffer

/-- A request keeps the invariant. -/
lemma Inv.request (h : Inv m c) (method : String) (params : Json) :
    Inv m (request m method params c) := by
  have hnext : Inv m { c with started := true, nextId := c.nextId + 1 } :=
    ⟨h.settled, h.pending, fun w hw => Nat.le_succ_of_le (h.le_nextId w hw), h.resolved, h.down,
      h.buffer⟩
  rw [AgentBbsClient.request]
  split
  · exact h.refuse _
  · rename_i hopen
    dsimp only
    split
    · exact hnext.refuse _
    · rename_i hfits
      have hfree : ¬ c.requests.Waits (c.nextId + 1) := by
        intro hwaits
        obtain ⟨w, hw, heq⟩ := List.mem_map.mp hwaits
        have hle := h.le_nextId w hw
        omega
      refine ⟨h.settled.wait hfree, ?_, fun w hw => ?_, fun n value hmem => ?_, fun hclosed =>
        absurd hclosed hopen, h.buffer⟩
      · rw [Promises.wait, List.length_append, List.length_singleton]
        omega
      · rcases List.mem_append.mp hw with hw | hw
        · exact Nat.le_succ_of_le (h.le_nextId w hw)
        · rw [List.mem_singleton.mp hw]
      · obtain ⟨id, result, hkey, hvalue, hanswers⟩ := h.resolved n value hmem
        exact ⟨id, result, List.mem_append_left _ hkey, hvalue, hanswers⟩

/-- A good chunk keeps the invariant. -/
lemma Inv.stdout (h : Inv m c) {chunk : List UInt8} (hgood : Good m c (.stdout chunk)) :
    Inv m (apply m c (.stdout chunk)) := by
  cases hstarted : c.started with
  | false =>
    rw [apply_stdout_of_not hstarted]
    exact h
  | true =>
    by_cases hlimit : c.buffer.length + chunk.length ≤ m.maxBytes
    · have htaken := taken_takeLines m (linesOf c chunk).1 c.requests
      have hresolved : Resolved m { c with
          requests := (takeLines m (linesOf c chunk).1 c.requests).2
          output := c.output ++ chunk } := by
        cases hclosed : c.closed with
        | true =>
          rw [takeLines_of_waiting_eq_nil (h.down hclosed)]
          exact h.resolved.output chunk
        | false =>
          intro n value hmem
          rcases htaken.resolved h.settled hgood n value hmem with
            hold | ⟨id, result, hkey, hvalue, line, hline, hanswers⟩
          · rw [htaken.keys]
            exact h.resolved.output chunk n value hold
          · refine ⟨id, result, htaken.keys ▸ hkey, hvalue, line, ?_, hanswers⟩
            rw [linesOf, h.buffer hclosed] at hline
            rw [Lines.split_append]
            exact List.mem_append_right _ hline
      rw [apply_stdout hstarted hlimit]
      split
      · refine ⟨htaken.sound h.settled, htaken.waiting.length_le.trans h.pending,
          fun w hw => h.le_nextId w (htaken.waiting.subset hw), hresolved, fun hclosed => ?_,
          fun hopen => ?_⟩
        · have hwaiting := htaken.waiting
          rw [h.down hclosed] at hwaiting
          exact List.sublist_nil.mp hwaiting
        · rw [Lines.split_append, ← h.buffer hopen]
          rfl
      · exact inv_stop (htaken.sound h.settled) hresolved _
    · rw [apply, if_pos hstarted, receive, if_pos (not_le.mp hlimit)]
      exact inv_stop (c := { c with output := c.output ++ chunk }) h.settled
        (h.resolved.output chunk) _

/-- Good events keep the invariant. -/
lemma Inv.apply (h : Inv m c) (hgood : Good m c event) : Inv m (apply m c event) := by
  have hstop (reason : String) (p : Prop) [Decidable p] :
      Inv m (if p then stop reason c else c) := by
    split
    · exact inv_stop h.settled h.resolved _
    · exact h
  cases event with
  | request method params => exact h.request method params
  | timeout id => exact hstop _ _
  | close => exact inv_stop h.settled h.resolved _
  | stdout chunk => exact h.stdout hgood
  | stderr length =>
    rw [AgentBbsClient.apply]
    split
    · dsimp only
      split
      · exact inv_stop (c := { c with stderrBytes := c.stderrBytes + length }) h.settled
          h.resolved _
      · exact ⟨h.settled, h.pending, h.le_nextId, h.resolved, h.down, h.buffer⟩
    · exact h
  | processError => exact hstop _ _
  | exited => exact hstop _ _
  | inputError => exact hstop _ _

/-- A new client. -/
lemma inv_new : Inv m new where
  settled := Promises.sound_empty
  pending := Nat.zero_le _
  le_nextId _ hw := absurd hw List.not_mem_nil
  resolved _ _ hmem := absurd hmem List.not_mem_nil
  down hclosed := Bool.noConfusion hclosed
  buffer _ := rfl

/-- A violation stops the client: what waits is rejected, and nothing is sent. -/
lemma violates_apply {requests : Requests} (hstarted : c.started = true)
    (h : Violates m c event requests) :
    (apply m c event).Down ∧ (apply m c event).sent = c.sent ∧
      ∀ w ∈ requests.waiting,
        ∃ reason, (w.2, .error reason) ∈ (apply m c event).requests.results := by
  have hrejected {requests : Requests} (reason : String) : ∀ w ∈ requests.waiting,
      ∃ reason', (w.2, .error reason') ∈ (requests.settleAll (.error reason)).results :=
    fun w hw => ⟨reason, Promises.mem_results_settleAll.mpr
      (.inr ⟨List.mem_map_of_mem hw, rfl⟩)⟩
  cases h with
  | output chunk hlimit =>
    rw [apply, if_pos hstarted, receive, if_pos hlimit]
    exact ⟨down_stop _ _, rfl, hrejected _⟩
  | line chunk lines more line _ hlimit hlines htaken hline =>
    obtain ⟨-, reason, htake⟩ := (takeLine_cases m requests line).resolve_right (by
      rintro ⟨response, id, hparse, hid, -⟩
      exact hline ⟨response, id, hparse, responseId_eq_some.mp hid⟩)
    have hlast : takeLines m (linesOf c chunk).1 c.requests = (some reason, requests) := by
      rw [hlines, takeLines_append _ (by rw [htaken]), htaken, takeLines, htake]
    rw [apply_stdout hstarted hlimit, hlast, if_neg (Option.some_ne_none _)]
    exact ⟨down_stop _ _, rfl, hrejected _⟩
  | stderr length hlimit =>
    rw [apply, if_pos hstarted]
    dsimp only
    rw [if_pos hlimit]
    exact ⟨down_stop _ _, rfl, hrejected _⟩

end Invariant

/-- **The contract of a client** is kept by all good events: if no line of the child has an error
that counts as false. -/
theorem contract_of_good (m : AgentBbs) (events : List ClientEvent)
    (hgood : Runs.Steps (apply m) (Good m) new events) : Contract m events := by
  have hinv : Inv m (after m events) :=
    Runs.run_rule (Inv m) (fun _ _ h hgood => h.apply hgood) hgood inv_new
  refine ⟨hinv.settled, hinv.pending, fun id n hwaits => ?_, hinv.resolved, ?_,
    fun events' heq hwithin hwithin' => outcome_eq_of_bytewise_eq heq hwithin hwithin'⟩
  · have hpending : (after m events).requests.Waits id := List.mem_map_of_mem hwaits
    rw [apply, if_pos hpending]
    exact ⟨_, Promises.mem_results_settleAll.mpr (.inr ⟨List.mem_map_of_mem hwaits, rfl⟩)⟩
  · rintro past event future requests rfl hstarted hviolates
    obtain ⟨hdown, hsent, hrejected⟩ := violates_apply hstarted hviolates
    obtain ⟨hdown', hsent', hresults⟩ := down_run (m := m) hdown future
    rw [after, Runs.run_append, Runs.run_cons]
    refine ⟨hdown'.2, hsent'.trans hsent, fun w hw => ?_⟩
    obtain ⟨reason, hmem⟩ := hrejected w hw
    exact ⟨reason, hresults hmem⟩

/-! ## A child that answers one request -/

/-- The text of a response to the first request, with one more member. -/
def sampleLine (member : String) : List UInt8 :=
  Bytes.ofString ("\x7b\"jsonrpc\":\"2.0\",\"id\":1," ++ member ++ "\x7d")

/-- The response, with one more member. -/
def sampleResponse (member : String × Json) : Json :=
  .object [("jsonrpc", .string "2.0"), ("id", .number 1), member]

/-- A client that can read two responses. -/
def sampleBbs : AgentBbs where
  maxBytes := 1024
  bounds := by decide
  parse line :=
    if line = sampleLine "\"result\":true" then some (sampleResponse ("result", .bool true))
    else if line = sampleLine "\"error\":null" then some (sampleResponse ("error", .null))
    else none
  number value := toString value.num

/-- A request and the response to it. -/
def sampleEvents (member : String) : List ClientEvent :=
  [.request "tools/list" (.object []), .stdout (sampleLine member ++ [10])]

/-- A response with a result. -/
theorem contract_of_good_result : Contract sampleBbs (sampleEvents "\"result\":true") := by
  refine contract_of_good sampleBbs _ ⟨trivial, fun line hline response error hparse herror => ?_,
    trivial⟩
  have hlines : (linesOf (apply sampleBbs new (.request "tools/list" (.object [])))
      (sampleLine "\"result\":true" ++ [10])).1 = [sampleLine "\"result\":true"] := by
    decide +kernel
  rw [hlines, List.mem_singleton] at hline
  subst hline
  have hresponse : sampleBbs.parse (sampleLine "\"result\":true") =
    some (sampleResponse ("result", .bool true)) := by simp [sampleBbs]
  cases hresponse.symm.trans hparse
  cases herror

/-- An error that is `null` resolves the request with `undefined`. -/
theorem not_contract_null : ¬ Contract sampleBbs (sampleEvents "\"error\":null") := by
  intro h
  have hresults : (after sampleBbs (sampleEvents "\"error\":null")).requests.results =
    [(0, .ok none)] := rfl
  obtain ⟨-, result, -, hvalue, -⟩ := h.resolved 0 none (hresults ▸ List.mem_singleton_self _)
  cases hvalue

end AgentBbsClient

end QuDAG.Integrations
