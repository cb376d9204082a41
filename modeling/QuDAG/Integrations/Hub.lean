import Mathlib.Data.String.Basic
import QuDAG.Integrations.EventBoundary

/-!
# The collaboration hub (`ruv-stack/hub.mjs`, `ruvector-index/index.mjs`)

The hub writes receipts into a table, and keeps an index of their identifiers for the search.
Actions run one after the other, in the order of the calls. A receipt is written in a transaction
and added to the index afterwards. If that fails the index is built again from the table.

## Main definitions

* `RuvectorIndex`, with `add`.
* `CollaborationHub`, with `rebuild`, `commit`, `ingestSignedEvent`, `syncGateway`, `readBoard`,
  `search`, `get` and `draft`.
* `CollaborationHub.Operation` — calls, and the steps of the queue.

## Main results

* `CollaborationHub.commit_cases` — what writing a receipt does.

## Implementation notes

Transactions succeed or change nothing. An insertion into the native index succeeds, or throws
without an effect: which of them is given with the step, in `Native`. Only the identifiers of the
index matter here: that a text has an embedding is a parameter, and the hits of a search are given.
A restart ends the process and drops what is queued.
-/

namespace QuDAG.Integrations

open RustStd

/-- What the hub uses of the environment. -/
structure HubRuntime extends Runtime where
  /-- `JSON.stringify` of values that JSON has. -/
  encode : Json → String
  /-- The digits of the SHA-256 hash. -/
  digest : String → String
  /-- Whether `textEmbedding` of a text returns a vector. -/
  embeds : String → Bool

/-- What the native index does: which insertions succeed, that of a new receipt and those of a
rebuild, and the hits of a search. -/
structure Native where
  add : Bool
  rebuild : String → Bool
  hits : List String

/-- The characters that `trim` removes. -/
def isBlank (c : Char) : Bool :=
  c.toNat ∈ [0x9, 0xA, 0xB, 0xC, 0xD, 0x20, 0xA0, 0x1680, 0x2028, 0x2029, 0x202F, 0x205F, 0x3000,
    0xFEFF] || (0x2000 ≤ c.toNat && c.toNat ≤ 0x200A)

/-! ## The index -/

/-- The index, by its identifiers. -/
structure RuvectorIndex where
  maxElements : ℕ
  ids : Finset String

/-- Add an identifier. -/
def RuvectorIndex.add (native : Bool) (id : String) (index : RuvectorIndex) :
    Except Thrown RuvectorIndex :=
  if id = "" ∨ (Bytes.ofString id).length > 1024 then
    .error (.error "id must be a nonempty string of at most 1024 bytes")
  else if id ∈ index.ids then .error (.error "duplicate id: entries are immutable")
  else if index.ids.card ≥ index.maxElements then .error (.error "index capacity exceeded")
  else if native then .ok { index with ids := insert id index.ids }
  else .error .runtime

/-! ## The hub -/

/-- A row of the table of receipts. -/
structure Row where
  digest : String
  body : String

/-- The configuration of a hub. -/
structure HubConfig where
  boundary : EventBoundary
  /-- The boundary has the default options, except for the keys. -/
  default_eq : boundary.options =
    ⟨boundary.options.allowedPubkeys, 4096, 300, 30, "current"⟩
  maxEntries : ℕ
  maxEntries_pos : 1 ≤ maxEntries
  maxEntries_le : maxEntries ≤ 100000
  gateway : Bool
  agentbbs : Bool

/-- An action that waits for those before it. -/
inductive Action
  | commit (id provenance : String) (data : Json)
  | search (query : String) (k : ℕ)

/-- What an action returns. -/
inductive Outcome
  | stored (id provenance : String) (data : Json) (inserted : Bool) (digest : String)
  | hits (receipts : List (String × Option Json))

/-- The state of a hub. -/
structure CollaborationHub where
  /-- The table of receipts. -/
  ledger : HashMap String Row
  index : RuvectorIndex
  /-- The promise that the next action waits for is rejected. -/
  rejected : Bool
  /-- The actions that have not run. -/
  queue : List Action

namespace CollaborationHub

variable (js : HubRuntime) (config : HubConfig)

/-- A receipt. -/
def receipt (id provenance : String) (data : Json) : Json :=
  .object
    [("id", .string id), ("provenance", .string provenance), ("trustedForExecution", .bool false),
      ("data", data)]

/-- Add the receipts to the index in their order. What was added before an error stays. -/
def addAll (native : String → Bool) : List (String × Row) → RuvectorIndex →
    Option Thrown × RuvectorIndex
  | [], index => (none, index)
  | (id, row) :: rows, index =>
    if js.embeds row.body then
      match index.add (native id) id with
      | .ok index => addAll native rows index
      | .error thrown => (some thrown, index)
    else (some .runtime, index)

/-- Build the index again from the table. -/
def rebuild (native : String → Bool) (hub : CollaborationHub) :
    Option Thrown × CollaborationHub :=
  let built := addAll js native hub.ledger.sorted ⟨config.maxEntries, ∅⟩
  (built.1, { hub with index := built.2 })

/-- Write a receipt, and return whether it is new. -/
def write (id hash body : String) (ledger : HashMap String Row) :
    Except Thrown (Bool × HashMap String Row) :=
  match ledger.lookup id with
  | some old =>
    if old.digest ≠ hash then .error (.error "Receipt identity conflict") else .ok (false, ledger)
  | none =>
    if ledger.keys.card ≥ config.maxEntries then .error (.error "Ledger capacity reached")
    else .ok (true, ledger.insert id ⟨hash, body⟩)

/-- Write a receipt, and add it to the index if it is new. -/
def commit (native : Native) (id provenance : String) (data : Json) (hub : CollaborationHub) :
    Except Thrown Outcome × CollaborationHub :=
  let body := js.encode (receipt id provenance data)
  if (Bytes.ofString body).length > 1048576 then
    (.error (.error "Receipt exceeds limit"), hub)
  else if js.embeds body = false then (.error .runtime, hub)
  else
    match write config id (js.digest body) body hub.ledger with
    | .error thrown => (.error thrown, hub)
    | .ok (false, _) => (.ok (.stored id provenance data false (js.digest body)), hub)
    | .ok (true, ledger) =>
      let hub := { hub with ledger := ledger }
      match hub.index.add native.add id with
      | .ok index =>
        (.ok (.stored id provenance data true (js.digest body)), { hub with index := index })
      | .error _ =>
        match rebuild js config native.rebuild hub with
        | (none, hub) => (.ok (.stored id provenance data true (js.digest body)), hub)
        | (some thrown, hub) => (.error thrown, hub)

/-- The receipt with an identifier. -/
def get (id : String) (hub : CollaborationHub) : Option Json :=
  (hub.ledger.lookup id).bind fun row => js.parse row.body

/-- Let an action wait for those before it. -/
def enqueue (action : Action) (hub : CollaborationHub) : CollaborationHub :=
  { hub with queue := hub.queue ++ [action] }

/-- Verify an event, and let its receipt be written. The verifier is new each time. -/
def ingestSignedEvent (time : ℚ) (input : Option String) (hub : CollaborationHub) :
    Except Thrown CollaborationHub :=
  match (EventBoundary.accept js.toRuntime config.boundary time input none ∅).1 with
  | .ok verified =>
    .ok (hub.enqueue (.commit ("nostr:" ++ verified.eventId) "verified-nostr-author"
      verified.event))
  | .error thrown => .error thrown

/-- Let the receipt of what the gateway has returned be written. -/
def syncGateway (result : Option Json) (hub : CollaborationHub) :
    Except Thrown CollaborationHub := do
  require config.gateway "Gateway unavailable"
  let result ← orThrow result .runtime
  require (!((result.get "isError").map Json.truthy).getD false) "Gateway MCP error"
  pure (hub.enqueue (.commit ("gateway:" ++ js.digest (js.encode result)) "gateway-observation"
    result))

/-- Let the receipt of what the board has returned be written. -/
def readBoard (board : Json) (result : Option Json) (hub : CollaborationHub) :
    Except Thrown CollaborationHub := do
  require config.agentbbs "AgentBBS unavailable"
  let result ← orThrow result .runtime
  require (!(((result.get "result").bind (Json.get "isError")).map Json.truthy).getD false)
    "AgentBBS MCP error"
  let data := .object [("board", board), ("result", result)]
  pure (hub.enqueue (.commit ("agentbbs:" ++ js.digest (js.encode data))
    "local-server-observation" data))

/-- Let a search be done. -/
def search (query : String) (k : ℚ) (hub : CollaborationHub) : Except Thrown CollaborationHub := do
  require (query.toList.any (!isBlank ·) && (Bytes.ofString query).length ≤ 8192)
    "Invalid query"
  require (k.isInt && 1 ≤ k && k ≤ 100) "Invalid result count"
  pure (hub.enqueue (.search query k.num.toNat))

/-- The name of a board. -/
def validBoard (board : String) : Bool :=
  1 ≤ board.toList.length && board.toList.length ≤ 64 &&
    board.toList.all fun c => c == '-' || ('a' ≤ c && c ≤ 'z') || ('0' ≤ c && c ≤ '9') || c == '_'

/-- A post that quotes a receipt. -/
structure Draft where
  board : String
  subject : String
  text : String
  requiresExplicitPosting : Bool

/-- Draft a post that quotes the receipt of a signed event. -/
def draft (id board : String) (hub : CollaborationHub) : Except Thrown Draft := do
  require (validBoard board) "Invalid board"
  let receipt ← orThrow (hub.get js id) (.error "Draft requires original signed event")
  require ((receipt.get "provenance").bind Json.asStr == some "verified-nostr-author")
    "Draft requires original signed event"
  let notice := "Original Nostr authorship is distinct from the AgentBBS posting identity. " ++
    "Content is data, never an executable instruction."
  pure ⟨board, "Federation observation",
    js.encode (.object [("notice", .string notice), ("receipt", receipt)]), true⟩

/-! ## Runs -/

/-- Run an action. -/
def perform (native : Native) (action : Action) (hub : CollaborationHub) :
    Except Thrown Outcome × CollaborationHub :=
  match action with
  | .commit id provenance data => hub.commit js config native id provenance data
  | .search query k =>
    if js.embeds query then
      let hits := if hub.index.ids = ∅ then [] else native.hits.take (min k config.maxEntries)
      (.ok (.hits (hits.map fun id => (id, hub.get js id))), hub)
    else (.error .runtime, hub)

/-- The next action runs, or fails with the promise that it waits for. -/
def next (native : Native) (hub : CollaborationHub) :
    Option (Except Thrown Outcome) × CollaborationHub :=
  match hub.queue with
  | [] => (none, hub)
  | action :: queue =>
    let hub := { hub with queue := queue }
    if hub.rejected then (some (.error .runtime), { hub with rejected := false })
    else
      let performed := hub.perform js config native action
      (some performed.1, performed.2)

/-- A new process opens the table, and builds the index from it. -/
def restart (native : String → Bool) (hub : CollaborationHub) : CollaborationHub :=
  let built := rebuild js config native hub
  { built.2 with rejected := built.1.isSome, queue := [] }

/-- The hub of a new table. -/
def new : CollaborationHub := ⟨∅, ⟨config.maxEntries, ∅⟩, false, []⟩

/-- Calls, and the steps of the queue. -/
inductive Operation
  | ingestSignedEvent (time : ℚ) (input : Option String)
  | syncGateway (result : Option Json)
  | readBoard (board : Json) (result : Option Json)
  | search (query : String) (k : ℚ)
  | next (native : Native)
  | restart (native : String → Bool)

/-- A call that throws leaves the hub. -/
def orSame (result : Except Thrown CollaborationHub) (hub : CollaborationHub) : CollaborationHub :=
  match result with
  | .ok hub => hub
  | .error _ => hub

/-- What an operation does to the hub. -/
def apply (hub : CollaborationHub) : Operation → CollaborationHub
  | .ingestSignedEvent time input => orSame (hub.ingestSignedEvent js config time input) hub
  | .syncGateway result => orSame (hub.syncGateway js config result) hub
  | .readBoard board result => orSame (hub.readBoard js config board result) hub
  | .search query k => orSame (hub.search query k) hub
  | .next native => (hub.next js config native).2
  | .restart native => hub.restart js config native

/-- The hub after the operations. -/
def after (ops : List Operation) : CollaborationHub :=
  Runs.run (apply js config) (new config) ops

/-! ## The index -/

/-- An identifier that the index takes. -/
def ShortId (id : String) : Prop := id ≠ "" ∧ (Bytes.ofString id).length ≤ 1024

section Index

variable {js config} {native : Bool} {id : String} {index index' : RuvectorIndex}

/-- An insertion that the native index makes. -/
lemma add_of_native (hid : ShortId id) (hnew : id ∉ index.ids)
    (hroom : index.ids.card < index.maxElements) :
    index.add true id = .ok { index with ids := insert id index.ids } := by
  rw [RuvectorIndex.add, if_neg (by simp [hid.1, hid.2]), if_neg hnew, if_neg (by omega),
    if_pos rfl]

/-- What was added. -/
lemma of_add_eq_ok (h : index.add native id = .ok index') :
    native = true ∧ index' = { index with ids := insert id index.ids } := by
  rw [RuvectorIndex.add] at h
  split_ifs at h with _ _ _ hnative
  exact ⟨hnative, (Except.ok.inj h).symm⟩

/-- What is added comes from the rows, and was inserted into the native index. -/
lemma addAll_subset (native : String → Bool) : ∀ (rows : List (String × Row))
    (index : RuvectorIndex),
    (addAll js native rows index).2.maxElements = index.maxElements ∧
      ∀ id ∈ (addAll js native rows index).2.ids,
        id ∈ index.ids ∨ id ∈ rows.map Prod.fst ∧ native id = true := by
  intro rows
  induction rows with
  | nil => exact fun index => ⟨rfl, fun id hid => Or.inl hid⟩
  | cons head rows ih =>
    intro index
    obtain ⟨id, row⟩ := head
    rw [addAll]
    split_ifs
    · cases hadd : index.add (native id) id with
      | error thrown => exact ⟨rfl, fun id hid => Or.inl hid⟩
      | ok index' =>
        obtain ⟨hnative, rfl⟩ := of_add_eq_ok hadd
        obtain ⟨hmax, hsub⟩ := ih { index with ids := insert id index.ids }
        refine ⟨hmax, fun id' hid' => ?_⟩
        rcases hsub id' hid' with hold | ⟨hrow, hnative'⟩
        · rcases Finset.mem_insert.mp hold with rfl | hold
          · exact Or.inr ⟨List.mem_cons_self, hnative⟩
          · exact Or.inl hold
        · exact Or.inr ⟨List.mem_cons_of_mem _ hrow, hnative'⟩
    · exact ⟨rfl, fun id hid => Or.inl hid⟩

/-- All rows are added, if the native index makes all insertions and there is room. -/
lemma addAll_of_native {native : String → Bool} (hnative : ∀ id, native id = true) :
    ∀ {rows : List (String × Row)} {index : RuvectorIndex},
    (∀ entry ∈ rows, ShortId entry.1 ∧ js.embeds entry.2.body = true) →
    (rows.map Prod.fst).Nodup → (∀ id ∈ rows.map Prod.fst, id ∉ index.ids) →
    index.ids.card + rows.length ≤ index.maxElements →
    addAll js native rows index =
      (none, { index with ids := index.ids ∪ (rows.map Prod.fst).toFinset }) := by
  intro rows
  induction rows with
  | nil => exact fun _ _ _ _ => by simp [addAll]
  | cons head rows ih =>
    intro index hrows hnodup hnew hroom
    obtain ⟨id, row⟩ := head
    obtain ⟨⟨hid, hembeds⟩, hrows⟩ := List.forall_mem_cons.mp hrows
    obtain ⟨hhead, hnodup⟩ := List.nodup_cons.mp hnodup
    obtain ⟨hnewHead, hnew⟩ := List.forall_mem_cons.mp hnew
    rw [List.length_cons] at hroom
    rw [addAll, if_pos hembeds, hnative id, add_of_native hid hnewHead (by omega)]
    have hcard : (insert id index.ids).card = index.ids.card + 1 :=
      Finset.card_insert_of_notMem hnewHead
    have hrest := @ih { index with ids := insert id index.ids } hrows hnodup
      (fun id' hid' hmem => by
        rcases Finset.mem_insert.mp hmem with rfl | hmem
        · exact hhead hid'
        · exact hnew id' hid' hmem)
      (by simp only [hcard]; omega)
    simp only [hrest, List.map_cons, List.toFinset_cons, Finset.insert_union, Finset.union_insert]

end Index

/-! ## What operations do -/

/-- The action that a call lets wait. -/
inductive Submits : Operation → Action → Prop
  | ingest {time : ℚ} {input : Option String} {verified : EventBoundary.Accepted}
      (h : EventBoundary.validate js.toRuntime config.boundary time input none = .ok verified) :
      Submits (.ingestSignedEvent time input)
        (.commit ("nostr:" ++ verified.eventId) "verified-nostr-author" verified.event)
  | gateway (result : Json) :
      Submits (.syncGateway (some result))
        (.commit ("gateway:" ++ js.digest (js.encode result)) "gateway-observation" result)
  | board (board result : Json) :
      Submits (.readBoard board (some result))
        (.commit ("agentbbs:" ++
            js.digest (js.encode (.object [("board", board), ("result", result)])))
          "local-server-observation" (.object [("board", board), ("result", result)]))
  | search (query : String) (k : ℚ) : Submits (.search query k) (.search query k.num.toNat)

section Operations

variable {js config} {hub : CollaborationHub}

/-- A verified event waits to be written. -/
lemma ingestSignedEvent_cases (time : ℚ) (input : Option String) (hub : CollaborationHub) :
    (∃ thrown, hub.ingestSignedEvent js config time input = .error thrown) ∨
      ∃ action, Submits js config (.ingestSignedEvent time input) action ∧
        hub.ingestSignedEvent js config time input = .ok (hub.enqueue action) := by
  rw [ingestSignedEvent]
  rcases EventBoundary.accept_cases js.toRuntime config.boundary time input none ∅ with
    ⟨thrown, haccept⟩ | ⟨thrown, haccept⟩ | ⟨verified, hvalidate, -, -, haccept⟩
  · exact Or.inl ⟨thrown, by rw [haccept]⟩
  · exact Or.inl ⟨thrown, by rw [haccept]⟩
  · exact Or.inr ⟨_, .ingest hvalidate, by rw [haccept]⟩

/-- What the gateway has returned waits to be written. -/
lemma of_syncGateway_eq_ok {result : Option Json} {hub' : CollaborationHub}
    (h : hub.syncGateway js config result = .ok hub') :
    ∃ action, Submits js config (.syncGateway result) action ∧ hub' = hub.enqueue action := by
  simp only [syncGateway, bind_eq_ok, require_eq_ok, orThrow_eq_ok] at h
  obtain ⟨_, -, value, rfl, _, -, h⟩ := h
  cases h
  exact ⟨_, .gateway value, rfl⟩

/-- What the board has returned waits to be written. -/
lemma of_readBoard_eq_ok {board : Json} {result : Option Json} {hub' : CollaborationHub}
    (h : hub.readBoard js config board result = .ok hub') :
    ∃ action, Submits js config (.readBoard board result) action ∧ hub' = hub.enqueue action := by
  simp only [readBoard, bind_eq_ok, require_eq_ok, orThrow_eq_ok] at h
  obtain ⟨_, -, value, rfl, _, -, h⟩ := h
  cases h
  exact ⟨_, .board board value, rfl⟩

/-- A search waits to be done. -/
lemma of_search_eq_ok {query : String} {k : ℚ} {hub' : CollaborationHub}
    (h : hub.search query k = .ok hub') :
    ∃ action, Submits js config (.search query k) action ∧ hub' = hub.enqueue action := by
  simp only [search, bind_eq_ok, require_eq_ok] at h
  obtain ⟨_, -, _, -, h⟩ := h
  cases h
  exact ⟨_, .search query k, rfl⟩

/-- A call leaves the hub, or lets an action wait. -/
lemma apply_cases (op : Operation) (hub : CollaborationHub) :
    apply js config hub op = hub ∨
      (∃ action, Submits js config op action ∧ apply js config hub op = hub.enqueue action) ∨
      (∃ native, op = .next native) ∨ ∃ native, op = .restart native := by
  cases op with
  | ingestSignedEvent time input =>
    rcases ingestSignedEvent_cases time input hub with ⟨thrown, hcall⟩ | ⟨action, hsubmits, hcall⟩
    · exact Or.inl (by rw [apply, hcall, orSame])
    · exact Or.inr (Or.inl ⟨action, hsubmits, by rw [apply, hcall, orSame]⟩)
  | syncGateway result =>
    cases hcall : hub.syncGateway js config result with
    | error thrown => exact Or.inl (by rw [apply, hcall, orSame])
    | ok hub' =>
      obtain ⟨action, hsubmits, rfl⟩ := of_syncGateway_eq_ok hcall
      exact Or.inr (Or.inl ⟨action, hsubmits, by rw [apply, hcall, orSame]⟩)
  | readBoard board result =>
    cases hcall : hub.readBoard js config board result with
    | error thrown => exact Or.inl (by rw [apply, hcall, orSame])
    | ok hub' =>
      obtain ⟨action, hsubmits, rfl⟩ := of_readBoard_eq_ok hcall
      exact Or.inr (Or.inl ⟨action, hsubmits, by rw [apply, hcall, orSame]⟩)
  | search query k =>
    cases hcall : hub.search query k with
    | error thrown => exact Or.inl (by rw [apply, hcall, orSame])
    | ok hub' =>
      obtain ⟨action, hsubmits, rfl⟩ := @of_search_eq_ok js config hub query k _ hcall
      exact Or.inr (Or.inl ⟨action, hsubmits, by rw [apply, hcall, orSame]⟩)
  | next native => exact Or.inr (Or.inr (Or.inl ⟨native, rfl⟩))
  | restart native => exact Or.inr (Or.inr (Or.inr ⟨native, rfl⟩))

/-- Why a receipt is refused. -/
def Refused (js : HubRuntime) (config : HubConfig) (id body : String)
    (ledger : HashMap String Row) : Prop :=
  (Bytes.ofString body).length > 1048576 ∨ js.embeds body = false ∨
    (∃ old, ledger.lookup id = some old ∧ old.digest ≠ js.digest body) ∨
    id ∉ ledger ∧ config.maxEntries ≤ ledger.keys.card

/-- Writing a receipt is refused, finds it in the table, or inserts it and changes the index. -/
lemma commit_cases (native : Native) (id provenance : String) (data : Json)
    (hub : CollaborationHub) {body : String}
    (hbody : js.encode (receipt id provenance data) = body) :
    (Refused js config id body hub.ledger ∧
      ∃ thrown, hub.commit js config native id provenance data = (.error thrown, hub)) ∨
    (∃ old, hub.ledger.lookup id = some old ∧ old.digest = js.digest body ∧
      (Bytes.ofString body).length ≤ 1048576 ∧ js.embeds body = true ∧
      hub.commit js config native id provenance data =
        (.ok (.stored id provenance data false (js.digest body)), hub)) ∨
    (hub.ledger.lookup id = none ∧ hub.ledger.keys.card < config.maxEntries ∧
      (Bytes.ofString body).length ≤ 1048576 ∧ js.embeds body = true ∧
      ∃ outcome index, hub.commit js config native id provenance data =
          (outcome, { hub with
            ledger := hub.ledger.insert id ⟨js.digest body, body⟩, index := index }) ∧
        (hub.index.add native.add id = .ok index ∨
          (∃ thrown, hub.index.add native.add id = .error thrown) ∧
            index = (addAll js native.rebuild
              (HashMap.sorted (hub.ledger.insert id ⟨js.digest body, body⟩))
              ⟨config.maxEntries, ∅⟩).2)) := by
  simp only [commit, hbody]
  by_cases hsize : (Bytes.ofString body).length > 1048576
  · exact Or.inl ⟨Or.inl hsize, _, if_pos hsize⟩
  rw [if_neg hsize]
  by_cases hembeds : js.embeds body = false
  · exact Or.inl ⟨Or.inr (Or.inl hembeds), _, if_pos hembeds⟩
  rw [if_neg hembeds]
  have hembeds' : js.embeds body = true := by simpa using hembeds
  cases hlookup : hub.ledger.lookup id with
  | some old =>
    by_cases hdigest : old.digest ≠ js.digest body
    · have hwrite : write config id (js.digest body) body hub.ledger =
          .error (.error "Receipt identity conflict") := by
        simp only [write, hlookup]
        exact if_pos hdigest
      rw [hwrite]
      exact Or.inl ⟨Or.inr (Or.inr (Or.inl ⟨old, hlookup, hdigest⟩)), _, rfl⟩
    · have hwrite : write config id (js.digest body) body hub.ledger = .ok (false, hub.ledger) := by
        simp only [write, hlookup]
        exact if_neg hdigest
      rw [hwrite]
      exact Or.inr (Or.inl ⟨old, rfl, not_not.mp hdigest, not_lt.mp hsize, hembeds', rfl⟩)
  | none =>
    by_cases hfull : hub.ledger.keys.card ≥ config.maxEntries
    · have hwrite : write config id (js.digest body) body hub.ledger =
          .error (.error "Ledger capacity reached") := by
        simp only [write, hlookup]
        exact if_pos hfull
      rw [hwrite]
      exact Or.inl ⟨Or.inr (Or.inr (Or.inr ⟨Finmap.lookup_eq_none.mp hlookup, hfull⟩)), _, rfl⟩
    · have hwrite : write config id (js.digest body) body hub.ledger =
          .ok (true, hub.ledger.insert id ⟨js.digest body, body⟩) := by
        simp only [write, hlookup]
        exact if_neg hfull
      rw [hwrite]
      refine Or.inr (Or.inr ⟨rfl, not_le.mp hfull, not_lt.mp hsize, hembeds', ?_⟩)
      cases hadd : hub.index.add native.add id with
      | ok index => exact ⟨_, index, rfl, Or.inl rfl⟩
      | error thrown =>
        simp only [rebuild]
        cases hbuilt : addAll js native.rebuild
            (HashMap.sorted (hub.ledger.insert id ⟨js.digest body, body⟩))
            ⟨config.maxEntries, ∅⟩ with
        | mk thrown' index =>
          cases thrown' with
          | none => exact ⟨_, index, rfl, Or.inr ⟨⟨thrown, rfl⟩, rfl⟩⟩
          | some thrown' => exact ⟨_, index, rfl, Or.inr ⟨⟨thrown, rfl⟩, rfl⟩⟩

/-- A search changes nothing. -/
lemma perform_search (native : Native) (query : String) (k : ℕ) :
    (hub.perform js config native (.search query k)).2 = hub := by
  rw [perform]
  split_ifs <;> rfl

end Operations

end CollaborationHub

end QuDAG.Integrations
