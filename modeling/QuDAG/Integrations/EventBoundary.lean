import Mathlib.Algebra.Order.Field.Rat
import QuDAG.Lib.Bytes
import QuDAG.Lib.Collections
import QuDAG.Lib.Expiry
import QuDAG.Lib.Json
import QuDAG.Lib.Outcome
import QuDAG.Lib.Runs

/-!
# The event boundary of the Nostr client (`ruflo-nostr/client.mjs`)

Events come from a relay that is not trusted. The boundary returns an event if it is recent, signed
by an authorized key and addressed to the group, and if its identifier was not returned before.
Identifiers are forgotten when their events are no longer recent.

## Main definitions

* `Nostr` — what the signature library guarantees.
* `EventBoundary`, with `new`, `validate`, `remember` and `accept`.
* `EventBoundary.ReplayWindow` — what is promised of the identifiers.

## Main results

* `EventBoundary.replayWindow` — every sequence of calls keeps the promise.

## Implementation notes

An input is the text that `JSON.stringify` makes of it, if it makes one. `JSON.parse` and
`verifyEvent` are parameters. Texts are sequences of characters, and numbers are rational: the clock
counts seconds, and the sums of seconds are exact.
-/

namespace QuDAG.Integrations

open RustStd

/-! ## Events and signatures -/

/-- What the environment computes. -/
structure Runtime where
  /-- `JSON.parse`, or nothing if it throws. -/
  parse : String → Option Json
  /-- Whether an event has the hash of its content as identifier, and a signature of it. -/
  verifyEvent : Json → Bool

/-- The parts of an event that its signature covers. -/
structure SignedParts where
  pubkey : String
  createdAt : ℚ
  kind : ℚ
  tags : List (List String)
  content : String

/-- The hash and the signature scheme of Nostr. -/
structure Nostr where
  hash : SignedParts → String
  /-- Whether a signature of a hash verifies under a public key. -/
  verify : String → String → String → Bool

/-- The members that the signature covers, with the identifier. -/
def Nostr.core (nostr : Nostr) (parts : SignedParts) : Json :=
  .object
    [("id", .string (nostr.hash parts)),
      ("pubkey", .string parts.pubkey),
      ("created_at", .number parts.createdAt),
      ("kind", .number parts.kind),
      ("tags", .array (parts.tags.map fun tag => .array (tag.map .string))),
      ("content", .string parts.content)]

/-- An event has the hash of its parts as identifier, and a signature of it. Other members do not
matter. -/
def Nostr.Signed (nostr : Nostr) (event : Json) (parts : SignedParts) : Prop :=
  (∀ name ∈ ["id", "pubkey", "created_at", "kind", "tags", "content"],
    event.get name = (nostr.core parts).get name) ∧
  ∃ sig, event.get "sig" = some (.string sig) ∧
    nostr.verify sig (nostr.hash parts) parts.pubkey = true

/-- An event has one list of parts. -/
lemma Nostr.Signed.unique {nostr : Nostr} {event : Json} {parts parts' : SignedParts}
    (h : nostr.Signed event parts) (h' : nostr.Signed event parts') : parts = parts' := by
  have hget (name : String)
      (hname : name ∈ ["id", "pubkey", "created_at", "kind", "tags", "content"]) :
      (nostr.core parts).get name = (nostr.core parts').get name := by
    rw [← h.1 name hname, ← h'.1 name hname]
  have hpubkey : some (Json.string parts.pubkey) = some (Json.string parts'.pubkey) :=
    hget "pubkey" (by simp)
  have hcreatedAt : some (Json.number parts.createdAt) = some (Json.number parts'.createdAt) :=
    hget "created_at" (by simp)
  have hkind : some (Json.number parts.kind) = some (Json.number parts'.kind) :=
    hget "kind" (by simp)
  have htags : some (Json.array (parts.tags.map fun tag => .array (tag.map .string))) =
      some (Json.array (parts'.tags.map fun tag => .array (tag.map .string))) :=
    hget "tags" (by simp)
  have hcontent : some (Json.string parts.content) = some (Json.string parts'.content) :=
    hget "content" (by simp)
  have hinjective : Function.Injective fun tag : List String => Json.array (tag.map .string) :=
    fun tag tag' h => List.map_injective_iff.mpr (fun _ _ h => Json.string.inj h) (Json.array.inj h)
  cases parts
  cases parts'
  simp only [Option.some.injEq, Json.string.injEq, Json.number.injEq, Json.array.injEq,
    (List.map_injective_iff.mpr hinjective).eq_iff] at hpubkey hcreatedAt hkind htags hcontent
  subst hpubkey hcreatedAt hkind htags hcontent
  rfl

/-- The signature library accepts signed events only. -/
def Nostr.Verifies (nostr : Nostr) (js : Runtime) : Prop :=
  ∀ event, js.verifyEvent event = true → ∃ parts, nostr.Signed event parts

/-- The texts of an array. -/
def textsOf : List Json → Option (List String)
  | [] => some []
  | .string text :: items => (textsOf items).map (text :: ·)
  | _ :: _ => none

/-- The tags of an array. -/
def tagsOf : List Json → Option (List (List String))
  | [] => some []
  | .array items :: tags => do
    let tag ← textsOf items
    let tags ← tagsOf tags
    some (tag :: tags)
  | _ :: _ => none

/-- The parts of an event, if it has them all. -/
def partsOf (event : Json) : Option SignedParts := do
  let pubkey ← (event.get "pubkey").bind Json.asStr
  let createdAt ← (event.get "created_at").bind Json.asNumber
  let kind ← (event.get "kind").bind Json.asNumber
  let tags ← (event.get "tags").bind Json.asArray
  let tags ← tagsOf tags
  let content ← (event.get "content").bind Json.asStr
  some ⟨pubkey, createdAt, kind, tags, content⟩

/-- The verification of an event by its parts. -/
def Nostr.verifyEvent (nostr : Nostr) (event : Json) : Bool :=
  match partsOf event, (event.get "id").bind Json.asStr, (event.get "sig").bind Json.asStr with
  | some parts, some id, some sig =>
    id == nostr.hash parts && nostr.verify sig (nostr.hash parts) parts.pubkey
  | _, _, _ => false

lemma textsOf_eq_some : ∀ {items : List Json} {texts : List String},
    textsOf items = some texts → items = texts.map .string
  | [], texts, h => by
    cases h
    rfl
  | .string text :: items, texts, h => by
    obtain ⟨rest, hrest, rfl⟩ := Option.map_eq_some_iff.mp h
    rw [textsOf_eq_some hrest, List.map_cons]
  | .null :: _, _, h | .bool _ :: _, _, h | .number _ :: _, _, h | .array _ :: _, _, h
  | .object _ :: _, _, h => by cases h

lemma tagsOf_eq_some : ∀ {items : List Json} {tags : List (List String)},
    tagsOf items = some tags → items = tags.map fun tag => .array (tag.map .string)
  | [], tags, h => by
    cases h
    rfl
  | .array items :: rest, tags, h => by
    simp only [tagsOf, Option.bind_eq_bind, Option.bind_eq_some_iff, Option.some.injEq] at h
    obtain ⟨tag, htag, tags', htags, rfl⟩ := h
    rw [textsOf_eq_some htag, tagsOf_eq_some htags, List.map_cons]
  | .null :: _, _, h | .bool _ :: _, _, h | .number _ :: _, _, h | .string _ :: _, _, h
  | .object _ :: _, _, h => by cases h

/-- The member that a text is read from. -/
lemma get_of_asStr {event : Json} {name text : String}
    (h : ∃ value, event.get name = some value ∧ value.asStr = some text) :
    event.get name = some (.string text) := by
  obtain ⟨value, hget, hvalue⟩ := h
  rw [hget, Json.asStr_eq_some.mp hvalue]

/-- The member that a number is read from. -/
lemma get_of_asNumber {event : Json} {name : String} {number : ℚ}
    (h : ∃ value, event.get name = some value ∧ value.asNumber = some number) :
    event.get name = some (.number number) := by
  obtain ⟨value, hget, hvalue⟩ := h
  rw [hget, Json.asNumber_eq_some.mp hvalue]

/-- Verification by the parts accepts signed events only. -/
lemma Nostr.verifies_verifyEvent (nostr : Nostr) (parse : String → Option Json) :
    nostr.Verifies ⟨parse, nostr.verifyEvent⟩ := by
  intro event hverify
  have hverify : nostr.verifyEvent event = true := hverify
  rw [Nostr.verifyEvent] at hverify
  split at hverify
  · rename_i parts id sig hparts hid hsig
    rw [Bool.and_eq_true, beq_iff_eq] at hverify
    obtain ⟨rfl, hverify⟩ := hverify
    simp only [partsOf, Option.bind_eq_bind, Option.bind_eq_some_iff, Option.some.injEq] at hparts
    obtain ⟨pubkey, hpubkey, createdAt, hcreatedAt, kind, hkind, items, hitems, tags, htags,
      content, hcontent, rfl⟩ := hparts
    obtain ⟨value, hget, hvalue⟩ := hitems
    have htags' : event.get "tags" =
        some (.array (tags.map fun tag => .array (tag.map .string))) := by
      rw [hget, Json.asArray_eq_some.mp hvalue, tagsOf_eq_some htags]
    refine ⟨_, ?_, sig, get_of_asStr (Option.bind_eq_some_iff.mp hsig), hverify⟩
    simp only [List.forall_mem_cons]
    exact ⟨get_of_asStr (Option.bind_eq_some_iff.mp hid), get_of_asStr hpubkey,
      get_of_asNumber hcreatedAt, get_of_asNumber hkind, htags', get_of_asStr hcontent, nofun⟩
  · cases hverify

/-! ## The boundary -/

/-- What is thrown: an error of the boundary, or one of the language. -/
inductive Thrown
  | error (message : String)
  | runtime

/-- Throw an error unless a condition holds. -/
def require (condition : Bool) (message : String) : Except Thrown Unit :=
  if condition then .ok () else .error (.error message)

/-- Throw an error if there is no value. -/
def orThrow {α : Type} (value : Option α) (thrown : Thrown) : Except Thrown α :=
  match value with
  | some value => .ok value
  | none => .error thrown

lemma require_eq_ok {condition : Bool} {message : String} {u : Unit} :
    require condition message = .ok u ↔ condition = true := by
  cases condition <;> simp [require]

lemma orThrow_eq_ok {α : Type} {value : Option α} {thrown : Thrown} {a : α} :
    orThrow value thrown = .ok a ↔ value = some a := by
  cases value <;> simp [orThrow]

/-- The relay of a profile. -/
def relayFor : String → Option String
  | "current" => some "wss://relay.ruv.io"
  | "legacy" => some "wss://buzz-relay-186366152200.us-central1.run.app"
  | _ => none

def group : String := "ruflo-swarm"

/-- A letter, and up to 63 letters, digits, underscores and hyphens. -/
def validMessageType (type : String) : Bool :=
  match type.toList with
  | [] => false
  | c :: rest =>
    (('A' ≤ c && c ≤ 'Z') || ('a' ≤ c && c ≤ 'z')) && rest.length ≤ 63 &&
      rest.all fun c => ('A' ≤ c && c ≤ 'Z') || ('a' ≤ c && c ≤ 'z') || ('0' ≤ c && c ≤ '9') ||
        c == '_' || c == '-'

/-- A key of 64 hexadecimal digits. -/
def isPubkey (key : String) : Bool :=
  key.toList.length == 64 &&
    key.toList.all fun c => ('0' ≤ c && c ≤ '9') || ('a' ≤ c && c ≤ 'f')

/-- The options of a boundary. -/
structure Options where
  allowedPubkeys : List String
  maxEntries : ℚ
  maxAgeSeconds : ℚ
  futureSkewSeconds : ℚ
  profile : String

/-- The options are within their bounds. -/
def Options.valid (options : Options) : Bool :=
  options.allowedPubkeys.length ≤ 256 && options.allowedPubkeys.all isPubkey &&
    options.maxEntries.isInt && 1 ≤ options.maxEntries && options.maxEntries ≤ 100000 &&
    options.maxAgeSeconds.isInt && 1 ≤ options.maxAgeSeconds && options.maxAgeSeconds ≤ 86400 &&
    options.futureSkewSeconds.isInt && 0 ≤ options.futureSkewSeconds &&
    options.futureSkewSeconds ≤ 60

/-- The configuration of a boundary. -/
structure EventBoundary where
  options : Options
  relay : String
  valid : options.valid = true
  relay_eq : relayFor options.profile = some relay

namespace EventBoundary

/-- A boundary with the options, if they are valid. -/
def new (options : Options) : Except Thrown EventBoundary :=
  if hvalid : options.valid = true then
    match hrelay : relayFor options.profile with
    | some relay => .ok ⟨options, relay, hvalid, hrelay⟩
    | none => .error (.error "Unknown relay profile")
  else .error (.error "Invalid boundary configuration")

variable (js : Runtime) (boundary : EventBoundary)

/-- A coordination message. -/
structure Message where
  type : String
  payload : Json

/-- What is returned for an event. -/
structure Accepted where
  event : Json
  eventId : String
  pubkey : String
  createdAt : ℚ
  message : Message
  trustedForExecution : Bool

/-- The event is neither too old nor too far in the future. -/
def recent (time createdAt : ℚ) : Bool :=
  !(createdAt < time - boundary.options.maxAgeSeconds) &&
    !(createdAt > time + boundary.options.futureSkewSeconds)

/-- The tags with a name. -/
def tagged (tags : List Json) (name : String) : List (List Json) :=
  tags.filterMap fun tag =>
    tag.asArray.bind fun items =>
      if items.head?.bind Json.asStr = some name then some items else none

/-- The tags name the group, and no other relay. -/
def inDomain (tags : List Json) : Bool :=
  let groups := tagged tags "t"
  let relays := tagged tags "relay"
  groups.length == 1 && groups.all (fun tag => tag[1]?.bind Json.asStr = some group) &&
    relays.length ≤ 1 && relays.all fun tag => tag[1]?.bind Json.asStr = some boundary.relay

/-- The type and the other members of the content of an event. -/
def envelopeOf (content : Json) : Except Thrown (String × List (String × Json)) := do
  let members ← orThrow content.asObject (.error "Invalid coordination envelope")
  let type ← orThrow ((content.get "type").bind Json.asStr) (.error "Invalid coordination envelope")
  require (validMessageType type) "Invalid coordination envelope"
  pure (type, members.filter fun member => member.1 != "type")

/-- The payload of a message. A legacy message has a member for it. -/
def payloadOf : List (String × Json) → Except Thrown Json
  | [("payload", .object members)] => .ok (.object members)
  | [("payload", _)] => .error (.error "Invalid legacy payload")
  | rest => .ok (.object rest)

/-- The checks of an event, up to the replay window. -/
def validate (time : ℚ) (input transportOrigin : Option String) : Except Thrown Accepted := do
  require (transportOrigin.getD boundary.relay == boundary.relay) "Untrusted transport origin"
  let serialized ← orThrow input .runtime
  require ((Bytes.ofString serialized).length ≤ 32768) "Event too large"
  let event ← orThrow (js.parse serialized) .runtime
  require ((event.get "kind").bind Json.asNumber == some 1) "Invalid signed event"
  let createdAt ← orThrow ((event.get "created_at").bind Json.asNumber)
    (.error "Invalid signed event")
  require (createdAt.isInt && boundary.recent time createdAt) "Invalid signed event"
  let tags ← orThrow ((event.get "tags").bind Json.asArray) (.error "Invalid signed event")
  require (tags.length ≤ 32 && js.verifyEvent event) "Invalid signed event"
  require (boundary.inDomain tags) "Wrong federation domain or group"
  let pubkey ← orThrow ((event.get "pubkey").bind Json.asStr)
    (.error "Signer is not locally authorized")
  require (boundary.options.allowedPubkeys.contains pubkey) "Signer is not locally authorized"
  let text ← orThrow ((event.get "content").bind Json.asStr) .runtime
  require ((Bytes.ofString text).length ≤ 16384) "Content too large"
  let content ← orThrow (js.parse text) .runtime
  let (type, rest) ← envelopeOf content
  let types := tagged tags "k"
  require (types.length ≤ 1 && types.all fun tag =>
    tag.length == 2 && tag[1]?.bind Json.asStr = some type) "Mismatched message type tag"
  require ((tagged tags "t").all fun tag => tag.length == 2) "Invalid group tag"
  let payload ← payloadOf rest
  -- A verified event has a text as identifier.
  let eventId ← orThrow ((event.get "id").bind Json.asStr) .runtime
  pure ⟨event, eventId, pubkey, createdAt, ⟨type, payload⟩, false⟩

/-- The replay window: an identifier with the time at which it expires. -/
abbrev Seen : Type := HashMap String ℚ

/-- The identifiers that have not expired. -/
def purge (time : ℚ) (seen : Seen) : Seen := seen.retain fun _ expiry => !(expiry < time)

/-- Reject an identifier that was seen before, and remember it otherwise. -/
def remember (time : ℚ) (accepted : Accepted) (seen : Seen) : Except Thrown Accepted × Seen :=
  let seen := purge time seen
  if accepted.eventId ∈ seen then (.error (.error "Replay rejected"), seen)
  else if (seen.keys.card : ℚ) ≥ boundary.options.maxEntries then
    (.error (.error "Replay window capacity exhausted"), seen)
  else
    (.ok accepted,
      seen.insert accepted.eventId (accepted.createdAt + boundary.options.maxAgeSeconds))

/-- Accept an event. -/
def accept (time : ℚ) (input transportOrigin : Option String) (seen : Seen) :
    Except Thrown Accepted × Seen :=
  match validate js boundary time input transportOrigin with
  | .error thrown => (.error thrown, seen)
  | .ok accepted => boundary.remember time accepted seen

/-! ## Sequences of calls -/

/-- A call, with the reading of the clock. -/
structure Call where
  time : ℚ
  input : Option String
  transportOrigin : Option String

/-- What a call does to the window. -/
def apply (seen : Seen) (call : Call) : Seen :=
  (accept js boundary call.time call.input call.transportOrigin seen).2

/-- The window after the calls. -/
def after (calls : List Call) : Seen := Runs.run (apply js boundary) ∅ calls

/-- What a call after the others returns. -/
def result (past : List Call) (call : Call) : Except Thrown Accepted :=
  (accept js boundary call.time call.input call.transportOrigin (after js boundary past)).1

/-- A call has returned an identifier. -/
def Returned (id : String) (calls : List Call) : Prop :=
  Runs.Happened
    (fun past call => ∃ accepted, result js boundary past call = .ok accepted ∧
      accepted.eventId = id) calls

/-- The event of an input. -/
def Call.event (call : Call) : Option Json := call.input.bind js.parse

/-- An event with an identifier passes the check of its age. -/
def PassesAge (time : ℚ) (event : Json) : Prop :=
  ∃ createdAt, (event.get "created_at").bind Json.asNumber = some createdAt ∧
    boundary.recent time createdAt = true

/-- What is promised of one more call. Other events may be presented at any time. -/
structure ReplayWindow (events : Set Json) (past : List Call) (call : Call) : Prop where
  never_twice : ∀ accepted, result js boundary past call = .ok accepted →
    ¬ Returned js boundary accepted.eventId past
  card_le : ((after js boundary (past ++ [call])).keys.card : ℚ) ≤ boundary.options.maxEntries
  dropped : ∀ id, id ∈ after js boundary past → id ∉ after js boundary (past ++ [call]) →
    ∀ time, call.time ≤ time → ∀ event ∈ events, js.verifyEvent event = true →
      event.get "id" = some (.string id) → ¬ boundary.PassesAge time event
  adds_none : ∀ thrown, result js boundary past call = .error thrown →
    ∀ id expiry, (after js boundary (past ++ [call])).lookup id = some expiry →
      (after js boundary past).lookup id = some expiry

/-- The clock does not go back, the presented events are among those considered, and different
parts of these have different hashes. -/
structure Regular (nostr : Nostr) (events : Set Json) (calls : List Call) : Prop where
  ordered : (calls.map Call.time).Pairwise (· ≤ ·)
  presented : ∀ call ∈ calls, ∀ event, call.event js = some event → event ∈ events
  injective : Set.InjOn nostr.hash {parts | ∃ event ∈ events, nostr.Signed event parts}

/-! ## What a call does -/

section Calls

variable {js boundary} {time : ℚ} {input transportOrigin : Option String} {seen : Seen}
  {accepted : Accepted}

/-- What is known of an event that passes the checks. -/
lemma of_validate_eq_ok (h : validate js boundary time input transportOrigin = .ok accepted) :
    input.bind js.parse = some accepted.event ∧ js.verifyEvent accepted.event = true ∧
      accepted.event.get "id" = some (.string accepted.eventId) ∧
      accepted.event.get "created_at" = some (.number accepted.createdAt) ∧
      boundary.recent time accepted.createdAt = true := by
  simp only [validate, bind_eq_ok, require_eq_ok, orThrow_eq_ok, Bool.and_eq_true,
    decide_eq_true_eq] at h
  obtain ⟨_, -, serialized, hinput, _, -, event, hevent, _, -, createdAt, hcreatedAt, _,
    ⟨-, hrecent⟩, tags, -, _, ⟨-, hverify⟩, h⟩ := h
  obtain ⟨_, -, pubkey, -, _, -, text, -, _, -, content, -, ⟨type, rest⟩, -, _, -, _, -, payload, -,
    eventId, hid, h⟩ := h
  cases h
  refine ⟨?_, hverify, ?_, ?_, hrecent⟩
  · rw [hinput]
    exact hevent
  · exact get_of_asStr (Option.bind_eq_some_iff.mp hid)
  · exact get_of_asNumber (Option.bind_eq_some_iff.mp hcreatedAt)

/-- What remains has not expired. -/
lemma lookup_purge {id : String} {expiry : ℚ} :
    (purge time seen).lookup id = some expiry ↔ seen.lookup id = some expiry ∧ time ≤ expiry := by
  rw [purge, HashMap.lookup_retain]
  simp

@[simp] lemma purge_empty (time : ℚ) : purge time ∅ = ∅ := by
  refine Finmap.ext_lookup fun id => ?_
  cases hlookup : (purge time ∅).lookup id with
  | none => rfl
  | some expiry => exact absurd (lookup_purge.mp hlookup).1 (by simp)

/-- A call leaves the window, purges it, or purges it and remembers the new identifier of an event
that passes the checks. -/
lemma accept_cases (js : Runtime) (boundary : EventBoundary) (time : ℚ)
    (input transportOrigin : Option String) (seen : Seen) :
    (∃ thrown, accept js boundary time input transportOrigin seen = (.error thrown, seen)) ∨
    (∃ thrown, accept js boundary time input transportOrigin seen =
      (.error thrown, purge time seen)) ∨
    ∃ accepted, validate js boundary time input transportOrigin = .ok accepted ∧
      accepted.eventId ∉ purge time seen ∧
      ((purge time seen).keys.card : ℚ) < boundary.options.maxEntries ∧
      accept js boundary time input transportOrigin seen =
        (.ok accepted, (purge time seen).insert accepted.eventId
          (accepted.createdAt + boundary.options.maxAgeSeconds)) := by
  rw [accept]
  cases hvalidate : validate js boundary time input transportOrigin with
  | error thrown => exact Or.inl ⟨thrown, rfl⟩
  | ok accepted =>
    simp only [remember]
    split_ifs with hseen hfull
    · exact Or.inr (Or.inl ⟨_, rfl⟩)
    · exact Or.inr (Or.inl ⟨_, rfl⟩)
    · exact Or.inr (Or.inr ⟨accepted, rfl, hseen, not_le.mp hfull, rfl⟩)

/-- The capacity is a number of entries. -/
lemma exists_maxEntries (boundary : EventBoundary) :
    ∃ n : ℕ, boundary.options.maxEntries = n := by
  have hvalid := boundary.valid
  simp only [Options.valid, Bool.and_eq_true, decide_eq_true_eq, Rat.isInt, beq_iff_eq] at hvalid
  have hint : boundary.options.maxEntries = boundary.options.maxEntries.num :=
    ((Rat.den_eq_one_iff _).mp (by tauto)).symm
  have hpos : 0 ≤ boundary.options.maxEntries.num := by
    have hone : (1 : ℚ) ≤ boundary.options.maxEntries := by tauto
    exact Rat.num_nonneg.mpr (le_trans zero_le_one hone)
  refine ⟨boundary.options.maxEntries.num.toNat, hint.trans ?_⟩
  rw [← Int.cast_natCast, Int.toNat_of_nonneg hpos]

/-- A new window lets every event pass that passes the checks. -/
lemma accept_empty (js : Runtime) (boundary : EventBoundary) (time : ℚ)
    (input transportOrigin : Option String) :
    (accept js boundary time input transportOrigin ∅).1 =
      validate js boundary time input transportOrigin := by
  rw [accept]
  cases hvalidate : validate js boundary time input transportOrigin with
  | error thrown => rfl
  | ok accepted =>
    have hpos : ¬ ((0 : ℕ) : ℚ) ≥ boundary.options.maxEntries := by
      have hvalid := boundary.valid
      simp only [Options.valid, Bool.and_eq_true, decide_eq_true_eq] at hvalid
      have hone : (1 : ℚ) ≤ boundary.options.maxEntries := by tauto
      exact not_le.mpr (lt_of_lt_of_le (by simp) hone)
    simp only [remember, purge_empty]
    rw [if_neg Finmap.notMem_empty, Finmap.keys_empty, Finset.card_empty, if_neg hpos]

end Calls

/-! ## The invariant -/

/-- An entry is kept up to the time at which it expires. -/
def lifetime : Expiry.Lifetime ℚ ℚ where
  Expired expiry time := expiry < time
  mono htime hexpired := lt_of_lt_of_le hexpired htime

/-- An event with the identifier was returned, which is recent up to a time. -/
def Gave (calls : List Call) (id : String) (expiry : ℚ) : Prop :=
  Runs.Happened
    (fun past call => ∃ accepted, result js boundary past call = .ok accepted ∧
      accepted.eventId = id ∧ expiry = accepted.createdAt + boundary.options.maxAgeSeconds) calls

/-- A time that is not before any of the calls. -/
def Current (calls : List Call) (now : ℚ) : Prop := ∀ call ∈ calls, call.time ≤ now

/-- What holds of the window after the calls. -/
structure Inv (calls : List Call) (seen : Seen) : Prop where
  card_le : (seen.keys.card : ℚ) ≤ boundary.options.maxEntries
  tracks : ∀ now, Current calls now →
    Expiry.Tracks lifetime (Gave js boundary calls) (fun id expiry => seen.lookup id = some expiry)
      now

variable {js boundary} {nostr : Nostr} {events : Set Json} {calls : List Call} {call : Call}
  {seen : Seen}

lemma Regular.of_concat (h : Regular js nostr events (calls ++ [call])) :
    Regular js nostr events calls where
  ordered := by
    have hordered := h.ordered
    rw [List.map_append] at hordered
    exact (List.pairwise_append.mp hordered).1
  presented call hcall := h.presented call (List.mem_append_left _ hcall)
  injective := h.injective

/-- The last call is not before the others. -/
lemma Regular.current (h : Regular js nostr events (calls ++ [call])) :
    Current calls call.time := by
  have hordered := h.ordered
  rw [List.map_append] at hordered
  exact fun call' hcall' =>
    (List.pairwise_append.mp hordered).2.2 _ (List.mem_map_of_mem hcall') _ (by simp)

lemma current_concat {now : ℚ} :
    Current (calls ++ [call]) now ↔ Current calls now ∧ call.time ≤ now := by
  simp [Current, or_imp, forall_and]

/-- The identifier of an event tells when it was created. -/
lemma createdAt_eq (hverifies : nostr.Verifies js)
    (hinjective : Set.InjOn nostr.hash {parts | ∃ event ∈ events, nostr.Signed event parts})
    {event event' : Json} (hevent : event ∈ events) (hevent' : event' ∈ events)
    (hverify : js.verifyEvent event = true) (hverify' : js.verifyEvent event' = true)
    (hid : event.get "id" = event'.get "id") :
    event.get "created_at" = event'.get "created_at" := by
  obtain ⟨parts, hsigned⟩ := hverifies event hverify
  obtain ⟨parts', hsigned'⟩ := hverifies event' hverify'
  have hhash : nostr.hash parts = nostr.hash parts' := by
    rw [hsigned.1 "id" (by simp), hsigned'.1 "id" (by simp)] at hid
    simpa [Nostr.core, Json.get] using hid
  have hparts : parts = parts' :=
    hinjective ⟨event, hevent, hsigned⟩ ⟨event', hevent', hsigned'⟩ hhash
  rw [hsigned.1 "created_at" (by simp), hsigned'.1 "created_at" (by simp), hparts]

/-- An event that was returned was presented, and verifies. -/
lemma exists_of_gave (hregular : Regular js nostr events calls) {id : String} {expiry : ℚ}
    (h : Gave js boundary calls id expiry) :
    ∃ event ∈ events, js.verifyEvent event = true ∧ event.get "id" = some (.string id) ∧
      event.get "created_at" = some (.number (expiry - boundary.options.maxAgeSeconds)) := by
  obtain ⟨past, call, future, rfl, accepted, hresult, rfl, rfl⟩ := h
  rcases accept_cases js boundary call.time call.input call.transportOrigin
    (after js boundary past) with ⟨thrown, haccept⟩ | ⟨thrown, haccept⟩ |
    ⟨accepted', hvalidate, -, -, haccept⟩
  · rw [result, haccept] at hresult
    cases hresult
  · rw [result, haccept] at hresult
    cases hresult
  · rw [result, haccept] at hresult
    cases hresult
    obtain ⟨hinput, hverify, hid, hcreatedAt, -⟩ := of_validate_eq_ok hvalidate
    refine ⟨accepted.event, hregular.presented call (by simp) _ hinput, hverify, hid, ?_⟩
    rw [hcreatedAt, add_sub_cancel_right]

/-- **The check of the age and the expiry of identifiers are complements**: an event with the
identifier of one that was returned is recent only as long as the identifier is remembered. -/
lemma le_expiry_of_recent (hverifies : nostr.Verifies js)
    (hregular : Regular js nostr events calls) {id : String} {expiry : ℚ}
    (hgave : Gave js boundary calls id expiry) {event : Json} (hevent : event ∈ events)
    (hverify : js.verifyEvent event = true) (hid : event.get "id" = some (.string id))
    {createdAt time : ℚ} (hcreatedAt : event.get "created_at" = some (.number createdAt))
    (hrecent : boundary.recent time createdAt = true) : time ≤ expiry := by
  obtain ⟨event', hevent', hverify', hid', hcreatedAt'⟩ := exists_of_gave hregular hgave
  have heq := createdAt_eq hverifies hregular.injective hevent hevent' hverify hverify'
    (hid.trans hid'.symm)
  rw [hcreatedAt, hcreatedAt'] at heq
  cases heq
  simp only [recent, Bool.and_eq_true, Bool.not_eq_true', decide_eq_false_iff_not,
    not_lt] at hrecent
  exact (sub_le_sub_iff_right _).mp hrecent.1

namespace Inv

/-- The step for the entries: some go that have expired, and the one of a returned event comes. -/
lemma tracks_concat (hinv : Inv js boundary calls seen) {mid seen' : Seen}
    (hsub : ∀ {id expiry}, mid.lookup id = some expiry → seen.lookup id = some expiry)
    (hdrop : ∀ {id expiry}, seen.lookup id = some expiry →
      mid.lookup id = some expiry ∨ expiry < call.time)
    (hseen : ∀ {id expiry}, seen'.lookup id = some expiry ↔ mid.lookup id = some expiry ∨
      ∃ accepted, result js boundary calls call = .ok accepted ∧ accepted.eventId = id ∧
        expiry = accepted.createdAt + boundary.options.maxAgeSeconds) (now : ℚ)
    (hnow : Current (calls ++ [call]) now) :
    Expiry.Tracks lifetime (Gave js boundary (calls ++ [call]))
      (fun id expiry => seen'.lookup id = some expiry) now := by
  obtain ⟨hcurrent, hle⟩ := current_concat.mp hnow
  have hmid := (hinv.tracks now hcurrent).forget (le_refl now) hsub fun hstored =>
    (hdrop hstored).imp_right fun hexpired => lt_of_lt_of_le hexpired hle
  exact hmid.give Runs.happened_concat hseen

/-- The window has room for one more entry. -/
lemma card_insert_le {mid : Seen} (h : (mid.keys.card : ℚ) < boundary.options.maxEntries)
    (id : String) (expiry : ℚ) :
    ((mid.insert id expiry).keys.card : ℚ) ≤ boundary.options.maxEntries := by
  obtain ⟨n, hn⟩ := boundary.exists_maxEntries
  rw [hn, Nat.cast_lt] at h
  rw [hn, Nat.cast_le]
  exact (HashMap.card_keys_insert_le mid id expiry).trans h

/-- Every call keeps the invariant. -/
lemma step (hinv : Inv js boundary calls (after js boundary calls)) :
    Inv js boundary (calls ++ [call]) (apply js boundary (after js boundary calls) call) := by
  have hpurge : ∀ {id expiry}, (after js boundary calls).lookup id = some expiry →
      (purge call.time (after js boundary calls)).lookup id = some expiry ∨
        expiry < call.time := fun {id expiry} hlookup => by
    rcases le_or_gt call.time expiry with hle | hlt
    · exact Or.inl (lookup_purge.mpr ⟨hlookup, hle⟩)
    · exact Or.inr hlt
  have hcard : ((purge call.time (after js boundary calls)).keys.card : ℚ) ≤
      boundary.options.maxEntries :=
    le_trans (Nat.cast_le.mpr (HashMap.card_keys_retain_le _ _)) hinv.card_le
  rw [apply]
  rcases accept_cases js boundary call.time call.input call.transportOrigin
    (after js boundary calls) with ⟨thrown, haccept⟩ | ⟨thrown, haccept⟩ |
    ⟨accepted, -, hnew, hroom, haccept⟩
  · rw [haccept]
    exact ⟨hinv.card_le, hinv.tracks_concat id Or.inl fun {id expiry} => by simp [result, haccept]⟩
  · rw [haccept]
    refine ⟨hcard, hinv.tracks_concat (fun h => (lookup_purge.mp h).1) hpurge ?_⟩
    simp [result, haccept]
  · rw [haccept]
    refine ⟨card_insert_le hroom _ _,
      hinv.tracks_concat (fun h => (lookup_purge.mp h).1) hpurge fun {id expiry} => ?_⟩
    simp only [result, haccept, Except.ok.injEq, exists_eq_left']
    rw [HashMap.lookup_insert_ite]
    split_ifs with hid
    · have hnone : (purge call.time (after js boundary calls)).lookup id = none := by
        rwa [Finmap.lookup_eq_none, hid]
      rw [hnone]
      simp [hid, eq_comm]
    · simp [Ne.symm hid]

end Inv

/-! ## The promise -/

/-- Every sequence of calls keeps the invariant. -/
theorem inv_after (boundary : EventBoundary) (hregular : Regular js nostr events calls) :
    Inv js boundary calls (after js boundary calls) := by
  refine Runs.history_rule (fun calls seen => Inv js boundary calls seen)
    (fun _ _ h => h.of_concat) ?_ (fun past call _ hinv => hinv.step) hregular
  obtain ⟨n, hn⟩ := boundary.exists_maxEntries
  refine ⟨?_, fun now _ => ⟨fun hlookup => ?_, fun hgave => ?_⟩⟩
  · rw [hn]
    exact Nat.cast_nonneg n
  · exact absurd hlookup (by simp)
  · exact absurd hgave Runs.not_happened_nil

/-- An identifier that was returned is not returned again. -/
lemma not_returned (hverifies : nostr.Verifies js)
    (hregular : Regular js nostr events (calls ++ [call])) {accepted : Accepted}
    (hresult : result js boundary calls call = .ok accepted) :
    ¬ Returned js boundary accepted.eventId calls := by
  rintro ⟨past, call', future, hcalls, accepted', hresult', hid⟩
  have hgave : Gave js boundary calls accepted.eventId
      (accepted'.createdAt + boundary.options.maxAgeSeconds) :=
    ⟨past, call', future, hcalls, accepted', hresult', hid, rfl⟩
  rcases accept_cases js boundary call.time call.input call.transportOrigin
    (after js boundary calls) with ⟨thrown, haccept⟩ | ⟨thrown, haccept⟩ |
    ⟨accepted'', hvalidate, hnew, -, haccept⟩
  · rw [result, haccept] at hresult
    cases hresult
  · rw [result, haccept] at hresult
    cases hresult
  · rw [result, haccept] at hresult
    cases hresult
    obtain ⟨hinput, hverify, hid', hcreatedAt, hrecent⟩ := of_validate_eq_ok hvalidate
    have hevent := hregular.presented call (by simp) _ hinput
    have hle := le_expiry_of_recent hverifies hregular.of_concat hgave hevent hverify hid'
      hcreatedAt hrecent
    -- The identifier has not expired, so that it is still in the window.
    have htracks := (inv_after boundary hregular.of_concat).tracks call.time hregular.current
    obtain ⟨hstored, -⟩ := (htracks.live_iff (le_refl _)).mpr ⟨hgave, not_lt.mpr hle⟩
    exact hnew (HashMap.mem_of_lookup (lookup_purge.mpr ⟨hstored, hle⟩))

/-- An identifier that is dropped has expired. -/
lemma lt_of_dropped {id : String} {expiry : ℚ}
    (hlookup : (after js boundary calls).lookup id = some expiry)
    (hdropped : id ∉ after js boundary (calls ++ [call])) : expiry < call.time := by
  by_contra hlive
  have hpurge : (purge call.time (after js boundary calls)).lookup id = some expiry :=
    lookup_purge.mpr ⟨hlookup, not_lt.mp hlive⟩
  apply hdropped
  rw [after, Runs.run_concat, ← after, apply]
  rcases accept_cases js boundary call.time call.input call.transportOrigin
    (after js boundary calls) with ⟨thrown, haccept⟩ | ⟨thrown, haccept⟩ |
    ⟨accepted, -, -, -, haccept⟩
  · rw [haccept]
    exact HashMap.mem_of_lookup hlookup
  · rw [haccept]
    exact HashMap.mem_of_lookup hpurge
  · rw [haccept]
    exact Finmap.mem_insert.mpr (Or.inr (HashMap.mem_of_lookup hpurge))

/-- **The replay window**: over every sequence of calls with a clock that does not go back, no
identifier is returned twice, the window does not exceed its capacity, an identifier is dropped only
when no event with it can be recent any more, and a call that throws adds nothing. -/
theorem replayWindow (boundary : EventBoundary) (past : List Call) (call : Call)
    (hverifies : nostr.Verifies js) (hregular : Regular js nostr events (past ++ [call])) :
    ReplayWindow js boundary events past call where
  never_twice _ hresult := not_returned hverifies hregular hresult
  card_le := (inv_after boundary hregular).card_le
  dropped id hmem hdropped time htime event hevent hverify hid := by
    rintro ⟨createdAt, hcreatedAt, hrecent⟩
    obtain ⟨expiry, hlookup⟩ := HashMap.mem_iff_exists.mp hmem
    have hlt := lt_of_dropped hlookup hdropped
    have htracks := (inv_after boundary hregular.of_concat).tracks call.time
      hregular.current
    have hgave := htracks.given_of_stored hlookup
    have hle := le_expiry_of_recent hverifies hregular.of_concat hgave hevent hverify hid
      (get_of_asNumber (Option.bind_eq_some_iff.mp hcreatedAt)) hrecent
    exact absurd (htime.trans hle) (not_le.mpr hlt)
  adds_none thrown hresult id expiry hlookup := by
    rw [after, Runs.run_concat, ← after, apply] at hlookup
    rcases accept_cases js boundary call.time call.input call.transportOrigin
      (after js boundary past) with ⟨_, haccept⟩ | ⟨_, haccept⟩ | ⟨_, -, -, -, haccept⟩
    · rwa [haccept] at hlookup
    · rw [haccept] at hlookup
      exact (lookup_purge.mp hlookup).1
    · rw [result, haccept] at hresult
      cases hresult

/-! ## An event that is presented twice -/

/-- A public key. -/
def sampleKey : String := String.ofList (List.replicate 64 'a')

/-- A hash and a signature scheme with one hash and one signature. -/
def sampleNostr : Nostr where
  hash _ := String.ofList (List.replicate 64 'e')
  verify sig _ _ := sig == String.ofList (List.replicate 128 'b')

/-- A boundary with one authorized key. -/
def sampleBoundary : EventBoundary where
  options := ⟨[sampleKey], 4096, 300, 30, "current"⟩
  relay := "wss://relay.ruv.io"
  valid := by decide +kernel
  relay_eq := rfl

/-- The content of an event. -/
def sampleContent : String := "\x7b\"type\":\"Status\"\x7d"

/-- An event with the content. -/
def sampleEvent : Json :=
  .object
    [("kind", .number 1), ("created_at", .number 1000),
      ("tags", .array [.array [.string "t", .string "ruflo-swarm"]]),
      ("content", .string sampleContent), ("pubkey", .string sampleKey),
      ("id", .string (String.ofList (List.replicate 64 'e'))),
      ("sig", .string (String.ofList (List.replicate 128 'b')))]

/-- The text of the event. -/
def sampleText : String :=
  "\x7b\"kind\":1,\"created_at\":1000,\"tags\":[[\"t\",\"ruflo-swarm\"]],\"content\":" ++
    "\"\x7b\\\"type\\\":\\\"Status\\\"\x7d\",\"pubkey\":\"" ++ sampleKey ++ "\",\"id\":\"" ++
    String.ofList (List.replicate 64 'e') ++ "\",\"sig\":\"" ++
    String.ofList (List.replicate 128 'b') ++ "\"\x7d"

/-- A runtime that knows the texts of a table. -/
def sampleRuntime (table : List (String × Json)) : Runtime where
  parse text := table.lookup text
  verifyEvent := sampleNostr.verifyEvent

/-- The texts of the event and of its content. -/
def sampleTable : List (String × Json) :=
  [(sampleText, sampleEvent), (sampleContent, .object [("type", .string "Status")])]

/-- The theorem at the second of two calls with the event. -/
theorem replayWindow_sample :
    ReplayWindow (sampleRuntime sampleTable) sampleBoundary {sampleEvent}
      [⟨1000, some sampleText, none⟩] ⟨1200, some sampleText, none⟩ := by
  refine replayWindow sampleBoundary _ _ (sampleNostr.verifies_verifyEvent _) ⟨?_, ?_, ?_⟩
  · decide +kernel
  · have hevent : (some sampleText).bind (sampleRuntime sampleTable).parse = some sampleEvent := by
      simp [sampleRuntime, sampleTable]
    intro call hcall event hpresented
    have hinput : call.input = some sampleText := by
      rcases List.mem_pair.mp hcall with rfl | rfl <;> rfl
    rw [Call.event, hinput, hevent] at hpresented
    exact (Option.some.inj hpresented).symm
  · rintro parts ⟨event, rfl, hsigned⟩ parts' ⟨event', rfl, hsigned'⟩ -
    exact hsigned.unique hsigned'

end EventBoundary

end QuDAG.Integrations
