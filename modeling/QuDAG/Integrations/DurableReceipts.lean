import QuDAG.Integrations.Hub

/-!
# What the hub keeps

A receipt that is written stays, and the table does not grow beyond its capacity. An event that is
ingested again is found in the table if it is serialized as before. A presentation of the same event
with other members, or with its members in another order, is refused. The index never has more
identifiers than the table; it has all of them unless insertions fail during a rebuild.

## Main definitions

* `HubRuntime.Lawful` — hashes have 64 digits.
* `CollaborationHub.DurableReplay` — what one might expect of an operation.
* `CollaborationHub.KeepsReceipts` — what holds of every operation.
* `CollaborationHub.Repairs` — insertions of a rebuild succeed.
* `CollaborationHub.ReplaysExactly` — what holds of an operation as long as they do.

## Main results

* `CollaborationHub.durable` — what every run keeps.
-/

namespace QuDAG.Integrations

open RustStd

/-- Hashes are written with 64 digits, by the hub and in verified events. -/
structure HubRuntime.Lawful (js : HubRuntime) : Prop where
  digest_length : ∀ text, (Bytes.ofString (js.digest text)).length = 64
  id_length : ∀ event id, js.verifyEvent event = true → event.get "id" = some (.string id) →
    (Bytes.ofString id).length = 64

namespace CollaborationHub

variable (js : HubRuntime) (config : HubConfig)

/-- The hub with one action less. -/
def dequeue (hub : CollaborationHub) : CollaborationHub := { hub with queue := hub.queue.tail }

/-- Receipts stay and are limited, a verified event whose identifier is stored is found, and the
index agrees with the table when nothing waits. -/
structure DurableReplay (hub : CollaborationHub) (op : Operation) : Prop where
  unchanged : ∀ id row, hub.ledger.lookup id = some row →
    (apply js config hub op).ledger.lookup id = some row
  card_le : (apply js config hub op).ledger.keys.card ≤ config.maxEntries
  idempotent : ∀ native id data rest, op = .next native →
    hub.queue = .commit id "verified-nostr-author" data :: rest → id ∈ hub.ledger →
    ∃ digest, (hub.next js config native).1 =
      some (.ok (.stored id "verified-nostr-author" data false digest))
  index_eq : (apply js config hub op).queue = [] →
    (apply js config hub op).index.ids = (apply js config hub op).ledger.keys

/-- Receipts stay and are limited, and the index has none but these. -/
structure KeepsReceipts (hub : CollaborationHub) (op : Operation) : Prop where
  unchanged : ∀ id row, hub.ledger.lookup id = some row →
    (apply js config hub op).ledger.lookup id = some row
  card_le : (apply js config hub op).ledger.keys.card ≤ config.maxEntries
  index_subset : (apply js config hub op).index.ids ⊆ (apply js config hub op).ledger.keys

/-- The insertions of a rebuild succeed, if there is one. -/
def Repairs (_ : CollaborationHub) : Operation → Prop
  | .next native => native.add = true ∨ ∀ id, native.rebuild id = true
  | .restart native => ∀ id, native id = true
  | _ => True

/-- A verified event whose identifier is stored is found if its receipt is serialized as the stored
one, and is refused without an effect if it has another hash. The index agrees with the table. -/
structure ReplaysExactly (hub : CollaborationHub) (op : Operation) : Prop where
  idempotent : ∀ native id data rest row, op = .next native →
    hub.queue = .commit id "verified-nostr-author" data :: rest →
    hub.ledger.lookup id = some row →
    js.encode (receipt id "verified-nostr-author" data) = row.body →
    hub.next js config native =
      (some (.ok (.stored id "verified-nostr-author" data false row.digest)), hub.dequeue)
  refused : ∀ native id data rest row, op = .next native →
    hub.queue = .commit id "verified-nostr-author" data :: rest →
    hub.ledger.lookup id = some row →
    js.digest (js.encode (receipt id "verified-nostr-author" data)) ≠ row.digest →
    ∃ thrown, hub.next js config native = (some (.error thrown), hub.dequeue)
  index_eq : (apply js config hub op).index.ids = (apply js config hub op).ledger.keys

/-! ## Rebuilds -/

/-- A row that can be added to the index. -/
structure Fine (id : String) (row : Row) : Prop where
  shortId : ShortId id
  digest_eq : row.digest = js.digest row.body
  length_le : (Bytes.ofString row.body).length ≤ 1048576
  embeds : js.embeds row.body = true

section Rebuild

variable {js config} {ledger : HashMap String Row}

/-- A rebuild adds identifiers of the table only. -/
lemma addAll_sorted_subset (native : String → Bool) (maxElements : ℕ) :
    (addAll js native ledger.sorted ⟨maxElements, ∅⟩).2.maxElements = maxElements ∧
      (addAll js native ledger.sorted ⟨maxElements, ∅⟩).2.ids ⊆ ledger.keys := by
  obtain ⟨hmax, hsub⟩ := @addAll_subset js native ledger.sorted ⟨maxElements, ∅⟩
  refine ⟨hmax, fun id hid => ?_⟩
  rcases hsub id hid with hid | ⟨hrow, -⟩
  · exact absurd hid (Finset.notMem_empty id)
  · exact Finmap.mem_keys.mpr (ledger.sorted_enumerates.mem_keys.mp hrow)

/-- A rebuild whose insertions succeed adds them all. -/
lemma addAll_sorted_of_native {native : String → Bool} (hnative : ∀ id, native id = true)
    {maxElements : ℕ} (hfine : ∀ id row, ledger.lookup id = some row → Fine js id row)
    (hroom : ledger.keys.card ≤ maxElements) :
    addAll js native ledger.sorted ⟨maxElements, ∅⟩ = (none, ⟨maxElements, ledger.keys⟩) := by
  have henum := ledger.sorted_enumerates
  have hrows : ∀ entry ∈ ledger.sorted, ShortId entry.1 ∧ js.embeds entry.2.body = true := by
    rintro ⟨id, row⟩ hentry
    have hrow := hfine id row ((henum.2 id row).mp hentry)
    exact ⟨hrow.shortId, hrow.embeds⟩
  rw [addAll_of_native hnative hrows henum.1 (fun id _ => Finset.notMem_empty id)
    (by rw [henum.length_eq]; simpa using hroom)]
  have hkeys : (ledger.sorted.map Prod.fst).toFinset = ledger.keys := by
    ext id
    rw [List.mem_toFinset, henum.mem_keys, Finmap.mem_keys]
  simp only [Finset.empty_union, hkeys]

end Rebuild

/-! ## The invariants -/

/-- What holds of every hub. -/
structure Inv (hub : CollaborationHub) : Prop where
  card_le : hub.ledger.keys.card ≤ config.maxEntries
  maxElements_eq : hub.index.maxElements = config.maxEntries
  index_subset : hub.index.ids ⊆ hub.ledger.keys
  fine : ∀ id row, hub.ledger.lookup id = some row → Fine js id row
  queue : ∀ id provenance data, .commit id provenance data ∈ hub.queue → ShortId id

/-- The index is built, and agrees with the table. -/
structure Complete (hub : CollaborationHub) : Prop where
  rejected_eq : hub.rejected = false
  index_eq : hub.index.ids = hub.ledger.keys

variable {js config} {hub : CollaborationHub}

/-- Identifiers of receipts are short. -/
lemma shortId_append {kind digits : String} (hkind : kind ∈ ["nostr:", "gateway:", "agentbbs:"])
    (hdigits : (Bytes.ofString digits).length = 64) : ShortId (kind ++ digits) := by
  have hall : ∀ kind ∈ ["nostr:", "gateway:", "agentbbs:"],
      1 ≤ (Bytes.ofString kind).length ∧ (Bytes.ofString kind).length ≤ 9 := by decide +kernel
  have hlength := hall kind hkind
  have hbytes : (Bytes.ofString (kind ++ digits)).length =
      (Bytes.ofString kind).length + 64 := by
    rw [Bytes.ofString_append, List.length_append, hdigits]
  refine ⟨fun hempty => ?_, by omega⟩
  rw [hempty] at hbytes
  have hzero : (Bytes.ofString "").length = 0 := by decide +kernel
  omega

/-- The receipts that calls let be written have short identifiers. -/
lemma shortId_of_submits (hlawful : js.Lawful) {op : Operation} {id provenance : String}
    {data : Json} (h : Submits js config op (.commit id provenance data)) : ShortId id := by
  cases h with
  | ingest hvalidate =>
    obtain ⟨-, hverify, hid, -⟩ := EventBoundary.of_validate_eq_ok hvalidate
    exact shortId_append (by simp) (hlawful.id_length _ _ hverify hid)
  | gateway result => exact shortId_append (by simp) (hlawful.digest_length _)
  | board board result => exact shortId_append (by simp) (hlawful.digest_length _)

namespace Inv

/-- Actions that wait, and the promise that they wait for, do not matter for the table. -/
lemma of_queue (hinv : Inv js config hub) (rejected : Bool) {queue : List Action}
    (hqueue : ∀ action ∈ queue, action ∈ hub.queue) :
    Inv js config { hub with rejected := rejected, queue := queue } where
  card_le := hinv.card_le
  maxElements_eq := hinv.maxElements_eq
  index_subset := hinv.index_subset
  fine := hinv.fine
  queue id provenance data hmem := hinv.queue id provenance data (hqueue _ hmem)

lemma enqueue (hinv : Inv js config hub) {action : Action}
    (haction : ∀ id provenance data, action = .commit id provenance data → ShortId id) :
    Inv js config (hub.enqueue action) where
  card_le := hinv.card_le
  maxElements_eq := hinv.maxElements_eq
  index_subset := hinv.index_subset
  fine := hinv.fine
  queue id provenance data hmem := by
    rcases List.mem_append.mp hmem with hmem | hmem
    · exact hinv.queue id provenance data hmem
    · exact haction id provenance data (List.mem_singleton.mp hmem).symm

/-- A row that can be added keeps the rows fine. -/
lemma fine_insert (hinv : Inv js config hub) {id : String} {row : Row} (hrow : Fine js id row) :
    ∀ id' row', (hub.ledger.insert id row).lookup id' = some row' → Fine js id' row' := by
  intro id' row' hlookup
  rw [HashMap.lookup_insert_ite] at hlookup
  split_ifs at hlookup with heq
  · subst heq
    cases hlookup
    exact hrow
  · exact hinv.fine id' row' hlookup

/-- The index after a receipt was inserted has none but the identifiers of the table. -/
lemma index_of_commit (hinv : Inv js config hub) {native : Native} {id : String} {row : Row}
    {index : RuvectorIndex}
    (hindex : hub.index.add native.add id = .ok index ∨
      (∃ thrown, hub.index.add native.add id = .error thrown) ∧
        index = (addAll js native.rebuild (HashMap.sorted (hub.ledger.insert id row))
          ⟨config.maxEntries, ∅⟩).2) :
    index.maxElements = config.maxEntries ∧ index.ids ⊆ (hub.ledger.insert id row).keys := by
  rcases hindex with hadd | ⟨-, rfl⟩
  · obtain ⟨-, rfl⟩ := of_add_eq_ok hadd
    refine ⟨hinv.maxElements_eq, ?_⟩
    rw [HashMap.keys_insert]
    exact Finset.insert_subset_insert id hinv.index_subset
  · exact addAll_sorted_subset native.rebuild config.maxEntries

/-- If the index agreed with the table, and the insertions of a rebuild succeed, it agrees with the
table again. -/
lemma index_eq_of_commit (hinv : Inv js config hub) (hcomplete : hub.Complete) {native : Native}
    (hrepairs : native.add = true ∨ ∀ id, native.rebuild id = true) {id : String} {row : Row}
    (hnew : hub.ledger.lookup id = none) (hroom : hub.ledger.keys.card < config.maxEntries)
    (hrow : Fine js id row) {index : RuvectorIndex}
    (hindex : hub.index.add native.add id = .ok index ∨
      (∃ thrown, hub.index.add native.add id = .error thrown) ∧
        index = (addAll js native.rebuild (HashMap.sorted (hub.ledger.insert id row))
          ⟨config.maxEntries, ∅⟩).2) :
    index.ids = (hub.ledger.insert id row).keys := by
  rcases hindex with hadd | ⟨⟨thrown, hadd⟩, rfl⟩
  · obtain ⟨-, rfl⟩ := of_add_eq_ok hadd
    rw [HashMap.keys_insert]
    exact congrArg (insert id) hcomplete.index_eq
  · have hrebuild : ∀ id, native.rebuild id = true := by
      refine hrepairs.resolve_left fun hnative => ?_
      have hnotMem : id ∉ hub.index.ids := by
        rw [hcomplete.index_eq, Finmap.mem_keys]
        exact Finmap.lookup_eq_none.mp hnew
      have hspace : hub.index.ids.card < hub.index.maxElements := by
        rwa [hcomplete.index_eq, hinv.maxElements_eq]
      rw [hnative, add_of_native hrow.shortId hnotMem hspace] at hadd
      cases hadd
    have hcard : (hub.ledger.insert id row).keys.card ≤ config.maxEntries :=
      (HashMap.card_keys_insert_le _ _ _).trans hroom
    rw [addAll_sorted_of_native hrebuild (hinv.fine_insert hrow) hcard]

/-- Writing a receipt keeps the invariant and the rows. If the index agreed with the table, and the
insertions of a rebuild succeed, it agrees again. -/
lemma commit (hinv : Inv js config hub) (native : Native) {id : String} (hid : ShortId id)
    (provenance : String) (data : Json) :
    Inv js config (hub.commit js config native id provenance data).2 ∧
      (∀ id' row, hub.ledger.lookup id' = some row →
        (hub.commit js config native id provenance data).2.ledger.lookup id' = some row) ∧
      (hub.Complete → (native.add = true ∨ ∀ id, native.rebuild id = true) →
        (hub.commit js config native id provenance data).2.Complete) := by
  rcases commit_cases native id provenance data hub rfl with ⟨-, thrown, hcommit⟩ |
    ⟨old, -, -, -, -, hcommit⟩ | ⟨hnew, hroom, hsize, hembeds, outcome, index, hcommit, hindex⟩
  · rw [hcommit]
    exact ⟨hinv, fun _ _ h => h, fun h _ => h⟩
  · rw [hcommit]
    exact ⟨hinv, fun _ _ h => h, fun h _ => h⟩
  · rw [hcommit]
    obtain ⟨hmax, hsub⟩ := hinv.index_of_commit hindex
    have hrow : Fine js id ⟨js.digest (js.encode (receipt id provenance data)),
        js.encode (receipt id provenance data)⟩ := ⟨hid, rfl, hsize, hembeds⟩
    refine ⟨⟨?_, hmax, hsub, hinv.fine_insert hrow, hinv.queue⟩, fun id' row hlookup => ?_,
      fun hcomplete hrepairs => ⟨hcomplete.rejected_eq, ?_⟩⟩
    · exact (HashMap.card_keys_insert_le _ _ _).trans hroom
    · have hne : id' ≠ id := by
        rintro rfl
        exact Option.some_ne_none _ (hlookup.symm.trans hnew)
      rwa [Finmap.lookup_insert_of_ne _ hne]
    · exact hinv.index_eq_of_commit hcomplete hrepairs hnew hroom hrow hindex

/-- A step of the queue keeps the invariant and the rows, and the index if a rebuild succeeds. -/
lemma next (hinv : Inv js config hub) (native : Native) :
    Inv js config (hub.next js config native).2 ∧
      (∀ id row, hub.ledger.lookup id = some row →
        (hub.next js config native).2.ledger.lookup id = some row) ∧
      (hub.Complete → (native.add = true ∨ ∀ id, native.rebuild id = true) →
        (hub.next js config native).2.Complete) := by
  rw [CollaborationHub.next]
  cases hqueue : hub.queue with
  | nil => exact ⟨hinv, fun _ _ h => h, fun h _ => h⟩
  | cons action queue =>
    have hsub : ∀ action ∈ queue, action ∈ hub.queue := fun action haction => by
      rw [hqueue]
      exact List.mem_cons_of_mem _ haction
    dsimp only
    split_ifs with hrejected
    · refine ⟨hinv.of_queue false hsub, fun _ _ h => h, fun hcomplete _ => ?_⟩
      exact ⟨rfl, hcomplete.index_eq⟩
    · have hinv' := hinv.of_queue hub.rejected hsub
      cases action with
      | search query k =>
        dsimp only
        rw [perform_search]
        exact ⟨hinv', fun _ _ h => h, fun h _ => ⟨h.rejected_eq, h.index_eq⟩⟩
      | commit id provenance data =>
        have hid : ShortId id :=
          hinv.queue id provenance data (by rw [hqueue]; exact List.mem_cons_self)
        obtain ⟨hcommit, hrows, hcomplete⟩ := hinv'.commit native hid provenance data
        exact ⟨hcommit, hrows, fun h => hcomplete ⟨h.rejected_eq, h.index_eq⟩⟩

/-- A restart keeps the invariant and the rows, and the index if the insertions succeed. -/
lemma restart (hinv : Inv js config hub) (native : String → Bool) :
    Inv js config (hub.restart js config native) ∧
      (∀ id row, hub.ledger.lookup id = some row →
        (hub.restart js config native).ledger.lookup id = some row) ∧
      ((∀ id, native id = true) → (hub.restart js config native).Complete) := by
  obtain ⟨hmax, hsub⟩ := @addAll_sorted_subset js hub.ledger native config.maxEntries
  refine ⟨⟨hinv.card_le, hmax, hsub, hinv.fine, fun _ _ _ h => absurd h List.not_mem_nil⟩,
    fun _ _ h => h, fun hnative => ?_⟩
  have hbuilt := addAll_sorted_of_native hnative hinv.fine hinv.card_le
  refine ⟨?_, ?_⟩
  · show (addAll js native hub.ledger.sorted ⟨config.maxEntries, ∅⟩).1.isSome = false
    rw [hbuilt]
    rfl
  · show (addAll js native hub.ledger.sorted ⟨config.maxEntries, ∅⟩).2.ids = hub.ledger.keys
    rw [hbuilt]

/-- Every operation keeps the invariant and the rows, and the index if rebuilds succeed. -/
lemma step (hlawful : js.Lawful) (hinv : Inv js config hub) (op : Operation) :
    Inv js config (apply js config hub op) ∧
      (∀ id row, hub.ledger.lookup id = some row →
        (apply js config hub op).ledger.lookup id = some row) ∧
      (hub.Complete → Repairs hub op → (apply js config hub op).Complete) := by
  rcases @apply_cases js config op hub with happly | ⟨action, hsubmits, happly⟩ | ⟨native, rfl⟩ |
    ⟨native, rfl⟩
  · rw [happly]
    exact ⟨hinv, fun _ _ h => h, fun h _ => h⟩
  · rw [happly]
    refine ⟨hinv.enqueue fun id provenance data haction => ?_, fun _ _ h => h,
      fun h _ => ⟨h.rejected_eq, h.index_eq⟩⟩
    subst haction
    exact shortId_of_submits hlawful hsubmits
  · exact hinv.next native
  · obtain ⟨hrestart, hrows, hcomplete⟩ := hinv.restart native
    exact ⟨hrestart, hrows, fun _ => hcomplete⟩

end Inv

/-- The hub of a new table has the invariant. -/
lemma inv_new : Inv js config (new config) where
  card_le := Nat.zero_le _
  maxElements_eq := rfl
  index_subset := Finset.empty_subset _
  fine _ _ hlookup := absurd hlookup (by simp [new])
  queue _ _ _ hmem := absurd hmem List.not_mem_nil

/-- The index of a new table agrees with it. -/
lemma complete_new : (new config).Complete where
  rejected_eq := rfl
  index_eq := Finmap.keys_empty.symm

/-! ## Replays -/

/-- The receipt at the head of the queue is written next. -/
lemma next_commit (hrejected : hub.rejected = false) {native : Native} {id provenance : String}
    {data : Json} {rest : List Action} (hqueue : hub.queue = .commit id provenance data :: rest) :
    hub.next js config native =
      (some (hub.dequeue.commit js config native id provenance data).1,
        (hub.dequeue.commit js config native id provenance data).2) := by
  rw [CollaborationHub.next, dequeue, hqueue]
  dsimp only [List.tail_cons]
  rw [if_neg (by simp [hrejected]), perform]

/-- A replay of a stored receipt is found, and one with another hash is refused. -/
lemma replaysExactly (hinv : Inv js config hub) (hcomplete : hub.Complete) {op : Operation}
    (hafter : (apply js config hub op).Complete) : ReplaysExactly js config hub op where
  idempotent native id data rest row hop hqueue hlookup hbody := by
    have hrow := hinv.fine id row hlookup
    rw [next_commit hcomplete.rejected_eq hqueue]
    rcases commit_cases native id "verified-nostr-author" data hub.dequeue hbody with
      ⟨hrefused, -⟩ | ⟨old, -, -, -, -, hcommit⟩ | ⟨hnone, -⟩
    · rcases hrefused with hsize | hembeds | ⟨old, hold, hdigest⟩ | ⟨hnew, -⟩
      · exact absurd hrow.length_le (not_le.mpr hsize)
      · rw [hrow.embeds] at hembeds
        cases hembeds
      · cases hlookup.symm.trans hold
        exact absurd hrow.digest_eq hdigest
      · exact absurd (HashMap.mem_of_lookup hlookup) hnew
    · rw [hcommit, hrow.digest_eq]
    · exact absurd (hlookup.symm.trans hnone) (Option.some_ne_none row)
  refused native id data rest row hop hqueue hlookup hdigest := by
    rw [next_commit hcomplete.rejected_eq hqueue]
    rcases commit_cases native id "verified-nostr-author" data hub.dequeue rfl with
      ⟨-, thrown, hcommit⟩ | ⟨old, hold, hsame, -, -, hcommit⟩ | ⟨hnone, -⟩
    · exact ⟨thrown, by rw [hcommit]⟩
    · cases hlookup.symm.trans hold
      exact absurd hsame.symm hdigest
    · exact absurd (hlookup.symm.trans hnone) (Option.some_ne_none row)
  index_eq := hafter.index_eq

/-- **The hub is durable**: over every run of a hub, receipts stay and do not exceed the capacity,
and the index has none but these. If the insertions of rebuilds succeed, the index has them all, and
a verified event that is stored is found again if it is serialized as before, and refused without an
effect if its receipt has another hash. -/
theorem durable (config : HubConfig) (ops : List Operation) (hlawful : js.Lawful) :
    Runs.Steps (apply js config) (KeepsReceipts js config) (new config) ops ∧
      (Runs.Steps (apply js config) Repairs (new config) ops →
        Runs.Steps (apply js config) (ReplaysExactly js config) (new config) ops) := by
  constructor
  · refine Runs.steps_rule (Inv js config) (fun hub op hinv _ => ?_)
      (Runs.steps_of_forall fun _ _ => trivial) inv_new
    obtain ⟨hstep, hrows, -⟩ := hinv.step hlawful op
    exact ⟨hstep, hrows, hstep.card_le, hstep.index_subset⟩
  · intro hrepairs
    refine Runs.steps_rule (fun hub => Inv js config hub ∧ hub.Complete) (fun hub op h hop => ?_)
      hrepairs ⟨inv_new, complete_new⟩
    obtain ⟨hstep, -, hcomplete⟩ := h.1.step hlawful op
    exact ⟨⟨hstep, hcomplete h.2 hop⟩, replaysExactly h.1 h.2 (hcomplete h.2 hop)⟩

/-! ## One event in two presentations -/

/-- The sample event with a member that is not signed. -/
def notedEvent : Json :=
  .object
    [("kind", .number 1), ("created_at", .number 1000),
      ("tags", .array [.array [.string "t", .string "ruflo-swarm"]]),
      ("content", .string EventBoundary.sampleContent), ("pubkey", .string EventBoundary.sampleKey),
      ("id", .string (String.ofList (List.replicate 64 'e'))),
      ("sig", .string (String.ofList (List.replicate 128 'b'))), ("note", .string "urgent")]

/-- The text of the event with the member. -/
def notedText : String :=
  "\x7b\"kind\":1,\"created_at\":1000,\"tags\":[[\"t\",\"ruflo-swarm\"]],\"content\":" ++
    "\"\x7b\\\"type\\\":\\\"Status\\\"\x7d\",\"pubkey\":\"" ++ EventBoundary.sampleKey ++
    "\",\"id\":\"" ++ String.ofList (List.replicate 64 'e') ++ "\",\"sig\":\"" ++
    String.ofList (List.replicate 128 'b') ++ "\",\"note\":\"urgent\"\x7d"

/-- The identifier of the receipt of the event. -/
def sampleId : String := "nostr:" ++ String.ofList (List.replicate 64 'e')

/-- The text of the receipt of an event with a text. -/
def receiptText (text : String) : String :=
  "\x7b\"id\":\"nostr:" ++ String.ofList (List.replicate 64 'e') ++
    "\",\"provenance\":\"verified-nostr-author\",\"trustedForExecution\":false,\"data\":" ++ text ++
    "\x7d"

/-- An environment with the two presentations of the event and their receipts. -/
def sampleHubRuntime : HubRuntime where
  toRuntime := EventBoundary.sampleRuntime
    ((receiptText EventBoundary.sampleText,
        receipt sampleId "verified-nostr-author" EventBoundary.sampleEvent) ::
      (receiptText notedText, receipt sampleId "verified-nostr-author" notedEvent) ::
      (notedText, notedEvent) :: EventBoundary.sampleTable)
  encode value :=
    receiptText (if ((value.get "data").bind (Json.get "note")).isSome then notedText
      else EventBoundary.sampleText)
  digest text :=
    String.ofList (List.replicate 64 (if text = receiptText notedText then 'd' else 'c'))
  embeds _ := true

/-- A hub with one authorized key. -/
def sampleConfig : HubConfig where
  boundary := EventBoundary.sampleBoundary
  default_eq := rfl
  maxEntries := 10000
  maxEntries_pos := by decide
  maxEntries_le := by decide
  gateway := true
  agentbbs := true

/-- Everything succeeds in the native index. -/
def sampleNative : Native := ⟨true, fun _ => true, []⟩

/-- An event that passes the checks waits to be written. -/
lemma apply_ingestSignedEvent {time : ℚ} {text id : String} {event : Json} (hub : CollaborationHub)
    (hparse : js.parse text = some event) (hid : event.get "id" = some (.string id))
    (hvalid : (EventBoundary.validate js.toRuntime config.boundary time (some text) none).isOk) :
    apply js config hub (.ingestSignedEvent time (some text)) =
      hub.enqueue (.commit ("nostr:" ++ id) "verified-nostr-author" event) := by
  cases hvalidate : EventBoundary.validate js.toRuntime config.boundary time (some text) none with
  | error thrown =>
    rw [hvalidate] at hvalid
    cases hvalid
  | ok verified =>
    obtain ⟨hinput, -, hid', -⟩ := EventBoundary.of_validate_eq_ok hvalidate
    rw [Option.bind_some, hparse] at hinput
    cases hinput
    rw [hid] at hid'
    cases hid'
    rw [apply, ingestSignedEvent, EventBoundary.accept_empty, hvalidate, orSame]

/-- Both presentations pass the checks. -/
lemma isOk_validate_sample :
    (EventBoundary.validate sampleHubRuntime.toRuntime sampleConfig.boundary 1000
        (some EventBoundary.sampleText) none).isOk ∧
      (EventBoundary.validate sampleHubRuntime.toRuntime sampleConfig.boundary 1000
        (some notedText) none).isOk := by
  decide +kernel

/-- The receipts have different texts and hashes. -/
lemma encode_sample :
    sampleHubRuntime.encode (receipt sampleId "verified-nostr-author" EventBoundary.sampleEvent) =
        receiptText EventBoundary.sampleText ∧
      sampleHubRuntime.encode (receipt sampleId "verified-nostr-author" notedEvent) =
        receiptText notedText := by
  have hplain : (((receipt sampleId "verified-nostr-author" EventBoundary.sampleEvent).get
      "data").bind (Json.get "note")).isSome = false := rfl
  have hnoted : (((receipt sampleId "verified-nostr-author" notedEvent).get
      "data").bind (Json.get "note")).isSome = true := rfl
  simp only [sampleHubRuntime, hplain, hnoted, if_true, Bool.false_eq_true, if_false, and_self]

lemma digest_sample :
    sampleHubRuntime.digest (receiptText notedText) ≠
      sampleHubRuntime.digest (receiptText EventBoundary.sampleText) := by
  have hne : receiptText EventBoundary.sampleText ≠ receiptText notedText := by decide +kernel
  simp only [sampleHubRuntime, if_true, if_neg hne]
  decide +kernel

lemma length_sample :
    (Bytes.ofString (receiptText EventBoundary.sampleText)).length ≤ 1048576 ∧
      (Bytes.ofString (receiptText notedText)).length ≤ 1048576 := by
  decide +kernel

/-- The texts of the event and of its receipts. -/
lemma parse_sample :
    sampleHubRuntime.parse EventBoundary.sampleText = some EventBoundary.sampleEvent ∧
      sampleHubRuntime.parse notedText = some notedEvent ∧
      sampleHubRuntime.parse (receiptText notedText) =
        some (receipt sampleId "verified-nostr-author" notedEvent) := by
  have hsample : (EventBoundary.sampleText == receiptText EventBoundary.sampleText) = false ∧
      (EventBoundary.sampleText == receiptText notedText) = false ∧
      (EventBoundary.sampleText == notedText) = false := by decide +kernel
  have hnoted : (notedText == receiptText EventBoundary.sampleText) = false ∧
      (notedText == receiptText notedText) = false := by decide +kernel
  have hreceipt : (receiptText notedText == receiptText EventBoundary.sampleText) = false := by
    decide +kernel
  refine ⟨?_, ?_, ?_⟩
  · simp [sampleHubRuntime, EventBoundary.sampleRuntime, EventBoundary.sampleTable,
      List.lookup_cons, hsample]
  · simp [sampleHubRuntime, EventBoundary.sampleRuntime, List.lookup_cons, hnoted]
  · simp [sampleHubRuntime, EventBoundary.sampleRuntime, List.lookup_cons, hreceipt]

/-- A hub with the receipt of a text. -/
def sampleHub (text : String) (index : RuvectorIndex) : CollaborationHub where
  ledger := (∅ : HashMap String Row).insert sampleId ⟨sampleHubRuntime.digest text, text⟩
  index := index
  rejected := false
  queue := []

/-- A presentation of the event waits to be written. -/
lemma apply_sample {text : String} {event : Json} (hub : CollaborationHub)
    (hparse : sampleHubRuntime.parse text = some event)
    (hid : event.get "id" = some (.string (String.ofList (List.replicate 64 'e'))))
    (hvalid : (EventBoundary.validate sampleHubRuntime.toRuntime sampleConfig.boundary 1000
      (some text) none).isOk) :
    apply sampleHubRuntime sampleConfig hub (.ingestSignedEvent 1000 (some text)) =
      hub.enqueue (.commit sampleId "verified-nostr-author" event) := by
  rw [apply_ingestSignedEvent hub hparse hid hvalid, sampleId]

/-- The first presentation is written. -/
lemma apply_next_sample {text body : String} {event : Json}
    (hparse : sampleHubRuntime.parse text = some event)
    (hid : event.get "id" = some (.string (String.ofList (List.replicate 64 'e'))))
    (hvalid : (EventBoundary.validate sampleHubRuntime.toRuntime sampleConfig.boundary 1000
      (some text) none).isOk)
    (hbody : sampleHubRuntime.encode (receipt sampleId "verified-nostr-author" event) = body)
    (hlength : (Bytes.ofString body).length ≤ 1048576) :
    ∃ index, apply sampleHubRuntime sampleConfig
      (apply sampleHubRuntime sampleConfig (new sampleConfig) (.ingestSignedEvent 1000 (some text)))
      (.next sampleNative) = sampleHub body index := by
  have hnone : (new sampleConfig).ledger.lookup sampleId = none := Finmap.lookup_empty sampleId
  have hroom : (new sampleConfig).ledger.keys.card < sampleConfig.maxEntries := by
    rw [new, Finmap.keys_empty, Finset.card_empty]
    exact sampleConfig.maxEntries_pos
  have hdequeue : (enqueue (.commit sampleId "verified-nostr-author" event)
      (new sampleConfig)).dequeue = new sampleConfig := rfl
  rw [apply_sample (new sampleConfig) hparse hid hvalid, apply, next_commit rfl rfl, hdequeue]
  rcases commit_cases sampleNative sampleId "verified-nostr-author" event (new sampleConfig)
      hbody with
    ⟨hrefused, -⟩ | ⟨old, hold, -⟩ | ⟨-, -, -, -, outcome, index, hcommit, -⟩
  · rcases hrefused with hsize | hembeds | ⟨old, hold, -⟩ | ⟨-, hfull⟩
    · exact absurd hlength (not_le.mpr hsize)
    · cases hembeds
    · rw [hnone] at hold
      cases hold
    · exact absurd hroom (not_lt.mpr hfull)
  · rw [hnone] at hold
    cases hold
  · exact ⟨index, congrArg Prod.snd hcommit⟩

/-- Hashes have 64 digits in the sample. -/
lemma lawful_sampleHubRuntime : sampleHubRuntime.Lawful where
  digest_length text := by
    refine Bytes.length_ofString_replicate 64 ?_
    split_ifs <;> rfl
  id_length event id hverify hid := by
    obtain ⟨parts, hsigned⟩ :=
      EventBoundary.sampleNostr.verifies_verifyEvent sampleHubRuntime.parse event hverify
    have hhash : event.get "id" = some (.string (String.ofList (List.replicate 64 'e'))) :=
      hsigned.1 "id" (by simp)
    rw [hid] at hhash
    rw [Json.string.inj (Option.some.inj hhash)]
    exact Bytes.length_ofString_replicate 64 rfl

/-- The theorem at a run with both presentations. -/
theorem durable_sample :
    Runs.Steps (apply sampleHubRuntime sampleConfig)
        (KeepsReceipts sampleHubRuntime sampleConfig) (new sampleConfig)
        [.ingestSignedEvent 1000 (some EventBoundary.sampleText), .next sampleNative,
          .ingestSignedEvent 1000 (some notedText), .next sampleNative] ∧
      Runs.Steps (apply sampleHubRuntime sampleConfig)
        (ReplaysExactly sampleHubRuntime sampleConfig) (new sampleConfig)
        [.ingestSignedEvent 1000 (some EventBoundary.sampleText), .next sampleNative,
          .ingestSignedEvent 1000 (some notedText), .next sampleNative] := by
  obtain ⟨hkeeps, hreplays⟩ := durable sampleConfig
    [.ingestSignedEvent 1000 (some EventBoundary.sampleText), .next sampleNative,
      .ingestSignedEvent 1000 (some notedText), .next sampleNative] lawful_sampleHubRuntime
  exact ⟨hkeeps, hreplays ⟨trivial, Or.inl rfl, trivial, Or.inl rfl, trivial⟩⟩

/-- The second presentation is refused, and a rebuild whose insertions fail leaves the index without
the receipt. -/
theorem not_durableReplay_sample :
    ¬ Runs.Steps (apply sampleHubRuntime sampleConfig)
        (DurableReplay sampleHubRuntime sampleConfig) (new sampleConfig)
        [.ingestSignedEvent 1000 (some EventBoundary.sampleText), .next sampleNative,
          .ingestSignedEvent 1000 (some notedText), .next sampleNative] ∧
      ¬ Runs.Steps (apply sampleHubRuntime sampleConfig)
        (DurableReplay sampleHubRuntime sampleConfig) (new sampleConfig)
        [.ingestSignedEvent 1000 (some EventBoundary.sampleText), .next sampleNative,
          .restart fun _ => false] := by
  obtain ⟨index, hhub⟩ := apply_next_sample parse_sample.1 rfl isOk_validate_sample.1
    encode_sample.1 length_sample.1
  have hlookup : (sampleHub (receiptText EventBoundary.sampleText) index).ledger.lookup sampleId =
      some ⟨sampleHubRuntime.digest (receiptText EventBoundary.sampleText),
        receiptText EventBoundary.sampleText⟩ := Finmap.lookup_insert _
  constructor
  · rintro ⟨-, -, -, hreplay, -⟩
    have hdequeue : (enqueue (.commit sampleId "verified-nostr-author" notedEvent)
        (sampleHub (receiptText EventBoundary.sampleText) index)).dequeue =
          sampleHub (receiptText EventBoundary.sampleText) index := rfl
    rw [hhub, apply_sample _ parse_sample.2.1 rfl isOk_validate_sample.2] at hreplay
    obtain ⟨digest, hfound⟩ := hreplay.idempotent sampleNative sampleId notedEvent [] rfl rfl
      (HashMap.mem_of_lookup (Finmap.lookup_insert _))
    rw [next_commit rfl rfl, hdequeue] at hfound
    rcases @commit_cases sampleHubRuntime sampleConfig sampleNative sampleId
        "verified-nostr-author" notedEvent (sampleHub (receiptText EventBoundary.sampleText) index)
        _ encode_sample.2 with
      ⟨-, thrown, hcommit⟩ | ⟨old, hold, hdigest, -⟩ | ⟨hnone, -⟩
    · rw [hcommit] at hfound
      cases hfound
    · have hrow := Option.some.inj (hlookup.symm.trans hold)
      rw [← hrow] at hdigest
      exact digest_sample hdigest.symm
    · exact Option.some_ne_none _ (hlookup.symm.trans hnone)
  · rintro ⟨-, -, hreplay, -⟩
    rw [hhub] at hreplay
    have hindex := hreplay.index_eq rfl
    have hmem : sampleId ∈ (apply sampleHubRuntime sampleConfig
        (sampleHub (receiptText EventBoundary.sampleText) index)
        (.restart fun _ => false)).index.ids := by
      rw [hindex, Finmap.mem_keys]
      exact HashMap.mem_of_lookup hlookup
    rcases (addAll_subset (fun _ => false) _ _).2 sampleId hmem with hold | ⟨-, hnative⟩
    · exact absurd hold (Finset.notMem_empty _)
    · cases hnative

end CollaborationHub

end QuDAG.Integrations
