import QuDAG.Integrations.DurableReceipts

/-!
# What a receipt of a signed event says

The boundary verifies the members of an event that its signature covers, and returns the whole
object. A receipt with the provenance of a verified author therefore has every other member of the
event that was presented, signed or not. It has only signed data iff there was none.

## Main definitions

* `OnlySigned` — the data are what the signature covers.
* `NoOtherMembers` — an event has the members of Nostr events only.
* `CollaborationHub.SignedReceipts` — what holds of the receipts of a run.

## Main results

* `onlySigned_iff` — the data are signed iff there are no other members.
* `CollaborationHub.signedReceipts` — what holds of the receipts of every run.
-/

namespace QuDAG.Integrations

open RustStd

/-- Every member but the signature is one of those that the signature covers. -/
def OnlySigned (nostr : Nostr) (data : Json) : Prop :=
  ∃ parts, nostr.Signed data parts ∧
    ∀ name, name ≠ "sig" → data.get name = (nostr.core parts).get name

/-- The event has the members of a Nostr event only. -/
def NoOtherMembers (event : Json) : Prop :=
  ∀ name, (event.get name).isSome →
    name ∈ ["id", "pubkey", "created_at", "kind", "tags", "content", "sig"]

/-- What the signature covers has these members only. -/
lemma Nostr.get_core_eq_none (nostr : Nostr) (parts : SignedParts) {name : String}
    (hname : name ∉ ["id", "pubkey", "created_at", "kind", "tags", "content"]) :
    (nostr.core parts).get name = none := by
  simp only [List.mem_cons, List.not_mem_nil, or_false, not_or] at hname
  obtain ⟨hid, hpubkey, hcreatedAt, hkind, htags, hcontent⟩ := hname
  simp [Nostr.core, Json.get, List.lookup_cons, beq_eq_false_iff_ne.mpr hid,
    beq_eq_false_iff_ne.mpr hpubkey, beq_eq_false_iff_ne.mpr hcreatedAt,
    beq_eq_false_iff_ne.mpr hkind, beq_eq_false_iff_ne.mpr htags,
    beq_eq_false_iff_ne.mpr hcontent]

/-- **A signed event has only signed data iff it has no other members.** -/
theorem onlySigned_iff {nostr : Nostr} {event : Json} {parts : SignedParts}
    (h : nostr.Signed event parts) : OnlySigned nostr event ↔ NoOtherMembers event := by
  constructor
  · rintro ⟨parts', -, hcore⟩ name hname
    by_contra hother
    simp only [List.mem_cons, List.not_mem_nil, or_false, not_or] at hother
    have hnone : event.get name = none := by
      rw [hcore name hother.2.2.2.2.2.2]
      exact nostr.get_core_eq_none parts' (by simp [hother])
    rw [hnone] at hname
    cases hname
  · intro hmembers
    refine ⟨parts, h, fun name hsig => ?_⟩
    by_cases hcovered : name ∈ ["id", "pubkey", "created_at", "kind", "tags", "content"]
    · exact h.1 name hcovered
    · rw [nostr.get_core_eq_none parts hcovered]
      by_contra hsome
      have hmem := hmembers name (Option.isSome_iff_ne_none.mpr hsome)
      simp only [List.mem_cons, List.not_mem_nil, or_false] at hmem hcovered
      tauto

namespace CollaborationHub

variable (js : HubRuntime) (config : HubConfig)

/-- `JSON.parse` reads what `JSON.stringify` has written, for the receipts of the operations. -/
def ReadsBack (ops : List Operation) : Prop :=
  ∀ op ∈ ops, ∀ id provenance data, Submits js config op (.commit id provenance data) →
    js.parse (js.encode (receipt id provenance data)) = some (receipt id provenance data)

/-- The event is that of an input that was ingested and passed the checks. -/
def Ingested (ops : List Operation) (id : String) (event : Json) : Prop :=
  ∃ time input verified, .ingestSignedEvent time input ∈ ops ∧
    EventBoundary.validate js.toRuntime config.boundary time input none = .ok verified ∧
    id = "nostr:" ++ verified.eventId ∧ event = verified.event

/-- Receipts with the provenance of a verified author come from events that were ingested, and have
only signed data iff these have no other members. Drafts quote such receipts only. What the gateway
or the board has returned never gets that provenance. -/
structure SignedReceipts (nostr : Nostr) (ops : List Operation) : Prop where
  signed_iff : ∀ id receipt, (after js config ops).get js id = some receipt →
    receipt.get "provenance" = some (.string "verified-nostr-author") →
    ∃ data, receipt.get "data" = some data ∧ Ingested js config ops id data ∧
      (OnlySigned nostr data ↔ NoOtherMembers data)
  drafted : ∀ id board draft, (after js config ops).draft js id board = .ok draft →
    ∃ notice receipt, (after js config ops).get js id = some receipt ∧
      receipt.get "provenance" = some (.string "verified-nostr-author") ∧
      draft.text = js.encode (.object [("notice", notice), ("receipt", receipt)])
  observed : ∀ op ∈ ops, ∀ id provenance data, Submits js config op (.commit id provenance data) →
    (∀ time input, op ≠ .ingestSignedEvent time input) →
    provenance ≠ "verified-nostr-author" ∧
      ∀ receipt, (after js config ops).get js id = some receipt →
        receipt.get "provenance" ≠ some (.string "verified-nostr-author")

/-! ## Where receipts come from -/

/-- What waits or is stored comes from a call. -/
structure FromCalls (ops : List Operation) (hub : CollaborationHub) : Prop where
  queue : ∀ action ∈ hub.queue, ∃ op ∈ ops, Submits js config op action
  ledger : ∀ id row, hub.ledger.lookup id = some row →
    ∃ op ∈ ops, ∃ provenance data, Submits js config op (.commit id provenance data) ∧
      row.body = js.encode (receipt id provenance data)

variable {js config} {hub : CollaborationHub} {ops : List Operation} {op : Operation}

namespace FromCalls

/-- More operations keep what there was. -/
lemma mono (h : FromCalls js config ops hub) (op : Operation) :
    FromCalls js config (ops ++ [op]) hub where
  queue action haction := by
    obtain ⟨op', hop', hsubmits⟩ := h.queue action haction
    exact ⟨op', List.mem_append_left _ hop', hsubmits⟩
  ledger id row hlookup := by
    obtain ⟨op', hop', hrow⟩ := h.ledger id row hlookup
    exact ⟨op', List.mem_append_left _ hop', hrow⟩

/-- A receipt that is written comes from the action. -/
lemma commit (h : FromCalls js config ops hub) (native : Native) {id provenance : String}
    {data : Json} (hop : ∃ op ∈ ops, Submits js config op (.commit id provenance data)) :
    FromCalls js config ops (hub.commit js config native id provenance data).2 := by
  rcases commit_cases native id provenance data hub rfl with ⟨-, thrown, hcommit⟩ |
    ⟨old, -, -, -, -, hcommit⟩ | ⟨-, -, -, -, outcome, index, hcommit, -⟩
  · rw [hcommit]
    exact h
  · rw [hcommit]
    exact h
  · rw [hcommit]
    refine ⟨h.queue, fun id' row hlookup => ?_⟩
    rw [HashMap.lookup_insert_ite] at hlookup
    split_ifs at hlookup with heq
    · subst heq
      cases hlookup
      obtain ⟨op, hop, hsubmits⟩ := hop
      exact ⟨op, hop, provenance, data, hsubmits, rfl⟩
    · exact h.ledger id' row hlookup

/-- A step of the queue writes the receipt of an action that waits. -/
lemma next (h : FromCalls js config ops hub) (native : Native) :
    FromCalls js config ops (hub.next js config native).2 := by
  rw [CollaborationHub.next]
  cases hqueue : hub.queue with
  | nil => exact h
  | cons action queue =>
    have htail : FromCalls js config ops { hub with queue := queue } := by
      refine ⟨fun action' haction' => h.queue action' ?_, h.ledger⟩
      rw [hqueue]
      exact List.mem_cons_of_mem _ haction'
    dsimp only
    split_ifs
    · exact ⟨htail.queue, htail.ledger⟩
    · cases action with
      | search query k =>
        dsimp only
        rw [perform_search]
        exact htail
      | commit id provenance data =>
        exact htail.commit native (h.queue _ (by rw [hqueue]; exact List.mem_cons_self))

/-- Every operation keeps this. -/
lemma step (h : FromCalls js config ops hub) (op : Operation) :
    FromCalls js config (ops ++ [op]) (apply js config hub op) := by
  have hmono := h.mono op
  rcases @apply_cases js config op hub with happly | ⟨action, hsubmits, happly⟩ | ⟨native, rfl⟩ |
    ⟨native, rfl⟩
  · rw [happly]
    exact hmono
  · rw [happly]
    refine ⟨fun action' haction' => ?_, hmono.ledger⟩
    rcases List.mem_append.mp haction' with hold | hnew
    · exact hmono.queue action' hold
    · rw [List.mem_singleton.mp hnew]
      exact ⟨op, by simp, hsubmits⟩
  · exact hmono.next native
  · exact ⟨fun _ haction => absurd haction List.not_mem_nil, hmono.ledger⟩

end FromCalls

/-- After a run, what waits or is stored comes from a call. -/
theorem fromCalls_after (ops : List Operation) :
    FromCalls js config ops (after js config ops) := by
  refine Runs.history_rule (fun ops hub => FromCalls js config ops hub) (V := fun _ => True)
    (fun _ _ _ => trivial) ?_ (fun past op _ h => h.step op) trivial
  exact ⟨fun _ haction => absurd haction List.not_mem_nil,
    fun _ _ hlookup => absurd hlookup (by simp [new])⟩

/-- A receipt that is read is one that a call lets be written. -/
lemma exists_of_get (hreads : ReadsBack js config ops) {id : String} {value : Json}
    (h : (after js config ops).get js id = some value) :
    ∃ op ∈ ops, ∃ provenance data, Submits js config op (.commit id provenance data) ∧
      value = receipt id provenance data := by
  obtain ⟨row, hlookup, hparse⟩ := Option.bind_eq_some_iff.mp h
  obtain ⟨op, hop, provenance, data, hsubmits, hbody⟩ := (fromCalls_after ops).ledger id row hlookup
  rw [hbody, hreads op hop id provenance data hsubmits] at hparse
  exact ⟨op, hop, provenance, data, hsubmits, (Option.some.inj hparse).symm⟩

/-- The members of a receipt. -/
lemma get_receipt (id provenance : String) (data : Json) :
    (receipt id provenance data).get "provenance" = some (.string provenance) ∧
      (receipt id provenance data).get "data" = some data :=
  ⟨rfl, rfl⟩

/-! ## Provenance -/

/-- Calls for events let receipts of verified authors be written, and other calls do not. -/
lemma Submits.provenance {id provenance : String} {data : Json}
    (h : Submits js config op (.commit id provenance data)) :
    (∃ time input verified, op = .ingestSignedEvent time input ∧
      EventBoundary.validate js.toRuntime config.boundary time input none = .ok verified ∧
      id = "nostr:" ++ verified.eventId ∧ provenance = "verified-nostr-author" ∧
      data = verified.event) ∨
    (∀ time input, op ≠ .ingestSignedEvent time input) ∧ provenance ≠ "verified-nostr-author" ∧
      (id.toList.head? = some 'g' ∨ id.toList.head? = some 'a') := by
  cases h with
  | ingest hvalidate => exact Or.inl ⟨_, _, _, rfl, hvalidate, rfl, rfl, rfl⟩
  | gateway result =>
    refine Or.inr ⟨fun _ _ => nofun, by decide, Or.inl ?_⟩
    simp [String.toList_append]
  | board board result =>
    refine Or.inr ⟨fun _ _ => nofun, by decide, Or.inr ?_⟩
    simp [String.toList_append]

/-- **Receipts of verified authors**: in every run, such a receipt comes from an event that was
ingested, and has only signed data iff this event has no other members. Drafts quote such receipts
only, and observations are never among them. -/
theorem signedReceipts (nostr : Nostr) (config : HubConfig) (ops : List Operation)
    (hverifies : nostr.Verifies js.toRuntime) (hreads : ReadsBack js config ops) :
    SignedReceipts js config nostr ops where
  signed_iff id value hget hprovenance := by
    obtain ⟨op, hop, provenance, data, hsubmits, rfl⟩ := exists_of_get hreads hget
    rw [(get_receipt id provenance data).1] at hprovenance
    cases hprovenance
    rcases hsubmits.provenance with ⟨time, input, verified, rfl, hvalidate, hid, -, rfl⟩ |
      ⟨-, hother, -⟩
    · obtain ⟨-, hverify, -⟩ := EventBoundary.of_validate_eq_ok hvalidate
      obtain ⟨parts, hsigned⟩ := hverifies _ hverify
      exact ⟨_, (get_receipt id _ _).2, ⟨time, input, verified, hop, hvalidate, hid, rfl⟩,
        onlySigned_iff hsigned⟩
    · exact absurd rfl hother
  drafted id board draft hdraft := by
    simp only [CollaborationHub.draft, bind_eq_ok, require_eq_ok, orThrow_eq_ok,
      beq_iff_eq] at hdraft
    obtain ⟨_, -, value, hget, _, hprovenance, hdraft⟩ := hdraft
    cases hdraft
    exact ⟨_, value, hget, get_of_asStr (Option.bind_eq_some_iff.mp hprovenance), rfl⟩
  observed op hop id provenance data hsubmits hother := by
    rcases hsubmits.provenance with ⟨time, input, _, rfl, -⟩ | ⟨-, hne, hhead⟩
    · exact absurd rfl (hother time input)
    · refine ⟨hne, fun value hget hprovenance => ?_⟩
      obtain ⟨op', hop', provenance', data', hsubmits', rfl⟩ := exists_of_get hreads hget
      rw [(get_receipt id provenance' data').1] at hprovenance
      cases hprovenance
      rcases hsubmits'.provenance with ⟨_, _, verified, -, -, rfl, -, -⟩ | ⟨-, hne', -⟩
      · simp [String.toList_append] at hhead
      · exact hne' rfl

/-! ## An event with a member that is not signed -/

/-- Operations that ingest the event with the member. -/
def sampleOps : List Operation :=
  [.ingestSignedEvent 1000 (some notedText), .next sampleNative]

/-- The receipt of the event is read as it was written. -/
lemma readsBack_sampleOps : ReadsBack sampleHubRuntime sampleConfig sampleOps := by
  intro op hop id provenance data hsubmits
  rcases hsubmits.provenance with ⟨time, input, verified, rfl, hvalidate, rfl, rfl, rfl⟩ |
    ⟨hother, -⟩
  · have hinput : input = some notedText := by
      rcases List.mem_pair.mp hop with heq | heq
      · exact (Operation.ingestSignedEvent.inj heq).2
      · cases heq
    obtain ⟨hevent, -, hid, -⟩ := EventBoundary.of_validate_eq_ok hvalidate
    rw [hinput, Option.bind_some, parse_sample.2.1] at hevent
    have hnoted := Option.some.inj hevent
    have heventId : verified.eventId = String.ofList (List.replicate 64 'e') := by
      rw [← hnoted] at hid
      exact (Json.string.inj (Option.some.inj hid)).symm
    rw [← hnoted, heventId, ← sampleId, encode_sample.2, parse_sample.2.2]
  · rcases List.mem_pair.mp hop with rfl | rfl
    · exact absurd rfl (hother _ _)
    · cases hsubmits

/-- The theorem at the operations. -/
theorem signedReceipts_sampleOps :
    SignedReceipts sampleHubRuntime sampleConfig EventBoundary.sampleNostr sampleOps :=
  signedReceipts EventBoundary.sampleNostr sampleConfig sampleOps
    (EventBoundary.sampleNostr.verifies_verifyEvent _) readsBack_sampleOps

/-- The receipt of the event has the member, under the provenance of the author. -/
theorem not_onlySigned_notedEvent :
    EventBoundary.sampleNostr.Verifies sampleHubRuntime.toRuntime ∧
      ReadsBack sampleHubRuntime sampleConfig sampleOps ∧
      ∃ value, (after sampleHubRuntime sampleConfig sampleOps).get sampleHubRuntime sampleId =
          some value ∧
        value.get "provenance" = some (.string "verified-nostr-author") ∧
        value.get "data" = some notedEvent ∧
        ¬ OnlySigned EventBoundary.sampleNostr notedEvent := by
  obtain ⟨index, hhub⟩ := apply_next_sample parse_sample.2.1 rfl isOk_validate_sample.2
    encode_sample.2 length_sample.2
  have hafter : after sampleHubRuntime sampleConfig sampleOps =
      sampleHub (receiptText notedText) index := hhub
  have hget : (after sampleHubRuntime sampleConfig sampleOps).get sampleHubRuntime sampleId =
      some (receipt sampleId "verified-nostr-author" notedEvent) := by
    have hlookup : (sampleHub (receiptText notedText) index).ledger.lookup sampleId =
        some ⟨sampleHubRuntime.digest (receiptText notedText), receiptText notedText⟩ :=
      Finmap.lookup_insert _
    rw [hafter, get, hlookup, Option.bind_some, parse_sample.2.2]
  refine ⟨EventBoundary.sampleNostr.verifies_verifyEvent _, readsBack_sampleOps, _, hget,
    (get_receipt _ _ _).1, (get_receipt _ _ _).2, ?_⟩
  rintro ⟨parts, -, hcore⟩
  have hnote : notedEvent.get "note" = none := by
    rw [hcore "note" (by decide)]
    exact EventBoundary.sampleNostr.get_core_eq_none parts (by decide)
  cases hnote

end CollaborationHub

end QuDAG.Integrations
