import QuDAG.Integrations.FederationClient

/-!
# The order of the handshake of a federation client

A request of a handshake is in flight only while the handshake goes on, and there is one at a time.
A client that says it is ready may still wait for the answer to its notification.

## Main definitions

* `Initialized` — the notification of the session has completed.
* `Handshaking` — the invariant of the handshakes.

## Main results

-/

namespace QuDAG.Integrations.Federation

open RustStd

/-! ## Requests -/

/-- The handshake that a request belongs to. -/
def Purpose.handshake : Purpose → Option ℕ
  | .initializeRequest handshake => some handshake
  | .initialized handshake => some handshake
  | _ => none

/-- The request is not done. -/
def Request.InFlight (r : Request) : Prop := ∀ ok, r.status ≠ .done ok

/-- A request for a purpose is in flight. -/
def Flying (requests : HashMap ℕ Request) (n : ℕ) (purpose : Purpose) : Prop :=
  ∃ r, requests.lookup n = some r ∧ r.InFlight ∧ r.purpose = purpose

/-- No `initialize` request was sent after the request with a number. -/
def NoneAfter (requests : HashMap ℕ Request) (n : ℕ) : Prop :=
  ∀ m r h, n < m → requests.lookup m = some r → r.purpose ≠ .initializeRequest h

/-- The notification of the current session has completed: it was sent after all `initialize`
requests. -/
def Initialized (requests : HashMap ℕ Request) : Prop :=
  ∃ n r h, requests.lookup n = some r ∧ r.purpose = .initialized h ∧ r.status = .done true ∧
    NoneAfter requests n

section Requests

variable {requests : HashMap ℕ Request} {n m : ℕ} {r : Request} {purpose : Purpose}

/-- The requests in flight after one of them has been written. -/
lemma flying_insert : Flying (requests.insert m r) n purpose ↔
    n = m ∧ r.InFlight ∧ r.purpose = purpose ∨ n ≠ m ∧ Flying requests n purpose := by
  simp only [Flying, HashMap.lookup_insert_ite]
  by_cases heq : n = m
  · simp [heq]
  · simp [heq]

/-- A request that is done is not in flight. -/
lemma not_inFlight_done (ok : Bool) : ¬ ({ r with status := .done ok } : Request).InFlight :=
  fun h => h ok rfl

/-- A request that is written again is sent no later. -/
lemma NoneAfter.insert (h : NoneAfter requests n)
    (hr : n < m → ∀ handshake, r.purpose ≠ .initializeRequest handshake) :
    NoneAfter (requests.insert m r) n := by
  intro m' r' handshake hlt hr'
  rw [HashMap.lookup_insert_ite] at hr'
  split_ifs at hr' with heq
  · obtain rfl := Option.some.inj hr'
    exact hr (heq ▸ hlt) handshake
  · exact h m' r' handshake hlt hr'

/-- A session stays initialized while the requests that change are not done, and none of them is an
`initialize` request that was not there. -/
lemma Initialized.insert (h : Initialized requests)
    (hdone : ∀ r', requests.lookup m = some r' → r'.InFlight)
    (hr : ∀ handshake, r.purpose = .initializeRequest handshake →
      ∃ r', requests.lookup m = some r' ∧ r'.purpose = .initializeRequest handshake) :
    Initialized (requests.insert m r) := by
  obtain ⟨n, r', handshake, hr', hpurpose, hstatus, hnone⟩ := h
  have hne : n ≠ m := by
    rintro rfl
    exact hdone r' hr' true hstatus
  refine ⟨n, r', handshake, ?_, hpurpose, hstatus, hnone.insert fun hlt handshake' heq => ?_⟩
  · rw [HashMap.lookup_insert_ite, if_neg hne]
    exact hr'
  · obtain ⟨r'', hr'', hpurpose''⟩ := hr handshake' heq
    exact hnone m r'' handshake' hlt hr'' hpurpose''

end Requests

/-! ## The invariant -/

/-- What connects the fields of a client with its requests and its handshakes. -/
structure Handshaking (ready : Bool) (opening : Option ℕ) (requests : HashMap ℕ Request)
    (sent : ℕ) (handshakes : HashMap ℕ (Option (Except Thrown Unit))) (started : ℕ) : Prop where
  sent_lt : ∀ {n}, n ∈ requests → n < sent
  started_lt : ∀ {h}, h ∈ handshakes → h < started
  opening_last : ∀ {h}, opening = some h → h + 1 = started
  /-- The handshake that goes on is in the field `opening`. -/
  going_on : ∀ {h}, handshakes.lookup h = some none → opening = some h
  /-- The request of a handshake is in flight while the handshake goes on. -/
  flight : ∀ {n p h}, Flying requests n p → p.handshake = some h → handshakes.lookup h = some none
  flight_unique : ∀ {n n' p p' h h'}, Flying requests n p → p.handshake = some h →
    Flying requests n' p' → p'.handshake = some h' → n = n'
  initializing : ∀ {n h}, Flying requests n (.initializeRequest h) → ready = false
  notifying : ∀ {n h}, Flying requests n (.initialized h) → ready = true ∧ NoneAfter requests n
  /-- A client that is ready has a session, or waits for the answer to its notification. -/
  of_ready : ready = true → (∃ h, handshakes.lookup h = some (some (.ok ()))) ∨
    ∃ n h, Flying requests n (.initialized h)
  succeeded : ∀ {h}, handshakes.lookup h = some (some (.ok ())) →
    ready = true ∧ h + 1 = started ∧ Initialized requests

namespace Handshaking

variable {ready : Bool} {opening : Option ℕ} {requests : HashMap ℕ Request} {sent : ℕ}
  {handshakes : HashMap ℕ (Option (Except Thrown Unit))} {started n handshake : ℕ} {r : Request}

/-- A number that was not used has no request, and one that was used is not that of the next. -/
lemma lookup_sent (h : Handshaking ready opening requests sent handshakes started) :
    requests.lookup sent = none :=
  Finmap.lookup_eq_none.mpr fun hmem => lt_irrefl _ (h.sent_lt hmem)

/-- The next handshake has not started. -/
lemma lookup_started (h : Handshaking ready opening requests sent handshakes started) :
    handshakes.lookup started = none :=
  Finmap.lookup_eq_none.mpr fun hmem => lt_irrefl _ (h.started_lt hmem)

/-- Requests that leave those of the handshakes as they were. -/
lemma transfer (h : Handshaking ready opening requests sent handshakes started)
    {requests' : HashMap ℕ Request} {sent' : ℕ} (hsent : ∀ {n}, n ∈ requests' → n < sent')
    (hflying : ∀ {n p h'}, p.handshake = some h' → (Flying requests' n p ↔ Flying requests n p))
    (hnone : ∀ {n}, n ∈ requests → NoneAfter requests n → NoneAfter requests' n)
    (hinit : Initialized requests → Initialized requests') :
    Handshaking ready opening requests' sent' handshakes started where
  sent_lt := hsent
  started_lt := h.started_lt
  opening_last := h.opening_last
  going_on := h.going_on
  flight := fun hfly hp => h.flight ((hflying hp).mp hfly) hp
  flight_unique := fun hfly hp hfly' hp' =>
    h.flight_unique ((hflying hp).mp hfly) hp ((hflying hp').mp hfly') hp'
  initializing := fun hfly => h.initializing ((hflying rfl).mp hfly)
  notifying := fun hfly => by
    have hfly' := (hflying rfl).mp hfly
    have ⟨_, hr, _⟩ := hfly'
    exact (h.notifying hfly').imp_right (hnone (HashMap.mem_of_lookup hr))
  of_ready := fun hready => by
    refine (h.of_ready hready).imp_right ?_
    rintro ⟨n, h', hfly⟩
    exact ⟨n, h', (hflying rfl).mpr hfly⟩
  succeeded := fun hok => (h.succeeded hok).imp_right fun h' => h'.imp_right hinit

/-- A request that changes its status is still in flight, or belongs to no handshake. -/
lemma change (h : Handshaking ready opening requests sent handshakes started)
    (hr : requests.lookup n = some r) (hflight : r.InFlight) (status : Status)
    (hstatus : r.purpose.handshake ≠ none → ({ r with status := status } : Request).InFlight) :
    Handshaking ready opening (requests.insert n { r with status := status }) sent handshakes
      started := by
  refine h.transfer (fun {n'} hn' => ?_) (fun {n' p h'} hp => ?_) (fun {n'} _ hnone => ?_)
    fun hinit => ?_
  · rcases Finmap.mem_insert.mp hn' with rfl | hn'
    · exact h.sent_lt (HashMap.mem_of_lookup hr)
    · exact h.sent_lt hn'
  · rw [flying_insert]
    constructor
    · rintro (⟨rfl, -, hpurpose⟩ | ⟨-, hfly⟩)
      · exact ⟨r, hr, hflight, hpurpose⟩
      · exact hfly
    · rintro ⟨r', hr', hflight', rfl⟩
      by_cases heq : n' = n
      · obtain rfl : r = r' := Option.some.inj (hr.symm.trans (heq ▸ hr'))
        exact .inl ⟨heq, hstatus (by rw [hp]; exact Option.some_ne_none _), rfl⟩
      · exact .inr ⟨heq, r', hr', hflight', rfl⟩
  · exact hnone.insert fun hlt handshake heq => hnone n r handshake hlt hr heq
  · refine hinit.insert (fun r' hr' => ?_) fun handshake heq => ⟨r, hr, heq⟩
    exact Option.some.inj (hr.symm.trans hr') ▸ hflight

/-- A request that belongs to no handshake is sent. -/
lemma send (h : Handshaking ready opening requests sent handshakes started)
    (hr : r.purpose.handshake = none) :
    Handshaking ready opening (requests.insert sent r) (sent + 1) handshakes started := by
  have hnot : ∀ handshake, r.purpose ≠ .initializeRequest handshake := fun handshake heq => by
    rw [heq] at hr
    exact nomatch hr
  refine h.transfer (fun {n'} hn' => ?_) (fun {n' p h'} hp => ?_) (fun {n'} _ hnone => ?_)
    fun hinit => ?_
  · rcases Finmap.mem_insert.mp hn' with rfl | hn'
    · exact Nat.lt_succ_self _
    · exact Nat.lt_succ_of_lt (h.sent_lt hn')
  · rw [flying_insert]
    constructor
    · rintro (⟨-, -, rfl⟩ | ⟨-, hfly⟩)
      · exact nomatch hr.symm.trans hp
      · exact hfly
    · rintro ⟨r', hr', hfly⟩
      refine .inr ⟨?_, r', hr', hfly⟩
      rintro rfl
      exact nomatch h.lookup_sent.symm.trans hr'
  · exact hnone.insert fun _ => hnot
  · refine hinit.insert (fun r' hr' => ?_) fun handshake heq => absurd heq (hnot handshake)
    exact nomatch h.lookup_sent.symm.trans hr'

/-- A handshake starts: its `initialize` request is the only one of a handshake in flight. -/
lemma openSession (h : Handshaking false none requests sent handshakes started)
    (hr : r.purpose = .initializeRequest started) :
    Handshaking false (some started) (requests.insert sent r) (sent + 1)
      (handshakes.insert started none) (started + 1) := by
  have hnone : ∀ {n p h'}, p.handshake = some h' → ¬ Flying requests n p :=
    fun hp hfly => nomatch h.going_on (h.flight hfly hp)
  have hflying : ∀ {n p h'}, p.handshake = some h' → Flying (requests.insert sent r) n p →
      n = sent ∧ p = .initializeRequest started := by
    intro n p h' hp hfly
    rcases flying_insert.mp hfly with ⟨heq, -, hpurpose⟩ | ⟨-, hfly⟩
    · exact ⟨heq, hpurpose.symm.trans hr⟩
    · exact absurd hfly (hnone hp)
  refine ⟨fun {n'} hn' => ?_, fun {h'} hh' => ?_, fun heq => ?_, fun {h'} hh' => ?_,
    fun {n' p h'} hfly hp => ?_, fun hfly hp hfly' hp' => ?_, fun _ => rfl, fun hfly => ?_,
    fun hready => (nomatch hready), fun {h'} hok => ?_⟩
  · rcases Finmap.mem_insert.mp hn' with rfl | hn'
    · exact Nat.lt_succ_self _
    · exact Nat.lt_succ_of_lt (h.sent_lt hn')
  · rcases Finmap.mem_insert.mp hh' with rfl | hh'
    · exact Nat.lt_succ_self _
    · exact Nat.lt_succ_of_lt (h.started_lt hh')
  · rw [Option.some.inj heq]
  · rw [HashMap.lookup_insert_ite] at hh'
    split_ifs at hh' with heq
    · rw [heq]
    · exact nomatch h.going_on hh'
  · obtain ⟨-, rfl⟩ := hflying hp hfly
    obtain rfl := Option.some.inj hp
    exact Finmap.lookup_insert _
  · rw [(hflying hp hfly).1, (hflying hp' hfly').1]
  · exact nomatch (hflying rfl hfly).2
  · rw [HashMap.lookup_insert_ite] at hok
    split_ifs at hok
    · exact nomatch hok
    · exact nomatch (h.succeeded hok).1

/-- The `initialize` request succeeds, and the notification is sent. -/
lemma notify (h : Handshaking ready opening requests sent handshakes started)
    (hr : requests.lookup n = some r) (hflight : r.InFlight)
    (hpurpose : r.purpose = .initializeRequest handshake) (ok : Bool) {r' : Request}
    (hr' : r'.purpose = .initialized handshake) (hstatus : r'.InFlight) :
    Handshaking true opening ((requests.insert n { r with status := .done ok }).insert sent r')
      (sent + 1) handshakes started := by
  have hfly : Flying requests n (.initializeRequest handshake) := ⟨r, hr, hflight, hpurpose⟩
  have hready : ready = false := h.initializing hfly
  have hn : n < sent := h.sent_lt (HashMap.mem_of_lookup hr)
  have hlt : ∀ {n'}, n' ∈ requests.insert n { r with status := .done ok } → n' < sent := by
    intro n' hn'
    rcases Finmap.mem_insert.mp hn' with rfl | hn'
    · exact hn
    · exact h.sent_lt hn'
  have hflying : ∀ {n' p h'}, p.handshake = some h' →
      Flying ((requests.insert n { r with status := .done ok }).insert sent r') n' p →
        n' = sent ∧ p = .initialized handshake := by
    intro n' p h' hp hfly'
    rcases flying_insert.mp hfly' with ⟨heq, -, heq'⟩ | ⟨-, hfly'⟩
    · exact ⟨heq, heq'.symm.trans hr'⟩
    · rcases flying_insert.mp hfly' with ⟨-, hdone, -⟩ | ⟨hne, hfly'⟩
      · exact absurd hdone (not_inFlight_done ok)
      · exact absurd (h.flight_unique hfly' hp hfly rfl) hne
  refine ⟨fun {n'} hn' => ?_, h.started_lt, h.opening_last, h.going_on,
    fun {n' p h'} hfly' hp => ?_, fun hfly' hp hfly'' hp' => ?_, fun hfly' => ?_,
    fun {n' h'} hfly' => ⟨rfl, ?_⟩, fun _ => .inr ⟨sent, handshake, ?_⟩, fun hok => ?_⟩
  · rcases Finmap.mem_insert.mp hn' with rfl | hn'
    · exact Nat.lt_succ_self _
    · exact Nat.lt_succ_of_lt (hlt hn')
  · obtain ⟨-, rfl⟩ := hflying hp hfly'
    obtain rfl := Option.some.inj hp
    exact h.flight hfly rfl
  · rw [(hflying hp hfly').1, (hflying hp' hfly'').1]
  · exact nomatch (hflying rfl hfly').2
  · -- nothing was sent after the notification
    rw [(hflying rfl hfly').1]
    intro m r'' h'' hm hr''
    rcases Finmap.mem_insert.mp (HashMap.mem_of_lookup hr'') with rfl | hmem
    · exact absurd hm (lt_irrefl _)
    · exact absurd (hlt hmem) (by omega)
  · exact flying_insert.mpr (.inl ⟨rfl, hstatus, hr'⟩)
  · exact nomatch hready.symm.trans (h.succeeded hok).1

/-- The request of a handshake is done, and the handshake ends with it. -/
lemma finish (h : Handshaking ready opening requests sent handshakes started)
    (hr : requests.lookup n = some r) (hflight : r.InFlight)
    (hpurpose : r.purpose.handshake = some handshake) {ready' ok : Bool}
    {result : Except Thrown Unit}
    (hok : result = .ok () → ready' = true ∧ r.purpose = .initialized handshake ∧ ok = true)
    (herror : ∀ e, result = .error e → ready' = false) :
    Handshaking ready' opening (requests.insert n { r with status := .done ok }) sent
      (handshakes.insert handshake (some result)) started := by
  have hfly : Flying requests n r.purpose := ⟨r, hr, hflight, rfl⟩
  have hgoing := h.flight hfly hpurpose
  have hopening := h.going_on hgoing
  have hlast := h.opening_last hopening
  have hflying : ∀ {n' p h'}, p.handshake = some h' →
      ¬ Flying (requests.insert n { r with status := .done ok }) n' p := by
    intro n' p h' hp hfly'
    rcases flying_insert.mp hfly' with ⟨-, hdone, -⟩ | ⟨hne, hfly'⟩
    · exact not_inFlight_done ok hdone
    · exact hne (h.flight_unique hfly' hp hfly hpurpose)
  refine ⟨fun {n'} hn' => ?_, fun {h'} hh' => ?_, h.opening_last, fun {h'} hh' => ?_,
    fun hfly' hp => absurd hfly' (hflying hp), fun hfly' hp => absurd hfly' (hflying hp),
    fun hfly' => absurd hfly' (hflying rfl), fun hfly' => absurd hfly' (hflying rfl),
    fun hready => .inl ?_, fun {h'} hh' => ?_⟩
  · rcases Finmap.mem_insert.mp hn' with rfl | hn'
    · exact h.sent_lt (HashMap.mem_of_lookup hr)
    · exact h.sent_lt hn'
  · rcases Finmap.mem_insert.mp hh' with rfl | hh'
    · exact h.started_lt (HashMap.mem_of_lookup hgoing)
    · exact h.started_lt hh'
  · rw [HashMap.lookup_insert_ite] at hh'
    split_ifs at hh' with heq
    · exact nomatch hh'
    · exact h.going_on hh'
  · refine ⟨handshake, ?_⟩
    rw [HashMap.lookup_insert_ite, if_pos rfl]
    rcases result with e | ⟨⟩
    · exact nomatch hready.symm.trans (herror e rfl)
    · rfl
  · rw [HashMap.lookup_insert_ite] at hh'
    split_ifs at hh' with heq
    · -- the notification was sent after all `initialize` requests
      obtain ⟨hready, hnotification, rfl⟩ := hok (Option.some.inj (Option.some.inj hh'))
      obtain ⟨-, hnone⟩ := h.notifying (hnotification ▸ hfly)
      refine ⟨hready, heq ▸ hlast, n, { r with status := .done true }, handshake,
        Finmap.lookup_insert _, hnotification, rfl, hnone.insert fun hlt => ?_⟩
      exact absurd hlt (lt_irrefl n)
    · have hlast' := (h.succeeded hh').2.1
      exact absurd (by omega : h' = handshake) heq

/-- The promise of a handshake that has ended is dropped. -/
lemma clear (h : Handshaking ready opening requests sent handshakes started)
    (hopening : opening = some handshake) {result : Except Thrown Unit}
    (hresult : handshakes.lookup handshake = some (some result)) :
    Handshaking ready none requests sent handshakes started := by
  refine ⟨h.sent_lt, h.started_lt, fun heq => (nomatch heq), fun {h'} hgoing => ?_, h.flight,
    h.flight_unique, h.initializing, h.notifying, h.of_ready, h.succeeded⟩
  obtain rfl := Option.some.inj (hopening.symm.trans (h.going_on hgoing))
  exact nomatch hresult.symm.trans hgoing

end Handshaking

end QuDAG.Integrations.Federation
