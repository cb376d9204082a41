import QuDAG.Network.DarkResolver

/-!
# The maps of a resolver under concurrent calls

Calls of several threads take the locks of the two maps of a resolver one after the other, in any
order. A registration has stored its record before it enters its address, and both before it asks
the DHT; a cleanup looks for expired records under one lock and removes them under another; a lookup
stores what it got from the DHT and enters no address. So the maps may disagree, a cleanup may
remove a record that was stored after it looked, and a call that fails may have changed them.

## Main definitions

* `DarkCall` — a call, by what it does next; `DarkCall.advance` does it.
* `DarkThreads` — a resolver and the calls under way.
* `DarkThreads.Consistent` — the addresses are those of the records.
* `DarkThreads.Sound` — what a step removes has expired, and a call that fails has changed nothing.
* `DarkThreads.Careful` — the conditions under which calls do not disturb each other.

## Main results

* `DarkCall.runAlone_begin` — a call that nothing interrupts does what the resolver's function does.
* `DarkThreads.kept_apply` — careful steps keep the maps together.
* `DarkThreads.consistent_of_careful` — so they are consistent in a careful run, and all its steps
  are sound.

## Implementation notes

A step is what a call does under one lock, or outside of them. A cleanup takes the second lock
before it removes anything, and holds both until it is done. While a registration is between its two
locks, its domain has a record and its address is not yet entered.
-/

namespace QuDAG.Network

open RustStd
open QuDAG.Protocol (DarkDomainRecord)
open DarkResolver (prepare putRecord fetchRecord verifySignature isExpired addressOf
  isValidDarkDomain)

/-! ## Calls -/

/-- What may be called. -/
inductive DarkRequest
  | registerDomain (draws : RegisterDraws) (request : DarkRegistration)
  | lookupDomain (domain : String)
  | updateDomain (domain : String) (record : DarkDomainRecord)
  | cleanupExpired (order : HashMap.Iteration String DarkDomainRecord)

/-- What a call returns. -/
inductive DarkAnswer
  | registered (address : DarkAddress)
  | found (record : DarkDomainRecord)
  | updated
  | removed (count : ℕ)

/-- A call, by what it does next. An update looks its domain up first. -/
inductive DarkCall
  /-- Store locally. -/
  | registerStore (address : DarkAddress) (record : DarkDomainRecord)
  /-- Update reverse lookup. -/
  | registerEnter (address : DarkAddress) (record : DarkDomainRecord)
  /-- Store in DHT if available. -/
  | registerPut (address : DarkAddress) (record : DarkDomainRecord)
  /-- Try local storage first. -/
  | lookupFind (domain : String) (update : Option DarkDomainRecord)
  /-- Try DHT if not found locally. -/
  | lookupFetch (domain : String) (update : Option DarkDomainRecord)
  /-- Cache locally. -/
  | lookupCache (domain : String) (update : Option DarkDomainRecord) (record : DarkDomainRecord)
  /-- Update local storage. -/
  | updateStore (domain : String) (record : DarkDomainRecord)
  /-- Update DHT. -/
  | updatePut (domain : String) (record : DarkDomainRecord)
  /-- Find expired domains. -/
  | cleanupFind (order : HashMap.Iteration String DarkDomainRecord)
  /-- Remove expired domains. -/
  | cleanupRemove (domains : List String)

/-- How far a call is: it goes on, or it has returned. -/
inductive DarkProgress
  | next (call : DarkCall)
  | done (result : Except DarkResolverError DarkAnswer)

namespace DarkCall

variable (K : DarkCrates)

/-- A call begins, before its first lock. -/
def begin (now : UInt64) : DarkRequest → DarkProgress
  | .registerDomain draws request =>
    match prepare K draws request now with
    | .error e => .done (.error e)
    | .ok (address, record) => .next (.registerStore address record)
  | .lookupDomain domain =>
    if isValidDarkDomain K domain then .next (.lookupFind domain none)
    else .done (.error .invalidDomain)
  | .updateDomain domain record =>
    match verifySignature K record with
    | .error e => .done (.error e)
    | .ok _ =>
      if isValidDarkDomain K domain then .next (.lookupFind domain (some record))
      else .done (.error .invalidDomain)
  | .cleanupExpired order => .next (.cleanupFind order)

/-- A lookup has found a record. An update goes on if the owner is the same. -/
def found (domain : String) (update : Option DarkDomainRecord) (existing : DarkDomainRecord) :
    DarkProgress :=
  match update with
  | none => .done (.ok (.found existing))
  | some record =>
    if existing.signingPublicKey ≠ record.signingPublicKey then .done (.error .invalidSignature)
    else .next (.updateStore domain record)

/-- A call does what it does next. -/
def advance (dht : Option DhtClient) (now : UInt64) (self : DarkResolver) :
    DarkCall → DarkProgress × DarkResolver
  | registerStore address record =>
    if address.domain ∈ self.domains then (.done (.error .domainExists), self)
    else (.next (.registerEnter address record), self.store address.domain record)
  | registerEnter address record =>
    (.next (.registerPut address record), self.enterAddress address)
  | registerPut address record =>
    (.done ((putRecord K dht address.domain record).map fun _ => .registered address), self)
  | lookupFind domain update =>
    match self.findLocal K now domain with
    | some (.ok existing) => (found domain update existing, self)
    | some (.error e) => (.done (.error e), self)
    | none => (.next (.lookupFetch domain update), self)
  | lookupFetch domain update =>
    match fetchRecord K dht now domain with
    | .error e => (.done (.error e), self)
    | .ok none => (.done (.error .domainNotFound), self)
    | .ok (some record) => (.next (.lookupCache domain update record), self)
  | lookupCache domain update record => (found domain update record, self.store domain record)
  | updateStore domain record => (.next (.updatePut domain record), self.store domain record)
  | updatePut domain record =>
    (.done ((putRecord K dht domain record).map fun _ => .updated), self)
  | cleanupFind order => (.next (.cleanupRemove (self.collectExpired order now)), self)
  | cleanupRemove domains =>
    (.done (.ok (.removed (self.removeExpired K domains).1)), (self.removeExpired K domains).2)

/-! ### Calls that nothing interrupts -/

/-- What the functions of a resolver do. -/
def call (dht : Option DhtClient) (now : UInt64) (self : DarkResolver) :
    DarkRequest → Except DarkResolverError DarkAnswer × DarkResolver
  | .registerDomain draws request =>
    let result := self.registerDomain K dht draws request now
    (result.1.map .registered, result.2)
  | .lookupDomain domain =>
    let result := self.lookupDomain K dht now domain
    (result.1.map .found, result.2)
  | .updateDomain domain record =>
    let result := self.updateDomain K dht now domain record
    (result.1.map fun _ => .updated, result.2)
  | .cleanupExpired order =>
    let result := self.cleanupExpired K order now
    (result.1.map .removed, result.2)

/-- A call runs alone for a number of steps. -/
def runAlone (dht : Option DhtClient) (now : UInt64) :
    ℕ → DarkProgress × DarkResolver → DarkProgress × DarkResolver
  | 0, state => state
  | _, (.done result, self) => (.done result, self)
  | n + 1, (.next call, self) => runAlone dht now n (advance K dht now self call)

variable {K} {dht : Option DhtClient} {now : UInt64}

@[simp] lemma runAlone_done {n : ℕ} {result : Except DarkResolverError DarkAnswer}
    {self : DarkResolver} :
    runAlone K dht now n (.done result, self) = (.done result, self) := by
  cases n <;> rfl

lemma runAlone_next {n : ℕ} {call : DarkCall} {self : DarkResolver} :
    runAlone K dht now (n + 1) (.next call, self) =
      runAlone K dht now n (advance K dht now self call) := rfl

/-- The lookup of a call, alone, finds what the resolver finds, and goes on from there. -/
lemma runAlone_lookupFind {domain : String} (hvalid : isValidDarkDomain K domain = true)
    (update : Option DarkDomainRecord) (self : DarkResolver) :
    ∃ n ≤ 3, ∀ m, runAlone K dht now (n + m) (.next (.lookupFind domain update), self) =
      runAlone K dht now m
        (match (self.lookupDomain K dht now domain).1 with
          | .ok existing => found domain update existing
          | .error e => .done (.error e),
        (self.lookupDomain K dht now domain).2) := by
  unfold DarkResolver.lookupDomain
  rw [if_pos hvalid]
  cases hlocal : self.findLocal K now domain with
  | some result =>
    refine ⟨1, by omega, fun m => ?_⟩
    rw [Nat.add_comm, runAlone_next, advance, hlocal]
    cases result <;> rfl
  | none =>
    cases hfetched : fetchRecord K dht now domain with
    | error e =>
      refine ⟨2, by omega, fun m => ?_⟩
      rw [Nat.add_comm, runAlone_next, advance, hlocal, runAlone_next, advance, hfetched]
    | ok fetched =>
      cases fetched with
      | none =>
        refine ⟨2, by omega, fun m => ?_⟩
        rw [Nat.add_comm, runAlone_next, advance, hlocal, runAlone_next, advance, hfetched]
      | some record =>
        refine ⟨3, by omega, fun m => ?_⟩
        rw [Nat.add_comm, runAlone_next, advance, hlocal, runAlone_next, advance, hfetched,
          runAlone_next, advance]

/-- **A call that nothing interrupts does what the resolver's function does.** -/
theorem runAlone_begin (request : DarkRequest) (self : DarkResolver) :
    runAlone K dht now 5 (begin K now request, self) =
      (.done (call K dht now self request).1, (call K dht now self request).2) := by
  cases request with
  | registerDomain draws request =>
    dsimp only [begin, call]
    unfold DarkResolver.registerDomain
    cases hprepare : prepare K draws request now with
    | error e => rfl
    | ok prepared =>
      obtain ⟨address, record⟩ := prepared
      dsimp only
      by_cases hmem : address.domain ∈ self.domains
      · rw [runAlone_next, advance, if_pos hmem, if_pos hmem, runAlone_done]
        rfl
      · rw [runAlone_next, advance, if_neg hmem, if_neg hmem, runAlone_next, advance,
          runAlone_next, advance, runAlone_done]
        cases putRecord K dht address.domain record <;> rfl
  | lookupDomain domain =>
    dsimp only [begin, call]
    by_cases hvalid : isValidDarkDomain K domain = true
    · rw [if_pos hvalid]
      obtain ⟨n, hn, hrun⟩ := @runAlone_lookupFind K dht now domain hvalid none self
      obtain ⟨m, hm⟩ := Nat.exists_eq_add_of_le (show n ≤ 5 by omega)
      rw [hm, hrun]
      cases (self.lookupDomain K dht now domain).1 <;> exact runAlone_done
    · unfold DarkResolver.lookupDomain
      rw [if_neg hvalid, if_neg hvalid]
      rfl
  | updateDomain domain record =>
    dsimp only [begin, call]
    unfold DarkResolver.updateDomain
    cases hverify : verifySignature K record with
    | error e => rfl
    | ok _ =>
      dsimp only
      by_cases hvalid : isValidDarkDomain K domain = true
      · rw [if_pos hvalid]
        obtain ⟨n, hn, hrun⟩ :=
          @runAlone_lookupFind K dht now domain hvalid (some record) self
        obtain ⟨m, hm⟩ := Nat.exists_eq_add_of_le (show n ≤ 3 by omega)
        rw [show 5 = n + (m + 2) by omega, hrun]
        obtain ⟨result, looked⟩ := self.lookupDomain K dht now domain
        cases result with
        | error e => exact runAlone_done
        | ok existing =>
          dsimp only [found]
          by_cases hkey : existing.signingPublicKey = record.signingPublicKey
          · rw [if_neg (not_not.mpr hkey), if_neg (not_not.mpr hkey), runAlone_next, advance,
              runAlone_next, advance, runAlone_done]
          · rw [if_pos hkey, if_pos hkey, runAlone_done]
            rfl
      · have hlookup : self.lookupDomain K dht now domain = (.error .invalidDomain, self) :=
          if_neg hvalid
        rw [if_neg hvalid, hlookup]
        rfl
  | cleanupExpired order => rfl

/-! ### What is entered next -/

/-- The address that a call enters next. -/
def entering : DarkCall → Option DarkAddress
  | registerEnter address _ => some address
  | _ => none

end DarkCall

/-! ## Threads -/

/-- A call under way, and whether it has changed the maps. -/
structure RunningCall where
  call : DarkCall
  changed : Bool

/-- A resolver with a clock, and the call of each thread. -/
structure DarkThreads where
  now : UInt64
  resolver : DarkResolver
  calls : ℕ → Option RunningCall

/-- What happens next. -/
inductive ThreadStep
  /-- A thread that has no call begins one. -/
  | start (i : ℕ) (request : DarkRequest)
  /-- A thread goes on with its call. -/
  | advance (i : ℕ) (dht : Option DhtClient)
  /-- Time passes. -/
  | tick (later : UInt64)

namespace DarkThreads

variable (K : DarkCrates)

/-- A new resolver. -/
def start (now : UInt64) : DarkThreads := ⟨now, .new, fun _ => none⟩

/-- A thread's call is as far as this. -/
def proceed (s : DarkThreads) (i : ℕ) (changed : Bool) (state : DarkProgress × DarkResolver) :
    DarkThreads :=
  { s with
    resolver := state.2
    calls := Function.update s.calls i
      (match state.1 with
        | .next call => some ⟨call, changed || decide (state.2 ≠ s.resolver)⟩
        | .done _ => none) }

/-- Make a step. -/
def apply (s : DarkThreads) : ThreadStep → DarkThreads
  | .start i request =>
    match s.calls i with
    | some _ => s
    | none => s.proceed i false (DarkCall.begin K s.now request, s.resolver)
  | .advance i dht =>
    match s.calls i with
    | some running =>
      s.proceed i running.changed (running.call.advance K dht s.now s.resolver)
    | none => s
  | .tick later => { s with now := if s.now < later then later else s.now }

/-- The address that a thread enters next. -/
def entering (s : DarkThreads) (i : ℕ) : Option DarkAddress :=
  (s.calls i).bind fun running => running.call.entering

/-- The address of the record of a domain. -/
def storedAddress (self : DarkResolver) (domain : String) : Option String :=
  (self.domains.lookup domain).map fun record => addressOf K record.signingPublicKey

/-- An address is that of a domain iff it is the address of the key of its record, unless a
registration of the domain is between its two locks. -/
def Consistent (s : DarkThreads) : Prop :=
  ∀ address domain, (∀ i entered, s.entering i = some entered → entered.domain ≠ domain) →
    (s.resolver.reverseLookup.lookup address = some domain ↔
      storedAddress K s.resolver domain = some address)

/-- A call that fails has not changed the maps, and a record that is removed has expired. -/
def Sound (s : DarkThreads) : ThreadStep → Prop
  | .advance i dht => ∀ running, s.calls i = some running →
    (∀ e, (running.call.advance K dht s.now s.resolver).1 = .done (.error e) →
      running.changed = false ∧ (running.call.advance K dht s.now s.resolver).2 = s.resolver) ∧
    ∀ domain record, s.resolver.domains.lookup domain = some record →
      (running.call.advance K dht s.now s.resolver).2.domains.lookup domain = none →
        isExpired s.now record = true
  | _ => True

/-- No cleanup is about to remove the domain, unless the record has expired. -/
def Unlisted (s : DarkThreads) (domain : String) (record : DarkDomainRecord) : Prop :=
  ∀ i domains changed, s.calls i = some ⟨.cleanupRemove domains, changed⟩ → domain ∈ domains →
    isExpired s.now record = true

/-- What a call may do next. -/
def CarefulCall (s : DarkThreads) (dht : Option DhtClient) (changed : Bool) : DarkCall → Prop
  | .registerStore address record => address.domain ∉ s.resolver.domains →
    (∀ domain, storedAddress K s.resolver domain ≠ some address.address) ∧
      s.Unlisted address.domain record
  | .registerPut address record =>
    changed = true → putRecord K dht address.domain record = .ok ()
  | .lookupCache domain update record =>
    storedAddress K s.resolver domain = some (addressOf K record.signingPublicKey) ∧
      s.Unlisted domain record ∧
      ∀ updated, update = some updated → record.signingPublicKey = updated.signingPublicKey ∨
        s.resolver.domains.lookup domain = some record
  | .updateStore domain record =>
    storedAddress K s.resolver domain = some (addressOf K record.signingPublicKey) ∧
      s.Unlisted domain record
  | .updatePut domain record => changed = true → putRecord K dht domain record = .ok ()
  | .cleanupRemove domains =>
    ∀ i entered, s.entering i = some entered → entered.domain ∉ domains
  | _ => True

/-- A registration takes a new address; what is cached or updated is a record of a domain that is
stored, with the same address; no cleanup that is under way has listed the domain, or lists one
whose address is not yet entered; and the DHT does not fail a call that has changed the maps. -/
def Careful (s : DarkThreads) : ThreadStep → Prop
  | .advance i dht => ∀ running, s.calls i = some running →
    s.CarefulCall K dht running.changed running.call
  | _ => True

/-! ## The maps -/

/-- The addresses that are entered or about to be are those of the records that are stored. -/
structure Filed (resolver : DarkResolver) (entering : ℕ → Option DarkAddress) : Prop where
  injective : ∀ domain domain' address, storedAddress K resolver domain = some address →
    storedAddress K resolver domain' = some address → domain = domain'
  reverse : ∀ address domain, resolver.reverseLookup.lookup address = some domain ↔
    storedAddress K resolver domain = some address ∧
      ∀ i entered, entering i = some entered → entered.domain ≠ domain
  stored : ∀ i entered, entering i = some entered →
    storedAddress K resolver entered.domain = some entered.address
  single : ∀ i j entered entered', entering i = some entered → entering j = some entered' →
    entered.domain = entered'.domain → i = j

variable {K} {resolver : DarkResolver} {entering : ℕ → Option DarkAddress} {i : ℕ}

@[simp] lemma storedAddress_store (domain : String) (record : DarkDomainRecord)
    (domain' : String) : storedAddress K (resolver.store domain record) domain' =
      if domain' = domain then some (addressOf K record.signingPublicKey)
      else storedAddress K resolver domain' := by
  unfold storedAddress
  rw [DarkResolver.lookup_store]
  split_ifs <;> rfl

@[simp] lemma storedAddress_enterAddress (address : DarkAddress) (domain : String) :
    storedAddress K (resolver.enterAddress address) domain = storedAddress K resolver domain := rfl

lemma storedAddress_eq_none {domain : String} :
    storedAddress K resolver domain = none ↔ domain ∉ resolver.domains := by
  rw [storedAddress, Option.map_eq_none_iff, Finmap.lookup_eq_none]

/-- What a thread has after an update of one thread. -/
lemma update_eq_some {β : Type} {f : ℕ → Option β} {value : Option β} {j : ℕ} {x : β} :
    Function.update f i value j = some x ↔ j = i ∧ value = some x ∨ j ≠ i ∧ f j = some x := by
  rw [Function.update_apply]
  by_cases hj : j = i
  · rw [if_pos hj, and_iff_right hj, or_iff_left fun h => h.1 hj]
  · rw [if_neg hj, and_iff_right hj, or_iff_right fun h => hj h.1]

/-- A thread that enters nothing before or after changes nothing. -/
lemma Filed.congr (h : Filed K resolver entering) (hi : entering i = none) :
    Filed K resolver (Function.update entering i none) := by
  rwa [show Function.update entering i none = entering from hi ▸ Function.update_eq_self i entering]

/-- A registration stores a record. -/
lemma Filed.registerStore (h : Filed K resolver entering) (hi : entering i = none)
    {address : DarkAddress} {record : DarkDomainRecord} (hnew : address.domain ∉ resolver.domains)
    (haddress : address.address = addressOf K record.signingPublicKey)
    (hfresh : ∀ domain, storedAddress K resolver domain ≠ some address.address) :
    Filed K (resolver.store address.domain record)
      (Function.update entering i (some address)) := by
  have hnone := storedAddress_eq_none (K := K).mpr hnew
  have hother : ∀ j entered, entering j = some entered → entered.domain ≠ address.domain := by
    intro j entered hentered hdomain
    have hstored := h.stored j entered hentered
    rw [hdomain, hnone] at hstored
    cases hstored
  constructor
  · intro domain domain' a hdomain hdomain'
    rw [storedAddress_store] at hdomain hdomain'
    split_ifs at hdomain hdomain' with hd hd'
    · exact hd.trans hd'.symm
    · rw [← haddress] at hdomain
      exact absurd (hdomain'.trans hdomain.symm) (hfresh domain')
    · rw [← haddress] at hdomain'
      exact absurd (hdomain.trans hdomain'.symm) (hfresh domain)
    · exact h.injective domain domain' a hdomain hdomain'
  · intro a domain
    rw [DarkResolver.reverseLookup_store, h.reverse, storedAddress_store]
    by_cases hdomain : domain = address.domain
    · rw [if_pos hdomain, hdomain, hnone]
      refine iff_of_false (fun hboth => nomatch hboth.1) fun hboth => ?_
      exact hboth.2 i address (Function.update_self _ _ _) rfl
    · rw [if_neg hdomain]
      refine and_congr_right fun _ => ⟨fun hall j entered hentered => ?_,
        fun hall j entered hentered => ?_⟩
      · rcases update_eq_some.mp hentered with ⟨-, ⟨⟩⟩ | ⟨-, hentered⟩
        · exact Ne.symm hdomain
        · exact hall j entered hentered
      · have hj : j ≠ i := by
          rintro rfl
          rw [hi] at hentered
          cases hentered
        exact hall j entered ((Function.update_of_ne hj _ _).trans hentered)
  · intro j entered hentered
    rw [storedAddress_store]
    rcases update_eq_some.mp hentered with ⟨-, ⟨⟩⟩ | ⟨-, hentered⟩
    · rw [if_pos rfl, haddress]
    · rw [if_neg (hother j entered hentered)]
      exact h.stored j entered hentered
  · intro j j' entered entered' hentered hentered' hdomain
    rcases update_eq_some.mp hentered with ⟨rfl, ⟨⟩⟩ | ⟨-, hbefore⟩
    · rcases update_eq_some.mp hentered' with ⟨rfl, -⟩ | ⟨-, hbefore'⟩
      · rfl
      · exact absurd hdomain.symm (hother j' entered' hbefore')
    · rcases update_eq_some.mp hentered' with ⟨-, ⟨⟩⟩ | ⟨-, hbefore'⟩
      · exact absurd hdomain (hother j entered hbefore)
      · exact h.single j j' entered entered' hbefore hbefore' hdomain

/-- A registration enters the address of the record. -/
lemma Filed.registerEnter (h : Filed K resolver entering) {address : DarkAddress}
    (hi : entering i = some address) :
    Filed K (resolver.enterAddress address) (Function.update entering i none) := by
  have hupdate : ∀ j entered, Function.update entering i none j = some entered ↔
      j ≠ i ∧ entering j = some entered := by
    intro j entered
    rw [update_eq_some]
    exact or_iff_right fun hboth => nomatch hboth.2
  have hothers : ∀ domain, domain ≠ address.domain →
      ((∀ j entered, Function.update entering i none j = some entered → entered.domain ≠ domain) ↔
        ∀ j entered, entering j = some entered → entered.domain ≠ domain) := by
    refine fun domain hdomain => ⟨fun hall j entered hentered => ?_,
      fun hall j entered hentered => hall j entered ((hupdate j entered).mp hentered).2⟩
    by_cases hj : j = i
    · subst hj
      obtain rfl := Option.some.inj (hi.symm.trans hentered)
      exact Ne.symm hdomain
    · exact hall j entered ((hupdate j entered).mpr ⟨hj, hentered⟩)
  refine ⟨h.injective, fun a domain => ?_, fun j entered hentered => ?_,
    fun j j' entered entered' hentered hentered' => ?_⟩
  · rw [DarkResolver.lookup_enterAddress, storedAddress_enterAddress]
    by_cases hdomain : domain = address.domain
    · -- The domain was about to be entered, by this thread only.
      subst hdomain
      have hfree : ∀ j entered, Function.update entering i none j = some entered →
          entered.domain ≠ address.domain := by
        intro j entered hentered hsame
        obtain ⟨hj, hentered⟩ := (hupdate j entered).mp hentered
        exact hj (h.single j i entered address hentered hi hsame)
      rw [h.stored i address hi]
      split_ifs with ha
      · exact iff_of_true rfl ⟨congrArg some ha.symm, hfree⟩
      · refine iff_of_false (fun hentered => ?_) fun hboth => ha (Option.some.inj hboth.1).symm
        exact ((h.reverse a _).mp hentered).2 i address hi rfl
    · rw [hothers domain hdomain]
      split_ifs with ha
      · refine iff_of_false (fun hsame => hdomain (Option.some.inj hsame).symm) fun hboth => ?_
        rw [ha] at hboth
        exact hdomain (h.injective _ _ _ hboth.1 (h.stored i address hi))
      · exact h.reverse a domain
  · exact h.stored j entered ((hupdate j entered).mp hentered).2
  · exact h.single j j' entered entered' ((hupdate j entered).mp hentered).2
      ((hupdate j' entered').mp hentered').2

/-- A record takes the place of one with the same address. -/
lemma Filed.store (h : Filed K resolver entering) {domain : String} {record : DarkDomainRecord}
    (hsame : storedAddress K resolver domain = some (addressOf K record.signingPublicKey)) :
    Filed K (resolver.store domain record) entering := by
  have hstored : ∀ domain', storedAddress K (resolver.store domain record) domain' =
      storedAddress K resolver domain' := by
    intro domain'
    rw [storedAddress_store]
    split_ifs with hdomain
    · rw [hdomain, hsame]
    · rfl
  refine ⟨fun domain domain' address => ?_, fun address domain' => ?_,
    fun j entered hentered => ?_, h.single⟩
  · rw [hstored, hstored]
    exact h.injective domain domain' address
  · rw [hstored, DarkResolver.reverseLookup_store]
    exact h.reverse address domain'
  · rw [hstored]
    exact h.stored j entered hentered

/-- A cleanup removes records that have their addresses entered. -/
lemma Filed.removeExpired (h : Filed K resolver entering) {domains : List String}
    (hentered : ∀ j entered, entering j = some entered → entered.domain ∉ domains) :
    Filed K (resolver.removeExpired K domains).2 entering := by
  have hstored : ∀ domain, storedAddress K (resolver.removeExpired K domains).2 domain =
      if domain ∈ domains then none else storedAddress K resolver domain := by
    intro domain
    rw [storedAddress, DarkResolver.lookup_removeExpired]
    split_ifs <;> rfl
  refine ⟨fun domain domain' address hdomain hdomain' => ?_, fun address domain => ?_,
    fun j entered hj => ?_, h.single⟩
  · rw [hstored] at hdomain hdomain'
    split_ifs at hdomain hdomain'
    exact h.injective domain domain' address hdomain hdomain'
  · rw [DarkResolver.lookup_reverse_removeExpired, h.reverse, hstored]
    constructor
    · rintro ⟨⟨hdomain, hfree⟩, hall⟩
      obtain ⟨record, hrecord, haddress⟩ := Option.map_eq_some_iff.mp hdomain
      rw [if_neg fun hmem => hall domain hmem record hrecord haddress]
      exact ⟨hdomain, hfree⟩
    · rintro ⟨hdomain, hfree⟩
      split_ifs at hdomain with hmem
      refine ⟨⟨hdomain, hfree⟩, fun d hd record hrecord haddress => hmem ?_⟩
      have hd' : storedAddress K resolver d = some address :=
        Option.map_eq_some_iff.mpr ⟨record, hrecord, haddress⟩
      exact h.injective d domain address hd' hdomain ▸ hd
  · rw [hstored, if_neg (hentered j entered hj)]
    exact h.stored j entered hj

/-! ## Steps -/

/-- What holds of a call by how far it is: it stores its record under the address of its key, and
until it stores one it has changed nothing. -/
def RunningCallValid (K : DarkCrates) (running : RunningCall) : Prop :=
  match running.call with
  | .registerStore address record =>
    address.address = addressOf K record.signingPublicKey ∧ running.changed = false
  | .lookupFind _ _ | .lookupFetch _ _ | .lookupCache _ _ _ | .cleanupFind _ | .cleanupRemove _ =>
    running.changed = false
  | _ => True

/-- The maps are together, and the records that cleanups have listed have expired. -/
structure Kept (K : DarkCrates) (s : DarkThreads) : Prop where
  filed : Filed K s.resolver s.entering
  listed : ∀ domain record, s.resolver.domains.lookup domain = some record →
    s.Unlisted domain record
  valid : ∀ i running, s.calls i = some running → RunningCallValid K running

variable {s : DarkThreads}

lemma kept_start (now : UInt64) : Kept K (start now) where
  filed :=
    { injective := fun _ _ _ h => nomatch h
      reverse := fun _ _ => iff_of_false nofun fun h => nomatch h.1
      stored := fun _ _ h => nomatch h
      single := fun _ _ _ _ h => nomatch h }
  listed _ _ h := nomatch h
  valid _ _ h := nomatch h

/-- The address that a call enters next, if it goes on. -/
def progressEntering : DarkProgress → Option DarkAddress
  | .next call => call.entering
  | .done _ => none

lemma entering_proceed (s : DarkThreads) (i : ℕ) (changed : Bool)
    (state : DarkProgress × DarkResolver) : (s.proceed i changed state).entering =
      Function.update s.entering i (progressEntering state.1) := by
  funext j
  unfold DarkThreads.entering proceed
  dsimp only
  by_cases hj : j = i
  · subst hj
    rw [Function.update_self, Function.update_self]
    cases state.1 <;> rfl
  · rw [Function.update_of_ne hj, Function.update_of_ne hj]

/-- A thread goes on, and the maps stay together. -/
lemma Kept.proceed (h : Kept K s) {changed : Bool} {state : DarkProgress × DarkResolver}
    (hfiled : Filed K state.2 (Function.update s.entering i (progressEntering state.1)))
    (hlisted : ∀ domain record, state.2.domains.lookup domain = some record →
      s.resolver.domains.lookup domain = some record ∨ s.Unlisted domain record)
    (hvalid : ∀ call, state.1 = .next call →
      RunningCallValid K ⟨call, changed || decide (state.2 ≠ s.resolver)⟩)
    (hexpired : ∀ domains, state.1 = .next (.cleanupRemove domains) → ∀ domain ∈ domains,
      ∀ record, state.2.domains.lookup domain = some record → isExpired s.now record = true) :
    Kept K (s.proceed i changed state) where
  filed := by
    rw [entering_proceed]
    exact hfiled
  listed domain record hstored j domains changed' hcall hmem := by
    rcases update_eq_some.mp hcall with ⟨-, hcall⟩ | ⟨-, hcall⟩
    · cases hprogress : state.1 with
      | done result =>
        rw [hprogress] at hcall
        cases hcall
      | next call =>
        rw [hprogress] at hcall
        obtain rfl := congrArg RunningCall.call (Option.some.inj hcall)
        exact hexpired domains hprogress domain hmem record hstored
    · rcases hlisted domain record hstored with hbefore | hunlisted
      · exact h.listed domain record hbefore j domains changed' hcall hmem
      · exact hunlisted j domains changed' hcall hmem
  valid j running hcall := by
    rcases update_eq_some.mp hcall with ⟨-, hcall⟩ | ⟨-, hcall⟩
    · cases hprogress : state.1 with
      | done result =>
        rw [hprogress] at hcall
        cases hcall
      | next call =>
        rw [hprogress] at hcall
        obtain rfl := Option.some.inj hcall
        exact hvalid call hprogress
    · exact h.valid j running hcall

/-- A call that leaves the maps alone goes on to something that does not depend on them. -/
lemma Kept.proceed_same (h : Kept K s) (hi : s.entering i = none) {changed : Bool}
    {progress : DarkProgress} (hentering : progressEntering progress = none)
    (hvalid : ∀ call, progress = .next call → RunningCallValid K ⟨call, changed⟩)
    (hexpired : ∀ domains, progress = .next (.cleanupRemove domains) → ∀ domain ∈ domains,
      ∀ record, s.resolver.domains.lookup domain = some record → isExpired s.now record = true) :
    Kept K (s.proceed i changed (progress, s.resolver)) := by
  refine h.proceed ?_ (fun _ _ hstored => Or.inl hstored) (fun call hcall => ?_) hexpired
  · dsimp only
    rw [hentering]
    exact h.filed.congr hi
  · have hunchanged : (changed || decide (s.resolver ≠ s.resolver)) = changed := by simp
    dsimp only
    rw [hunchanged]
    exact hvalid call hcall

/-- A call returns and leaves the maps alone. -/
lemma Kept.proceed_done (h : Kept K s) (hi : s.entering i = none) {changed : Bool}
    {result : Except DarkResolverError DarkAnswer} :
    Kept K (s.proceed i changed (.done result, s.resolver)) :=
  h.proceed_same hi rfl nofun nofun

/-- A call that leaves the maps alone goes on, but not to remove anything. -/
lemma Kept.proceed_next (h : Kept K s) (hi : s.entering i = none) {changed : Bool}
    {call : DarkCall} (hentering : call.entering = none)
    (hvalid : RunningCallValid K ⟨call, changed⟩)
    (hremove : ∀ domains, call ≠ .cleanupRemove domains) :
    Kept K (s.proceed i changed (.next call, s.resolver)) := by
  refine h.proceed_same hi hentering (fun call' hcall => ?_) fun domains hcall => ?_
  · exact DarkProgress.next.inj hcall ▸ hvalid
  · exact absurd (DarkProgress.next.inj hcall) (hremove domains)

/-- A call that stores a record in the place of one with the same address. -/
lemma Kept.proceed_store (h : Kept K s) (hi : s.entering i = none) {changed : Bool}
    {progress : DarkProgress} {domain : String} {record : DarkDomainRecord}
    (hentering : progressEntering progress = none)
    (hsame : storedAddress K s.resolver domain = some (addressOf K record.signingPublicKey))
    (hunlisted : s.Unlisted domain record)
    (hvalid : ∀ call changed', progress = .next call → RunningCallValid K ⟨call, changed'⟩)
    (hexpired : ∀ domains, progress ≠ .next (.cleanupRemove domains)) :
    Kept K (s.proceed i changed (progress, s.resolver.store domain record)) := by
  refine h.proceed ?_ (fun domain' record' hstored => ?_) (fun call hcall => hvalid call _ hcall)
    fun domains hcall => absurd hcall (hexpired domains)
  · dsimp only
    rw [hentering]
    exact (h.filed.store hsame).congr hi
  · rw [DarkResolver.lookup_store] at hstored
    split_ifs at hstored with hdomain
    · obtain rfl := Option.some.inj hstored
      exact Or.inr (hdomain ▸ hunlisted)
    · exact Or.inl hstored

/-- A call begins and leaves the maps alone. -/
lemma kept_begin (h : Kept K s) (hcall : s.calls i = none) (request : DarkRequest) :
    Kept K (s.proceed i false (DarkCall.begin K s.now request, s.resolver)) := by
  have hi : s.entering i = none := by
    rw [DarkThreads.entering, hcall]
    rfl
  have hlookup : ∀ domain update (rejected : DarkResolverError), Kept K (s.proceed i false
      (if isValidDarkDomain K domain = true then .next (.lookupFind domain update)
        else .done (.error rejected), s.resolver)) := by
    intro domain update rejected
    by_cases hvalid : isValidDarkDomain K domain = true
    · rw [if_pos hvalid]
      exact h.proceed_next hi rfl rfl nofun
    · rw [if_neg hvalid]
      exact h.proceed_done hi
  cases request with
  | registerDomain draws request =>
    dsimp only [DarkCall.begin]
    cases hprepare : prepare K draws request s.now with
    | error e => exact h.proceed_done hi
    | ok prepared =>
      exact h.proceed_next hi rfl ⟨DarkResolver.prepare_eq_ok hprepare, rfl⟩ nofun
  | lookupDomain domain => exact hlookup domain none .invalidDomain
  | updateDomain domain record =>
    dsimp only [DarkCall.begin]
    cases verifySignature K record with
    | error e => exact h.proceed_done hi
    | ok _ => exact hlookup domain (some record) .invalidDomain
  | cleanupExpired order =>
    exact h.proceed_next hi rfl rfl nofun

/-- After a lookup a call has returned, or an update goes on. -/
lemma found_cases (domain : String) (update : Option DarkDomainRecord)
    (existing : DarkDomainRecord) :
    (∃ result, DarkCall.found domain update existing = .done result) ∨
      ∃ record, DarkCall.found domain update existing = .next (.updateStore domain record) := by
  unfold DarkCall.found
  cases update with
  | none => exact Or.inl ⟨_, rfl⟩
  | some record =>
    dsimp only
    split_ifs
    · exact Or.inl ⟨_, rfl⟩
    · exact Or.inr ⟨record, rfl⟩

lemma found_fails {domain : String} {update : Option DarkDomainRecord}
    {existing : DarkDomainRecord} {e : DarkResolverError}
    (h : DarkCall.found domain update existing = .done (.error e)) :
    ∃ record, update = some record ∧ existing.signingPublicKey ≠ record.signingPublicKey := by
  unfold DarkCall.found at h
  cases update with
  | none => cases h
  | some record =>
    refine ⟨record, rfl, fun hkey => ?_⟩
    dsimp only at h
    rw [if_neg (not_not.mpr hkey)] at h
    cases h

/-- **A call goes on and keeps the maps together.** -/
lemma kept_advance (h : Kept K s) {dht : Option DhtClient} {running : RunningCall}
    (hcall : s.calls i = some running)
    (hcareful : s.CarefulCall K dht running.changed running.call) :
    Kept K (s.proceed i running.changed (running.call.advance K dht s.now s.resolver)) := by
  have hvalid := h.valid i running hcall
  have hi : s.entering i = running.call.entering := by
    rw [DarkThreads.entering, hcall]
    rfl
  obtain ⟨call, changed⟩ := running
  cases call with
  | registerStore address record =>
    dsimp only [DarkCall.advance]
    by_cases hmem : address.domain ∈ s.resolver.domains
    · rw [if_pos hmem]
      exact h.proceed_done hi
    · rw [if_neg hmem]
      obtain ⟨hfresh, hunlisted⟩ := hcareful hmem
      refine h.proceed (h.filed.registerStore hi hmem hvalid.1 hfresh)
        (fun domain record' hstored => ?_) (fun call hcall => ?_) nofun
      · rw [DarkResolver.lookup_store] at hstored
        split_ifs at hstored with hdomain
        · obtain rfl := Option.some.inj hstored
          exact Or.inr (hdomain ▸ hunlisted)
        · exact Or.inl hstored
      · cases hcall
        trivial
  | registerEnter address record =>
    refine h.proceed (h.filed.registerEnter hi) (fun _ _ hstored => Or.inl hstored)
      (fun call hcall => ?_) nofun
    cases hcall
    trivial
  | registerPut address record => exact h.proceed_done hi
  | lookupFind domain update =>
    dsimp only [DarkCall.advance]
    cases s.resolver.findLocal K s.now domain with
    | none => exact h.proceed_next hi rfl hvalid nofun
    | some result =>
      cases result with
      | error e => exact h.proceed_done hi
      | ok existing =>
        dsimp only
        rcases found_cases domain update existing with ⟨result, hfound⟩ | ⟨record, hfound⟩
        · rw [hfound]
          exact h.proceed_done hi
        · rw [hfound]
          exact h.proceed_next hi rfl trivial nofun
  | lookupFetch domain update =>
    dsimp only [DarkCall.advance]
    cases fetchRecord K dht s.now domain with
    | error e => exact h.proceed_done hi
    | ok fetched =>
      cases fetched with
      | none => exact h.proceed_done hi
      | some record =>
        exact h.proceed_next hi rfl hvalid nofun
  | lookupCache domain update record =>
    obtain ⟨hsame, hunlisted, -⟩ := hcareful
    dsimp only [DarkCall.advance]
    rcases found_cases domain update record with ⟨result, hfound⟩ | ⟨updated, hfound⟩
    · rw [hfound]
      exact h.proceed_store hi rfl hsame hunlisted nofun nofun
    · rw [hfound]
      exact h.proceed_store hi rfl hsame hunlisted
        (fun call _ hcall => by cases hcall; trivial) nofun
  | updateStore domain record =>
    exact h.proceed_store hi rfl hcareful.1 hcareful.2
      (fun call _ hcall => by cases hcall; trivial) nofun
  | updatePut domain record => exact h.proceed_done hi
  | cleanupFind order =>
    refine h.proceed_same hi rfl (fun call hcall => by cases hcall; exact hvalid)
      fun domains hcall domain hmem record hstored => ?_
    cases hcall
    obtain ⟨⟨domain', record'⟩, hentry, rfl⟩ := List.mem_map.mp hmem
    obtain ⟨hentry, hexpired⟩ := List.mem_filter.mp hentry
    have hrecord := ((order.enumerates _).2 domain' record').mp hentry
    obtain rfl := Option.some.inj (hrecord.symm.trans hstored)
    exact hexpired
  | cleanupRemove domains =>
    refine h.proceed ((h.filed.removeExpired hcareful).congr hi)
      (fun domain record hstored => ?_) nofun nofun
    dsimp only [DarkCall.advance] at hstored
    rw [DarkResolver.lookup_removeExpired] at hstored
    split_ifs at hstored
    exact Or.inl hstored

/-- A call that fails has not changed the maps. -/
lemma unchanged_of_fails (h : Kept K s) {dht : Option DhtClient} {running : RunningCall}
    (hcall : s.calls i = some running)
    (hcareful : s.CarefulCall K dht running.changed running.call) {e : DarkResolverError}
    (hfails : (running.call.advance K dht s.now s.resolver).1 = .done (.error e)) :
    running.changed = false ∧ (running.call.advance K dht s.now s.resolver).2 = s.resolver := by
  have hvalid := h.valid i running hcall
  obtain ⟨call, changed⟩ := running
  cases call with
  | registerStore address record =>
    refine ⟨hvalid.2, ?_⟩
    dsimp only [DarkCall.advance] at hfails ⊢
    by_cases hmem : address.domain ∈ s.resolver.domains
    · rw [if_pos hmem]
    · rw [if_neg hmem] at hfails
      cases hfails
  | registerEnter address record => cases hfails
  | registerPut address record =>
    cases changed with
    | false => exact ⟨rfl, rfl⟩
    | true =>
      dsimp only [DarkCall.advance] at hfails
      rw [hcareful rfl] at hfails
      cases hfails
  | lookupFind domain update =>
    refine ⟨hvalid, ?_⟩
    dsimp only [DarkCall.advance]
    cases s.resolver.findLocal K s.now domain with
    | none => rfl
    | some result => cases result <;> rfl
  | lookupFetch domain update =>
    refine ⟨hvalid, ?_⟩
    dsimp only [DarkCall.advance]
    cases fetchRecord K dht s.now domain with
    | error e => rfl
    | ok fetched => cases fetched <;> rfl
  | lookupCache domain update record =>
    obtain ⟨updated, hupdate, hkey⟩ := found_fails hfails
    have hsame := (hcareful.2.2 updated hupdate).resolve_left hkey
    exact ⟨hvalid, DarkResolver.store_self hsame⟩
  | updateStore domain record => cases hfails
  | updatePut domain record =>
    cases changed with
    | false => exact ⟨rfl, rfl⟩
    | true =>
      dsimp only [DarkCall.advance] at hfails
      rw [hcareful rfl] at hfails
      cases hfails
  | cleanupFind order => cases hfails
  | cleanupRemove domains => cases hfails

/-- A domain is still stored after another record was stored. -/
lemma lookup_store_ne_none {self : DarkResolver} {domain domain' : String}
    {record record' : DarkDomainRecord} (h : self.domains.lookup domain' = some record') :
    (self.store domain record).domains.lookup domain' ≠ none := by
  rw [DarkResolver.lookup_store]
  split_ifs
  · exact Option.some_ne_none _
  · rw [h]
    exact Option.some_ne_none _

/-- A record that is removed has expired. -/
lemma expired_of_removed (h : Kept K s) {dht : Option DhtClient} {running : RunningCall}
    (hcall : s.calls i = some running) {domain : String} {record : DarkDomainRecord}
    (hstored : s.resolver.domains.lookup domain = some record)
    (hremoved :
      (running.call.advance K dht s.now s.resolver).2.domains.lookup domain = none) :
    isExpired s.now record = true := by
  have hkeeps : s.resolver.domains.lookup domain ≠ none := by
    rw [hstored]
    exact Option.some_ne_none _
  obtain ⟨call, changed⟩ := running
  cases call with
  | registerStore address record' =>
    dsimp only [DarkCall.advance] at hremoved
    split_ifs at hremoved
    · exact absurd hremoved hkeeps
    · exact absurd hremoved (lookup_store_ne_none hstored)
  | lookupFind domain' update =>
    dsimp only [DarkCall.advance] at hremoved
    cases hlocal : s.resolver.findLocal K s.now domain' with
    | none =>
      rw [hlocal] at hremoved
      exact absurd hremoved hkeeps
    | some result =>
      rw [hlocal] at hremoved
      cases result <;> exact absurd hremoved hkeeps
  | lookupFetch domain' update =>
    dsimp only [DarkCall.advance] at hremoved
    cases hfetched : fetchRecord K dht s.now domain' with
    | error e =>
      rw [hfetched] at hremoved
      exact absurd hremoved hkeeps
    | ok fetched =>
      rw [hfetched] at hremoved
      cases fetched <;> exact absurd hremoved hkeeps
  | lookupCache domain' update record' => exact absurd hremoved (lookup_store_ne_none hstored)
  | updateStore domain' record' => exact absurd hremoved (lookup_store_ne_none hstored)
  | cleanupRemove domains =>
    dsimp only [DarkCall.advance] at hremoved
    rw [DarkResolver.lookup_removeExpired] at hremoved
    split_ifs at hremoved with hmem
    · exact h.listed domain record hstored i domains changed hcall hmem
    · exact absurd hremoved hkeeps
  | registerEnter address record' => exact absurd hremoved hkeeps
  | registerPut address record' => exact absurd hremoved hkeeps
  | updatePut domain' record' => exact absurd hremoved hkeeps
  | cleanupFind order => exact absurd hremoved hkeeps

/-- Time passes, and what has expired stays so. -/
lemma kept_tick (h : Kept K s) (later : UInt64) : Kept K (s.apply K (.tick later)) := by
  refine ⟨h.filed, fun domain record hstored j domains changed hcall hmem => ?_, h.valid⟩
  have hexpired : isExpired s.now record = true :=
    h.listed domain record hstored j domains changed hcall hmem
  have hexpired' := of_decide_eq_true hexpired
  refine decide_eq_true ?_
  dsimp only [apply]
  split_ifs with hlater
  · exact UInt64.lt_trans hexpired' hlater
  · exact hexpired'

/-- **Careful steps keep the maps together.** -/
lemma kept_apply (h : Kept K s) (step : ThreadStep) (hcareful : s.Careful K step) :
    Kept K (s.apply K step) := by
  cases step with
  | start j request =>
    dsimp only [apply]
    cases hcall : s.calls j with
    | none => exact kept_begin h hcall request
    | some running => exact h
  | advance j dht =>
    dsimp only [apply]
    cases hcall : s.calls j with
    | none => exact h
    | some running => exact kept_advance h hcall (hcareful running hcall)
  | tick later => exact kept_tick h later

/-- Careful steps are sound. -/
lemma sound_of_kept (h : Kept K s) (step : ThreadStep) (hcareful : s.Careful K step) :
    s.Sound K step := by
  cases step with
  | start j request => trivial
  | advance j dht =>
    exact fun running hcall =>
      ⟨fun _ hfails => unchanged_of_fails h hcall (hcareful running hcall) hfails,
        fun _ _ hstored hremoved => expired_of_removed h hcall hstored hremoved⟩
  | tick later => trivial

/-- The maps that are together are consistent. -/
lemma consistent_of_kept (h : Kept K s) : s.Consistent K := by
  intro address domain hfree
  rw [h.filed.reverse]
  exact and_iff_left hfree

/-- **In a careful run the addresses are always those of the records, only records that have expired
are removed, and a call that fails has changed nothing.** -/
theorem consistent_of_careful {steps : List ThreadStep} {now : UInt64}
    (h : Runs.Steps (apply K) (Careful K) (start now) steps) :
    Runs.Always (apply K) (Consistent K) (start now) steps ∧
      Runs.Steps (apply K) (Sound K) (start now) steps :=
  ⟨(Runs.always_rule (Kept K) (fun _ step hkept hcareful => kept_apply hkept step hcareful) h
      (kept_start now)).imp fun _ => consistent_of_kept,
    Runs.steps_rule (Kept K) (fun _ step hkept hcareful =>
      ⟨kept_apply hkept step hcareful, sound_of_kept hkept step hcareful⟩) h (kept_start now)⟩

lemma calls_proceed_of_ne {j : ℕ} (hj : j ≠ i) (s : DarkThreads) (changed : Bool)
    (state : DarkProgress × DarkResolver) : (s.proceed i changed state).calls j = s.calls j :=
  Function.update_of_ne hj _ _

/-- A thread that begins or goes on leaves the calls of the others. -/
lemma calls_apply_of_ne {j : ℕ} (hj : j ≠ i) (s : DarkThreads) :
    (∀ request, (s.apply K (.start i request)).calls j = s.calls j) ∧
      ∀ dht, (s.apply K (.advance i dht)).calls j = s.calls j := by
  constructor
  · intro request
    dsimp only [apply]
    cases s.calls i with
    | none => exact calls_proceed_of_ne hj s _ _
    | some running => rfl
  · intro dht
    dsimp only [apply]
    cases s.calls i with
    | none => rfl
    | some running => exact calls_proceed_of_ne hj s _ _

/-- One thread registers a domain. -/
def sampleRegisterSteps : List ThreadStep :=
  [.start 0 (.registerDomain (sampleRegisterDraws [7]) sampleRegistration), .advance 0 none,
    .advance 0 none, .advance 0 (some (sampleDhtClient []))]

/-- A registration alone is careful. -/
theorem consistent_of_careful_sampleRegisterSteps :
    Runs.Steps (apply sampleDarkCrates) (Careful sampleDarkCrates) (start 0)
        sampleRegisterSteps ∧
      Runs.Always (apply sampleDarkCrates) (Consistent sampleDarkCrates) (start 0)
        sampleRegisterSteps ∧
      Runs.Steps (apply sampleDarkCrates) (Sound sampleDarkCrates) (start 0)
        sampleRegisterSteps := by
  have hcareful : Runs.Steps (apply sampleDarkCrates) (Careful sampleDarkCrates) (start 0)
      sampleRegisterSteps := by
    have hbegin : DarkCall.begin sampleDarkCrates 0
        (.registerDomain (sampleRegisterDraws [7]) sampleRegistration) =
          .next (.registerStore ⟨"eeeeeeeeeeeeeeeeeeee", "abc.dark"⟩ (sampleDarkRecord [7])) := by
      dsimp only [DarkCall.begin]
      rw [prepare_sampleRegistration]
    have hstart : (start 0).apply sampleDarkCrates
        (.start 0 (.registerDomain (sampleRegisterDraws [7]) sampleRegistration)) =
          (start 0).proceed 0 false (.next (.registerStore ⟨"eeeeeeeeeeeeeeeeeeee", "abc.dark"⟩
            (sampleDarkRecord [7])), .new) :=
      congrArg (fun progress => (start 0).proceed 0 false (progress, .new)) hbegin
    refine ⟨trivial, ?_⟩
    rw [hstart]
    refine ⟨fun running hcall => ?_, fun running hcall => ?_, fun running hcall => ?_, trivial⟩
    · obtain rfl := Option.some.inj hcall
      refine fun _ => ⟨(fun domain hstored => nomatch hstored), fun i domains changed hcall => ?_⟩
      by_cases hi : i = 0
      · subst hi
        cases hcall
      · dsimp only [proceed] at hcall
        rw [Function.update_of_ne hi] at hcall
        cases hcall
    · obtain rfl := Option.some.inj hcall
      trivial
    · obtain rfl := Option.some.inj hcall
      exact fun _ => rfl
  exact ⟨hcareful, consistent_of_careful hcareful⟩

/-- One thread looks a domain up that the DHT has a record of. -/
def sampleLookupSteps : List ThreadStep :=
  [.start 0 (.lookupDomain "abc.dark"), .advance 0 none, .advance 0 (some (sampleDhtClient [9])),
    .advance 0 none]

/-- The lookup stores the record that it got from the DHT, whose address is not entered. -/
theorem not_consistent_sampleLookupSteps :
    ¬(Runs.Always (apply sampleDarkCrates) (Consistent sampleDarkCrates) (start 0)
        sampleLookupSteps ∧
      Runs.Steps (apply sampleDarkCrates) (Sound sampleDarkCrates) (start 0)
        sampleLookupSteps) := by
  rintro ⟨halways, -⟩
  have hlast := Runs.always_iff.mp halways sampleLookupSteps List.prefix_rfl
    "eeeeeeeeeeeeeeeeeeee" "abc.dark" ?_
  · exact absurd (hlast.mpr (by decide)) (by decide)
  · intro i entered hentered
    have hnone : (Runs.run (apply sampleDarkCrates) (start 0) sampleLookupSteps).calls i =
        none := by
      by_cases hi : i = 0
      · subst hi
        rfl
      · dsimp only [sampleLookupSteps, Runs.run_cons, Runs.run_nil]
        rw [(calls_apply_of_ne hi _).2, (calls_apply_of_ne hi _).2, (calls_apply_of_ne hi _).2,
          (calls_apply_of_ne hi _).1]
        rfl
    rw [DarkThreads.entering, hnone] at hentered
    cases hentered

end DarkThreads

end QuDAG.Network
