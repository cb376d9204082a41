import QuDAG.Network.DarkResolver

/-!
# Who a dark domain belongs to

Registering a domain looks for another registration in the maps of one resolver only, and a lookup
takes whatever record the DHT has under the name of the domain, as long as some key has signed it.
The signature covers neither the name nor a version, so nothing ties a record to its domain, or
tells an old one from a new one. If the DHT gives back no records but those of the owner, and
nothing is registered twice, lookups find the owner's records, and never older ones than before.

## Main definitions

* `DarkNetwork` — resolvers with a DHT, and what was registered and returned.
* `DarkNetwork.Bound` — a lookup returns a record of the earliest registration that has not expired,
  and none that is older than before.
* `DarkNetwork.Careful` — the domain is not registered elsewhere, the DHT does not fail after a
  record was stored, and neither it nor an update brings a foreign or an older record.

## Main results

* `DarkNetwork.earliest_eq` — a registration that has not expired is the earliest one.
* `DarkNetwork.owned_apply` — careful steps keep the records with their owners.
* `DarkNetwork.bound_of_careful` — in a careful run every lookup is bound.

## Implementation notes

All resolvers read one clock, which never goes back. The DHT may answer every call in any way, so
what is put into it plays no role. A registration lasts until the last record expires that its owner
has registered or updated.
-/

namespace QuDAG.Network

open RustStd
open QuDAG.Protocol (DarkDomainRecord)
open DarkResolver (prepare putRecord fetchRecord verifySignature isExpired)

/-- A registration: a domain, the key it was registered under, and when it expires. -/
structure DarkBinding where
  domain : String
  publicKey : List UInt8
  expiresAt : UInt64
  deriving DecidableEq

/-- Resolvers with a clock. What the last two fields record is not seen by the resolvers. -/
structure DarkNetwork (ι : Type) where
  now : UInt64
  resolvers : ι → DarkResolver
  /-- The registrations, the earliest first. -/
  bindings : List DarkBinding
  /-- When the records were registered that a resolver has returned for a domain. -/
  returned : ι → String → List UInt64

/-- What happens next, with what the DHT does then. -/
inductive DarkStep (ι : Type)
  | register (i : ι) (dht : Option DhtClient) (draws : RegisterDraws) (request : DarkRegistration)
  | lookup (i : ι) (dht : Option DhtClient) (domain : String)
  | update (i : ι) (dht : Option DhtClient) (domain : String) (record : DarkDomainRecord)
  | cleanup (i : ι) (order : HashMap.Iteration String DarkDomainRecord)
  /-- Time passes. -/
  | tick (later : UInt64)

/-- A registration lasts longer. -/
def DarkBinding.extend (expiresAt : UInt64) (b : DarkBinding) : DarkBinding :=
  { b with expiresAt := if b.expiresAt < expiresAt then expiresAt else b.expiresAt }

/-- A registration does not get shorter, and lasts as long as it is extended to. -/
lemma DarkBinding.le_extend (expiresAt : UInt64) (b : DarkBinding) :
    b.expiresAt ≤ (b.extend expiresAt).expiresAt ∧ expiresAt ≤ (b.extend expiresAt).expiresAt := by
  unfold extend
  dsimp only
  split_ifs with h
  · exact ⟨UInt64.le_of_lt h, UInt64.le_refl _⟩
  · exact ⟨UInt64.le_refl _, UInt64.not_lt.mp h⟩

/-- The registration of a domain under a key lasts longer, if it has not expired. -/
def renew (now : UInt64) (domain : String) (publicKey : List UInt8) (expiresAt : UInt64) :
    List DarkBinding → List DarkBinding
  | [] => []
  | b :: bindings =>
    if b.domain = domain ∧ b.publicKey = publicKey ∧ now ≤ b.expiresAt then
      b.extend expiresAt :: bindings
    else b :: renew now domain publicKey expiresAt bindings

namespace DarkNetwork

variable {ι : Type} [DecidableEq ι] (K : DarkCrates)

/-- New resolvers. -/
def start (now : UInt64) : DarkNetwork ι := ⟨now, fun _ => .new, [], fun _ _ => []⟩

/-- The earliest registration of a domain that has not expired. -/
def earliest (s : DarkNetwork ι) (domain : String) : Option DarkBinding :=
  s.bindings.find? fun b => decide (b.domain = domain ∧ s.now ≤ b.expiresAt)

/-- Make a step. -/
def apply (s : DarkNetwork ι) : DarkStep ι → DarkNetwork ι
  | .register i dht draws request =>
    let result := (s.resolvers i).registerDomain K dht draws request s.now
    let s' := { s with resolvers := Function.update s.resolvers i result.2 }
    match prepare K draws request s.now, result.1 with
    | .ok (address, record), .ok _ =>
      { s' with
        bindings :=
          s.bindings ++ [⟨address.domain, record.signingPublicKey, record.expiresAt⟩] }
    | _, _ => s'
  | .lookup i dht domain =>
    let result := (s.resolvers i).lookupDomain K dht s.now domain
    let s' := { s with resolvers := Function.update s.resolvers i result.2 }
    match result.1 with
    | .ok record =>
      { s' with
        returned := Function.update s.returned i
          (Function.update (s.returned i) domain (record.registeredAt :: s.returned i domain)) }
    | .error _ => s'
  | .update i dht domain record =>
    let result := (s.resolvers i).updateDomain K dht s.now domain record
    let s' := { s with resolvers := Function.update s.resolvers i result.2 }
    match result.1 with
    | .ok _ =>
      { s' with
        bindings := renew s.now domain record.signingPublicKey record.expiresAt s.bindings }
    | .error _ => s'
  | .cleanup i order =>
    let result := (s.resolvers i).cleanupExpired K order s.now
    { s with resolvers := Function.update s.resolvers i result.2 }
  | .tick later => { s with now := if s.now < later then later else s.now }

/-- A record that a lookup returns is signed by the key of the earliest registration that has not
expired, and it is not older than what the resolver has returned before. -/
def Bound (s : DarkNetwork ι) : DarkStep ι → Prop
  | .lookup i dht domain =>
    ∀ record, ((s.resolvers i).lookupDomain K dht s.now domain).1 = .ok record →
      (∃ b, s.earliest domain = some b ∧ record.signingPublicKey = b.publicKey ∧
        verifySignature K record = .ok ()) ∧
      ∀ t ∈ s.returned i domain, t ≤ record.registeredAt
  | _ => True

/-- What the DHT has for a domain that a resolver does not know is signed by the key of its earliest
registration that has not expired, does not outlast it, and is not older than what the resolver has
returned before. -/
def FetchesOwn (s : DarkNetwork ι) (i : ι) (dht : Option DhtClient) (domain : String) : Prop :=
  ∀ record, domain ∉ (s.resolvers i).domains →
    fetchRecord K dht s.now domain = .ok (some record) →
      (∃ b, s.earliest domain = some b ∧ record.signingPublicKey = b.publicKey ∧
        record.expiresAt ≤ b.expiresAt) ∧
      ∀ t ∈ s.returned i domain, t ≤ record.registeredAt

/-- The record that a resolver goes by: its own, or the one of the DHT if it has none. -/
def GoesBy (s : DarkNetwork ι) (i : ι) (dht : Option DhtClient) (domain : String)
    (record : DarkDomainRecord) : Prop :=
  (s.resolvers i).domains.lookup domain = some record ∨
    domain ∉ (s.resolvers i).domains ∧ fetchRecord K dht s.now domain = .ok (some record)

/-- No registration of the domain lasts, the DHT fails neither registrations nor updates, it has the
owner's records only, and no record is older than one that the resolver has returned. -/
def Careful (s : DarkNetwork ι) : DarkStep ι → Prop
  | .register i dht draws request =>
    ∀ address record, prepare K draws request s.now = .ok (address, record) →
      address.domain ∉ (s.resolvers i).domains →
        s.earliest address.domain = none ∧ putRecord K dht address.domain record = .ok () ∧
          ∀ t ∈ s.returned i address.domain, t ≤ record.registeredAt
  | .lookup i dht domain => s.FetchesOwn K i dht domain
  | .update i dht domain record =>
    s.FetchesOwn K i dht domain ∧
      ∀ existing, s.GoesBy K i dht domain existing →
        existing.signingPublicKey = record.signingPublicKey →
          verifySignature K record = .ok () →
            putRecord K dht domain record = .ok () ∧
              ∀ t ∈ s.returned i domain, t ≤ record.registeredAt
  | .cleanup _ _ => True
  | .tick _ => True

/-! ## Records stay with their owners -/

/-- No two registrations of a domain last at the same time, every record that is stored belongs to a
registration that outlasts it, and it is not older than what was returned. -/
structure Owned (s : DarkNetwork ι) : Prop where
  single : s.bindings.Pairwise fun b b' => b.domain = b'.domain → b.expiresAt < s.now
  owner : ∀ i domain record, (s.resolvers i).domains.lookup domain = some record →
    ∃ b ∈ s.bindings, b.domain = domain ∧ b.publicKey = record.signingPublicKey ∧
      record.expiresAt ≤ b.expiresAt
  fresh : ∀ i domain record, (s.resolvers i).domains.lookup domain = some record →
    ∀ t ∈ s.returned i domain, t ≤ record.registeredAt

variable {K} {s : DarkNetwork ι}

omit [DecidableEq ι] in
lemma owned_start (now : UInt64) : Owned (start now : DarkNetwork ι) where
  single := List.Pairwise.nil
  owner _ _ _ h := nomatch h
  fresh _ _ _ h := nomatch h

/-- **A registration that has not expired is the earliest one** of its domain. -/
lemma earliest_eq {now : UInt64} {b : DarkBinding} : ∀ {bindings : List DarkBinding},
    (bindings.Pairwise fun b b' => b.domain = b'.domain → b.expiresAt < now) → b ∈ bindings →
      now ≤ b.expiresAt →
        bindings.find? (fun b' => decide (b'.domain = b.domain ∧ now ≤ b'.expiresAt)) = some b := by
  intro bindings
  induction bindings with
  | nil => exact fun _ hmem => absurd hmem List.not_mem_nil
  | cons first rest ih =>
    intro h hmem hlasts
    obtain ⟨hfirst, hrest⟩ := List.pairwise_cons.mp h
    rcases List.mem_cons.mp hmem with rfl | hmem
    · exact List.find?_cons_of_pos (decide_eq_true ⟨rfl, hlasts⟩)
    · have hskip : ¬(first.domain = b.domain ∧ now ≤ first.expiresAt) := fun hboth =>
        UInt64.not_le.mpr (hfirst b hmem hboth.1) hboth.2
      rw [List.find?_cons_of_neg (by simpa using hskip)]
      exact ih hrest hmem hlasts

omit [DecidableEq ι] in
/-- The earliest registration of a domain is one of it. -/
lemma mem_of_earliest {domain : String} {b : DarkBinding} (h : s.earliest domain = some b) :
    b ∈ s.bindings ∧ b.domain = domain :=
  ⟨List.mem_of_find?_eq_some h, (of_decide_eq_true (List.find?_eq_some_iff_append.mp h).1).1⟩

section Renew

variable {now : UInt64} {domain : String} {publicKey : List UInt8} {expiresAt : UInt64}

/-- A registration stays, and does not get shorter. -/
lemma exists_mem_renew {b : DarkBinding} : ∀ {bindings : List DarkBinding}, b ∈ bindings →
    ∃ b' ∈ renew now domain publicKey expiresAt bindings,
      b'.domain = b.domain ∧ b'.publicKey = b.publicKey ∧ b.expiresAt ≤ b'.expiresAt := by
  intro bindings
  induction bindings with
  | nil => exact fun hmem => absurd hmem List.not_mem_nil
  | cons first rest ih =>
    intro hmem
    rw [renew]
    split_ifs with hrenew
    · rcases List.mem_cons.mp hmem with rfl | hmem
      · exact ⟨_, List.mem_cons_self, rfl, rfl, (b.le_extend expiresAt).1⟩
      · exact ⟨b, List.mem_cons_of_mem _ hmem, rfl, rfl, UInt64.le_refl _⟩
    · rcases List.mem_cons.mp hmem with rfl | hmem
      · exact ⟨b, List.mem_cons_self, rfl, rfl, UInt64.le_refl _⟩
      · obtain ⟨b', hb', hsame⟩ := ih hmem
        exact ⟨b', List.mem_cons_of_mem _ hb', hsame⟩

/-- Every registration was there before. -/
lemma exists_mem_of_renew {b : DarkBinding} : ∀ {bindings : List DarkBinding},
    b ∈ renew now domain publicKey expiresAt bindings → ∃ b' ∈ bindings, b'.domain = b.domain := by
  intro bindings
  induction bindings with
  | nil => exact fun hmem => absurd hmem List.not_mem_nil
  | cons first rest ih =>
    intro hmem
    rw [renew] at hmem
    split_ifs at hmem with hrenew
    · rcases List.mem_cons.mp hmem with rfl | hmem
      · exact ⟨first, List.mem_cons_self, rfl⟩
      · exact ⟨b, List.mem_cons_of_mem _ hmem, rfl⟩
    · rcases List.mem_cons.mp hmem with rfl | hmem
      · exact ⟨b, List.mem_cons_self, rfl⟩
      · obtain ⟨b', hb', hsame⟩ := ih hmem
        exact ⟨b', List.mem_cons_of_mem _ hb', hsame⟩

/-- A registration that has not expired lasts as long as it is renewed for. -/
lemma exists_renewed {b : DarkBinding} : ∀ {bindings : List DarkBinding}, b ∈ bindings →
    b.domain = domain → b.publicKey = publicKey → now ≤ b.expiresAt →
      ∃ b' ∈ renew now domain publicKey expiresAt bindings,
        b'.domain = domain ∧ b'.publicKey = publicKey ∧ expiresAt ≤ b'.expiresAt := by
  intro bindings
  induction bindings with
  | nil => exact fun hmem => absurd hmem List.not_mem_nil
  | cons first rest ih =>
    intro hmem hdomain hkey hlasts
    rw [renew]
    split_ifs with hrenew
    · exact ⟨_, List.mem_cons_self, hrenew.1, hrenew.2.1, (first.le_extend expiresAt).2⟩
    · rcases List.mem_cons.mp hmem with rfl | hmem
      · exact absurd ⟨hdomain, hkey, hlasts⟩ hrenew
      · obtain ⟨b', hb', hsame⟩ := ih hmem hdomain hkey hlasts
        exact ⟨b', List.mem_cons_of_mem _ hb', hsame⟩

/-- Renewing a registration makes no two of a domain last, since it was the only one. -/
lemma pairwise_renew : ∀ {bindings : List DarkBinding},
    (bindings.Pairwise fun b b' => b.domain = b'.domain → b.expiresAt < now) →
      (renew now domain publicKey expiresAt bindings).Pairwise
        fun b b' => b.domain = b'.domain → b.expiresAt < now := by
  intro bindings
  induction bindings with
  | nil => exact fun _ => List.Pairwise.nil
  | cons first rest ih =>
    intro h
    obtain ⟨hfirst, hrest⟩ := List.pairwise_cons.mp h
    rw [renew]
    split_ifs with hrenew
    · refine List.pairwise_cons.mpr ⟨fun b' hb' hsame => ?_, hrest⟩
      exact absurd hrenew.2.2 (UInt64.not_le.mpr (hfirst b' hb' hsame))
    · refine List.pairwise_cons.mpr ⟨fun b' hb' hsame => ?_, ih hrest⟩
      obtain ⟨b'', hb'', hsame'⟩ := exists_mem_of_renew hb'
      exact hfirst b'' hb'' (hsame.trans hsame'.symm)

end Renew

/-! ## Steps -/

/-- A step of one resolver keeps the records with their owners, if it keeps the registrations, and
what it stores belongs to one of them and is not too old. -/
lemma Owned.update (h : Owned s) {i : ι} {resolver : DarkResolver} {bindings : List DarkBinding}
    {returned : ι → String → List UInt64}
    (hsingle : bindings.Pairwise fun b b' => b.domain = b'.domain → b.expiresAt < s.now)
    (hkept : ∀ b ∈ s.bindings, ∃ b' ∈ bindings,
      b'.domain = b.domain ∧ b'.publicKey = b.publicKey ∧ b.expiresAt ≤ b'.expiresAt)
    (howner : ∀ domain record, resolver.domains.lookup domain = some record →
      ∃ b ∈ bindings, b.domain = domain ∧ b.publicKey = record.signingPublicKey ∧
        record.expiresAt ≤ b.expiresAt)
    (hfresh : ∀ domain record, resolver.domains.lookup domain = some record →
      ∀ t ∈ returned i domain, t ≤ record.registeredAt)
    (hreturned : ∀ j, j ≠ i → returned j = s.returned j) :
    Owned { s with
      resolvers := Function.update s.resolvers i resolver
      bindings := bindings
      returned := returned } where
  single := hsingle
  owner j domain record hstored := by
    dsimp only at hstored
    by_cases hj : j = i
    · subst hj
      rw [Function.update_self] at hstored
      exact howner domain record hstored
    · rw [Function.update_of_ne hj] at hstored
      obtain ⟨b, hb, hdomain, hkey, hexpires⟩ := h.owner j domain record hstored
      obtain ⟨b', hb', hdomain', hkey', hexpires'⟩ := hkept b hb
      exact ⟨b', hb', hdomain'.trans hdomain, hkey'.trans hkey, UInt64.le_trans hexpires hexpires'⟩
  fresh j domain record hstored := by
    dsimp only at hstored
    by_cases hj : j = i
    · subst hj
      rw [Function.update_self] at hstored
      exact hfresh domain record hstored
    · rw [Function.update_of_ne hj] at hstored
      dsimp only
      rw [hreturned j hj]
      exact h.fresh j domain record hstored

/-- Every registration is kept if none is touched. -/
lemma kept_self {bindings : List DarkBinding} : ∀ b ∈ bindings, ∃ b' ∈ bindings,
    b'.domain = b.domain ∧ b'.publicKey = b.publicKey ∧ b.expiresAt ≤ b'.expiresAt :=
  fun b hb => ⟨b, hb, rfl, rfl, UInt64.le_refl _⟩

omit [DecidableEq ι] in
/-- What a resolver holds after a lookup belongs to a registration, and is not too old. -/
lemma stored_lookupDomain (h : Owned s) {i : ι} {dht : Option DhtClient} {domain : String}
    (hfetch : s.FetchesOwn K i dht domain) (domain' : String) (record : DarkDomainRecord)
    (hstored : ((s.resolvers i).lookupDomain K dht s.now domain).2.domains.lookup domain' =
      some record) :
    (∃ b ∈ s.bindings, b.domain = domain' ∧ b.publicKey = record.signingPublicKey ∧
      record.expiresAt ≤ b.expiresAt) ∧ ∀ t ∈ s.returned i domain', t ≤ record.registeredAt := by
  rcases DarkResolver.lookupDomain_cases dht s.now domain (s.resolvers i) (K := K) with
    ⟨hself, -⟩ | ⟨fetched, hnone, hfetched, hlookup⟩
  · rw [hself] at hstored
    exact ⟨h.owner i domain' record hstored, h.fresh i domain' record hstored⟩
  · rw [hlookup, DarkResolver.lookup_store] at hstored
    split_ifs at hstored with hsame
    · obtain rfl := Option.some.inj hstored
      subst hsame
      obtain ⟨⟨b, hearliest, hkey, hexpires⟩, hfresh⟩ :=
        hfetch fetched (Finmap.lookup_eq_none.mp hnone) hfetched
      obtain ⟨hmem, hdomain⟩ := mem_of_earliest hearliest
      exact ⟨⟨b, hmem, hdomain, hkey.symm, hexpires⟩, hfresh⟩
    · exact ⟨h.owner i domain' record hstored, h.fresh i domain' record hstored⟩

omit [DecidableEq ι] in
/-- A lookup returns the record that the resolver goes by, which it holds afterwards. -/
lemma goesBy_lookupDomain {i : ι} {dht : Option DhtClient} {domain : String}
    {record : DarkDomainRecord}
    (hok : ((s.resolvers i).lookupDomain K dht s.now domain).1 = .ok record) :
    s.GoesBy K i dht domain record ∧ isExpired s.now record = false ∧
      verifySignature K record = .ok () ∧
      ((s.resolvers i).lookupDomain K dht s.now domain).2.domains.lookup domain = some record := by
  rcases DarkResolver.lookupDomain_cases dht s.now domain (s.resolvers i) (K := K) with
    ⟨hself, hlocal⟩ | ⟨fetched, hnone, hfetched, hlookup⟩
  · obtain ⟨hstored, hvalid, hverify⟩ := hlocal record hok
    refine ⟨Or.inl hstored, hvalid, hverify, ?_⟩
    rw [hself]
    exact hstored
  · rw [hlookup] at hok ⊢
    obtain rfl := Except.ok.inj hok
    obtain ⟨hvalid, hverify⟩ := DarkResolver.fetchRecord_eq_some hfetched
    refine ⟨Or.inr ⟨Finmap.lookup_eq_none.mp hnone, hfetched⟩, hvalid, hverify, ?_⟩
    rw [DarkResolver.lookup_store, if_pos rfl]

omit [DecidableEq ι] in
/-- **A lookup is bound** if records are with their owners, and the DHT has those of the owner. -/
lemma bound_lookupDomain (h : Owned s) {i : ι} {dht : Option DhtClient} {domain : String}
    (hfetch : s.FetchesOwn K i dht domain) {record : DarkDomainRecord}
    (hok : ((s.resolvers i).lookupDomain K dht s.now domain).1 = .ok record) :
    ∃ b, b ∈ s.bindings ∧ b.domain = domain ∧ s.now ≤ b.expiresAt ∧
      s.earliest domain = some b ∧ record.signingPublicKey = b.publicKey := by
  obtain ⟨-, hvalid, -, hstored⟩ := goesBy_lookupDomain hok
  obtain ⟨⟨b, hmem, hdomain, hkey, hexpires⟩, -⟩ :=
    stored_lookupDomain h hfetch domain record hstored
  have hlasts : s.now ≤ b.expiresAt :=
    UInt64.le_trans (UInt64.not_lt.mp (of_decide_eq_false hvalid)) hexpires
  exact ⟨b, hmem, hdomain, hlasts, hdomain ▸ earliest_eq h.single hmem hlasts, hkey.symm⟩

/-- A lookup keeps the records with their owners. -/
lemma owned_lookup (h : Owned s) {i : ι} {dht : Option DhtClient} {domain : String}
    (hfetch : s.FetchesOwn K i dht domain) : Owned (s.apply K (.lookup i dht domain)) := by
  have hstored := stored_lookupDomain h hfetch
  dsimp only [apply]
  cases hresult : ((s.resolvers i).lookupDomain K dht s.now domain).1 with
  | error e =>
    exact h.update h.single kept_self (fun domain' record h' => (hstored domain' record h').1)
      (fun domain' record h' => (hstored domain' record h').2) fun _ _ => rfl
  | ok found =>
    have hfound := (goesBy_lookupDomain hresult).2.2.2
    refine h.update h.single kept_self (fun domain' record h' => (hstored domain' record h').1)
      (fun domain' record h' t ht => ?_) fun j hj => Function.update_of_ne hj _ _
    rw [Function.update_self] at ht
    by_cases hdomain : domain' = domain
    · subst hdomain
      rw [Function.update_self] at ht
      rcases List.mem_cons.mp ht with rfl | ht
      · rw [hfound] at h'
        exact Option.some.inj h' ▸ UInt64.le_refl _
      · exact (hstored domain' record h').2 t ht
    · rw [Function.update_of_ne hdomain] at ht
      exact (hstored domain' record h').2 t ht

/-- A registration keeps the records with their owners, if nobody else holds the domain. -/
lemma owned_register (h : Owned s) {i : ι} {dht : Option DhtClient} {draws : RegisterDraws}
    {request : DarkRegistration} (hcareful : s.Careful K (.register i dht draws request)) :
    Owned (s.apply K (.register i dht draws request)) := by
  dsimp only [apply]
  unfold DarkResolver.registerDomain
  cases hprepare : prepare K draws request s.now with
  | error e =>
    exact h.update h.single kept_self (h.owner i) (h.fresh i) fun _ _ => rfl
  | ok prepared =>
    obtain ⟨address, record⟩ := prepared
    dsimp only
    by_cases hmem : address.domain ∈ (s.resolvers i).domains
    · rw [if_pos hmem]
      exact h.update h.single kept_self (h.owner i) (h.fresh i) fun _ _ => rfl
    · obtain ⟨hnone, hput, hnew⟩ := hcareful address record hprepare hmem
      rw [if_neg hmem, hput]
      refine h.update ?_ (fun b hb => ?_) (fun domain' record' h' => ?_)
        (fun domain' record' h' => ?_) fun _ _ => rfl
      · -- The new registration is the only one of its domain that lasts.
        refine List.pairwise_append.mpr ⟨h.single, List.pairwise_singleton _ _, ?_⟩
        intro b hb b' hb' hsame
        obtain rfl := List.mem_singleton.mp hb'
        have hexpired := List.find?_eq_none.mp hnone b hb
        simp only [decide_eq_true_eq, not_and, UInt64.not_le] at hexpired
        exact hexpired hsame
      · exact ⟨b, List.mem_append_left _ hb, rfl, rfl, UInt64.le_refl _⟩
      · dsimp only [DarkResolver.domains_enterAddress] at h'
        rw [DarkResolver.lookup_store] at h'
        split_ifs at h' with hsame
        · obtain rfl := Option.some.inj h'
          exact ⟨_, List.mem_append_right _ (List.mem_singleton_self _), hsame.symm, rfl,
            UInt64.le_refl _⟩
        · obtain ⟨b, hb, hrest⟩ := h.owner i domain' record' h'
          exact ⟨b, List.mem_append_left _ hb, hrest⟩
      · dsimp only [DarkResolver.domains_enterAddress] at h'
        rw [DarkResolver.lookup_store] at h'
        split_ifs at h' with hsame
        · obtain rfl := Option.some.inj h'
          exact hsame ▸ hnew
        · exact h.fresh i domain' record' h'

/-- An update keeps the records with their owners. -/
lemma owned_update (h : Owned s) {i : ι} {dht : Option DhtClient} {domain : String}
    {record : DarkDomainRecord} (hcareful : s.Careful K (.update i dht domain record)) :
    Owned (s.apply K (.update i dht domain record)) := by
  obtain ⟨hfetch, hupdate⟩ := hcareful
  have hstored := stored_lookupDomain h hfetch
  dsimp only [apply]
  rcases DarkResolver.updateDomain_cases dht s.now domain record (s.resolvers i) (K := K) with
    ⟨⟨e, hfails⟩, hself | hlooked⟩ | ⟨existing, hverify, hfound, hkey, hdone⟩
  · rw [hfails, hself]
    exact h.update h.single kept_self (h.owner i) (h.fresh i) fun _ _ => rfl
  · rw [hfails, hlooked]
    exact h.update h.single kept_self (fun domain' record h' => (hstored domain' record h').1)
      (fun domain' record h' => (hstored domain' record h').2) fun _ _ => rfl
  · obtain ⟨hput, hnew⟩ := hupdate existing (goesBy_lookupDomain hfound).1 hkey hverify
    obtain ⟨b, hb, hdomain, hlasts, -, hbkey⟩ := bound_lookupDomain h hfetch hfound
    obtain ⟨b', hb', hdomain', hkey', hexpires'⟩ := @exists_renewed s.now domain
      record.signingPublicKey record.expiresAt b s.bindings hb hdomain (hbkey.symm.trans hkey)
      hlasts
    rw [hdone, hput]
    refine h.update (pairwise_renew h.single) (fun b hb => exists_mem_renew hb)
      (fun domain'' record' h' => ?_) (fun domain'' record' h' => ?_) fun _ _ => rfl
    · rw [DarkResolver.lookup_store] at h'
      split_ifs at h' with hsame
      · obtain rfl := Option.some.inj h'
        exact ⟨b', hb', hdomain'.trans hsame.symm, hkey', hexpires'⟩
      · obtain ⟨b₀, hb₀, hdomain₀, hkey₀, hexpires₀⟩ := (hstored domain'' record' h').1
        obtain ⟨b₁, hb₁, hdomain₁, hkey₁, hexpires₁⟩ := @exists_mem_renew s.now domain
          record.signingPublicKey record.expiresAt b₀ s.bindings hb₀
        exact ⟨b₁, hb₁, hdomain₁.trans hdomain₀, hkey₁.trans hkey₀,
          UInt64.le_trans hexpires₀ hexpires₁⟩
    · rw [DarkResolver.lookup_store] at h'
      split_ifs at h' with hsame
      · obtain rfl := Option.some.inj h'
        exact hsame ▸ hnew
      · exact (hstored domain'' record' h').2

/-- **Careful steps keep the records with their owners.** -/
lemma owned_apply (h : Owned s) : ∀ step, s.Careful K step → Owned (s.apply K step)
  | .register _ _ _ _, hcareful => owned_register h hcareful
  | .lookup _ _ _, hcareful => owned_lookup h hcareful
  | .update _ _ _ _, hcareful => owned_update h hcareful
  | .cleanup i order, _ => by
    have hstored : ∀ domain record, ((s.resolvers i).cleanupExpired K order s.now).2.domains.lookup
        domain = some record → (s.resolvers i).domains.lookup domain = some record := by
      intro domain record h'
      rw [DarkResolver.cleanupExpired, DarkResolver.lookup_removeExpired] at h'
      split_ifs at h'
      exact h'
    exact h.update h.single kept_self (fun domain record h' => h.owner i domain record
      (hstored domain record h')) (fun domain record h' => h.fresh i domain record
      (hstored domain record h')) fun _ _ => rfl
  | .tick later, _ => by
    refine ⟨h.single.imp fun hb hsame => ?_, h.owner, h.fresh⟩
    have hexpired := hb hsame
    dsimp only [apply]
    split_ifs with hlater
    · exact UInt64.lt_trans hexpired hlater
    · exact hexpired

omit [DecidableEq ι] in
/-- A lookup is bound, if records are with their owners and it is careful. -/
lemma bound_of_owned (h : Owned s) : ∀ step, s.Careful K step → s.Bound K step
  | .lookup i dht domain, hcareful => by
    intro record hok
    obtain ⟨b, -, -, -, hearliest, hkey⟩ := bound_lookupDomain h hcareful hok
    obtain ⟨-, -, hverify, hstored⟩ := goesBy_lookupDomain hok
    exact ⟨⟨b, hearliest, hkey, hverify⟩, (stored_lookupDomain h hcareful domain record hstored).2⟩
  | .register _ _ _ _, _ => trivial
  | .update _ _ _ _, _ => trivial
  | .cleanup _ _, _ => trivial
  | .tick _, _ => trivial

/-- **In a careful run every lookup returns a record of the earliest registration that has not
expired, and none that is older than before.** -/
theorem bound_of_careful {steps : List (DarkStep ι)} {now : UInt64}
    (h : Runs.Steps (apply K) (Careful K) (start now) steps) :
    Runs.Steps (apply K) (Bound K) (start now) steps :=
  Runs.steps_rule Owned (fun _ step howned hcareful =>
    ⟨owned_apply howned step hcareful, bound_of_owned howned step hcareful⟩) h (owned_start now)

/-- One resolver registers a domain, and a resolver looks it up while the DHT answers with the
record of another key. -/
def sampleSteps (i : Bool) : List (DarkStep Bool) :=
  [.register true (some (sampleDhtClient [9])) (sampleRegisterDraws [7]) sampleRegistration,
    .lookup i (some (sampleDhtClient [9])) "abc.dark"]

/-- The resolver that has registered the domain finds its own record. -/
theorem bound_of_careful_sampleSteps :
    Runs.Steps (apply sampleDarkCrates) (Careful sampleDarkCrates) (start 0) (sampleSteps true) ∧
      Runs.Steps (apply sampleDarkCrates) (Bound sampleDarkCrates) (start 0)
        (sampleSteps true) := by
  have hcareful : Runs.Steps (apply sampleDarkCrates) (Careful sampleDarkCrates) (start 0)
      (sampleSteps true) := by
    refine ⟨fun address record hprepare _ => ?_, fun record hunknown _ => ?_, trivial⟩
    · obtain ⟨rfl, rfl⟩ :=
        Prod.mk.inj (Except.ok.inj (prepare_sampleRegistration.symm.trans hprepare))
      exact ⟨rfl, rfl, nofun⟩
    · exact absurd (by decide) hunknown
  exact ⟨hcareful, bound_of_careful hcareful⟩

/-- Another resolver takes the record of the DHT, which the key of the registration has not
signed. -/
theorem not_bound_sampleSteps :
    ¬Runs.Steps (apply sampleDarkCrates) (Bound sampleDarkCrates) (start 0)
      (sampleSteps false) := by
  rintro ⟨-, hbound, -⟩
  obtain ⟨⟨b, hearliest, hkey, -⟩, -⟩ := hbound (sampleDarkRecord [9]) (by decide)
  have hfirst : (apply sampleDarkCrates (start 0)
      (.register true (some (sampleDhtClient [9])) (sampleRegisterDraws [7]) sampleRegistration :
        DarkStep Bool)).earliest "abc.dark" = some ⟨"abc.dark", [7], 60⟩ := by decide
  obtain rfl := Option.some.inj (hfirst.symm.trans hearliest)
  exact absurd hkey (by decide)

end DarkNetwork

end QuDAG.Network
