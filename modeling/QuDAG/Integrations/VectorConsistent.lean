import QuDAG.Integrations.VectorIndex

/-!
# The invariant of the vector index

The pending identifiers of an index are those of the calls of `add` that wait, and what the native
database has stored has its metadata in the index or is pending. Every step keeps this.

## Main definitions

* `Consistent` — the invariant.

## Main results

* `add_cases`, `search_cases`, `close_cases` — what a call does.
* `Consistent.apply` — every step keeps the invariant.
-/

namespace QuDAG.Integrations.Ruvector

open RustStd

variable {Input Vector Value : Type}

/-! ## The invariant -/

/-- The identifier that a call adds. -/
def Call.adds : Call Vector Value → Option String
  | .add id _ _ _ => some id
  | _ => none

/-- The identifier that the call with a number waits to add. -/
def System.adding (s : System Vector Value) (call : ℕ) : Option String :=
  (s.calls.lookup call).bind Call.adds

section Invariant

variable (env : Environment Input Vector Value)

/-- The capacity is kept, and no identifier is stored twice. -/
structure Bounded (s : System Vector Value) : Prop where
  capacity : s.index.metadata.keys.card + s.index.pending.card ≤ s.index.maxElements
  once : (s.native.map Entry.id).Nodup

/-- What a waiting call knows: an insertion that finished has stored its entry, one that has not
finished has not, and the results of a search are stored. -/
def Call.Fits (index : RuvectorIndex Value) (native : List (Entry Vector Value)) :
    Call Vector Value → Prop
  | .add id vector copy result => id ∈ index.pending ∧ env.structuredClone copy = .ok copy ∧
      (result = some (.ok ()) → ⟨id, vector, copy⟩ ∈ native) ∧
      (result ≠ some (.ok ()) → ∀ e ∈ native, e.id ≠ id)
  | .search _ _ result =>
    ∀ results, result = some (.ok results) → ∀ r ∈ results, ∃ e ∈ native, e.id = r.1
  | .close _ => index.closed = true

/-- What connects the index, the native database and the waiting calls. -/
structure Consistent (s : System Vector Value) : Prop where
  bounded : Bounded s
  fits : ∀ {call c}, s.calls.lookup call = some c → c.Fits env s.index s.native
  /-- The pending identifiers are those of the waiting calls of `add`. -/
  pending_adding : ∀ {id}, id ∈ s.index.pending → ∃ call, s.adding call = some id
  /-- No two calls wait for the insertion of one identifier. -/
  adding_unique : ∀ {call call' id}, s.adding call = some id → s.adding call' = some id →
    call = call'
  pending_fresh : ∀ {id}, id ∈ s.index.pending → id ∉ s.index.metadata
  dropped : s.index.db = false → s.index.closed = true ∧ s.index.metadata = ∅
  idle_of_closed : s.index.closed = true → s.index.pending = ∅
  /-- What is stored has its metadata in the index, or waits for that. -/
  stored : s.index.db = true → ∀ e ∈ s.native,
    e.id ∈ s.index.pending ∨ s.index.metadata.lookup e.id = some e.metadata
  copies : ∀ {id value}, s.index.metadata.lookup id = some value →
    env.structuredClone value = .ok value

end Invariant

section Steps

variable {env : Environment Input Vector Value} {s : System Vector Value} {call : ℕ}

/-- A call still fits when entries with other identifiers are stored, other identifiers become or
are no longer pending, and the index is closed. -/
lemma Call.Fits.mono {index index' : RuvectorIndex Value}
    {native native' : List (Entry Vector Value)} {c : Call Vector Value}
    (h : c.Fits env index native)
    (hpending : ∀ id, c.adds = some id → id ∈ index.pending → id ∈ index'.pending)
    (hsub : native ⊆ native')
    (hnew : ∀ id, c.adds = some id → ∀ e ∈ native', e.id = id → e ∈ native)
    (hclosed : index.closed = true → index'.closed = true) : c.Fits env index' native' := by
  cases c with
  | add id vector copy result =>
    obtain ⟨hid, hcopy, hstored, hfresh⟩ := h
    refine ⟨hpending id rfl hid, hcopy, fun hr => hsub (hstored hr), fun hr e he heq => ?_⟩
    exact hfresh hr e (hnew id rfl e he heq) heq
  | search vector k result =>
    intro results hresult r hr
    obtain ⟨e, he, heq⟩ := h results hresult r hr
    exact ⟨e, hsub he, heq⟩
  | close result => exact hclosed h

lemma System.adding_eq_some {id : String} :
    s.adding call = some id ↔ ∃ vector copy result,
      s.calls.lookup call = some (.add id vector copy result) := by
  rw [System.adding, Option.bind_eq_some_iff]
  constructor
  · rintro ⟨c, hc, hid⟩
    cases c with
    | add id' vector copy result =>
      obtain rfl := Option.some.inj hid
      exact ⟨vector, copy, result, hc⟩
    | search vector k result => simp [Call.adds] at hid
    | close result => simp [Call.adds] at hid
  · rintro ⟨vector, copy, result, hc⟩
    exact ⟨_, hc, rfl⟩

/-- What the calls add after one of them has been written. -/
lemma System.adding_insert {index : RuvectorIndex Value} {native : List (Entry Vector Value)}
    (c : Call Vector Value) (call' : ℕ) :
    System.adding ⟨index, native, s.calls.insert call c⟩ call' =
      if call' = call then c.adds else s.adding call' := by
  rw [System.adding, HashMap.lookup_insert_ite]
  split_ifs <;> rfl

/-- What the calls add after one of them has been taken out. -/
lemma System.adding_erase (index : RuvectorIndex Value) (native : List (Entry Vector Value))
    (call' : ℕ) : System.adding ⟨index, native, s.calls.erase call⟩ call' =
      if call' = call then none else s.adding call' := by
  rw [System.adding, HashMap.lookup_erase_ite]
  split_ifs <;> rfl

/-- What `add` has checked. -/
lemma of_checkAdd_eq_ok {index : RuvectorIndex Value} {id : Json} {vector : Input}
    {metadata : Option Value} {id' : String} {normalized : Vector} {copy : Value}
    (h : index.checkAdd env id vector metadata = .ok (id', normalized, copy)) :
    index.closed = false ∧ id' ∉ index.metadata ∧ id' ∉ index.pending ∧
      index.metadata.keys.card + index.pending.card < index.maxElements ∧
      env.structuredClone copy = .ok copy := by
  simp only [RuvectorIndex.checkAdd, bind_eq_ok, require_eq_ok, orThrow_eq_ok, Bool.and_eq_true,
    decide_eq_true_eq, Bool.not_eq_true'] at h
  obtain ⟨_, hopen, _, -, _, -, _, ⟨hmetadata, hpending⟩, _, hcapacity, _, -, copy', hcopy, h⟩ := h
  cases h
  exact ⟨hopen, hmetadata, hpending, hcapacity, env.clone_clone hcopy⟩

/-! ## What keeps the invariant -/

namespace Consistent

/-- Calls that add the same identifiers and know what is right keep the invariant. -/
lemma withCalls (h : Consistent env s) {calls : HashMap ℕ (Call Vector Value)}
    (hadding : ∀ call, System.adding ⟨s.index, s.native, calls⟩ call = s.adding call)
    (hfits : ∀ {call c}, calls.lookup call = some c → c.Fits env s.index s.native) :
    Consistent env ⟨s.index, s.native, calls⟩ where
  bounded := ⟨h.bounded.capacity, h.bounded.once⟩
  fits := hfits
  pending_adding := fun hid => by
    obtain ⟨call, hcall⟩ := h.pending_adding hid
    exact ⟨call, (hadding call).trans hcall⟩
  adding_unique := fun hcall hcall' =>
    h.adding_unique ((hadding _).symm.trans hcall) ((hadding _).symm.trans hcall')
  pending_fresh := h.pending_fresh
  dropped := h.dropped
  idle_of_closed := h.idle_of_closed
  stored := h.stored
  copies := h.copies

/-- A call that adds what it added before and knows what is right keeps the invariant. -/
lemma write (h : Consistent env s) {c : Call Vector Value} (hadds : c.adds = s.adding call)
    (hfits : c.Fits env s.index s.native) :
    Consistent env ⟨s.index, s.native, s.calls.insert call c⟩ := by
  refine h.withCalls (fun call' => ?_) fun {call' c'} hc' => ?_
  · rw [System.adding_insert]
    split_ifs with heq
    · rw [heq, hadds]
    · rfl
  · rw [HashMap.lookup_insert_ite] at hc'
    split_ifs at hc' with heq
    · obtain rfl := Option.some.inj hc'
      exact hfits
    · exact h.fits hc'

/-- Taking a call out that adds nothing keeps the invariant. -/
lemma remove (h : Consistent env s) (hadds : s.adding call = none) :
    Consistent env ⟨s.index, s.native, s.calls.erase call⟩ := by
  refine h.withCalls (fun call' => ?_) fun {call' c'} hc' => ?_
  · rw [System.adding_erase]
    split_ifs with heq
    · rw [heq, hadds]
    · rfl
  · rw [HashMap.lookup_erase_ite] at hc'
    split_ifs at hc'
    exact h.fits hc'

/-- An index with nothing pending may be closed. -/
lemma shut (h : Consistent env s) (hidle : s.index.pending = ∅) :
    Consistent env ⟨s.index.shut, s.native, s.calls⟩ where
  bounded := ⟨h.bounded.capacity, h.bounded.once⟩
  fits := fun hc => (h.fits hc).mono (fun _ _ hid => hid) (fun _ he => he)
    (fun _ _ _ he _ => he) fun _ => rfl
  pending_adding := h.pending_adding
  adding_unique := h.adding_unique
  pending_fresh := h.pending_fresh
  dropped := fun hdb => ⟨rfl, (h.dropped hdb).2⟩
  idle_of_closed := fun _ => hidle
  stored := h.stored
  copies := h.copies

/-- A closed index may be dropped. -/
lemma drop (h : Consistent env s) (hclosed : s.index.closed = true) :
    Consistent env ⟨s.index.drop, s.native, s.calls⟩ where
  bounded := by
    refine ⟨?_, h.bounded.once⟩
    show (∅ : HashMap String Value).keys.card + s.index.pending.card ≤ s.index.maxElements
    rw [Finmap.keys_empty, Finset.card_empty]
    have := h.bounded.capacity
    omega
  fits := fun hc => (h.fits hc).mono (fun _ _ hid => hid) (fun _ he => he)
    (fun _ _ _ he _ => he) fun hc => hc
  pending_adding := h.pending_adding
  adding_unique := h.adding_unique
  pending_fresh := fun _ => Finmap.notMem_empty
  dropped := fun _ => ⟨hclosed, rfl⟩
  idle_of_closed := h.idle_of_closed
  stored := fun hdb => absurd hdb Bool.false_ne_true
  copies := fun hid => by simp [RuvectorIndex.drop] at hid

/-- An open index has its database. -/
lemma db_of_open (h : Consistent env s) (hopen : s.index.closed = false) : s.index.db = true := by
  by_contra hdb
  rw [(h.dropped (Bool.eq_false_iff.mpr hdb)).1] at hopen
  exact Bool.noConfusion hopen

/-- A new identifier may become pending. -/
lemma pend (h : Consistent env s) (hcall : call ∉ s.calls) {id : String} {vector : Vector}
    {copy : Value} (hopen : s.index.closed = false) (hmetadata : id ∉ s.index.metadata)
    (hpending : id ∉ s.index.pending)
    (hcapacity : s.index.metadata.keys.card + s.index.pending.card < s.index.maxElements)
    (hcopy : env.structuredClone copy = .ok copy) :
    Consistent env ⟨s.index.pend id, s.native, s.calls.insert call (.add id vector copy none)⟩ := by
  have hnone : s.calls.lookup call = none := Finmap.lookup_eq_none.mpr hcall
  have hadding : ∀ call', System.adding
      ⟨s.index.pend id, s.native, s.calls.insert call (.add id vector copy none)⟩ call' =
        if call' = call then some id else s.adding call' :=
    fun call' => System.adding_insert (.add id vector copy none) call'
  have hother : ∀ {call' id'}, s.adding call' = some id' → call' ≠ call ∧ id' ≠ id := by
    intro call' id' hcall'
    refine ⟨fun heq => ?_, fun heq => ?_⟩
    · rw [heq, System.adding, hnone] at hcall'
      simp at hcall'
    · obtain ⟨vector', copy', result, hc⟩ := System.adding_eq_some.mp hcall'
      exact hpending (heq ▸ (h.fits hc).1)
  refine ⟨⟨?_, h.bounded.once⟩, fun {call' c} hc => ?_, fun {id'} hid' => ?_,
    fun {call₁ call₂ id'} h₁ h₂ => ?_, fun {id'} hid' => ?_, h.dropped, fun hclosed => ?_,
    fun hdb e he => ?_, h.copies⟩
  · show s.index.metadata.keys.card + (insert id s.index.pending).card ≤ s.index.maxElements
    rw [Finset.card_insert_of_notMem hpending]
    omega
  · rw [HashMap.lookup_insert_ite] at hc
    split_ifs at hc with heq
    · obtain rfl := Option.some.inj hc
      refine ⟨Finset.mem_insert_self _ _, hcopy, fun hr => (nomatch hr),
        fun _ e he heq => ?_⟩
      rcases h.stored (h.db_of_open hopen) e he with hmem | hlookup
      · exact hpending (heq ▸ hmem)
      · exact hmetadata (heq ▸ HashMap.mem_of_lookup hlookup)
    · exact (h.fits hc).mono (fun _ _ hid => Finset.mem_insert_of_mem hid) (fun _ he => he)
        (fun _ _ _ he _ => he) fun hclosed => hclosed
  · rcases Finset.mem_insert.mp hid' with rfl | hid'
    · exact ⟨call, (hadding call).trans (if_pos rfl)⟩
    · obtain ⟨call', hcall'⟩ := h.pending_adding hid'
      exact ⟨call', (hadding call').trans ((if_neg (hother hcall').1).trans hcall')⟩
  · rw [hadding] at h₁ h₂
    split_ifs at h₁ h₂ with heq₁ heq₂ heq₂
    · rw [heq₁, heq₂]
    · exact absurd (Option.some.inj h₁).symm (hother h₂).2
    · exact absurd (Option.some.inj h₂).symm (hother h₁).2
    · exact h.adding_unique h₁ h₂
  · rcases Finset.mem_insert.mp hid' with rfl | hid'
    · exact hmetadata
    · exact h.pending_fresh hid'
  · exact absurd (hopen.symm.trans hclosed) Bool.false_ne_true
  · exact (h.stored hdb e he).imp_left Finset.mem_insert_of_mem

/-- A waiting insertion may store its entry. -/
lemma store (h : Consistent env s) {id : String} {vector : Vector} {copy : Value}
    (hcall : s.calls.lookup call = some (.add id vector copy none)) :
    Consistent env ⟨s.index, s.native ++ [⟨id, vector, copy⟩],
      s.calls.insert call (.add id vector copy (some (.ok ())))⟩ := by
  obtain ⟨hid, hcopy, -, hfresh⟩ := h.fits hcall
  have hnew := hfresh (fun hr => nomatch hr)
  have hadding : ∀ call', System.adding ⟨s.index, s.native ++ [⟨id, vector, copy⟩],
      s.calls.insert call (.add id vector copy (some (.ok ())))⟩ call' = s.adding call' := by
    intro call'
    rw [System.adding_insert]
    split_ifs with heq
    · rw [heq, System.adding, hcall]
      rfl
    · rfl
  refine ⟨⟨h.bounded.capacity, ?_⟩, fun {call' c} hc => ?_, fun hid' => ?_, fun h₁ h₂ => ?_,
    h.pending_fresh, h.dropped, h.idle_of_closed, fun hdb e he => ?_, h.copies⟩
  · show ((s.native ++ [(⟨id, vector, copy⟩ : Entry Vector Value)]).map Entry.id).Nodup
    rw [List.map_append, List.map_singleton, List.nodup_append]
    refine ⟨h.bounded.once, List.nodup_singleton _, fun id' hid' id'' hid'' => ?_⟩
    obtain ⟨e, he, rfl⟩ := List.mem_map.mp hid'
    rw [List.mem_singleton.mp hid'']
    exact hnew e he
  · rw [HashMap.lookup_insert_ite] at hc
    split_ifs at hc with heq
    · obtain rfl := Option.some.inj hc
      exact ⟨hid, hcopy, fun _ => List.mem_append_right _ (List.mem_singleton_self _),
        fun hr => absurd rfl hr⟩
    · refine (h.fits hc).mono (fun _ _ hid => hid) (fun _ he => List.mem_append_left _ he)
        (fun id' hadds e he hid' => ?_) fun hclosed => hclosed
      rcases List.mem_append.mp he with he | he
      · exact he
      · -- no other call adds the identifier
        obtain rfl := List.mem_singleton.mp he
        have hcall' : s.adding call' = some id := by
          rw [System.adding, hc]
          exact hadds.trans (congrArg some hid'.symm)
        exact absurd (h.adding_unique hcall' (System.adding_eq_some.mpr ⟨_, _, _, hcall⟩)) heq
  · obtain ⟨call', hcall'⟩ := h.pending_adding hid'
    exact ⟨call', (hadding call').trans hcall'⟩
  · exact h.adding_unique ((hadding _).symm.trans h₁) ((hadding _).symm.trans h₂)
  · rcases List.mem_append.mp he with he | he
    · exact h.stored hdb e he
    · rw [List.mem_singleton.mp he]
      exact .inl hid

/-- The end of a waiting `add`: the call is taken out, with its identifier, and the metadata are
those before or have a copy for it. -/
lemma settle (h : Consistent env s) {id : String} (metadata : HashMap String Value)
    (hcall : s.adding call = some id)
    (hmetadata : ∀ {id'}, id' ≠ id → metadata.lookup id' = s.index.metadata.lookup id')
    (hcard : metadata.keys.card ≤ s.index.metadata.keys.card + 1)
    (hstored : ∀ e ∈ s.native, e.id = id → metadata.lookup id = some e.metadata)
    (hcopies : ∀ {value}, metadata.lookup id = some value → env.structuredClone value = .ok value) :
    Consistent env ⟨{ s.index with metadata := metadata, pending := s.index.pending.erase id },
      s.native, s.calls.erase call⟩ := by
  obtain ⟨_, _, _, hlookup⟩ := System.adding_eq_some.mp hcall
  have hid : id ∈ s.index.pending := (h.fits hlookup).1
  have hother : ∀ {call' id'}, call' ≠ call → s.adding call' = some id' → id' ≠ id := by
    rintro call' id' hne hcall' rfl
    exact hne (h.adding_unique hcall' hcall)
  have hadding (call' : ℕ) : System.adding
      ⟨{ s.index with metadata := metadata, pending := s.index.pending.erase id }, s.native,
        s.calls.erase call⟩ call' = if call' = call then none else s.adding call' :=
    System.adding_erase _ _ call'
  have hopen : ¬ s.index.closed = true := fun hclosed => by
    rw [h.idle_of_closed hclosed] at hid
    exact absurd hid (Finset.notMem_empty id)
  refine ⟨⟨?_, h.bounded.once⟩, fun {call' c} hc => ?_, fun {id'} hid' => ?_,
    fun {call₁ call₂ id'} h₁ h₂ => ?_, fun {id'} hid' => ?_,
    fun hdb => absurd (h.dropped hdb).1 hopen, fun hclosed => absurd hclosed hopen,
    fun hdb e he => ?_, fun {id' value} hid' => ?_⟩
  · show metadata.keys.card + (s.index.pending.erase id).card ≤ s.index.maxElements
    have hbound := h.bounded.capacity
    have hpos := Finset.card_pos.mpr ⟨id, hid⟩
    rw [Finset.card_erase_of_mem hid]
    omega
  · rw [HashMap.lookup_erase_ite] at hc
    split_ifs at hc with heq
    refine (h.fits hc).mono (fun id' hadds hid' => ?_) (fun _ he => he) (fun _ _ _ he _ => he)
      fun hclosed => hclosed
    have hcall' : s.adding call' = some id' := by
      rw [System.adding, hc]
      exact hadds
    exact Finset.mem_erase.mpr ⟨hother heq hcall', hid'⟩
  · obtain ⟨hne, hid'⟩ := Finset.mem_erase.mp hid'
    obtain ⟨call', hcall'⟩ := h.pending_adding hid'
    refine ⟨call', (hadding call').trans ((if_neg ?_).trans hcall')⟩
    rintro rfl
    exact hne (Option.some.inj (hcall'.symm.trans hcall))
  · rw [hadding] at h₁ h₂
    split_ifs at h₁ h₂
    exact h.adding_unique h₁ h₂
  · obtain ⟨hne, hid'⟩ := Finset.mem_erase.mp hid'
    show id' ∉ metadata
    rw [← Finmap.lookup_eq_none, hmetadata hne]
    exact Finmap.lookup_eq_none.mpr (h.pending_fresh hid')
  · by_cases heq : e.id = id
    · exact .inr (by rw [heq]; exact hstored e he heq)
    · rcases h.stored hdb e he with hmem | hlookup'
      · exact .inl (Finset.mem_erase.mpr ⟨heq, hmem⟩)
      · exact .inr ((hmetadata heq).trans hlookup')
  · have hid'' : metadata.lookup id' = some value := hid'
    by_cases heq : id' = id
    · exact hcopies (heq ▸ hid'')
    · exact h.copies ((hmetadata heq).symm.trans hid'')

/-- The results of a search that goes on get the metadata that the map has for them. -/
lemma mapM_hit (h : Consistent env s) (results : List (String × ℚ)) :
    results.mapM (s.index.hit env) =
      .ok (results.map fun r => ⟨r.1, r.2, s.index.metadata.lookup r.1⟩) := by
  have hhit : s.index.hit env =
      fun r => pure ⟨r.1, r.2, s.index.metadata.lookup r.1⟩ := by
    funext r
    rw [RuvectorIndex.hit]
    cases hlookup : s.index.metadata.lookup r.1 with
    | none => rfl
    | some value =>
      simp only [h.copies hlookup]
      rfl
  rw [hhit, List.mapM_pure]
  rfl

end Consistent

/-! ## The steps -/

/-- An `add` is refused without an effect, or waits with a new pending identifier. -/
lemma add_cases (env : Environment Input Vector Value) (s : System Vector Value) (call : ℕ)
    (id : Json) (vector : Input) (metadata : Option Value) :
    (∃ e, s.add env call id vector metadata = (some (.error e), s)) ∨
    ∃ id' normalized copy,
      s.index.checkAdd env id vector metadata = .ok (id', normalized, copy) ∧
      s.add env call id vector metadata = (none, ⟨s.index.pend id', s.native,
        s.calls.insert call (.add id' normalized copy none)⟩) := by
  rw [System.add]
  rcases hcheck : s.index.checkAdd env id vector metadata with e | ⟨id', normalized, copy⟩
  · exact .inl ⟨e, rfl⟩
  · exact .inr ⟨id', normalized, copy, rfl, rfl⟩

/-- A search has an answer at once, with no hits, or waits. -/
lemma search_cases (env : Environment Input Vector Value) (s : System Vector Value) (call : ℕ)
    (vector : Input) (k : ℚ) :
    (∃ e, s.search env call vector k = (some (.error e), s)) ∨
    s.search env call vector k = (some (.ok (.hits [])), s) ∨
    ∃ normalized limit, s.search env call vector k = (none, ⟨s.index, s.native,
      s.calls.insert call (.search normalized limit none)⟩) := by
  rw [System.search]
  rcases s.index.checkSearch env vector k with e | normalized
  · exact .inl ⟨e, rfl⟩
  · simp only
    split_ifs
    · exact .inr (.inl rfl)
    · exact .inr (.inr ⟨normalized, _, rfl⟩)

/-- A call of `close` is refused, finds the index closed, waits, or closes and drops it. -/
lemma close_cases (env : Environment Input Vector Value) (s : System Vector Value) (call : ℕ)
    (removed : Except Thrown Unit) :
    (∃ e, s.close env call removed = (some (.error e), s)) ∨ s.index.pending = ∅ ∧
      (s.close env call removed = (some (.ok .closed), s) ∨
      s.close env call removed =
        (none, ⟨s.index.shut, s.native, s.calls.insert call (.close none)⟩) ∨
      s.close env call removed =
        (some (removed.map fun _ => .closed), ⟨s.index.shut.drop, s.native, s.calls⟩)) := by
  rw [System.close]
  split_ifs with hpending hclosed hclose
  · exact .inl ⟨_, rfl⟩
  · exact .inr ⟨not_not.mp hpending, .inl rfl⟩
  · exact .inr ⟨not_not.mp hpending, .inr (.inl rfl)⟩
  · exact .inr ⟨not_not.mp hpending, .inr (.inr rfl)⟩

/-- **Every step keeps the invariant.** -/
lemma Consistent.apply (h : Consistent env s) {step : Step Input Value} (hvalid : step.Valid s) :
    Consistent env (step.apply env s) := by
  have hfresh : ∀ {call}, call ∉ s.calls → s.adding call = none := fun hcall => by
    rw [System.adding, Finmap.lookup_eq_none.mpr hcall]
    rfl
  cases step with
  | add call id vector metadata =>
    rcases add_cases env s call id vector metadata with ⟨e, heq⟩ | ⟨id', v, copy, hcheck, heq⟩
    · rw [Step.apply, Step.run, heq]
      exact h
    · obtain ⟨hopen, hmetadata, hpending, hcapacity, hcopy⟩ := of_checkAdd_eq_ok hcheck
      rw [Step.apply, Step.run, heq]
      exact h.pend hvalid hopen hmetadata hpending hcapacity hcopy
  | search call vector k =>
    rcases search_cases env s call vector k with ⟨e, heq⟩ | heq | ⟨v, limit, heq⟩
    · rw [Step.apply, Step.run, heq]
      exact h
    · rw [Step.apply, Step.run, heq]
      exact h
    · rw [Step.apply, Step.run, heq]
      exact h.write (hfresh hvalid).symm fun _ hr => (nomatch hr)
  | close call removed =>
    rcases close_cases env s call removed with ⟨e, heq⟩ | ⟨hidle, heq | heq | heq⟩
    · rw [Step.apply, Step.run, heq]
      exact h
    · rw [Step.apply, Step.run, heq]
      exact h
    · rw [Step.apply, Step.run, heq]
      exact (h.shut hidle).write (hfresh hvalid).symm rfl
    · rw [Step.apply, Step.run, heq]
      exact (h.shut hidle).drop rfl
  | inserted call result =>
    obtain ⟨id, vector, copy, hcall⟩ := hvalid
    rw [Step.apply, Step.run, System.inserted, hcall]
    rcases result with e | ⟨⟩
    · obtain ⟨hid, hcopy, -, hnew⟩ := h.fits hcall
      exact h.write (System.adding_eq_some.mpr ⟨_, _, _, hcall⟩).symm
        ⟨hid, hcopy, fun hr => (nomatch hr), fun _ => hnew (fun hr => (nomatch hr))⟩
    · exact h.store hcall
  | searched call result =>
    obtain ⟨⟨vector, k, hcall⟩, hstored⟩ := hvalid
    rw [Step.apply, Step.run, System.searched, hcall]
    refine h.write ?_ fun results hr => hstored results (Option.some.inj hr)
    rw [System.adding, hcall]
    rfl
  | nativeClosed call result =>
    have hcall : s.calls.lookup call = some (.close none) := hvalid
    rw [Step.apply, Step.run, System.nativeClosed, hcall]
    have hclosed : s.index.closed = true := h.fits hcall
    refine h.write ?_ hclosed
    rw [System.adding, hcall]
    rfl
  | resume call removed =>
    rw [Step.apply, Step.run, System.resume]
    rcases hcall : s.calls.lookup call with _ | c
    · exact h
    have hadding : s.adding call = c.adds := by
      rw [System.adding, hcall]
      rfl
    rcases c with ⟨id, vector, copy, _ | e | ⟨⟩⟩ | ⟨vector, k, _ | e | results⟩ | ⟨_ | e | ⟨⟩⟩
    · exact h
    · -- the insertion failed, so nothing with the identifier is stored
      refine h.settle s.index.metadata hadding (fun _ => rfl) (Nat.le_succ _) (fun e' he heq => ?_)
        fun {value} hvalue => h.copies hvalue
      exact absurd heq ((h.fits hcall).2.2.2 (fun hr => (nomatch hr)) e' he)
    · obtain ⟨hid, hcopy, hmem, -⟩ := h.fits hcall
      refine h.settle (s.index.metadata.insert id copy) hadding (fun hne => ?_)
        (HashMap.card_keys_insert_le _ _ _) (fun e he heq => ?_) fun {value} hvalue => ?_
      · exact Finmap.lookup_insert_of_ne _ hne
      · have he' := List.inj_on_of_nodup_map h.bounded.once he (hmem rfl) heq
        rw [Finmap.lookup_insert, he']
      · rw [Finmap.lookup_insert] at hvalue
        exact Option.some.inj hvalue ▸ hcopy
    · exact h
    · exact h.remove hadding
    · exact h.remove hadding
    · exact h
    · exact h.remove hadding
    · exact (h.drop (h.fits hcall)).remove hadding

/-- A new index with an empty database fits the invariant. -/
lemma consistent_start {dimensions maxElements : ℚ} {index : RuvectorIndex Value}
    (hnew : RuvectorIndex.new dimensions maxElements = .ok index) :
    Consistent env (System.start index : System Vector Value) := by
  simp only [RuvectorIndex.new, bind_eq_ok] at hnew
  obtain ⟨_, -, _, -, hnew⟩ := hnew
  cases hnew
  refine ⟨⟨?_, List.nodup_nil⟩, fun hc => ?_, fun hid => absurd hid (Finset.notMem_empty _),
    fun h₁ => ?_, fun hid => absurd hid (Finset.notMem_empty _), fun hdb => (nomatch hdb),
    fun _ => rfl, fun _ e he => absurd he List.not_mem_nil, fun hid => ?_⟩
  · show (∅ : HashMap String Value).keys.card + (∅ : Finset String).card ≤ _
    simp
  · simp [System.start] at hc
  · simp [System.adding, System.start] at h₁
  · simp [System.start] at hid

end Steps

end QuDAG.Integrations.Ruvector
