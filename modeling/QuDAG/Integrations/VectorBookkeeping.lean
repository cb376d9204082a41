import QuDAG.Integrations.VectorConsistent

/-!
# The bookkeeping of the vector index

What holds of the calls of an index in every interleaving, and what does not: a search that goes on
after the index was dropped has no metadata for its hits.

## Main definitions

* `Kept` — what a step has to do for the bookkeeping.
* `Timely` — a search goes on in time.

## Main results

* `addsCleanly` — an `add` that fails leaves the index as it was.
* `Consistent.closes_idle` — no call of `close` succeeds while an insertion is pending.
* `bookkeeping_iff` — the bookkeeping is right in the runs in which no search goes on after the
  index was dropped, or with a hit whose insertion is still pending.
-/

namespace QuDAG.Integrations.Ruvector

open RustStd

variable {Input Vector Value : Type}

/-- The system as if a waiting `add` had not been called. -/
def System.forget (call : ℕ) (s : System Vector Value) : System Vector Value :=
  match s.adding call with
  | some id => { s with index := s.index.unpend id, calls := s.calls.erase call }
  | none => s

section Bookkeeping

variable (env : Environment Input Vector Value)

/-- An `add` that is refused changes nothing, one that waits changes nothing but that it waits, and
one whose insertion failed goes on as if it had not been called. -/
def AddsCleanly (s : System Vector Value) : Step Input Value → Prop
  | .add call id vector metadata =>
    ((s.add env call id vector metadata).1 ≠ none → (s.add env call id vector metadata).2 = s) ∧
      ((s.add env call id vector metadata).1 = none →
        (s.add env call id vector metadata).2.forget call = s)
  | .inserted call result =>
    ∀ e, result = .error e → (s.inserted call result).forget call = s.forget call
  | .resume call removed => ∀ id vector copy e,
    s.calls.lookup call = some (.add id vector copy (some (.error e))) →
      (s.resume env call removed).2 = s.forget call
  | _ => True

/-- A hit carries the metadata that the entry with its identifier was added with. -/
def Faithful (s : System Vector Value) (hit : Hit Value) : Prop :=
  ∃ e ∈ s.native, e.id = hit.id ∧ hit.metadata = some e.metadata

/-- What a step has to do for the bookkeeping. -/
structure Kept (s : System Vector Value) (step : Step Input Value) : Prop where
  adds : AddsCleanly env s step
  /-- A call of `close` succeeds only if no insertion is pending. -/
  closes : (step.run env s).1 = some (.ok .closed) →
    s.index.pending = ∅ ∧ ∀ call, s.adding call = none
  searches : ∀ hits, (step.run env s).1 = some (.ok (.hits hits)) → ∀ hit ∈ hits, Faithful s hit

/-- A search that goes on with hits does so before the index is dropped, and none of the hits is
still pending. -/
def Timely (s : System Vector Value) : Step Input Value → Prop
  | .resume call _ => ∀ vector k results,
    s.calls.lookup call = some (.search vector k (some (.ok results))) →
      ∀ r ∈ results, s.index.db = true ∧ r.1 ∉ s.index.pending
  | _ => True

end Bookkeeping

section Steps

variable {env : Environment Input Vector Value} {s : System Vector Value} {call : ℕ}

/-- A waiting `add` is forgotten by taking out its call and its identifier. -/
lemma System.forget_of_adding {id : String} (h : s.adding call = some id) :
    s.forget call = ⟨s.index.unpend id, s.native, s.calls.erase call⟩ := by
  rw [System.forget, h]

/-- **An `add` that fails leaves the index as it was.** -/
lemma addsCleanly {step : Step Input Value} (hvalid : step.Valid s) :
    AddsCleanly env s step := by
  cases step with
  | add call id vector metadata =>
    rcases add_cases env s call id vector metadata with ⟨e, heq⟩ | ⟨id', v, copy, hcheck, heq⟩
    · rw [AddsCleanly, heq]
      exact ⟨fun _ => rfl, fun hnone => nomatch hnone⟩
    · obtain ⟨-, -, hpending, -, -⟩ := of_checkAdd_eq_ok hcheck
      rw [AddsCleanly, heq]
      refine ⟨fun hne => absurd rfl hne, fun _ => ?_⟩
      have hadding : System.adding ⟨s.index.pend id', s.native,
          s.calls.insert call (.add id' v copy none)⟩ call = some id' :=
        (System.adding_insert _ _).trans (if_pos rfl)
      have hcalls : (s.calls.insert call (.add id' v copy none)).erase call = s.calls := by
        refine Finmap.ext_lookup fun call' => ?_
        rw [HashMap.lookup_erase_ite, HashMap.lookup_insert_ite]
        split_ifs with hcall
        · rw [hcall, Finmap.lookup_eq_none.mpr hvalid]
        · rfl
      rw [System.forget_of_adding hadding, hcalls, RuvectorIndex.unpend, RuvectorIndex.pend]
      simp only [Finset.erase_insert hpending]
  | inserted call result =>
    rintro e rfl
    obtain ⟨id, vector, copy, hcall⟩ := hvalid
    have hadding := System.adding_eq_some.mpr ⟨_, _, _, hcall⟩
    rw [System.forget_of_adding hadding, System.inserted, hcall]
    have hadding' : System.adding ⟨s.index, s.native,
        s.calls.insert call (.add id vector copy (some (.error e)))⟩ call = some id :=
      (System.adding_insert _ _).trans (if_pos rfl)
    rw [System.forget_of_adding hadding']
    congr 1
    refine Finmap.ext_lookup fun call' => ?_
    simp only [HashMap.lookup_erase_ite, HashMap.lookup_insert_ite]
    split_ifs <;> rfl
  | resume call removed =>
    intro id vector copy e hcall
    rw [System.forget_of_adding (System.adding_eq_some.mpr ⟨_, _, _, hcall⟩), System.resume, hcall]
  | search | close | searched | nativeClosed => trivial

/-- **No call of `close` succeeds while an insertion is pending.** -/
lemma Consistent.closes_idle (h : Consistent env s) {step : Step Input Value}
    (hclosed : (step.run env s).1 = some (.ok .closed)) :
    s.index.pending = ∅ ∧ ∀ call, s.adding call = none := by
  have hidle : s.index.pending = ∅ := by
    cases step with
    | add call id vector metadata =>
      rcases add_cases env s call id vector metadata with ⟨e, heq⟩ | ⟨id', v, copy, -, heq⟩
      · rw [Step.run, heq] at hclosed
        simp at hclosed
      · rw [Step.run, heq] at hclosed
        simp at hclosed
    | search call vector k =>
      rcases search_cases env s call vector k with ⟨e, heq⟩ | heq | ⟨v, limit, heq⟩
      all_goals
        rw [Step.run, heq] at hclosed
        simp at hclosed
    | close call removed =>
      rcases close_cases env s call removed with ⟨e, heq⟩ | ⟨hidle, -⟩
      · rw [Step.run, heq] at hclosed
        simp at hclosed
      · exact hidle
    | inserted | searched | nativeClosed => simp [Step.run] at hclosed
    | resume call removed =>
      rw [Step.run, System.resume] at hclosed
      rcases hcall : s.calls.lookup call with _ | c
      · simp [hcall] at hclosed
      rcases c with ⟨id, v, copy, _ | e | ⟨⟩⟩ | ⟨vector, k, _ | e | results⟩ | ⟨_ | e | ⟨⟩⟩
      case close.some.ok => exact h.idle_of_closed (h.fits hcall)
      case search.some.ok =>
        simp only [hcall, h.mapM_hit] at hclosed
        simp [Except.map] at hclosed
      all_goals simp [hcall] at hclosed
  refine ⟨hidle, fun call => ?_⟩
  cases hadding : s.adding call with
  | none => rfl
  | some id =>
    obtain ⟨_, _, _, hcall⟩ := System.adding_eq_some.mp hadding
    have hid := (h.fits hcall).1
    rw [hidle] at hid
    exact absurd hid (Finset.notMem_empty id)

/-- A result that is stored gets its metadata iff the index is not dropped and the insertion is
not pending. -/
lemma Consistent.faithful_iff (h : Consistent env s) {r : String × ℚ}
    (hstored : ∃ e ∈ s.native, e.id = r.1) :
    Faithful s ⟨r.1, r.2, s.index.metadata.lookup r.1⟩ ↔
      s.index.db = true ∧ r.1 ∉ s.index.pending := by
  constructor
  · rintro ⟨e, -, -, hmetadata⟩
    have hmem : r.1 ∈ s.index.metadata := HashMap.mem_of_lookup hmetadata
    refine ⟨?_, fun hpending => h.pending_fresh hpending hmem⟩
    by_contra hdb
    rw [(h.dropped (Bool.eq_false_iff.mpr hdb)).2] at hmem
    exact Finmap.notMem_empty hmem
  · rintro ⟨hdb, hpending⟩
    obtain ⟨e, he, heq⟩ := hstored
    rcases h.stored hdb e he with hmem | hlookup
    · exact absurd (heq ▸ hmem) hpending
    · exact ⟨e, he, heq, heq ▸ hlookup⟩

/-- **The hits of a search carry their metadata iff it goes on in time.** -/
lemma Consistent.searches_iff (h : Consistent env s) (step : Step Input Value) :
    (∀ hits, (step.run env s).1 = some (.ok (.hits hits)) → ∀ hit ∈ hits, Faithful s hit) ↔
      Timely s step := by
  cases step with
  | add call id vector metadata =>
    refine ⟨fun _ => trivial, fun _ hits hrun => ?_⟩
    rcases add_cases env s call id vector metadata with ⟨e, heq⟩ | ⟨id', v, copy, -, heq⟩
    all_goals
      rw [Step.run, heq] at hrun
      simp at hrun
  | search call vector k =>
    refine ⟨fun _ => trivial, fun _ hits hrun => ?_⟩
    rcases search_cases env s call vector k with ⟨e, heq⟩ | heq | ⟨v, limit, heq⟩
    all_goals
      rw [Step.run, heq] at hrun
      simp at hrun
    -- an empty index has no hits
    subst hrun
    exact fun hit hhit => absurd hhit List.not_mem_nil
  | close call removed =>
    refine ⟨fun _ => trivial, fun _ hits hrun => ?_⟩
    rcases close_cases env s call removed with ⟨e, heq⟩ | ⟨-, heq | heq | heq⟩
    all_goals
      rw [Step.run, heq] at hrun
      cases removed <;> simp [Except.map] at hrun
  | inserted | searched | nativeClosed =>
    exact ⟨fun _ => trivial, fun _ hits hrun => by simp [Step.run] at hrun⟩
  | resume call removed =>
    rw [Step.run, System.resume, Timely]
    rcases hcall : s.calls.lookup call with _ | c
    · simp
    rcases c with ⟨id, v, copy, _ | e | ⟨⟩⟩ | ⟨vector, k, _ | e | results⟩ | ⟨_ | e | ⟨⟩⟩
    case search.some.ok =>
      have hiff : ∀ r ∈ results, Faithful s ⟨r.1, r.2, s.index.metadata.lookup r.1⟩ ↔
          s.index.db = true ∧ r.1 ∉ s.index.pending :=
        fun r hr => h.faithful_iff (h.fits hcall results rfl r hr)
      simp only [h.mapM_hit]
      constructor
      · intro hfaithful vector' k' results' heq r hr
        cases heq
        exact (hiff r hr).mp (hfaithful _ rfl _ (List.mem_map.mpr ⟨r, hr, rfl⟩))
      · intro htimely hits hrun hit hhit
        obtain rfl : results.map (fun r => ⟨r.1, r.2, s.index.metadata.lookup r.1⟩) = hits := by
          simpa [Except.map] using hrun
        obtain ⟨r, hr, rfl⟩ := List.mem_map.mp hhit
        exact (hiff r hr).mpr (htimely _ _ _ rfl r hr)
    case close.some.ok => cases removed <;> simp [Except.map]
    all_goals simp

/-- **The bookkeeping of a run**: in every interleaving the capacity is kept, no identifier is
stored twice, an `add` that fails leaves the index as it was, no call of `close` succeeds while an
insertion is pending, and every hit carries the metadata of its entry, iff no search goes on with a
hit after the index was dropped or while the insertion of the hit is pending. -/
theorem bookkeeping_iff (env : Environment Input Vector Value) {dimensions maxElements : ℚ}
    {index : RuvectorIndex Value} (hnew : RuvectorIndex.new dimensions maxElements = .ok index)
    {steps : List (Step Input Value)}
    (hvalid : Runs.Steps (Step.apply env) Step.Valid (System.start index) steps) :
    Runs.Always (Step.apply env) Bounded (System.start index) steps ∧
        Runs.Steps (Step.apply env) (Kept env) (System.start index) steps ↔
      Runs.Steps (Step.apply env) Timely (System.start index) steps := by
  have hstart : Consistent env (System.start index : System Vector Value) := consistent_start hnew
  have hbounded : Runs.Always (Step.apply env) Bounded (System.start index) steps :=
    (Runs.always_rule (Consistent env) (fun _ _ h hv => h.apply hv) hvalid hstart).imp
      fun _ h => h.bounded
  have hsteps : Runs.Steps (Step.apply env) (fun s step => Consistent env s ∧ step.Valid s)
      (System.start index) steps :=
    Runs.steps_rule (Consistent env) (fun _ _ h hv => ⟨h.apply hv, h, hv⟩) hvalid hstart
  rw [and_iff_right hbounded]
  refine Runs.steps_congr_of (fun s step hs => ?_) hsteps
  constructor
  · exact fun h => (hs.1.searches_iff step).mp h.searches
  · exact fun h => ⟨addsCleanly hs.2, hs.1.closes_idle, (hs.1.searches_iff step).mpr h⟩

end Steps

/-! ### A search that is too late -/

/-- An environment where everything is a vector, values are numbers, and the native database has no
method `close`. -/
def sampleEnvironment : Environment Unit Unit ℕ where
  vector _ _ := .ok ()
  null := 0
  structuredClone := .ok
  clone_clone := fun _ => rfl
  hasClose := false

/-- The index with the default options. -/
def sampleIndex : RuvectorIndex ℕ := ⟨64, 10000, true, ∅, ∅, false⟩

lemma new_sampleIndex : RuvectorIndex.new 64 10000 = .ok sampleIndex := by
  have hdimensions : (isSafeInteger 64 && decide ((1 : ℚ) ≤ 64) && decide ((64 : ℚ) ≤ 65536)) =
      true := by decide +kernel
  have hmaxElements : (isSafeInteger 10000 && decide ((1 : ℚ) ≤ 10000)) = true := by
    decide +kernel
  rw [RuvectorIndex.new, hdimensions, hmaxElements]
  rfl

/-- An entry is added and then searched for. -/
def sampleSteps : List (Step Unit ℕ) :=
  [.add 0 (.string "a") () (some 5), .inserted 0 (.ok ()), .resume 0 (.ok ()), .search 1 () 1,
    .searched 1 (.ok [("a", 0)])]

/-- The system with the entry. -/
def sampleStored : System Unit ℕ :=
  ⟨{ sampleIndex with metadata := (∅ : HashMap String ℕ).insert "a" 5 }, [⟨"a", (), 5⟩], ∅⟩

/-- The system where a call waits as well. -/
def sampleWaiting (c : Call Unit ℕ) : System Unit ℕ :=
  { sampleStored with calls := (∅ : HashMap ℕ (Call Unit ℕ)).insert 1 c }

lemma apply_search_sample : Step.apply sampleEnvironment sampleStored (.search 1 () 1) =
    sampleWaiting (.search () 1 none) := by
  have hk : (isSafeInteger 1 && decide ((1 : ℚ) ≤ 1) && decide ((1 : ℚ) ≤ ((10000 : ℕ) : ℚ))) =
      true := by decide +kernel
  have hcheck : sampleStored.index.checkSearch sampleEnvironment () 1 = .ok () := by
    show (do
      require true "index is closed"
      require (isSafeInteger 1 && decide ((1 : ℚ) ≤ 1) && decide ((1 : ℚ) ≤ ((10000 : ℕ) : ℚ)))
        "k must be 1..maxElements"
      pure () : Except Thrown Unit) = .ok ()
    rw [hk]
    rfl
  rw [Step.apply, Step.run, System.search, hcheck]
  rfl

lemma run_sampleSteps :
    Runs.run (Step.apply sampleEnvironment) (System.start sampleIndex) sampleSteps =
      sampleWaiting (.search () 1 (some (.ok [("a", 0)]))) := by
  show Step.apply sampleEnvironment (Step.apply sampleEnvironment sampleStored (.search 1 () 1))
    (.searched 1 (.ok [("a", 0)])) = _
  rw [apply_search_sample]
  rfl

/-- The steps are valid, and so are valid steps after them. -/
lemma valid_sampleSteps (last : List (Step Unit ℕ))
    (h : Runs.Steps (Step.apply sampleEnvironment) Step.Valid
      (sampleWaiting (.search () 1 (some (.ok [("a", 0)])))) last) :
    Runs.Steps (Step.apply sampleEnvironment) Step.Valid (System.start sampleIndex)
      (sampleSteps ++ last) := by
  refine ⟨Finmap.notMem_empty, ⟨"a", (), 5, rfl⟩, trivial, Finmap.notMem_empty, ?_⟩
  show Runs.Steps _ _ (Step.apply sampleEnvironment sampleStored (.search 1 () 1))
    (.searched 1 (.ok [("a", 0)]) :: last)
  rw [apply_search_sample]
  refine ⟨⟨⟨(), 1, rfl⟩, fun results hr r hmem => ?_⟩, h⟩
  obtain rfl := Except.ok.inj hr
  obtain rfl := List.mem_singleton.mp hmem
  exact ⟨⟨"a", (), 5⟩, List.mem_singleton_self _, rfl⟩

/-- With a search that goes on at once the bookkeeping is right. -/
theorem bookkeeping_iff_sample :
    Runs.Always (Step.apply sampleEnvironment) Bounded (System.start sampleIndex)
        (sampleSteps ++ [.resume 1 (.ok ())]) ∧
      Runs.Steps (Step.apply sampleEnvironment) (Kept sampleEnvironment)
        (System.start sampleIndex) (sampleSteps ++ [.resume 1 (.ok ())]) := by
  refine (bookkeeping_iff sampleEnvironment new_sampleIndex (valid_sampleSteps
    [.resume 1 (.ok ())] ⟨trivial, trivial⟩)).mpr ⟨trivial, trivial, ?_, trivial, trivial, ?_,
      trivial⟩
  · intro vector k results hcall
    exact nomatch hcall
  · show Timely (Runs.run (Step.apply sampleEnvironment) (System.start sampleIndex) sampleSteps)
      (.resume 1 (.ok ()) : Step Unit ℕ)
    rw [run_sampleSteps]
    exact fun _ _ _ _ r _ => ⟨rfl, Finset.notMem_empty r.1⟩

/-- A search that waits while the index is closed returns a hit without metadata. -/
theorem not_bookkeeping_sample :
    Runs.Steps (Step.apply sampleEnvironment) Step.Valid (System.start sampleIndex)
        (sampleSteps ++ [.close 2 (.ok ()), .resume 1 (.ok ())]) ∧
      ((Step.resume 1 (.ok ())).run sampleEnvironment
        (Runs.run (Step.apply sampleEnvironment) (System.start sampleIndex)
          (sampleSteps ++ [.close 2 (.ok ())]))).1 = some (.ok (.hits [⟨"a", 0, none⟩])) ∧
      ¬ Runs.Steps (Step.apply sampleEnvironment) (Kept sampleEnvironment)
        (System.start sampleIndex) (sampleSteps ++ [.close 2 (.ok ()), .resume 1 (.ok ())]) := by
  have hhits : ((Step.resume 1 (.ok ())).run sampleEnvironment
      (Step.apply sampleEnvironment (sampleWaiting (.search () 1 (some (.ok [("a", 0)]))))
        (.close 2 (.ok ())))).1 = some (.ok (.hits [⟨"a", 0, none⟩])) := rfl
  have hfresh : 2 ∉ (sampleWaiting (.search () 1 (some (.ok [("a", 0)])))).calls := by decide
  refine ⟨valid_sampleSteps _ ⟨hfresh, trivial, trivial⟩, ?_, fun h => ?_⟩
  · rw [Runs.run_concat, run_sampleSteps]
    exact hhits
  · have hkept := (Runs.Steps.of_append h).2.2.1
    rw [run_sampleSteps] at hkept
    obtain ⟨e, -, -, hmetadata⟩ := hkept.searches _ hhits _ (List.mem_singleton_self _)
    exact nomatch hmetadata

end QuDAG.Integrations.Ruvector
