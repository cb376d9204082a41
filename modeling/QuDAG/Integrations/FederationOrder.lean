import QuDAG.Integrations.FederationHandshake

/-!
# The order of requests of a federation client

At most one `initialize` request is in flight, reads are sent after the notification of their
session has completed, and an invocation after a failed handshake starts a new one, in runs where no
read is invoked while the notification is under way, and nothing while a failed promise is still in
the field `opening`.

## Main definitions

* `Orderly` — the invariant of the runs.
* `Polite` — the condition on the invocations.

## Main results

* `Orderly.apply` — the steps keep the invariant.
* `handshake_order` — the order of the requests in every run.
-/

namespace QuDAG.Integrations.Federation

open RustStd

/-! ## Waiting invocations -/

/-- What the waiting invocations know: one that sends a request next has a session, and one that has
started a handshake has its promise in the field `opening`. -/
structure Waits (opening : Option ℕ) (handshakes : HashMap ℕ (Option (Except Thrown Unit)))
    (invocations : HashMap ℕ Waiting) : Prop where
  initialized : ∀ {call invocation}, invocations.lookup call = some ⟨invocation, .initialized⟩ →
    invocation ≠ .initializeClient → ∃ h, handshakes.lookup h = some (some (.ok ()))
  starting : ∀ {call invocation h}, invocations.lookup call = some ⟨invocation, .starting h⟩ →
    opening = some h
  starting_unique : ∀ {call call' invocation invocation' h h'},
    invocations.lookup call = some ⟨invocation, .starting h⟩ →
      invocations.lookup call' = some ⟨invocation', .starting h'⟩ → call = call'

namespace Waits

variable {opening : Option ℕ} {handshakes : HashMap ℕ (Option (Except Thrown Unit))}
  {invocations : HashMap ℕ Waiting} {call handshake : ℕ} {invocation : Invocation} {phase : Phase}

/-- An invocation returns. -/
lemma answer (h : Waits opening handshakes invocations) (call : ℕ) :
    Waits opening handshakes (invocations.erase call) := by
  have hback : ∀ {call' w}, (invocations.erase call).lookup call' = some w →
      invocations.lookup call' = some w := by
    intro call' w hw
    rw [HashMap.lookup_erase_ite] at hw
    split_ifs at hw
    exact hw
  exact ⟨fun hw => h.initialized (hback hw), fun hw => h.starting (hback hw),
    fun hw hw' => h.starting_unique (hback hw) (hback hw')⟩

/-- An invocation waits for something that is not its own handshake. -/
lemma await (h : Waits opening handshakes invocations) (hphase : ∀ h, phase ≠ .starting h)
    (hinit : phase = .initialized → invocation ≠ .initializeClient →
      ∃ h, handshakes.lookup h = some (some (.ok ()))) :
    Waits opening handshakes (invocations.insert call ⟨invocation, phase⟩) := by
  have hback : ∀ {call' invocation' h'},
      (invocations.insert call ⟨invocation, phase⟩).lookup call' =
        some ⟨invocation', .starting h'⟩ →
      invocations.lookup call' = some ⟨invocation', .starting h'⟩ := by
    intro call' invocation' h' hw
    rw [HashMap.lookup_insert_ite] at hw
    split_ifs at hw
    · exact absurd (congrArg Waiting.phase (Option.some.inj hw)) (hphase h')
    · exact hw
  refine ⟨fun {call' invocation'} hw hne => ?_, fun hw => h.starting (hback hw),
    fun hw hw' => h.starting_unique (hback hw) (hback hw')⟩
  rw [HashMap.lookup_insert_ite] at hw
  split_ifs at hw
  · obtain ⟨rfl, rfl⟩ := Waiting.mk.inj (Option.some.inj hw)
    exact hinit rfl hne
  · exact h.initialized hw hne

/-- An invocation starts a handshake. -/
lemma openSession (h : Waits none handshakes invocations)
    (hfresh : handshakes.lookup handshake = none) :
    Waits (some handshake) (handshakes.insert handshake none)
      (invocations.insert call ⟨invocation, .starting handshake⟩) := by
  have hstarting : ∀ {call' invocation' h'},
      (invocations.insert call ⟨invocation, .starting handshake⟩).lookup call' =
        some ⟨invocation', .starting h'⟩ → call' = call ∧ h' = handshake := by
    intro call' invocation' h' hw
    rw [HashMap.lookup_insert_ite] at hw
    split_ifs at hw with heq
    · obtain ⟨-, hphase⟩ := Waiting.mk.inj (Option.some.inj hw)
      exact ⟨heq, (Phase.starting.inj hphase).symm⟩
    · exact nomatch h.starting hw
  refine ⟨fun {call' invocation'} hw hne => ?_, fun hw => by rw [(hstarting hw).2],
    fun hw hw' => by rw [(hstarting hw).1, (hstarting hw').1]⟩
  rw [HashMap.lookup_insert_ite] at hw
  split_ifs at hw
  · exact nomatch Waiting.mk.inj (Option.some.inj hw)
  · obtain ⟨h', hok⟩ := h.initialized hw hne
    refine ⟨h', ?_⟩
    rw [Finmap.lookup_insert_of_ne _ (fun heq => ?_), hok]
    rw [heq, hfresh] at hok
    exact nomatch hok

/-- A handshake ends. -/
lemma settle (h : Waits opening handshakes invocations) (result : Except Thrown Unit)
    (hgoing : handshakes.lookup handshake = some none) :
    Waits opening (handshakes.insert handshake (some result)) invocations := by
  refine ⟨fun hw hne => ?_, h.starting, h.starting_unique⟩
  obtain ⟨h', hok⟩ := h.initialized hw hne
  refine ⟨h', ?_⟩
  rw [Finmap.lookup_insert_of_ne _ (fun heq => ?_), hok]
  rw [heq, hgoing] at hok
  exact nomatch hok

/-- The invocation that has started a handshake drops the promise. -/
lemma clear (h : Waits opening handshakes invocations)
    (hcall : invocations.lookup call = some ⟨invocation, .starting handshake⟩)
    {invocations' : HashMap ℕ Waiting}
    (hother : ∀ {call'}, call' ≠ call → invocations'.lookup call' = invocations.lookup call')
    (hphase : ∀ {invocation' h'}, invocations'.lookup call ≠ some ⟨invocation', .starting h'⟩)
    (hinit : ∀ {invocation'}, invocations'.lookup call = some ⟨invocation', .initialized⟩ →
      ∃ h, handshakes.lookup h = some (some (.ok ()))) :
    Waits none handshakes invocations' := by
  have hnone : ∀ {call' invocation' h'},
      invocations'.lookup call' ≠ some ⟨invocation', .starting h'⟩ := by
    intro call' invocation' h' hw
    by_cases heq : call' = call
    · exact hphase (heq ▸ hw)
    · rw [hother heq] at hw
      exact heq (h.starting_unique hw hcall)
  refine ⟨fun {call' invocation'} hw hne => ?_, fun hw => absurd hw hnone,
    fun hw => absurd hw hnone⟩
  by_cases heq : call' = call
  · exact hinit (heq ▸ hw)
  · exact h.initialized ((hother heq).symm.trans hw) hne

end Waits

/-! ## Runs -/

/-- What holds in the runs. -/
structure Orderly (s : System) : Prop where
  handshaking : Handshaking s.client.ready s.client.opening s.requests s.sent s.handshakes s.started
  waits : Waits s.client.opening s.handshakes s.invocations

/-- The last handshake failed. -/
def System.Failed (s : System) : Prop :=
  ∃ h e, h + 1 = s.started ∧ s.handshakes.lookup h = some (some (.error e))

/-- At most one `initialize` request is in flight. -/
def OneInitialize (s : System) : Prop :=
  ∀ n n' h h', Flying s.requests n (.initializeRequest h) →
    Flying s.requests n' (.initializeRequest h') → n = n'

/-- A read is sent after the notification of the current session has completed. -/
def ReadsInitialized (s : System) (step : Step) : Prop :=
  ∀ n r, (step.apply s).requests.lookup n = some r → n ∉ s.requests →
    r.purpose.method ∈ ["tools/call", "resources/read"] → Initialized s.requests

/-- After a failed handshake, an invocation that passes its checks sends an `initialize` request. -/
def Restarts (s : System) : Step → Prop
  | .invoke call invocation => invocation.validate = .ok () → s.Failed →
    ∃ r h, (s.invoke call invocation).requests.lookup s.sent = some r ∧ s.sent ∉ s.requests ∧
      r.purpose = .initializeRequest h
  | _ => True

/-- No read is invoked while a notification is under way, and nothing while the promise of a failed
handshake is in the field `opening`. -/
def Polite (s : System) : Step → Prop
  | .invoke _ invocation => invocation.validate = .ok () →
    (invocation ≠ .initializeClient → ∀ n h, ¬ Flying s.requests n (.initialized h)) ∧
      ∀ h e, s.client.opening = some h → s.handshakes.lookup h ≠ some (some (.error e))
  | _ => True

namespace Orderly

variable {s : System} {request : ℕ} {r : Request}

lemma answer (h : Orderly s) (call : ℕ) (result : Except Thrown Json) :
    Orderly (s.answer call result) := ⟨h.handshaking, h.waits.answer call⟩

/-- A client that is ready has a session if no notification is under way. -/
lemma succeeded_of_ready (h : Orderly s) (hready : s.client.ready = true)
    (hquiet : ∀ n h, ¬ Flying s.requests n (.initialized h)) :
    ∃ h, s.handshakes.lookup h = some (some (.ok ())) :=
  (h.handshaking.of_ready hready).resolve_right fun ⟨n, h', hfly⟩ => hquiet n h' hfly

/-- An invocation keeps the invariant. -/
lemma invoke (h : Orderly s) {call : ℕ} {invocation : Invocation}
    (hpolite : Polite s (.invoke call invocation)) : Orderly (s.invoke call invocation) := by
  rw [System.invoke]
  rcases hvalidate : invocation.validate with e | ⟨⟩
  · exact h.answer call _
  · obtain ⟨hquiet, -⟩ := hpolite hvalidate
    simp only
    split_ifs with hready
    · exact ⟨h.handshaking, h.waits.await (fun _ => nofun)
        fun _ hne => h.succeeded_of_ready hready (hquiet hne)⟩
    · cases hopening : s.client.opening with
      | some handshake => exact ⟨h.handshaking, h.waits.await (fun _ => nofun) nofun⟩
      | none =>
        have hhandshaking := h.handshaking
        have hwaits := h.waits
        rw [Bool.not_eq_true] at hready
        rw [hopening, hready] at hhandshaking
        rw [hopening] at hwaits
        refine ⟨?_, hwaits.openSession hhandshaking.lookup_started⟩
        show Handshaking s.client.ready _ _ _ _ _
        rw [hready]
        exact hhandshaking.openSession rfl

/-- An invocation that goes on after `initialize` keeps the invariant. -/
lemma proceed (h : Orderly s) (call : ℕ) (invocation : Invocation) :
    Orderly (s.proceed call invocation) := by
  cases invocation with
  | initializeClient => exact h.answer call _
  | call name args =>
    exact ⟨h.handshaking.send rfl, h.waits.await (fun _ => nofun) nofun⟩
  | readResource uri =>
    exact ⟨h.handshaking.send rfl, h.waits.await (fun _ => nofun) nofun⟩

/-- A continuation keeps the invariant. -/
lemma wake (h : Orderly s) (call : ℕ) : Orderly (s.wake call) := by
  rw [System.wake]
  rcases hcall : s.invocations.lookup call with _ | ⟨invocation, handshake | handshake | _ | _⟩
  · exact h
  · -- the invocation has started the handshake
    have hopening := h.waits.starting hcall
    rcases hresult : s.handshakes.lookup handshake with _ | _ | e | ⟨⟩
    · simpa only [hresult] using h
    · simpa only [hresult] using h
    · simp only [hresult]
      refine ⟨h.handshaking.clear hopening hresult, h.waits.clear hcall (fun hne => ?_)
        (fun {invocation' h'} hw => ?_) fun {invocation'} hw => ?_⟩
      · exact Finmap.lookup_erase_ne hne
      · exact nomatch (Finmap.lookup_erase call s.invocations).symm.trans hw
      · exact nomatch (Finmap.lookup_erase call s.invocations).symm.trans hw
    · simp only [hresult]
      refine ⟨h.handshaking.clear hopening hresult, h.waits.clear hcall (fun hne => ?_)
        (fun {invocation' h'} hw => ?_) fun _ => ⟨handshake, hresult⟩⟩
      · exact Finmap.lookup_insert_of_ne _ hne
      · exact nomatch Waiting.mk.inj (Option.some.inj ((Finmap.lookup_insert _).symm.trans hw))
  · rcases hresult : s.handshakes.lookup handshake with _ | _ | e | ⟨⟩
    · simpa only [hresult] using h
    · simpa only [hresult] using h
    · simp only [hresult]
      exact h.answer call _
    · simp only [hresult]
      exact h.proceed call invocation
  · exact h.proceed call invocation
  · exact h

/-- A request that is done keeps the invariant. -/
lemma complete (h : Orderly s) (hr : s.requests.lookup request = some r) (hflight : r.InFlight)
    (result : Except Thrown Json) : Orderly (s.complete request r result) := by
  have hother : r.purpose.handshake = none →
      Orderly (s.setStatus request r (.done result.toOption.isSome)) :=
    fun hnone => ⟨h.handshaking.change hr hflight _ fun hne => absurd hnone hne, h.waits⟩
  rw [System.complete]
  cases hpurpose : r.purpose with
  | initializeRequest handshake =>
    have hhandshake : r.purpose.handshake = some handshake := by
      rw [hpurpose]
      rfl
    have hready := h.handshaking.initializing ⟨r, hr, hflight, hpurpose⟩
    rw [System.finish]
    rcases hcheck : result.bind checkInitialization with e | ⟨⟩
    · dsimp only
      exact ⟨h.handshaking.finish hr hflight hhandshake nofun fun _ _ => hready,
        h.waits.settle _ (h.handshaking.flight ⟨r, hr, hflight, rfl⟩ hhandshake)⟩
    · dsimp only
      exact ⟨h.handshaking.notify hr hflight hpurpose _ rfl fun _ => nofun, h.waits⟩
  | initialized handshake =>
    have hhandshake : r.purpose.handshake = some handshake := by
      rw [hpurpose]
      rfl
    have hready := (h.handshaking.notifying ⟨r, hr, hflight, hpurpose⟩).1
    have hgoing := h.handshaking.flight ⟨r, hr, hflight, rfl⟩ hhandshake
    rcases result with e | value
    · exact ⟨h.handshaking.finish hr hflight hhandshake nofun fun _ _ => rfl,
        h.waits.settle _ hgoing⟩
    · exact ⟨h.handshaking.finish hr hflight hhandshake (fun _ => ⟨hready, hpurpose, rfl⟩) nofun,
        h.waits.settle _ hgoing⟩
  | call call name args => exact (hother (by rw [hpurpose]; rfl)).answer call _
  | read call uri => exact (hother (by rw [hpurpose]; rfl)).answer call _

/-- **Every step keeps the invariant.** -/
lemma apply (h : Orderly s) {step : Step} (hpolite : Polite s step) : Orderly (step.apply s) := by
  cases step with
  | invoke call invocation => exact h.invoke hpolite
  | wake call => exact h.wake call
  | respond request head =>
    rw [Step.apply, System.respond]
    rcases hr : s.requests.lookup request with _ | r
    · exact h
    rcases hstatus : r.status with _ | _ | ok
    · have hflight : r.InFlight := fun ok => by
        rw [hstatus]
        exact nofun
      rcases hhead : head.bind s.checkHead with e | session
      · simp only [hstatus]
        exact h.complete hr hflight _
      · simp only [hstatus]
        exact ⟨h.handshaking.change hr hflight _ fun _ _ => nofun, h.waits⟩
    · simpa only [hstatus] using h
    · simpa only [hstatus] using h
  | read request result =>
    rw [Step.apply, System.read]
    rcases hr : s.requests.lookup request with _ | r
    · exact h
    rcases hstatus : r.status with _ | _ | ok
    · simpa only [hstatus] using h
    · have hflight : r.InFlight := fun ok => by
        rw [hstatus]
        exact nofun
      simp only [hstatus]
      exact h.complete hr hflight _
    · simpa only [hstatus] using h

end Orderly

/-! ## New requests -/

section New

variable {s : System} {request n : ℕ} {r r' : Request}

/-- A request that was not there is one that was sent. -/
lemma purpose_of_post {purpose : Purpose} (h : (s.post purpose).requests.lookup n = some r)
    (hn : n ∉ s.requests) : r.purpose = purpose := by
  have h' : (s.requests.insert s.sent _).lookup n = some r := h
  rw [HashMap.lookup_insert_ite] at h'
  by_cases heq : n = s.sent
  · rw [if_pos heq] at h'
    exact (Option.some.inj h').symm ▸ rfl
  · rw [if_neg heq] at h'
    exact absurd (HashMap.mem_of_lookup h') hn

/-- An invocation sends nothing, or starts a handshake. -/
lemma purpose_of_invoke {call : ℕ} {invocation : Invocation}
    (h : (s.invoke call invocation).requests.lookup n = some r) (hn : n ∉ s.requests) :
    r.purpose = .initializeRequest s.started := by
  have hold : s.requests.lookup n ≠ some r := fun h => hn (HashMap.mem_of_lookup h)
  rw [System.invoke] at h
  rcases hvalidate : invocation.validate with e | ⟨⟩
  · rw [hvalidate] at h
    exact absurd h hold
  · rw [hvalidate] at h
    simp only at h
    split_ifs at h with hready
    · exact absurd h hold
    · cases hopening : s.client.opening with
      | some handshake =>
        rw [hopening] at h
        exact absurd h hold
      | none =>
        rw [hopening] at h
        exact purpose_of_post h hn

/-- A request that is done sends nothing, or a notification. -/
lemma purpose_of_complete (hr : s.requests.lookup request = some r) {result : Except Thrown Json}
    (h : (s.complete request r result).requests.lookup n = some r') (hn : n ∉ s.requests) :
    ∃ handshake, r'.purpose = .initialized handshake := by
  have hstatus : ∀ status, n ∉ (s.setStatus request r status).requests := by
    intro status hmem
    rcases Finmap.mem_insert.mp hmem with rfl | hmem
    · exact hn (HashMap.mem_of_lookup hr)
    · exact hn hmem
  have hold : ∀ status, (s.setStatus request r status).requests.lookup n ≠ some r' :=
    fun status h => hstatus status (HashMap.mem_of_lookup h)
  rw [System.complete] at h
  cases hpurpose : r.purpose with
  | initializeRequest handshake =>
    rw [hpurpose, System.finish] at h
    rcases hcheck : result.bind checkInitialization with e | ⟨⟩
    · simp only [hcheck] at h
      exact absurd h (hold _)
    · simp only [hcheck] at h
      exact ⟨handshake, purpose_of_post h (hstatus _)⟩
  | initialized handshake =>
    rw [hpurpose] at h
    cases result <;> exact absurd h (hold _)
  | call call name args =>
    rw [hpurpose] at h
    exact absurd h (hold _)
  | read call uri =>
    rw [hpurpose] at h
    exact absurd h (hold _)

/-- A continuation that sends a request has a session. -/
lemma Orderly.initialized_of_wake (h : Orderly s) {call : ℕ}
    (hr : (s.wake call).requests.lookup n = some r) (hn : n ∉ s.requests) :
    Initialized s.requests := by
  have hold : s.requests.lookup n ≠ some r := fun h => hn (HashMap.mem_of_lookup h)
  rw [System.wake] at hr
  rcases hcall : s.invocations.lookup call with _ | ⟨invocation, handshake | handshake | _ | _⟩
  · rw [hcall] at hr
    exact absurd hr hold
  · rw [hcall] at hr
    rcases hresult : s.handshakes.lookup handshake with _ | _ | e | ⟨⟩
    all_goals
      simp only [hresult] at hr
      exact absurd hr hold
  · rw [hcall] at hr
    rcases hresult : s.handshakes.lookup handshake with _ | _ | e | ⟨⟩
    case some.some.ok => exact (h.handshaking.succeeded hresult).2.2
    all_goals
      simp only [hresult] at hr
      exact absurd hr hold
  · rw [hcall] at hr
    by_cases hinvocation : invocation = .initializeClient
    · subst hinvocation
      exact absurd hr hold
    · obtain ⟨h', hok⟩ := h.waits.initialized hcall hinvocation
      exact (h.handshaking.succeeded hok).2.2
  · rw [hcall] at hr
    exact absurd hr hold

/-- **Reads are sent after the notification has completed.** -/
lemma Orderly.readsInitialized (h : Orderly s) (step : Step) : ReadsInitialized s step := by
  intro n r hr hn hmethod
  have hold : s.requests.lookup n ≠ some r := fun h => hn (HashMap.mem_of_lookup h)
  have hread : ∀ {handshake}, r.purpose ≠ .initialized handshake := fun heq => by
    rw [heq] at hmethod
    simp [Purpose.method] at hmethod
  cases step with
  | invoke call invocation =>
    rw [purpose_of_invoke hr hn] at hmethod
    simp [Purpose.method] at hmethod
  | wake call => exact h.initialized_of_wake hr hn
  | respond request head =>
    rw [Step.apply, System.respond] at hr
    rcases hlookup : s.requests.lookup request with _ | r₀
    · rw [hlookup] at hr
      exact absurd hr hold
    rw [hlookup] at hr
    rcases hstatus : r₀.status with _ | _ | ok
    · simp only [hstatus] at hr
      rcases hhead : head.bind s.checkHead with e | session
      · simp only [hhead] at hr
        obtain ⟨handshake, hpurpose⟩ := purpose_of_complete hlookup hr hn
        exact absurd hpurpose hread
      · simp only [hhead] at hr
        rcases Finmap.mem_insert.mp (HashMap.mem_of_lookup hr) with rfl | hmem
        · exact absurd (HashMap.mem_of_lookup hlookup) hn
        · exact absurd hmem hn
    · simp only [hstatus] at hr
      exact absurd hr hold
    · simp only [hstatus] at hr
      exact absurd hr hold
  | read request result =>
    rw [Step.apply, System.read] at hr
    rcases hlookup : s.requests.lookup request with _ | r₀
    · rw [hlookup] at hr
      exact absurd hr hold
    rw [hlookup] at hr
    rcases hstatus : r₀.status with _ | _ | ok
    · simp only [hstatus] at hr
      exact absurd hr hold
    · simp only [hstatus] at hr
      obtain ⟨handshake, hpurpose⟩ := purpose_of_complete hlookup hr hn
      exact absurd hpurpose hread
    · simp only [hstatus] at hr
      exact absurd hr hold

/-- **An invocation after a failed handshake starts a new one.** -/
lemma Orderly.restarts (h : Orderly s) {step : Step} (hpolite : Polite s step) :
    Restarts s step := by
  cases step with
  | invoke call invocation =>
    rintro hvalidate ⟨last, e, hlast, hfailed⟩
    have hopening : s.client.opening = none := by
      rw [Option.eq_none_iff_forall_ne_some]
      intro handshake heq
      obtain rfl : handshake = last := by
        have := h.handshaking.opening_last heq
        omega
      exact (hpolite hvalidate).2 handshake e heq hfailed
    have hready : ¬ s.client.ready = true := by
      intro hready
      rcases h.handshaking.of_ready hready with ⟨handshake, hok⟩ | ⟨n, handshake, hfly⟩
      · have := (h.handshaking.succeeded hok).2.1
        obtain rfl : handshake = last := by omega
        exact nomatch hok.symm.trans hfailed
      · exact nomatch hopening.symm.trans
          (h.handshaking.going_on (h.handshaking.flight hfly rfl))
    rw [System.invoke, hvalidate]
    simp only [if_neg hready, hopening]
    exact ⟨_, s.started, Finmap.lookup_insert _,
      Finmap.lookup_eq_none.mp h.handshaking.lookup_sent, rfl⟩
  | wake | respond | read => trivial

end New

/-- A new client fits the invariant. -/
lemma orderly_start : Orderly System.start := by
  have hrequest : ∀ {n p}, ¬ Flying System.start.requests n p := by
    rintro n p ⟨r, hr, -⟩
    exact nomatch hr
  have hhandshake : ∀ {n result}, System.start.handshakes.lookup n ≠ some result := nofun
  have hinvocation : ∀ {n w}, System.start.invocations.lookup n ≠ some w := nofun
  refine ⟨⟨fun hn => absurd hn Finmap.notMem_empty, fun hn => absurd hn Finmap.notMem_empty, nofun,
    fun hgoing => absurd hgoing hhandshake, fun hfly => absurd hfly hrequest,
    fun hfly => absurd hfly hrequest, fun hfly => absurd hfly hrequest,
    fun hfly => absurd hfly hrequest, nofun, fun hok => absurd hok hhandshake⟩,
    ⟨fun hw => absurd hw hinvocation, fun hw => absurd hw hinvocation,
      fun hw => absurd hw hinvocation⟩⟩

/-- **The order of the requests**: in every run in which no read is invoked while a notification is
under way, and nothing while the promise of a failed handshake is in the field `opening`, at most
one `initialize` request is in flight, reads are sent after the notification of the current session
has completed, and an invocation after a failed handshake starts a new one. -/
theorem handshake_order {steps : List Step}
    (hpolite : Runs.Steps Step.apply Polite System.start steps) :
    Runs.Always Step.apply OneInitialize System.start steps ∧
      Runs.Steps Step.apply (fun s step => ReadsInitialized s step ∧ Restarts s step)
        System.start steps := by
  constructor
  · refine (Runs.always_rule Orderly (fun _ _ h hp => h.apply hp) hpolite orderly_start).imp ?_
    exact fun s h n n' _ _ hfly hfly' => h.handshaking.flight_unique hfly rfl hfly' rfl
  · exact Runs.steps_rule Orderly
      (fun _ step h hp => ⟨h.apply hp, h.readsInitialized step, h.restarts hp⟩) hpolite
      orderly_start

/-! ## A read that is too early -/

/-- A call of a tool. -/
def sampleCall : Invocation := .call (.string "claims_status") (.object [])

/-- The result of a compatible initialization. -/
def sampleResult : Json :=
  .object [("protocolVersion", .string protocol), ("capabilities", .object []),
    ("serverInfo", .object [])]

/-- A call starts a handshake, whose `initialize` request succeeds. -/
def sampleSteps : List Step :=
  [.invoke 0 sampleCall, .respond 0 (.ok ⟨true, 200, none⟩), .read 0 (.ok sampleResult)]

/-- A request without a session. -/
def sampleRequest (purpose : Purpose) (id : List (String × Json)) (protocolHeader : Bool)
    (status : Status) : Request :=
  ⟨purpose, .object ([("jsonrpc", .string "2.0")] ++ id ++
    [("method", .string purpose.method), ("params", purpose.params)]), protocolHeader, none, status⟩

/-- The requests while the notification is under way. -/
def sampleRequests : HashMap ℕ Request :=
  ((∅ : HashMap ℕ Request).insert 0
    (sampleRequest (.initializeRequest 0) [("id", .number (1 : ℕ))] false (.done true))).insert 1
      (sampleRequest (.initialized 0) [] true .waiting)

/-- With calls that arrive before the handshake is over and wait for it, the order is kept. -/
theorem handshake_order_sample :
    Runs.Always Step.apply OneInitialize System.start (.invoke 1 sampleCall :: sampleSteps) ∧
      Runs.Steps Step.apply (fun s step => ReadsInitialized s step ∧ Restarts s step)
        System.start (.invoke 1 sampleCall :: sampleSteps) := by
  refine handshake_order ⟨fun _ => ⟨fun _ n h hfly => ?_, nofun⟩,
    fun _ => ⟨fun _ n h hfly => ?_, fun h e hopening hfailed => ?_⟩, trivial, trivial, trivial⟩
  · obtain ⟨r, hr, -⟩ := hfly
    exact nomatch hr
  · rcases flying_insert.mp hfly with ⟨-, -, hpurpose⟩ | ⟨-, r, hr, -⟩
    · exact nomatch hpurpose
    · exact nomatch hr
  · obtain rfl := Option.some.inj hopening
    exact nomatch hfailed

/-- A call that arrives while the notification is under way is sent before it completes. -/
theorem not_handshake_order_sample :
    let s := Runs.run Step.apply System.start (sampleSteps ++ [.invoke 1 sampleCall])
    (∃ r, (s.wake 1).requests.lookup 2 = some r ∧ r.purpose.method = "tools/call") ∧
      ¬ Initialized s.requests := by
  intro s
  have hrequests : s.requests = sampleRequests := rfl
  refine ⟨⟨sampleRequest (.call 1 (.string "claims_status") (.object []))
    [("id", .number (2 : ℕ))] true .waiting, rfl, rfl⟩, ?_⟩
  rintro ⟨n, r, h, hr, hpurpose, hstatus, -⟩
  rw [hrequests, sampleRequests, HashMap.lookup_insert_ite] at hr
  split_ifs at hr
  · exact nomatch (Option.some.inj hr) ▸ hstatus
  · rw [HashMap.lookup_insert_ite] at hr
    split_ifs at hr
    · exact nomatch (Option.some.inj hr) ▸ hpurpose
    · exact nomatch hr

end QuDAG.Integrations.Federation
