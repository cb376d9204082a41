import QuDAG.Network.CircuitBreaker

/-!
# When the circuit opens

The breaker keeps a counter of failures in a row and a window of recent outcomes with two counters
of its own. Together they implement one rule about the history: a closed circuit opens at a failure
that makes enough failures in a row, with enough outcomes in the window and a large enough share of
failures among them.

## Main definitions

* `History` — a breaker, and what has happened to it.
* `failuresInRow`, `rolling` — the failures in a row and the window, read off the history.
* `History.OpensByRule` — a call opens the circuit exactly when the rule says so.

## Main results

* `SlidingWindow.outcomes_record` — the window keeps the outcomes that are not too old.
* `History.opensByRule_steps` — every call of a run opens the circuit by the rule.
-/

namespace QuDAG.Network

/-! ## The window -/

namespace SlidingWindow

variable {duration : Duration} {now : Instant}

/-- The counters are those of the stored outcomes. -/
structure Counted (window : SlidingWindow) : Prop where
  successCount_eq : window.successCount = (window.outcomes.countP fun o => o.2 : ℕ)
  failureCount_eq : window.failureCount = (window.outcomes.countP fun o => !o.2 : ℕ)

/-- The number of outcomes is that of the stored ones. -/
lemma Counted.totalRequests_eq {window : SlidingWindow} (h : window.Counted) :
    window.totalRequests = window.outcomes.length := by
  rw [totalRequests, h.successCount_eq, h.failureCount_eq,
    List.length_eq_countP_add_countP (fun o : Instant × Bool => o.2)]
  simp

/-- The failure rate is the share of failures among the stored outcomes. -/
lemma Counted.failureRate_eq {window : SlidingWindow} (h : window.Counted) :
    window.failureRate =
      (window.outcomes.countP fun o => !o.2 : ℕ) / (window.outcomes.length : ℚ) := by
  rw [failureRate, h.totalRequests_eq, h.failureCount_eq]
  split_ifs with hzero
  · have hlength : window.outcomes.length = 0 := by exact_mod_cast hzero
    rw [hlength]
    simp
  · push_cast
    rfl

/-- Outcomes are removed from the front. -/
lemma outcomes_cleanup (outcomes : List (Instant × Bool)) (successCount failureCount : ℤ) :
    (cleanup duration now outcomes successCount failureCount).outcomes =
      outcomes.dropWhile fun o => o.1 + duration < now := by
  induction outcomes generalizing successCount failureCount with
  | nil => rfl
  | cons o outcomes ih =>
    by_cases hold : o.1 + duration < now
    · cases hsuccess : o.2 <;> simp [cleanup, hold, hsuccess, ih]
    · simp [cleanup, hold]

/-- The duration stays. -/
lemma duration_cleanup (outcomes : List (Instant × Bool)) (successCount failureCount : ℤ) :
    (cleanup duration now outcomes successCount failureCount).duration = duration := by
  induction outcomes generalizing successCount failureCount with
  | nil => rfl
  | cons o outcomes ih =>
    by_cases hold : o.1 + duration < now
    · cases hsuccess : o.2 <;> simp [cleanup, hold, hsuccess, ih]
    · simp [cleanup, hold]

/-- Counters that are right before outcomes are removed are right after it. The induction is the
loop: at each turn the counters are those of the outcomes that are left, so none is taken below
zero. -/
lemma counted_cleanup (outcomes : List (Instant × Bool)) :
    (cleanup duration now outcomes (outcomes.countP fun o => o.2 : ℕ)
      (outcomes.countP fun o => !o.2 : ℕ)).Counted := by
  induction outcomes with
  | nil => exact ⟨rfl, rfl⟩
  | cons o outcomes ih =>
    by_cases hold : o.1 + duration < now
    · cases hsuccess : o.2 <;> simpa [cleanup, hold, hsuccess] using ih
    · simp only [cleanup, if_neg hold]
      exact ⟨rfl, rfl⟩

/-- **Recording keeps the counters right.** -/
lemma Counted.record {window : SlidingWindow} (h : window.Counted) (r : Readings)
    (success : Bool) : (window.record r success).Counted := by
  have hloop := @counted_cleanup window.duration r.pruned
    (window.outcomes ++ [(r.recorded, success)])
  unfold SlidingWindow.record
  rw [h.successCount_eq, h.failureCount_eq]
  cases success <;> simpa using hloop

/-- The duration of a window stays. -/
lemma duration_record {window : SlidingWindow} {r : Readings} {success : Bool} :
    (window.record r success).duration = window.duration := by
  unfold SlidingWindow.record
  cases success <;> exact duration_cleanup _ _ _

/-- In order of time, dropping old outcomes from the front drops all that are too old. -/
lemma dropWhile_eq_filter {outcomes : List (Instant × Bool)}
    (h : outcomes.Pairwise fun o o' => o.1 ≤ o'.1) :
    (outcomes.dropWhile fun o => o.1 + duration < now) =
      outcomes.filter fun o => now ≤ o.1 + duration := by
  induction outcomes with
  | nil => rfl
  | cons o outcomes ih =>
    rw [List.pairwise_cons] at h
    by_cases hold : o.1 + duration < now
    · simp [hold, ih h.2, not_le.mpr hold]
    · have hall : ∀ o' ∈ outcomes, now ≤ o'.1 + duration := fun o' ho' =>
        (not_lt.mp hold).trans (Nat.add_le_add_right (h.1 o' ho') _)
      simp [hold, not_lt.mp hold,
        List.filter_eq_self.mpr fun o' ho' => decide_eq_true (hall o' ho')]

/-- **The window keeps the outcomes that are not too
  old.** -/
lemma outcomes_record {window : SlidingWindow} {r : Readings} {success : Bool}
    (h : (window.outcomes ++ [(r.recorded, success)]).Pairwise fun o o' => o.1 ≤ o'.1) :
    (window.record r success).outcomes = (window.outcomes ++ [(r.recorded, success)]).filter
      fun o => r.pruned ≤ o.1 + window.duration := by
  unfold SlidingWindow.record
  cases success <;> simp only [Bool.false_eq_true, if_false, if_true] <;>
    rw [outcomes_cleanup, dropWhile_eq_filter h]

end SlidingWindow

/-! ## Histories -/

/-- What can happen to a breaker. -/
inductive Event
  /-- An outcome is recorded. -/
  | outcome (recorded : Instant) (success : Bool)
  /-- The window is cleared. -/
  | windowReset
  /-- The state changes. -/
  | stateChange
  deriving DecidableEq

/-- The event ends a row of failures: it is a success or a change of the state. -/
def Event.endsRow : Event → Bool
  | .outcome _ success => success
  | .windowReset => false
  | .stateChange => true

/-- The event is a failure. -/
def Event.isFailure : Event → Bool
  | .outcome _ success => !success
  | _ => false

/-- The outcome of the event, if it is one. -/
def Event.outcome? : Event → Option (Instant × Bool)
  | .outcome recorded success => some (recorded, success)
  | _ => none

/-- The failures since the last success or change of the state. -/
def failuresInRow (history : List Event) : ℕ :=
  (history.reverse.takeWhile fun e => !e.endsRow).countP Event.isFailure

/-- The outcomes since the window was last cleared. -/
def sinceReset (history : List Event) : List (Instant × Bool) :=
  ((history.reverse.takeWhile (· ≠ .windowReset)).filterMap Event.outcome?).reverse

/-- Those of them that are not older than the duration. -/
def rolling (duration : Duration) (now : Instant) (history : List Event) :
    List (Instant × Bool) :=
  (sinceReset history).filter fun o => now ≤ o.1 + duration

lemma failuresInRow_concat (history : List Event) (e : Event) :
    failuresInRow (history ++ [e]) =
      if e.endsRow then 0 else failuresInRow history + if e.isFailure then 1 else 0 := by
  rw [failuresInRow, List.reverse_append, List.reverse_singleton, List.singleton_append,
    List.takeWhile_cons]
  cases he : e.endsRow with
  | true => simp
  | false => simp [List.countP_cons, failuresInRow]

lemma sinceReset_outcome (history : List Event) (recorded : Instant) (success : Bool) :
    sinceReset (history ++ [.outcome recorded success]) =
      sinceReset history ++ [(recorded, success)] := by
  simp [sinceReset, Event.outcome?]

lemma sinceReset_stateChange (history : List Event) :
    sinceReset (history ++ [.stateChange]) = sinceReset history := by
  simp [sinceReset, Event.outcome?, List.filterMap_cons]

lemma sinceReset_windowReset (history : List Event) :
    sinceReset (history ++ [.windowReset]) = [] := by
  simp [sinceReset]

/-! ## Runs -/

/-- A breaker, and what has happened to it since it was made or reset. -/
structure History where
  breaker : CircuitBreaker
  events : List Event
  /-- When old outcomes were last removed. -/
  pruned : Instant

namespace History

/-- What is asked of the breaker. -/
inductive Call
  | allowRequest (r : Readings)
  | recordOutcome (r : Readings) (success : Bool)
  | reset (r : Readings)

/-- A new breaker. -/
def start (config : CircuitBreakerConfig) (now : Instant) : History := ⟨.new config now, [], 0⟩

/-- A change of the state, if there is one. -/
def stateEvents (before after : CircuitBreaker) : List Event :=
  if before.state = after.state then [] else [.stateChange]

/-- Make a call. -/
def apply (s : History) : Call → History
  | .allowRequest r =>
    let breaker := (s.breaker.allowRequest r).2
    -- the window is cleared when the breaker becomes half-open
    let resets := if s.breaker.state = .open ∧ breaker.state = .halfOpen then
      [Event.windowReset] else []
    ⟨breaker, s.events ++ resets ++ stateEvents s.breaker breaker, s.pruned⟩
  | .recordOutcome r success =>
    let breaker := s.breaker.recordOutcome r success
    ⟨breaker, s.events ++ [.outcome r.recorded success] ++ stateEvents s.breaker breaker, r.pruned⟩
  | .reset r => ⟨s.breaker.reset r, [], s.pruned⟩

/-- Outcomes are recorded, and old ones removed, in the order of time. -/
def InOrder (s : History) : Call → Prop
  | .recordOutcome r _ => s.pruned ≤ r.recorded ∧ r.recorded ≤ r.pruned
  | _ => True

instance instDecidableInOrder (s : History) : ∀ call : Call, Decidable (s.InOrder call)
  | .recordOutcome r _ =>
    inferInstanceAs (Decidable (s.pruned ≤ r.recorded ∧ r.recorded ≤ r.pruned))
  | .allowRequest _ => instDecidableTrue
  | .reset _ => instDecidableTrue

/-- The rule asks for opening at a failure that is recorded now. -/
def Due (s : History) (r : Readings) : Prop :=
  let config := s.breaker.config
  let events := s.events ++ [.outcome r.recorded false]
  let window := rolling config.windowDuration r.pruned events
  config.failureThreshold.toNat ≤ failuresInRow events ∧
    config.minRequests.toNat ≤ window.length ∧
    config.failureRateThreshold ≤ (window.countP fun o => !o.2 : ℕ) / (window.length : ℚ)

/-- A call takes the breaker out of `closed` exactly when it records a failure at which the rule
asks for it, and then the breaker is open. -/
structure OpensByRule (s : History) (call : Call) : Prop where
  leaves_iff : s.breaker.state = .closed →
    ((s.apply call).breaker.state ≠ .closed ↔ ∃ r, call = .recordOutcome r false ∧ s.Due r)
  opens : s.breaker.state = .closed → (s.apply call).breaker.state ≠ .closed →
    (s.apply call).breaker.state = .open

/-- The invariant: the window and the failures in a row are those of the history. -/
structure Inv (config : CircuitBreakerConfig) (s : History) : Prop where
  config_eq : s.breaker.config = config
  duration_eq : s.breaker.window.duration = config.windowDuration
  counted : s.breaker.window.Counted
  outcomes_eq : s.breaker.window.outcomes = rolling config.windowDuration s.pruned s.events
  sorted : (sinceReset s.events).Pairwise fun o o' => o.1 ≤ o'.1
  recorded_le : ∀ o ∈ sinceReset s.events, o.1 ≤ s.pruned
  failures_eq : s.breaker.state = .closed →
    s.breaker.consecutiveFailures = failuresInRow s.events

variable {config : CircuitBreakerConfig} {s : History}

/-- A new breaker has no history. -/
lemma inv_start (config : CircuitBreakerConfig) (now : Instant) : (start config now).Inv config :=
  ⟨rfl, rfl, ⟨rfl, rfl⟩, rfl, List.Pairwise.nil, by simp [start, sinceReset], fun _ => rfl⟩

/-- Resetting forgets the history. -/
lemma Inv.reset (h : s.Inv config) (r : Readings) : (s.apply (.reset r)).Inv config :=
  ⟨h.config_eq, h.duration_eq, ⟨rfl, rfl⟩, rfl, List.Pairwise.nil, by simp [apply, sinceReset],
    fun _ => rfl⟩

/-- A request that leaves the state and the window alone adds nothing to the history. -/
lemma Inv.allowRequest_same (h : s.Inv config) {r : Readings} {breaker : CircuitBreaker}
    (hbreaker : (s.breaker.allowRequest r).2 = breaker)
    (hconfig : breaker.config = s.breaker.config)
    (hstate : breaker.state = s.breaker.state) (hwindow : breaker.window = s.breaker.window)
    (hfailures : breaker.consecutiveFailures = s.breaker.consecutiveFailures) :
    (s.apply (.allowRequest r)).Inv config := by
  have hevents : (s.apply (.allowRequest r)).events = s.events := by
    simp only [apply, hbreaker, hstate, stateEvents, if_true]
    rw [if_neg (by rintro ⟨ho, hh⟩; rw [ho] at hh; simp at hh)]
    simp
  constructor
  · exact (congrArg _ hbreaker).trans (hconfig.trans h.config_eq)
  · exact (congrArg (fun b => b.window.duration) hbreaker).trans (hwindow ▸ h.duration_eq)
  · show (s.breaker.allowRequest r).2.window.Counted
    rw [hbreaker, hwindow]
    exact h.counted
  · rw [hevents]
    show (s.breaker.allowRequest r).2.window.outcomes = _
    rw [hbreaker, hwindow]
    exact h.outcomes_eq
  · rw [hevents]
    exact h.sorted
  · rw [hevents]
    exact h.recorded_le
  · rw [hevents]
    show (s.breaker.allowRequest r).2.state = _ →
      (s.breaker.allowRequest r).2.consecutiveFailures = _
    rw [hbreaker, hstate, hfailures]
    exact h.failures_eq

/-- A request keeps the invariant. -/
lemma Inv.allowRequest (h : s.Inv config) (r : Readings) :
    (s.apply (.allowRequest r)).Inv config := by
  rcases s.breaker.allowRequest_cases r with ⟨-, heq⟩ | ⟨hstate, -, heq⟩ | ⟨-, -, heq⟩ |
    ⟨-, -, heq⟩ | ⟨-, -, heq⟩
  · exact h.allowRequest_same (congrArg Prod.snd heq) rfl rfl rfl rfl
  · -- the breaker becomes half-open with an empty window
    have hbreaker : (s.breaker.allowRequest r).2 = s.breaker.transitionToHalfOpen r :=
      congrArg Prod.snd heq
    have hhalf := (@CircuitBreaker.transitionToHalfOpen_of_open r _ hstate).1
    have hwindow : (s.breaker.transitionToHalfOpen r).window = s.breaker.window.reset := by
      rw [CircuitBreaker.transitionToHalfOpen, if_pos hstate]
      rfl
    have hevents : (s.apply (.allowRequest r)).events =
        s.events ++ [.windowReset] ++ [.stateChange] := by
      simp [apply, hbreaker, hhalf, hstate, stateEvents]
    have hnone : sinceReset (s.apply (.allowRequest r)).events = [] := by
      rw [hevents, sinceReset_stateChange, sinceReset_windowReset]
    constructor
    · show (s.breaker.allowRequest r).2.config = _
      rw [hbreaker, (CircuitBreaker.transitionToHalfOpen_of_open hstate).2.2]
      exact h.config_eq
    · show (s.breaker.allowRequest r).2.window.duration = _
      rw [hbreaker, hwindow]
      exact h.duration_eq
    · show (s.breaker.allowRequest r).2.window.Counted
      rw [hbreaker, hwindow]
      exact ⟨rfl, rfl⟩
    · rw [rolling, hnone]
      show (s.breaker.allowRequest r).2.window.outcomes = _
      rw [hbreaker, hwindow]
      rfl
    · rw [hnone]
      exact List.Pairwise.nil
    · simp [hnone]
    · show (s.breaker.allowRequest r).2.state = _ → _
      rw [hbreaker, hhalf]
      simp
  · exact h.allowRequest_same (congrArg Prod.snd heq) rfl rfl rfl rfl
  · exact h.allowRequest_same (congrArg Prod.snd heq) rfl rfl rfl rfl
  · exact h.allowRequest_same (congrArg Prod.snd heq) rfl rfl rfl rfl

/-- After an outcome, a closed breaker has counted the failures in a row. -/
lemma Inv.failures_recordOutcome (h : s.Inv config) (r : Readings) (success : Bool)
    (hclosed : (s.apply (.recordOutcome r success)).breaker.state = .closed) :
    (s.apply (.recordOutcome r success)).breaker.consecutiveFailures =
      failuresInRow (s.apply (.recordOutcome r success)).events := by
  replace hclosed : (s.breaker.recordOutcome r success).state = .closed := hclosed
  show (s.breaker.recordOutcome r success).consecutiveFailures =
    failuresInRow (s.events ++ _ ++ stateEvents s.breaker (s.breaker.recordOutcome r success))
  rw [stateEvents, hclosed]
  cases hstate : s.breaker.state with
  | closed =>
    rw [if_pos rfl, List.append_nil, failuresInRow_concat]
    cases success with
    | true => exact (CircuitBreaker.recordOutcome_success_closed hstate).2
    | false =>
      have htrips : ¬s.breaker.Trips r := by
        intro htrips
        rw [CircuitBreaker.recordOutcome_of_trips hstate htrips] at hclosed
        simp at hclosed
      rw [(CircuitBreaker.recordOutcome_of_not_trips hstate htrips).2, h.failures_eq hstate]
      rfl
  | «open» =>
    rw [CircuitBreaker.recordOutcome_open hstate] at hclosed
    simp at hclosed
  | halfOpen =>
    rw [if_neg (by simp), failuresInRow_concat, CircuitBreaker.consecutiveFailures_of_closes hstate
      hclosed]
    rfl

/-- The history is in order of time with a new outcome. -/
lemma Inv.pairwise_concat (h : s.Inv config) {r : Readings} {success : Bool}
    (horder : s.InOrder (.recordOutcome r success)) :
    (sinceReset s.events ++ [(r.recorded, success)]).Pairwise fun o o' => o.1 ≤ o'.1 := by
  rw [List.pairwise_append]
  refine ⟨h.sorted, List.pairwise_singleton _ _, fun o ho o' ho' => ?_⟩
  rw [List.mem_singleton.mp ho']
  exact (h.recorded_le o ho).trans horder.1

/-- The window after an outcome is that of the history. -/
lemma Inv.outcomes_record (h : s.Inv config) {r : Readings} {success : Bool}
    (horder : s.InOrder (.recordOutcome r success)) :
    (s.breaker.window.record r success).outcomes =
      rolling config.windowDuration r.pruned (s.events ++ [.outcome r.recorded success]) := by
  have hsublist : (s.breaker.window.outcomes ++ [(r.recorded, success)]).Sublist
      (sinceReset s.events ++ [(r.recorded, success)]) := by
    rw [h.outcomes_eq]
    exact List.filter_sublist.append (List.Sublist.refl _)
  rw [SlidingWindow.outcomes_record ((h.pairwise_concat horder).sublist hsublist), h.duration_eq,
    h.outcomes_eq, rolling, rolling, sinceReset_outcome, List.filter_append, List.filter_append,
    List.filter_filter]
  congr 1
  refine List.filter_congr fun o _ => ?_
  -- what is young enough now was young enough before
  have hle : s.pruned ≤ r.pruned := horder.1.trans horder.2
  by_cases hnow : r.pruned ≤ o.1 + config.windowDuration
  · simp [hnow, hle.trans hnow]
  · simp [hnow]

/-- An outcome keeps the invariant. -/
lemma Inv.recordOutcome (h : s.Inv config) {r : Readings} {success : Bool}
    (horder : s.InOrder (.recordOutcome r success)) :
    (s.apply (.recordOutcome r success)).Inv config := by
  have hsince : sinceReset (s.apply (.recordOutcome r success)).events =
      sinceReset s.events ++ [(r.recorded, success)] := by
    simp only [apply, stateEvents]
    split_ifs
    · rw [List.append_nil, sinceReset_outcome]
    · rw [sinceReset_stateChange, sinceReset_outcome]
  have hwindow := @CircuitBreaker.window_recordOutcome r s.breaker success
  constructor
  · exact CircuitBreaker.config_recordOutcome.trans h.config_eq
  · show (s.breaker.recordOutcome r success).window.duration = _
    rw [hwindow, SlidingWindow.duration_record]
    exact h.duration_eq
  · show (s.breaker.recordOutcome r success).window.Counted
    rw [hwindow]
    exact h.counted.record r success
  · show (s.breaker.recordOutcome r success).window.outcomes = _
    rw [hwindow, h.outcomes_record horder, rolling, rolling, hsince, sinceReset_outcome]
    rfl
  · rw [hsince]
    exact h.pairwise_concat horder
  · intro o ho
    rw [hsince, List.mem_append, List.mem_singleton] at ho
    rcases ho with ho | rfl
    · exact (h.recorded_le o ho).trans (horder.1.trans horder.2)
    · exact horder.2
  · exact h.failures_recordOutcome r success

/-- The code's test is the rule. -/
lemma Inv.trips_iff (h : s.Inv config) {r : Readings}
    (horder : s.InOrder (.recordOutcome r false)) (hclosed : s.breaker.state = .closed) :
    s.breaker.Trips r ↔ s.Due r := by
  have hcounted := h.counted.record r false
  have hrow : failuresInRow (s.events ++ [.outcome r.recorded false]) =
      s.breaker.consecutiveFailures + 1 := by
    rw [failuresInRow_concat, h.failures_eq hclosed]
    rfl
  rw [CircuitBreaker.Trips, Due]
  simp only [hrow, hcounted.totalRequests_eq, hcounted.failureRate_eq, h.outcomes_record horder,
    h.config_eq]
  norm_cast

/-- A call after which a closed circuit is still closed is no failure at which the rule asks for
opening. -/
lemma opensByRule_of_stays {call : Call} (hcall : ∀ r, call ≠ .recordOutcome r false)
    (hstays : s.breaker.state = .closed → (s.apply call).breaker.state = .closed) :
    s.OpensByRule call where
  leaves_iff hclosed := by
    constructor
    · exact fun hleft => absurd (hstays hclosed) hleft
    · rintro ⟨r, rfl, -⟩
      exact absurd rfl (hcall r)
  opens hclosed hleft := absurd (hstays hclosed) hleft

/-- A failure opens the circuit by the rule. -/
lemma Inv.opensByRule_failure (h : s.Inv config) {r : Readings}
    (horder : s.InOrder (.recordOutcome r false)) : s.OpensByRule (.recordOutcome r false) := by
  have hcases : s.breaker.state = .closed →
      (s.breaker.recordOutcome r false).state = .open ∧ s.Due r ∨
        (s.breaker.recordOutcome r false).state = .closed ∧ ¬s.Due r := by
    intro hclosed
    by_cases htrips : s.breaker.Trips r
    · exact .inl ⟨CircuitBreaker.recordOutcome_of_trips hclosed htrips,
        (h.trips_iff horder hclosed).mp htrips⟩
    · exact .inr ⟨(CircuitBreaker.recordOutcome_of_not_trips hclosed htrips).1,
        fun hdue => htrips ((h.trips_iff horder hclosed).mpr hdue)⟩
  constructor
  · intro hclosed
    show (s.breaker.recordOutcome r false).state ≠ _ ↔ _
    rcases hcases hclosed with ⟨hopen, hdue⟩ | ⟨hstays, hdue⟩
    · rw [hopen]
      exact iff_of_true (by simp) ⟨r, rfl, hdue⟩
    · rw [hstays]
      refine iff_of_false (by simp) ?_
      rintro ⟨r', heq, hdue'⟩
      cases heq
      exact hdue hdue'
  · intro hclosed hleft
    rcases hcases hclosed with ⟨hopen, -⟩ | ⟨hstays, -⟩
    · exact hopen
    · exact absurd hstays hleft

/-- **What one call does**: it keeps the invariant, and opens the circuit by the rule. -/
lemma Inv.apply (h : s.Inv config) {call : Call} (horder : s.InOrder call) :
    (s.apply call).Inv config ∧ s.OpensByRule call := by
  cases call with
  | allowRequest r =>
    refine ⟨h.allowRequest r, opensByRule_of_stays (by simp) fun hclosed => ?_⟩
    simp [History.apply, CircuitBreaker.allowRequest, hclosed]
  | recordOutcome r success =>
    refine ⟨h.recordOutcome horder, ?_⟩
    cases success with
    | true => exact opensByRule_of_stays (by simp) fun hclosed =>
        (CircuitBreaker.recordOutcome_success_closed hclosed).1
    | false => exact h.opensByRule_failure horder
  | reset r => exact ⟨h.reset r, opensByRule_of_stays (by simp) fun _ => rfl⟩

/-- **The opening rule**: in every run of a new breaker, with outcomes recorded in the order of
time, every call takes it out of `closed` exactly when the rule about the history says so, and the
counters of the window are always those of the outcomes that it stores. -/
theorem opensByRule_steps (config : CircuitBreakerConfig) (now : Instant) (calls : List Call)
    (horder : Runs.Steps History.apply InOrder (start config now) calls) :
    Runs.Steps History.apply OpensByRule (start config now) calls ∧
      Runs.Always History.apply (fun s => s.breaker.window.Counted) (start config now) calls := by
  constructor
  · exact Runs.steps_rule (Inv config) (fun _ _ h hcall => h.apply hcall) horder
      (inv_start config now)
  · exact (Runs.always_rule (Inv config) (fun _ _ h hcall => (h.apply hcall).1) horder
      (inv_start config now)).imp fun _ h => h.counted

/-- Two failures, of which the second opens the circuit, and a fresh start. -/
def sampleCalls : List Call :=
  [.recordOutcome ⟨1, 1, 1, 1, 1, 1⟩ false, .recordOutcome ⟨2, 2, 2, 2, 2, 2⟩ false,
    .reset ⟨3, 3, 3, 3, 3, 3⟩, .recordOutcome ⟨4, 4, 4, 4, 4, 4⟩ true]

/-- The rule holds of that run. -/
theorem opensByRule_steps_sampleCalls :
    Runs.Steps History.apply OpensByRule (start ⟨2, 2, 50, 1 / 2, 1, 1000, 1⟩ 0) sampleCalls ∧
      Runs.Always History.apply (fun s => s.breaker.window.Counted)
        (start ⟨2, 2, 50, 1 / 2, 1, 1000, 1⟩ 0) sampleCalls :=
  opensByRule_steps _ 0 sampleCalls (by decide +kernel)

end History

end QuDAG.Network
