import Mathlib.Tactic.Linarith
import QuDAG.Dag.Voting
import QuDAG.Lib.Runs

/-!
# Reputation of peers in the DHT (`kademlia.rs`)

A peer has a score. An interaction changes it within the bounds of the configuration, misbehavior
lowers it, with a floor of its own, and decay lowers it with the time since the last interaction.
Decay does not note when it was applied, so the same time is counted by every call.

## Main definitions

* `PeerReputation`, with `recordInteraction`, `recordMisbehavior` and `applyDecay`.
* `ReputationHistory` — a reputation, and its score when the peer became idle.
* `ReputationHistory.Fair` — after a step the counts and the score are right.
* `ReputationHistory.Tame` — the step does not leave the bounds, raise a score that should fall, or
  count time twice.

## Main results

* `ReputationHistory.fair_iff_tame` — the steps that are fair.
* `ReputationHistory.fairRun_iff` — the runs that are.

## Implementation notes

Scores are rational numbers, and counts natural ones. An interaction under a configuration whose
bounds are crossed panics in `clamp`; its score then stays as it is.
-/

namespace QuDAG.Network

open RustStd

/-! ## The code -/

/-- Peer scoring configuration. -/
structure PeerScoringConfig where
  /-- Maximum score. -/
  maxScore : ℚ
  /-- Minimum score before blacklisting. -/
  minScore : ℚ
  /-- Score decay rate per hour. -/
  scoreDecayRate : ℚ
  /-- Connection success bonus. -/
  connectionSuccessBonus : ℚ
  /-- Connection failure penalty. -/
  connectionFailurePenalty : ℚ
  /-- Latency penalty factor. -/
  latencyPenaltyFactor : ℚ
  deriving DecidableEq

/-- The default configuration. -/
def PeerScoringConfig.default : PeerScoringConfig := ⟨100, -50, 1 / 10, 5, 10, 1 / 100⟩

/-- Peer reputation. -/
structure PeerReputation where
  /-- Current reputation score. -/
  score : ℚ
  /-- Total interactions. -/
  totalInteractions : ℕ
  /-- Successful interactions. -/
  successfulInteractions : ℕ
  /-- Failed interactions. -/
  failedInteractions : ℕ
  /-- Last interaction time. -/
  lastInteraction : Option Instant
  /-- Response times history. -/
  responseTimes : List Duration
  /-- Average response time. -/
  avgResponseTime : Duration
  /-- Content retrieval success rate. -/
  contentSuccessRate : ℚ
  /-- Misbehavior count. -/
  misbehaviorCount : ℕ
  /-- Last misbehavior time. -/
  lastMisbehavior : Option Instant
  deriving DecidableEq

namespace PeerReputation

/-- Create new peer reputation, with a neutral score. -/
def new : PeerReputation := ⟨50, 0, 0, 0, none, [], 0, 0, 0, none⟩

/-- Restrict a number to bounds, unless they are crossed. -/
def clamp (lo hi x : ℚ) : ℚ := if lo ≤ hi then max lo (min hi x) else x

/-- The penalty for a slow response: at most 5 points. -/
def latencyPenalty (config : PeerScoringConfig) (responseTime : Duration) : ℚ :=
  min (((responseTime / 10 ^ 6 : ℕ) : ℚ) * config.latencyPenaltyFactor) 5

/-- Update response time metrics, of the last 100 responses. -/
def recordResponseTime (responseTime : Duration) (self : PeerReputation) : PeerReputation :=
  let times := self.responseTimes ++ [responseTime]
  let times := if 100 < times.length then times.tail else times
  { self with responseTimes := times, avgResponseTime := times.sum / times.length }

/-- Record a success. -/
def recordSuccess (config : PeerScoringConfig) (responseTime : Option Duration)
    (self : PeerReputation) : PeerReputation :=
  let self := { self with
    successfulInteractions := self.successfulInteractions + 1
    score := self.score + config.connectionSuccessBonus }
  match responseTime with
  | none => self
  | some rt =>
    let self := self.recordResponseTime rt
    { self with score := self.score - latencyPenalty config rt }

/-- Record a failure. -/
def recordFailure (config : PeerScoringConfig) (self : PeerReputation) : PeerReputation :=
  { self with
    failedInteractions := self.failedInteractions + 1
    score := self.score - config.connectionFailurePenalty }

/-- Record an interaction with this peer. -/
def recordInteraction (config : PeerScoringConfig) (success : Bool)
    (responseTime : Option Duration) (now : Instant) (self : PeerReputation) : PeerReputation :=
  let self := { self with
    totalInteractions := self.totalInteractions + 1
    lastInteraction := some now }
  let self := if success then self.recordSuccess config responseTime else self.recordFailure config
  { self with
    contentSuccessRate := (self.successfulInteractions : ℚ) / (self.totalInteractions : ℚ)
    score := clamp config.minScore config.maxScore self.score }

/-- Record misbehavior, with a floor at -100. -/
def recordMisbehavior (severity : ℚ) (now : Instant) (self : PeerReputation) : PeerReputation :=
  { self with
    misbehaviorCount := self.misbehaviorCount + 1
    lastMisbehavior := some now
    score := max (self.score - severity * 10) (-100) }

/-- The decay for the whole seconds since an instant. -/
def decayFor (config : PeerScoringConfig) (last now : Instant) : ℚ :=
  config.scoreDecayRate * (((last.elapsed now / 10 ^ 9 : ℕ) : ℚ) / 3600)

/-- Apply time-based decay to reputation. -/
def applyDecay (config : PeerScoringConfig) (now : Instant) (self : PeerReputation) :
    PeerReputation :=
  match self.lastInteraction with
  | none => self
  | some last =>
    { self with score := max (self.score - decayFor config last now) config.minScore }

end PeerReputation

/-! ## Histories -/

/-- A call on the reputation of a peer. -/
inductive PeerReputationStep
  | interaction (success : Bool) (responseTime : Option Duration) (now : Instant)
  | misbehavior (severity : ℚ) (now : Instant)
  | decay (now : Instant)

/-- A reputation, and the score it had when the last call other than decay had returned. -/
structure ReputationHistory where
  reputation : PeerReputation
  idleScore : ℚ

namespace ReputationHistory

variable (config : PeerScoringConfig)

/-- A new peer. -/
def start : ReputationHistory := ⟨.new, PeerReputation.new.score⟩

/-- A history after a call that ends an idle period. -/
def active (reputation : PeerReputation) : ReputationHistory := ⟨reputation, reputation.score⟩

/-- Make a call. -/
def apply (s : ReputationHistory) : PeerReputationStep → ReputationHistory
  | .interaction success responseTime now =>
    active (s.reputation.recordInteraction config success responseTime now)
  | .misbehavior severity now => active (s.reputation.recordMisbehavior severity now)
  | .decay now => { s with reputation := s.reputation.applyDecay config now }

/-- The reputation as it was when the peer became idle. -/
def idle (s : ReputationHistory) : PeerReputation := { s.reputation with score := s.idleScore }

/-- Every interaction was a success or a failure, and the score is within the bounds. -/
structure Sound (s : ReputationHistory) : Prop where
  counts : s.reputation.successfulInteractions + s.reputation.failedInteractions =
    s.reputation.totalInteractions
  min_le : config.minScore ≤ s.reputation.score
  le_max : s.reputation.score ≤ config.maxScore

/-- The score changes in the right direction: misbehavior and failures do not raise it, and decay
leads where a single call leads from the beginning of the idle period. -/
def Directed (s : ReputationHistory) : PeerReputationStep → Prop
  | .interaction success responseTime now => success = false →
    (s.apply config (.interaction success responseTime now)).reputation.score ≤ s.reputation.score
  | .misbehavior severity now => 0 ≤ severity →
    (s.apply config (.misbehavior severity now)).reputation.score ≤ s.reputation.score
  | .decay now =>
    (s.apply config (.decay now)).reputation.score = (s.idle.applyDecay config now).score

/-- The call changes the score in the right direction, and keeps it within the bounds. -/
def Fair (s : ReputationHistory) (step : PeerReputationStep) : Prop :=
  s.Directed config step ∧ Sound config (s.apply config step)

/-- The condition of a step. The penalty of a failure is not negative, or the score is the maximum.
Misbehavior ends within the bounds, and the score is not below the floor of misbehavior when its
severity is not negative. Decay ends below the maximum, and it is the first one of its idle period
that has an effect, or it ends at the minimum in both ways of counting. -/
def Tame (s : ReputationHistory) : PeerReputationStep → Prop
  | .interaction success _ _ => success = false →
    0 ≤ config.connectionFailurePenalty ∨ s.reputation.score = config.maxScore
  | .misbehavior severity _ =>
    (config.minScore ≤ -100 ∨ config.minScore ≤ s.reputation.score - severity * 10) ∧
      s.reputation.score - severity * 10 ≤ config.maxScore ∧
      (0 ≤ severity → -100 ≤ s.reputation.score)
  | .decay now => ∀ last, s.reputation.lastInteraction = some last →
    s.reputation.score - PeerReputation.decayFor config last now ≤ config.maxScore ∧
      (s.reputation.score = s.idleScore ∨
        s.reputation.score - PeerReputation.decayFor config last now ≤ config.minScore ∧
          s.idleScore - PeerReputation.decayFor config last now ≤ config.minScore)

end ReputationHistory

/-! ## Scores after a call -/

namespace PeerReputation

variable {config : PeerScoringConfig} {self : PeerReputation}

/-- Inside the bounds, a clamped number is. -/
lemma clamp_mem {lo hi : ℚ} (h : lo ≤ hi) (x : ℚ) : lo ≤ clamp lo hi x ∧ clamp lo hi x ≤ hi := by
  rw [clamp, if_pos h]
  exact ⟨le_max_left _ _, max_le h (min_le_left _ _)⟩

/-- Taking a number off and clamping does not raise a number within the bounds iff the number is not
negative, or nothing can be raised. -/
lemma clamp_sub_le_iff {lo hi x : ℚ} (hlo : lo ≤ x) (hhi : x ≤ hi) (penalty : ℚ) :
    clamp lo hi (x - penalty) ≤ x ↔ 0 ≤ penalty ∨ x = hi := by
  rw [clamp, if_pos (hlo.trans hhi), max_le_iff, and_iff_right hlo, min_le_iff, sub_le_self_iff,
    or_comm]
  exact or_congr_right ⟨fun h => le_antisymm hhi h, fun h => h.ge⟩

/-- An interaction is counted once, and so is its outcome. -/
lemma counts_recordInteraction (success : Bool) (responseTime : Option Duration) (now : Instant)
    (h : self.successfulInteractions + self.failedInteractions = self.totalInteractions) :
    (self.recordInteraction config success responseTime now).successfulInteractions +
        (self.recordInteraction config success responseTime now).failedInteractions =
      (self.recordInteraction config success responseTime now).totalInteractions := by
  cases success with
  | false => simp only [recordInteraction, recordFailure, ← h, Bool.false_eq_true, if_false,
      Nat.add_assoc]
  | true =>
    cases responseTime <;>
      simp only [recordInteraction, recordSuccess, recordResponseTime, ← h, if_true] <;> omega

/-- A failure takes the penalty off. -/
lemma score_recordInteraction_false (responseTime : Option Duration) (now : Instant) :
    (self.recordInteraction config false responseTime now).score =
      clamp config.minScore config.maxScore (self.score - config.connectionFailurePenalty) := rfl

/-- Every interaction ends with a clamped score. -/
lemma score_recordInteraction_mem (h : config.minScore ≤ config.maxScore) (success : Bool)
    (responseTime : Option Duration) (now : Instant) :
    config.minScore ≤ (self.recordInteraction config success responseTime now).score ∧
      (self.recordInteraction config success responseTime now).score ≤ config.maxScore :=
  clamp_mem h _

/-- Decay changes nothing but the score. -/
lemma applyDecay_eq (now : Instant) :
    self.applyDecay config now =
      { self with score := (self.applyDecay config now).score } := by
  unfold applyDecay
  split <;> rfl

/-- Before the first interaction there is no decay. -/
lemma applyDecay_of_none (h : self.lastInteraction = none) (now : Instant) :
    self.applyDecay config now = self := by
  simp only [applyDecay, h]

end PeerReputation

namespace ReputationHistory

open PeerReputation

variable {config : PeerScoringConfig} {s : ReputationHistory}

lemma score_apply_decay {last : Instant} (h : s.reputation.lastInteraction = some last)
    (now : Instant) :
    (s.apply config (.decay now)).reputation.score =
      max (s.reputation.score - decayFor config last now) config.minScore := by
  simp only [apply, applyDecay, h]

lemma score_idle_applyDecay {last : Instant} (h : s.reputation.lastInteraction = some last)
    (now : Instant) :
    (s.idle.applyDecay config now).score =
      max (s.idleScore - decayFor config last now) config.minScore := by
  simp only [idle, applyDecay, h]

/-! ## One step -/

lemma fair_interaction_iff (h : Sound config s) (success : Bool) (responseTime : Option Duration)
    (now : Instant) :
    Fair config s (.interaction success responseTime now) ↔
      Tame config s (.interaction success responseTime now) := by
  obtain ⟨hmin, hmax⟩ := s.reputation.score_recordInteraction_mem
    (h.min_le.trans h.le_max) success responseTime now
  have hsound : Sound config (s.apply config (.interaction success responseTime now)) :=
    ⟨counts_recordInteraction success responseTime now h.counts, hmin, hmax⟩
  rw [Fair, and_iff_left hsound, Directed, Tame]
  refine forall_congr' fun hfailed => ?_
  subst hfailed
  rw [apply, active, score_recordInteraction_false]
  exact clamp_sub_le_iff h.min_le h.le_max _

lemma fair_misbehavior_iff (h : Sound config s) (hmax : -100 ≤ config.maxScore) (severity : ℚ)
    (now : Instant) :
    Fair config s (.misbehavior severity now) ↔ Tame config s (.misbehavior severity now) := by
  have hscore : (s.apply config (.misbehavior severity now)).reputation.score =
    max (s.reputation.score - severity * 10) (-100) := rfl
  have hsound : Sound config (s.apply config (.misbehavior severity now)) ↔
      (config.minScore ≤ -100 ∨ config.minScore ≤ s.reputation.score - severity * 10) ∧
        s.reputation.score - severity * 10 ≤ config.maxScore := by
    rw [← or_comm, ← le_max_iff, ← and_iff_left (a := _ ≤ config.maxScore) hmax, ← max_le_iff,
      ← hscore]
    exact ⟨fun h' => ⟨h'.min_le, h'.le_max⟩, fun h' => ⟨h.counts, h'.1, h'.2⟩⟩
  have hdirected : Directed config s (.misbehavior severity now) ↔
      (0 ≤ severity → -100 ≤ s.reputation.score) := by
    refine forall_congr' fun hseverity => ?_
    rw [hscore, max_le_iff]
    exact and_iff_right (by linarith)
  rw [Fair, hsound, hdirected, Tame, and_comm, and_assoc]

/-- Before the first interaction the score is the one of the idle period. -/
def Untouched (s : ReputationHistory) : Prop :=
  s.reputation.lastInteraction = none → s.reputation.score = s.idleScore

/-- Two maxima with the same floor are the same iff the values are, or neither is above the
floor. -/
lemma max_eq_max_iff {a b floor : ℚ} :
    max a floor = max b floor ↔ a = b ∨ a ≤ floor ∧ b ≤ floor := by
  constructor
  · intro h
    rcases le_total a floor with ha | ha <;> rcases le_total b floor with hb | hb
    · exact .inr ⟨ha, hb⟩
    · rw [max_eq_right ha, max_eq_left hb] at h
      exact .inr ⟨ha, h.ge⟩
    · rw [max_eq_left ha, max_eq_right hb] at h
      exact .inr ⟨h.le, hb⟩
    · rw [max_eq_left ha, max_eq_left hb] at h
      exact .inl h
  · rintro (rfl | ⟨ha, hb⟩)
    · rfl
    · rw [max_eq_right ha, max_eq_right hb]

lemma fair_decay_iff (h : Sound config s) (huntouched : Untouched s) (now : Instant) :
    Fair config s (.decay now) ↔ Tame config s (.decay now) := by
  cases hlast : s.reputation.lastInteraction with
  | none =>
    -- nothing happens
    have happly : s.apply config (.decay now) = s := by
      rw [apply, applyDecay_of_none hlast]
    have hdirected : Directed config s (.decay now) := by
      have hnone : s.idle.lastInteraction = none := hlast
      have hidle : s.idle.applyDecay config now = s.idle := applyDecay_of_none hnone now
      rw [Directed, happly, hidle]
      exact huntouched hlast
    rw [Fair, happly, Tame, hlast]
    exact ⟨fun _ => nofun, fun _ => ⟨hdirected, h⟩⟩
  | some last =>
    have hscore : (s.apply config (.decay now)).reputation.score =
        max (s.reputation.score - decayFor config last now) config.minScore :=
      score_apply_decay hlast now
    have hidle : (s.idle.applyDecay config now).score =
        max (s.idleScore - decayFor config last now) config.minScore :=
      score_idle_applyDecay hlast now
    have hcounts : (s.apply config (.decay now)).reputation.successfulInteractions +
        (s.apply config (.decay now)).reputation.failedInteractions =
          (s.apply config (.decay now)).reputation.totalInteractions := by
      rw [apply, applyDecay_eq]
      exact h.counts
    have hsound : Sound config (s.apply config (.decay now)) ↔
        s.reputation.score - decayFor config last now ≤ config.maxScore := by
      have hle : (s.apply config (.decay now)).reputation.score ≤ config.maxScore ↔
          s.reputation.score - decayFor config last now ≤ config.maxScore := by
        rw [hscore, max_le_iff, and_iff_left (h.min_le.trans h.le_max)]
      rw [← hle]
      exact ⟨fun h' => h'.le_max, fun h' => ⟨hcounts, by rw [hscore]; exact le_max_right _ _, h'⟩⟩
    have hdirected : Directed config s (.decay now) ↔
        s.reputation.score = s.idleScore ∨
          s.reputation.score - decayFor config last now ≤ config.minScore ∧
            s.idleScore - decayFor config last now ≤ config.minScore := by
      rw [Directed, hscore, hidle, max_eq_max_iff, sub_left_inj]
    rw [Fair, hsound, hdirected, Tame, hlast, and_comm]
    exact ⟨fun h' last' heq => Option.some.inj heq ▸ h', fun h' => h' last rfl⟩

/-- A step from a sound history is fair iff it is tame. -/
lemma fair_iff_tame (h : Sound config s) (huntouched : Untouched s)
    (hmax : -100 ≤ config.maxScore) (step : PeerReputationStep) :
    Fair config s step ↔ Tame config s step := by
  cases step with
  | interaction success responseTime now => exact fair_interaction_iff h success responseTime now
  | misbehavior severity now => exact fair_misbehavior_iff h hmax severity now
  | decay now => exact fair_decay_iff h huntouched now

lemma untouched_apply (huntouched : Untouched s) (step : PeerReputationStep) :
    Untouched (s.apply config step) := by
  cases step with
  | interaction success responseTime now => exact fun _ => rfl
  | misbehavior severity now => exact fun _ => rfl
  | decay now =>
    intro hlast
    have hbefore : s.reputation.lastInteraction = none := by
      rwa [apply, applyDecay_eq] at hlast
    rw [apply, applyDecay_of_none hbefore]
    exact huntouched hbefore

/-! ## Runs -/

/-- In a run from a new peer, the score starts within the bounds and every step is fair, iff the
neutral score is within the bounds and every step is tame. -/
theorem fairRun_iff (config : PeerScoringConfig) (steps : List PeerReputationStep) :
    Sound config start ∧ Runs.Steps (apply config) (Fair config) start steps ↔
      (config.minScore ≤ 50 ∧ 50 ≤ config.maxScore) ∧
        Runs.Steps (apply config) (Tame config) start steps := by
  have hstart : Sound config start ↔ config.minScore ≤ 50 ∧ 50 ≤ config.maxScore :=
    ⟨fun h => ⟨h.min_le, h.le_max⟩, fun h => ⟨rfl, h.1, h.2⟩⟩
  rw [hstart]
  refine and_congr_right fun hbounds => ?_
  have hmax : -100 ≤ config.maxScore := by linarith [hbounds.2]
  refine Runs.steps_iff_steps (fun s => Sound config s ∧ Untouched s)
    (fun s step h => fair_iff_tame h.1 h.2 hmax step) (fun s step h htame => ?_)
    ⟨hstart.mpr hbounds, fun _ => rfl⟩
  exact ⟨((fair_iff_tame h.1 h.2 hmax step).mpr htame).2, untouched_apply h.2 step⟩

/-! ## Runs that are not fair -/

/-- A successful interaction at an instant without a response time. -/
def sampleInteraction (now : Instant) : PeerReputationStep := .interaction true none now

/-- Misbehavior of severity 20 leads from 50 to the floor of -100, below the minimum of -50; after
it a failed interaction raises the score; and of two decays ten hours after the last interaction the
second one counts the time again. -/
theorem not_fair_sample :
    ¬Fair .default start (.misbehavior 20 0) ∧
      ¬Fair .default (start.apply .default (.misbehavior 20 0)) (.interaction false none 0) ∧
      ¬Fair .default (Runs.run (apply .default) start
        [sampleInteraction 0, .decay (36000 * 10 ^ 9)]) (.decay (36000 * 10 ^ 9)) := by
  refine ⟨fun h => ?_, fun h => ?_, fun h => ?_⟩
  · exact absurd h.2.min_le (by decide +kernel)
  · exact absurd (h.1 rfl) (by decide +kernel)
  · exact absurd h.1 (by unfold Directed; decide +kernel)

end ReputationHistory

end QuDAG.Network
