import QuDAG.Protocol.Handshake

/-!
# Deadlines and overflow

A received message is compared with the clock after its timestamp was added to its time to live or
to the skew. These sums are of 64-bit numbers that the peer chooses, and may overflow. A build with
overflow checks panics then, and one without them compares with what is left of the sum.

## Main definitions

* `Message.expiredExact`, `Message.validateExact`, `timestampExact` — the comparisons over unbounded
  integers.

## Main results

* `Message.isExpired_iff`, `Message.validate_iff`, `validateTimestamp_iff` — when the code gives
  their answers in every build.
* `deadlines_exact_iff` — the three together.
-/

namespace QuDAG.Protocol

open RustStd

variable {m : Message} {config : HandshakeConfig} {now expiryNow : UInt64}

/-! ## Comparisons over unbounded integers -/

namespace Message

/-- The time to live of the message is over. -/
def expiredExact (now : UInt64) (m : Message) : Bool :=
  m.ttl.any fun ttl => decide (m.timestamp.toNat + ttl.toNat < now.toNat)

/-- The deadline of the message fits into 64 bits. -/
def DeadlineFits (m : Message) : Prop :=
  ∀ ttl ∈ m.ttl, m.timestamp.toNat + ttl.toNat < 2 ^ 64

/-- The validation of a message. -/
def validateExact (expiryNow now : UInt64) (m : Message) : Except MessageError Unit :=
  if m.expiredExact expiryNow then .error .messageExpired
  else if 1024 * 1024 < m.payload.length then .error (.messageTooLarge m.payload.length)
  else if now.toNat + 5 * 60 * 1000 < m.timestamp.toNat then .error .invalidTimestamp
  else .ok ()

end Message

/-- The check of the time of a handshake message. -/
def timestampExact (config : HandshakeConfig) (now : UInt64) (m : Message) :
    Except HandshakeError Unit :=
  if m.timestamp.toNat + config.maxTimestampSkew.toNat < now.toNat ∨
      now.toNat + config.maxTimestampSkew.toNat < m.timestamp.toNat then
    .error (.replayAttack m.timestamp)
  else .ok ()

/-- A result that is not a panic. -/
def answer {ε α : Type} : Except ε α → Outcome ε α
  | .ok a => .ok a
  | .error e => .err e

/-- A panic is no answer. -/
lemma panic_ne_answer {ε α : Type} (r : Except ε α) : Outcome.panic ≠ answer r := by
  cases r with
  | ok a => exact nofun
  | error e => exact nofun

/-! ## When the code agrees -/

namespace Message

/-- Expiry is decided as over unbounded integers if the deadline fits, and panics otherwise. -/
lemma isExpired_cases (now : UInt64) (m : Message) :
    (m.DeadlineFits ∧ ∀ checks, m.isExpired checks now = some (m.expiredExact now)) ∨
      ¬ m.DeadlineFits ∧ m.isExpired true now = none := by
  unfold isExpired expiredExact DeadlineFits
  cases m.ttl with
  | none => exact .inl ⟨nofun, fun _ => rfl⟩
  | some ttl =>
    simp only [Option.mem_some_iff, forall_eq', Option.any_some]
    rcases addU64_cases m.timestamp ttl with ⟨hlt, deadline, hsum, hexact⟩ | ⟨hge, hpanic⟩
    · refine .inl ⟨hlt, fun checks => ?_⟩
      rw [hsum checks, Option.map_some, ← hexact]
      rfl
    · exact .inr ⟨hge, by rw [hpanic, Option.map_none]⟩

/-- **Expiry** is decided as over unbounded integers iff the deadline fits. -/
lemma isExpired_iff :
    (∀ checks, m.isExpired checks now = some (m.expiredExact now)) ↔ m.DeadlineFits := by
  rcases isExpired_cases now m with ⟨hfits, hexact⟩ | ⟨hnot, hpanic⟩
  · exact iff_of_true hexact hfits
  · refine iff_of_false (fun h => ?_) hnot
    have htrue := h true
    rw [hpanic] at htrue
    cases htrue

/-- **Validation** gives the exact answer iff the deadline fits and, where the timestamp is looked
at, so does the latest one that is accepted. -/
lemma validate_iff :
    (∀ checks, m.validate checks expiryNow now = answer (m.validateExact expiryNow now)) ↔
      m.DeadlineFits ∧ (m.expiredExact expiryNow = false → m.payload.length ≤ 1024 * 1024 →
        now.toNat + 5 * 60 * 1000 < 2 ^ 64) := by
  unfold validate validateExact
  rcases isExpired_cases expiryNow m with ⟨hfits, hexact⟩ | ⟨hnot, hpanic⟩
  · simp only [hexact]
    cases m.expiredExact expiryNow with
    | true => exact iff_of_true (fun _ => rfl) ⟨hfits, nofun⟩
    | false =>
      by_cases hlarge : 1024 * 1024 < m.payload.length
      · refine iff_of_true (fun _ => ?_) ⟨hfits, fun _ hle => absurd hlarge (Nat.not_lt.mpr hle)⟩
        rw [if_pos hlarge, if_neg (by decide), if_pos hlarge]
        rfl
      · rcases addU64_cases now (5 * 60 * 1000) with ⟨hlt, latest, hsum, hlatest⟩ | ⟨hge, hpanic⟩
        · refine iff_of_true (fun checks => ?_) ⟨hfits, fun _ _ => hlt⟩
          have hcompare : latest < m.timestamp ↔
              now.toNat + 5 * 60 * 1000 < m.timestamp.toNat := by
            rw [UInt64.lt_iff_toNat_lt, hlatest]
            rfl
          simp only [hsum, if_neg hlarge, hcompare, Bool.false_eq_true, if_false]
          split_ifs <;> rfl
        · refine iff_of_false (fun h => ?_) fun h => hge (h.2 rfl (Nat.not_lt.mp hlarge))
          have htrue := h true
          rw [if_neg hlarge, hpanic] at htrue
          exact panic_ne_answer _ htrue
  · refine iff_of_false (fun h => ?_) fun h => hnot h.1
    have htrue := h true
    rw [hpanic] at htrue
    exact panic_ne_answer _ htrue

end Message

/-- **The check of the time** gives the exact answer iff the two sums that it makes fit. -/
lemma validateTimestamp_iff :
    (∀ checks, validateTimestamp checks config now m = answer (timestampExact config now m)) ↔
      m.timestamp.toNat + config.maxTimestampSkew.toNat < 2 ^ 64 ∧
        (now.toNat ≤ m.timestamp.toNat + config.maxTimestampSkew.toNat →
          now.toNat + config.maxTimestampSkew.toNat < 2 ^ 64) := by
  unfold validateTimestamp timestampExact
  dsimp only
  rcases addU64_cases m.timestamp config.maxTimestampSkew with
    ⟨hlt, latest, hsum, hlatest⟩ | ⟨hge, hpanic⟩
  · simp only [hsum]
    have hlate : latest < now ↔
        m.timestamp.toNat + config.maxTimestampSkew.toNat < now.toNat := by
      rw [UInt64.lt_iff_toNat_lt, hlatest]
    by_cases hold : m.timestamp.toNat + config.maxTimestampSkew.toNat < now.toNat
    · refine iff_of_true (fun _ => ?_) ⟨hlt, fun hle => absurd hold (Nat.not_lt.mpr hle)⟩
      rw [if_pos (hlate.mpr hold), if_pos (.inl hold)]
      rfl
    · simp only [if_neg fun h => hold (hlate.mp h), hold, false_or]
      rcases addU64_cases now config.maxTimestampSkew with
        ⟨hlt', horizon, hsum', hhorizon⟩ | ⟨hge', hpanic'⟩
      · refine iff_of_true (fun checks => ?_) ⟨hlt, fun _ => hlt'⟩
        simp only [hsum', UInt64.lt_iff_toNat_lt, hhorizon]
        split_ifs <;> rfl
      · refine iff_of_false (fun h => ?_) fun h => hge' (h.2 (Nat.not_lt.mp hold))
        have htrue := h true
        rw [hpanic'] at htrue
        exact panic_ne_answer _ htrue
  · refine iff_of_false (fun h => ?_) fun h => hge h.1
    have htrue := h true
    rw [hpanic] at htrue
    exact panic_ne_answer _ htrue

/-- **The three checks** answer as over unbounded integers, in builds with and without overflow
checks, iff every sum that they make fits into 64 bits. -/
theorem deadlines_exact_iff (m : Message) (config : HandshakeConfig) (expiryNow now : UInt64) :
    ((∀ checks, m.isExpired checks now = some (m.expiredExact now)) ↔
      ∀ ttl ∈ m.ttl, m.timestamp.toNat + ttl.toNat < 2 ^ 64) ∧
    ((∀ checks, m.validate checks expiryNow now = answer (m.validateExact expiryNow now)) ↔
      (∀ ttl ∈ m.ttl, m.timestamp.toNat + ttl.toNat < 2 ^ 64) ∧
        (m.expiredExact expiryNow = false → m.payload.length ≤ 1024 * 1024 →
          now.toNat + 5 * 60 * 1000 < 2 ^ 64)) ∧
    ((∀ checks, validateTimestamp checks config now m = answer (timestampExact config now m)) ↔
      m.timestamp.toNat + config.maxTimestampSkew.toNat < 2 ^ 64 ∧
        (now.toNat ≤ m.timestamp.toNat + config.maxTimestampSkew.toNat →
          now.toNat + config.maxTimestampSkew.toNat < 2 ^ 64)) :=
  ⟨Message.isExpired_iff, Message.validate_iff, validateTimestamp_iff⟩

/-- A message that a peer can send: the latest timestamp, and a time to live. -/
def latestMessage : Message :=
  { Message.new (.handshake .init) [] .nil 0xFFFFFFFFFFFFFFFF with
    ttl := some 1000 }

/-- The three checks of this message panic in a build with overflow checks, and a build without
them finds it expired, although its deadline lies ahead. -/
theorem not_deadlines_exact :
    (latestMessage.isExpired true 1000 = none ∧
      latestMessage.validate true 1000 1000 = .panic ∧
      validateTimestamp true .default 1000 latestMessage = .panic) ∧
    latestMessage.isExpired false 1000 = some true ∧ latestMessage.expiredExact 1000 = false := by
  decide +kernel

end QuDAG.Protocol
