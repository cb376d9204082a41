import Mathlib.Tactic.Ring
import QuDAG.Dag.Rounds
import QuDAG.Lib.Outcome

/-!
# The distance of a participant (`query_sample` in `consensus.rs`)

A sample takes the participants whose ids are closest to the id of the vertex. The distance is the
sum of the squared differences of the bytes at the positions that both ids have. A difference wraps
around where the byte of the participant is larger; its square is right without overflow checks, and
overflows otherwise.

## Main definitions

* `QRAvalanche.checkedDistance` — the distance, in a build that checks for overflow or does not.
* `QRAvalanche.exactDistance` — the distance over unbounded numbers.
* `QRAvalanche.DistanceExact` — the distance is exact and symmetric, and nothing overflows.

## Main results

* `QRAvalanche.distanceExact_iff` — when it is.
-/

namespace QuDAG

open RustStd

namespace QRAvalanche

/-- The square of a 64-bit number, unless the build panics. -/
def squareU64 (checks : Bool) (a : UInt64) : Option UInt64 :=
  if checks = true ∧ 2 ^ 64 ≤ a.toNat * a.toNat then none else some (a * a)

/-- The distance of the bytes that both ids have, on top of a distance so far. -/
def distanceFrom (checks : Bool) : List UInt8 → List UInt8 → UInt64 → Option UInt64
  | byte :: vertexBytes, pByte :: pBytes, distance => do
    let squared ← squareU64 checks (byte.toUInt64 - pByte.toUInt64)
    let distance ← addU64 checks distance squared
    distanceFrom checks vertexBytes pBytes distance
  | _, _, distance => some distance

/-- The distance of a participant from a vertex, unless the build panics. -/
def checkedDistance (checks : Bool) (vertexId participantId : VertexId) : Option UInt64 :=
  distanceFrom checks vertexId.asBytes participantId.asBytes 0

/-- The sum of the squared differences of two byte strings. -/
def squaredDifferences : List UInt8 → List UInt8 → ℕ
  | a :: as, b :: bs => ((a.toNat : ℤ) - b.toNat).natAbs ^ 2 + squaredDifferences as bs
  | _, _ => 0

/-- The distance over unbounded numbers. -/
def exactDistance (vertexId participantId : VertexId) : ℕ :=
  squaredDifferences vertexId.asBytes participantId.asBytes

/-- The distance is exact and symmetric, and no operation overflows. -/
structure DistanceExact (vertexId participantId : VertexId) : Prop where
  /-- The value that is computed. -/
  exact : (distance vertexId participantId).toNat = exactDistance vertexId participantId
  /-- The same value the other way round. -/
  symmetric : distance vertexId participantId = distance participantId vertexId
  /-- A build that checks for overflow does not panic. -/
  fits : checkedDistance true vertexId participantId ≠ none

/-- At no position that both have is the byte of the first smaller. -/
def Dominates (as bs : List UInt8) : Prop := ∀ e ∈ as.zip bs, e.2.toNat ≤ e.1.toNat

/-! ## One position -/

/-- The square of a difference of bytes is right without overflow checks, although the difference
may have wrapped around. -/
lemma squareU64_false (a b : UInt8) :
    ∃ c, squareU64 false (a.toUInt64 - b.toUInt64) = some c ∧
      c.toNat = ((a.toNat : ℤ) - b.toNat).natAbs ^ 2 := by
  refine ⟨_, if_neg (by simp), ?_⟩
  have ha := a.toNat_lt
  have hb := b.toNat_lt
  rw [UInt64.toNat_mul, UInt64.toNat_sub, UInt8.toNat_toUInt64, UInt8.toNat_toUInt64]
  have hsmall {d : ℕ} (hd : d < 256) : d * d % 2 ^ 64 = d ^ 2 := by
    have hlt : d * d < 256 * 256 := Nat.mul_lt_mul'' hd hd
    rw [sq, Nat.mod_eq_of_lt (by omega)]
  rcases Nat.lt_or_ge a.toNat b.toNat with hlt | hge
  · obtain ⟨d, hd⟩ := Nat.exists_eq_add_of_lt hlt
    have hnatAbs : ((a.toNat : ℤ) - b.toNat).natAbs = d + 1 := by omega
    have hwrap : (2 ^ 64 - b.toNat + a.toNat) % 2 ^ 64 = 2 ^ 64 - (d + 1) := by omega
    -- The square of what is left of the difference is the square of the difference.
    have hsquare : (2 ^ 64 - (d + 1)) * (2 ^ 64 - (d + 1)) =
        (d + 1) * (d + 1) + (2 ^ 64 - 2 * (d + 1)) * 2 ^ 64 := by
      obtain ⟨e, he⟩ : ∃ e, 2 ^ 64 = e + 2 * (d + 1) := ⟨2 ^ 64 - 2 * (d + 1), by omega⟩
      rw [he, show e + 2 * (d + 1) - (d + 1) = e + (d + 1) by omega,
        show e + 2 * (d + 1) - 2 * (d + 1) = e by omega]
      ring
    rw [hnatAbs, hwrap, hsquare, Nat.add_mul_mod_self_right, hsmall (by omega)]
  · obtain ⟨d, hd⟩ := Nat.exists_eq_add_of_le hge
    have hnatAbs : ((a.toNat : ℤ) - b.toNat).natAbs = d := by omega
    have hwrap : (2 ^ 64 - b.toNat + a.toNat) % 2 ^ 64 = d := by omega
    rw [hnatAbs, hwrap, hsmall (by omega)]

/-- With overflow checks the square of a negative difference panics. -/
lemma squareU64_true (a b : UInt8) :
    squareU64 true (a.toUInt64 - b.toUInt64) =
      if b.toNat ≤ a.toNat then squareU64 false (a.toUInt64 - b.toUInt64) else none := by
  have ha := a.toNat_lt
  have hb := b.toNat_lt
  have hsub : (a.toUInt64 - b.toUInt64).toNat = (2 ^ 64 - b.toNat + a.toNat) % 2 ^ 64 := by
    rw [UInt64.toNat_sub, UInt8.toNat_toUInt64, UInt8.toNat_toUInt64]
  unfold squareU64
  rw [hsub]
  rcases Nat.lt_or_ge a.toNat b.toNat with hlt | hge
  · have hlarge : 2 ^ 32 ≤ (2 ^ 64 - b.toNat + a.toNat) % 2 ^ 64 := by omega
    have hsquare := Nat.mul_le_mul hlarge hlarge
    rw [if_pos ⟨rfl, by omega⟩, if_neg (Nat.not_le.mpr hlt)]
  · have hsmall : (2 ^ 64 - b.toNat + a.toNat) % 2 ^ 64 < 256 := by omega
    have hsquare := Nat.mul_lt_mul'' hsmall hsmall
    rw [if_neg (fun h => by omega), if_pos hge, if_neg (fun h => by simp at h)]

/-! ## All positions -/

/-- Without overflow checks, what is left of the exact sum is computed. -/
lemma distanceFrom_false : ∀ (as bs : List UInt8) (distance : UInt64),
    ∃ d, distanceFrom false as bs distance = some d ∧
      d.toNat = (distance.toNat + squaredDifferences as bs) % 2 ^ 64
  | [], _, distance => ⟨distance, rfl, (Nat.mod_eq_of_lt distance.toNat_lt).symm⟩
  | _ :: _, [], distance => ⟨distance, rfl, (Nat.mod_eq_of_lt distance.toNat_lt).symm⟩
  | a :: as, b :: bs, distance => by
    obtain ⟨c, hc, hsquare⟩ := squareU64_false a b
    obtain ⟨d, hd, hvalue⟩ := distanceFrom_false as bs (distance + c)
    have hadd : addU64 false distance c = some (distance + c) := if_neg (by simp)
    refine ⟨d, ?_, ?_⟩
    · simp only [distanceFrom, hc, hadd, Option.bind_eq_bind, Option.bind_some, hd]
    · rw [hvalue, UInt64.toNat_add, hsquare, squaredDifferences, Nat.mod_add_mod, Nat.add_assoc]

/-- With overflow checks, the build panics iff a byte of the first string is smaller or the exact
sum does not fit. -/
lemma distanceFrom_true : ∀ (as bs : List UInt8) (distance : UInt64),
    distanceFrom true as bs distance ≠ none ↔
      Dominates as bs ∧ distance.toNat + squaredDifferences as bs < 2 ^ 64
  | [], bs, distance => by
    simpa [distanceFrom, Dominates, squaredDifferences] using distance.toNat_lt
  | a :: as, [], distance => by
    simpa [distanceFrom, Dominates, squaredDifferences] using distance.toNat_lt
  | a :: as, b :: bs, distance => by
    obtain ⟨c, hc, hsquare⟩ := squareU64_false a b
    have hdominates : Dominates (a :: as) (b :: bs) ↔ b.toNat ≤ a.toNat ∧ Dominates as bs := by
      simp [Dominates]
    rw [hdominates, squaredDifferences, ← hsquare, ← Nat.add_assoc]
    by_cases hle : b.toNat ≤ a.toNat
    · rcases Nat.lt_or_ge (distance.toNat + c.toNat) (2 ^ 64) with hfits | hover
      · have hadd : addU64 true distance c = some (distance + c) :=
          if_neg fun h => absurd h.2 (Nat.not_le.mpr hfits)
        have hvalue : (distance + c).toNat = distance.toNat + c.toNat := by
          rw [UInt64.toNat_add, Nat.mod_eq_of_lt hfits]
        simp only [distanceFrom, squareU64_true, if_pos hle, hc, hadd, Option.bind_eq_bind,
          Option.bind_some, distanceFrom_true as bs, hvalue]
        tauto
      · have hadd : addU64 true distance c = none := if_pos ⟨rfl, hover⟩
        simp only [distanceFrom, squareU64_true, if_pos hle, hc, hadd, Option.bind_eq_bind,
          Option.bind_some, Option.bind_none, ne_eq, not_true, false_iff, not_and, Nat.not_lt]
        omega
    · simp only [distanceFrom, squareU64_true, if_neg hle, Option.bind_eq_bind, Option.bind_none,
        ne_eq, not_true, false_iff]
      exact fun h => hle h.1.1

/-- The order of the two byte strings does not matter for the exact sum. -/
lemma squaredDifferences_comm : ∀ as bs : List UInt8,
    squaredDifferences as bs = squaredDifferences bs as
  | [], [] | [], _ :: _ | _ :: _, [] => rfl
  | a :: as, b :: bs => by
    have hcomm : ((a.toNat : ℤ) - b.toNat).natAbs = ((b.toNat : ℤ) - a.toNat).natAbs := by omega
    rw [squaredDifferences, squaredDifferences, squaredDifferences_comm as bs, hcomm]

/-- A build without overflow checks computes the distance of the model. -/
lemma checkedDistance_false (vertexId participantId : VertexId) :
    checkedDistance false vertexId participantId = some (distance vertexId participantId) := by
  have hfold : ∀ (as bs : List UInt8) (d : UInt64), distanceFrom false as bs d =
      some ((as.zip bs).foldl (fun distance bytes =>
        let difference := bytes.1.toUInt64 - bytes.2.toUInt64
        distance + difference * difference) d) := by
    intro as
    induction as with
    | nil => exact fun _ _ => rfl
    | cons a as ih =>
      rintro (_ | ⟨b, bs⟩) d
      · rfl
      · exact ih bs _
  exact hfold _ _ 0

/-- What is left of the exact distance is computed. -/
lemma toNat_distance (vertexId participantId : VertexId) :
    (distance vertexId participantId).toNat = exactDistance vertexId participantId % 2 ^ 64 := by
  obtain ⟨d, hd, hvalue⟩ := distanceFrom_false vertexId.asBytes participantId.asBytes 0
  rw [UInt64.toNat_zero, Nat.zero_add] at hvalue
  have hdistance := (checkedDistance_false vertexId participantId).symm.trans hd
  rw [Option.some.inj hdistance, hvalue]
  rfl

/-- The distance is symmetric. -/
lemma distance_comm (vertexId participantId : VertexId) :
    distance vertexId participantId = distance participantId vertexId := by
  rw [← UInt64.toNat_inj, toNat_distance, toNat_distance, exactDistance, exactDistance,
    squaredDifferences_comm]

/-- **The distance is exact without an overflow** iff no byte of the participant is larger than that
of the vertex at the same position, and the exact sum fits. -/
theorem distanceExact_iff (vertexId participantId : VertexId) :
    DistanceExact vertexId participantId ↔
      Dominates vertexId.asBytes participantId.asBytes ∧
        exactDistance vertexId participantId < 2 ^ 64 := by
  have hfits : checkedDistance true vertexId participantId ≠ none ↔ _ ∧ _ :=
    distanceFrom_true vertexId.asBytes participantId.asBytes 0
  rw [UInt64.toNat_zero, Nat.zero_add] at hfits
  refine ⟨fun h => hfits.mp h.fits, fun h => ⟨?_, distance_comm _ _, hfits.mpr h⟩⟩
  rw [toNat_distance, Nat.mod_eq_of_lt h.2]

/-- A participant with a larger byte overflows the square. -/
theorem not_distanceExact_larger :
    checkedDistance true (.fromBytes [1]) (.fromBytes [2]) = none ∧
      ¬ DistanceExact (.fromBytes [1]) (.fromBytes [2]) := by
  have hnone : checkedDistance true (.fromBytes [1]) (.fromBytes [2]) = none := by decide +kernel
  exact ⟨hnone, fun h => h.fits hnone⟩

end QRAvalanche

end QuDAG
