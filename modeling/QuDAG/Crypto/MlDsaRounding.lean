import QuDAG.Crypto.MlDsa
import QuDAG.Lib.Bytes

/-!
# Rounding, hints and reductions of ML-DSA (`ml_dsa/mod.rs`)

A coefficient is split into high and low bits. A hint lists the positions at which the high bits of
two polynomials differ, up to 55 of them, and using the hint changes the high bits there. The low
bits are never positive, so that a hint always lowers: it recovers the high bits exactly if they
differ by one, downwards, and not too often.

## Main definitions

* `power2round`, `decompose` — the two ways to split.
* `makeHint`, `useHint`.
* `montgomeryReduce`, `barrettReduce`.

## Main results

* `decompose_eq`, `power2round_eq` — what the parts are.
* `useHint_makeHint_iff` — when a hint recovers the high bits.
* `barrettReduce_spec`, `montgomeryReduce_spec` — what the reductions return.
-/

namespace QuDAG.Crypto.MlDsa

/-! ## The code -/

/-- Signature bound. -/
abbrev mlDsaOmega : ℕ := 55

/-- Dropped bits in t1. -/
abbrev mlDsaD : ℕ := 13

/-- The result of an operation on `i32`. -/
def i32 (x : ℤ) : Noted ℤ := Noted.signed 32 x

/-- Power-of-2 rounding for ML-DSA. -/
def power2round (a : Int32) : Noted (ℤ × ℤ) := do
  let a := a.toInt % mlDsaQ
  let a1 := (← i32 (a + 2 ^ (mlDsaD - 1))) / 2 ^ mlDsaD
  let a0 ← i32 (a - (← i32 (a1 * 2 ^ mlDsaD)))
  pure (a1, a0)

/-- Decompose polynomial coefficients for signature verification. -/
def decompose (a : Int32) : Noted (ℤ × ℤ) := do
  let a := a.toInt % mlDsaQ
  let a1 := (← i32 (a + 127)) / 2 ^ 7
  let a0 ← i32 (a - (← i32 (a1 * 128)))
  if 43 < a0 then do
    let a0 ← i32 (a0 - 128)
    pure (a1, a0)
  else pure (a1, a0)

/-- A position of two polynomials: it is noted in the hint if their high bits differ. -/
def makeHintStep (z r : Poly) (hint : List UInt8 × ℕ) (i : Fin mlDsaN) :
    Noted (List UInt8 × ℕ) := do
  let (h, cnt) := hint
  let (r1, _) ← decompose (r i)
  let (z1, _) ← decompose (z i)
  if r1 ≠ z1 ∧ cnt < mlDsaOmega then pure (h.set cnt (UInt8.ofNat i.val), cnt + 1)
  else pure (h, cnt)

/-- Make hint for signature verification. -/
def makeHint (z r : Poly) : Noted (List UInt8 × ℕ) :=
  (List.finRange mlDsaN).foldlM (makeHintStep z r) (List.replicate (mlDsaOmega + mlDsaK) 0, 0)

/-- Use hint during verification. -/
def useHint (hint : List UInt8) (hintLen : ℕ) (r : Poly) : Noted (Fin mlDsaN → ℤ) :=
  Noted.all fun i => do
    let (r1, r0) ← decompose (r i)
    if UInt8.ofNat i.val ∈ hint.take hintLen then
      if 0 < r0 then i32 (r1 + 1) else i32 (r1 - 1)
    else pure r1

/-- Montgomery reduction for NTT operations. The mask and the shift are a remainder and a
quotient. -/
def montgomeryReduce (a : ℤ) : Noted Int32 := do
  let t := (a * 58728449).bmod (2 ^ 64) % 2 ^ 32
  let d ← i64 (a - (t * mlDsaQ).bmod (2 ^ 64))
  asI32 (d / 2 ^ 32)

/-- The constant of the Barrett reduction. -/
abbrev barrettV : ℤ := (2 ^ 26 + mlDsaQ / 2) / mlDsaQ

/-- Barrett reduction. -/
def barrettReduce (a : Int32) : Noted Int32 := do
  let t := (← i64 ((← i64 (barrettV * a.toInt)) + 2 ^ 25)) / 2 ^ 26
  let product ← asI32 (← i64 (t * mlDsaQ))
  asI32 (a.toInt - product.toInt)

/-! ## High and low bits -/

/-- The residue of a coefficient. -/
def residue (a : Int32) : ℤ := a.toInt % mlDsaQ

/-- The high bits of a coefficient. -/
def highBits (a : Int32) : ℤ := (residue a + 127) / 128

/-- The low bits of a coefficient. -/
def lowBits (a : Int32) : ℤ := residue a - highBits a * 128

lemma residue_bounds (a : Int32) : 0 ≤ residue a ∧ residue a < 8380417 := Residue.emod a.toInt

lemma i32_eq_pure {x : ℤ} (hlow : -2 ^ 31 ≤ x) (hhigh : x < 2 ^ 31) : i32 x = pure x :=
  Noted.signed_eq_pure (by decide) hlow hhigh

/-- The low bits are not positive, and fewer than 128. -/
lemma lowBits_bounds (a : Int32) : -128 < lowBits a ∧ lowBits a ≤ 0 := by
  rw [lowBits, highBits]
  omega

lemma highBits_bounds (a : Int32) : 0 ≤ highBits a ∧ highBits a ≤ 65473 := by
  have hres := residue_bounds a
  rw [highBits]
  omega

/-- **What the parts are.** The branch for low bits over 43 is never taken. -/
theorem decompose_eq (a : Int32) : decompose a = pure (highBits a, lowBits a) := by
  have hres := residue_bounds a
  have hhigh := highBits_bounds a
  have hlow := lowBits_bounds a
  show (do
    let a1 := (← i32 (residue a + 127)) / 2 ^ 7
    let a0 ← i32 (residue a - (← i32 (a1 * 128)))
    if 43 < a0 then do
      let a0 ← i32 (a0 - 128)
      pure (a1, a0)
    else pure (a1, a0)) = pure (highBits a, lowBits a)
  rw [i32_eq_pure (by omega) (by omega), pure_bind]
  show (do
    let a0 ← i32 (residue a - (← i32 (highBits a * 128)))
    if 43 < a0 then do
      let a0 ← i32 (a0 - 128)
      pure (highBits a, a0)
    else pure (highBits a, a0)) = pure (highBits a, lowBits a)
  rw [i32_eq_pure (by omega) (by omega), pure_bind, i32_eq_pure (by omega) (by omega), pure_bind]
  show (if 43 < lowBits a then _ else pure (highBits a, lowBits a)) = _
  rw [if_neg (by omega)]

/-- The residue is the high part, times its power of two, and the low part, around zero. -/
theorem power2round_eq (a : Int32) :
    ∃ a1 a0 : ℤ, power2round a = pure (a1, a0) ∧ a1 * 2 ^ mlDsaD + a0 = residue a ∧
      -2 ^ (mlDsaD - 1) ≤ a0 ∧ a0 < 2 ^ (mlDsaD - 1) := by
  have hres := residue_bounds a
  refine ⟨(residue a + 4096) / 8192, residue a - (residue a + 4096) / 8192 * 8192, ?_, ?_, ?_, ?_⟩
  · show (do
      let a1 := (← i32 (residue a + 4096)) / 8192
      let a0 ← i32 (residue a - (← i32 (a1 * 8192)))
      pure (a1, a0)) = _
    rw [i32_eq_pure (by omega) (by omega), pure_bind]
    show (do
      let a0 ← i32 (residue a - (← i32 ((residue a + 4096) / 8192 * 8192)))
      pure ((residue a + 4096) / 8192, a0)) = _
    rw [i32_eq_pure (by omega) (by omega), pure_bind, i32_eq_pure (by omega) (by omega), pure_bind]
  all_goals norm_num [mlDsaD]
  all_goals omega

/-! ## Hints -/

/-- The position, as it stands in a hint. -/
def hintEntry (i : Fin mlDsaN) : UInt8 := UInt8.ofNat i.val

lemma hintEntry_injective : Function.Injective hintEntry := by
  intro i j h
  have hnat := congrArg UInt8.toNat h
  simp only [hintEntry, UInt8.toNat_ofNat'] at hnat
  rw [Nat.mod_eq_of_lt i.isLt, Nat.mod_eq_of_lt j.isLt] at hnat
  exact Fin.ext hnat

/-- The high bits of two polynomials differ at a position. -/
def Differ (z r : Poly) (i : Fin mlDsaN) : Prop := highBits (r i) ≠ highBits (z i)

instance (z r : Poly) (i : Fin mlDsaN) : Decidable (Differ z r i) :=
  inferInstanceAs (Decidable (_ ≠ _))

/-- The positions at which they differ. -/
def differing (z r : Poly) : List (Fin mlDsaN) :=
  (List.finRange mlDsaN).filter fun i => Differ z r i

lemma mem_differing {z r : Poly} {i : Fin mlDsaN} : i ∈ differing z r ↔ Differ z r i := by
  simp [differing]

/-- The hint lists these positions, in the order in which they were found. -/
structure Lists (hint : List UInt8 × ℕ) (positions : List (Fin mlDsaN)) : Prop where
  length : hint.1.length = mlDsaOmega + mlDsaK
  count : hint.2 = positions.length
  bound : positions.length ≤ mlDsaOmega
  entries : hint.1.take hint.2 = positions.map hintEntry

/-- One position of the loop. -/
lemma makeHintStep_spec (z r : Poly) {hint : List UInt8 × ℕ} {positions : List (Fin mlDsaN)}
    (h : Lists hint positions) (i : Fin mlDsaN) :
    ∃ hint', makeHintStep z r hint i = pure hint' ∧
      Lists hint' (if Differ z r i ∧ positions.length < mlDsaOmega then positions ++ [i]
        else positions) := by
  obtain ⟨h₁, cnt⟩ := hint
  obtain ⟨hlength, rfl, hbound, hentries⟩ := h
  simp only at hlength hentries
  rw [makeHintStep, decompose_eq, decompose_eq]
  simp only [pure_bind]
  by_cases hnew : Differ z r i ∧ positions.length < mlDsaOmega
  · rw [if_pos hnew]
    refine ⟨(h₁.set positions.length (hintEntry i), positions.length + 1),
      if_pos hnew, ⟨?_, ?_, ?_, ?_⟩⟩
    · rw [List.length_set, hlength]
    · rw [List.length_append, List.length_singleton]
    · rw [List.length_append, List.length_singleton]
      exact hnew.2
    · have hlt : positions.length < h₁.length := by
        rw [hlength]
        exact lt_of_lt_of_le hnew.2 (Nat.le_add_right _ _)
      rw [List.map_append, ← hentries, List.take_succ_eq_append_getElem (by simpa using hlt),
        List.take_set_of_le (le_refl _), List.getElem_set_self]
      rfl
  · rw [if_neg hnew]
    exact ⟨(h₁, positions.length), if_neg hnew, ⟨hlength, rfl, hbound, hentries⟩⟩

/-- The loop over some positions. -/
lemma foldlM_makeHintStep (z r : Poly) (is : List (Fin mlDsaN)) :
    ∀ {hint : List UInt8 × ℕ} {positions : List (Fin mlDsaN)}, Lists hint positions →
      ∃ hint', is.foldlM (makeHintStep z r) hint = pure hint' ∧
        Lists hint' ((positions ++ is.filter fun i => Differ z r i).take mlDsaOmega) := by
  induction is with
  | nil =>
    intro hint positions h
    refine ⟨hint, rfl, ?_⟩
    rwa [List.filter_nil, List.append_nil, List.take_of_length_le h.bound]
  | cons i is ih =>
    intro hint positions h
    obtain ⟨next, hstep, hnext⟩ := makeHintStep_spec z r h i
    obtain ⟨hint', hfold, hlists⟩ := ih hnext
    refine ⟨hint', by rw [List.foldlM_cons, hstep, pure_bind, hfold], ?_⟩
    by_cases hdiffer : Differ z r i
    · rw [List.filter_cons_of_pos (by simpa using hdiffer)]
      by_cases hroom : positions.length < mlDsaOmega
      · rwa [if_pos ⟨hdiffer, hroom⟩, List.append_assoc, List.singleton_append] at hlists
      · -- the hint is full, and stays as it is
        have hfull : mlDsaOmega ≤ positions.length := not_lt.mp hroom
        rw [if_neg fun hboth => hroom hboth.2, List.take_append_of_le_length hfull] at hlists
        rwa [List.take_append_of_le_length hfull]
    · rw [List.filter_cons_of_neg (by simpa using hdiffer)]
      rwa [if_neg fun hboth => hdiffer hboth.1] at hlists

/-- **What a hint lists**: the first positions at which the high bits differ. -/
theorem makeHint_spec (z r : Poly) : ∃ hint, makeHint z r = pure hint ∧
    Lists hint ((differing z r).take mlDsaOmega) := by
  have hstart : Lists (List.replicate (mlDsaOmega + mlDsaK) 0, 0) [] :=
    ⟨List.length_replicate, rfl, Nat.zero_le _, rfl⟩
  exact foldlM_makeHintStep z r (List.finRange mlDsaN) hstart

/-- What is made of a hint. -/
lemma useHint_spec {hint : List UInt8 × ℕ} {positions : List (Fin mlDsaN)}
    (h : Lists hint positions) (r : Poly) : useHint hint.1 hint.2 r =
      pure fun i => if i ∈ positions then highBits (r i) - 1 else highBits (r i) := by
  refine Noted.all_eq_pure fun i => ?_
  have hmem : UInt8.ofNat i.val ∈ hint.1.take hint.2 ↔ i ∈ positions := by
    rw [h.entries]
    exact List.mem_map_of_injective hintEntry_injective
  have hhigh := highBits_bounds (r i)
  rw [decompose_eq, pure_bind]
  simp only [hmem]
  split_ifs with hin hpositive
  · exact absurd hpositive (not_lt.mpr (lowBits_bounds (r i)).2)
  · exact i32_eq_pure (by omega) (by omega)
  · rfl

/-- **When a hint recovers the high bits**: there are at most 55 positions at which they differ, and
there they differ by one, downwards.

**Proof sketch.** The hint lowers the high bits at the first 55 positions. If there are more, the
high bits at one of them are left as they were. -/
theorem useHint_makeHint_iff (z r : Poly) :
    (do
      let (h, cnt) ← makeHint z r
      useHint h cnt r) = pure (fun i => highBits (z i)) ↔
    (differing z r).length ≤ mlDsaOmega ∧
      ∀ i, highBits (r i) ≠ highBits (z i) → highBits (z i) = highBits (r i) - 1 := by
  obtain ⟨hint, hmake, hlists⟩ := makeHint_spec z r
  rw [hmake, pure_bind]
  show useHint hint.1 hint.2 r = _ ↔ _
  rw [useHint_spec hlists]
  constructor
  · intro h
    have hvalue (i : Fin mlDsaN) := congrFun (congrArg Noted.value h) i
    have htaken : ∀ i ∈ differing z r, i ∈ (differing z r).take mlDsaOmega := by
      intro i hi
      by_contra hout
      have hi' := hvalue i
      simp only [pure, hout, if_false] at hi'
      exact mem_differing.mp hi hi'
    constructor
    · have hnodup : (differing z r).Nodup := (List.nodup_finRange _).filter _
      have hle := (hnodup.subperm htaken).length_le
      rw [List.length_take] at hle
      omega
    · intro i hi
      have hi' := hvalue i
      simp only [pure, htaken i (mem_differing.mpr hi), if_true] at hi'
      exact hi'.symm
  · rintro ⟨hfew, hlower⟩
    rw [List.take_of_length_le hfew]
    congr 1
    funext i
    split_ifs with hin
    · exact (hlower i (mem_differing.mp hin)).symm
    · by_contra hne
      exact hin (mem_differing.mpr hne)

/-! ## Reductions -/

lemma i64_eq_pure {x : ℤ} (hlow : -2 ^ 63 ≤ x) (hhigh : x < 2 ^ 63) : i64 x = pure x :=
  Noted.signed_eq_pure (by decide) hlow hhigh

lemma asI32_eq_pure {x : ℤ} (hlow : -2 ^ 31 ≤ x) (hhigh : x < 2 ^ 31) :
    asI32 x = pure (Int32.ofInt x) ∧ (Int32.ofInt x).toInt = x := by
  refine ⟨?_, Int32.toInt_ofInt_of_le (by omega) (by omega)⟩
  rw [asI32, Noted.signed_eq_pure (by decide) hlow hhigh, pure_bind]

/-- **The Barrett reduction** is exact for every `i32`, without an overflow: what it returns is
congruent to it, and between `-q` and `q`. -/
theorem barrettReduce_spec (a : Int32) : ∃ r : Int32, barrettReduce a = pure r ∧
    r.toInt % mlDsaQ = residue a ∧ -6283009 ≤ r.toInt ∧ r.toInt ≤ 6283008 := by
  have hlow : -2 ^ 31 ≤ a.toInt := a.minValue_le_toInt
  have hhigh : a.toInt < 2 ^ 31 := by
    have hle := a.toInt_le
    rw [Int32.toInt_maxValue] at hle
    omega
  have hV : barrettV = 8 := by decide
  -- The quotient is the coefficient, over `2 ^ 23`, rounded.
  obtain ⟨t, ht⟩ : ∃ t : ℤ, t = (8 * a.toInt + 2 ^ 25) / 2 ^ 26 := ⟨_, rfl⟩
  have hproduct := asI32_eq_pure (x := t * 8380417) (by omega) (by omega)
  have hresult := asI32_eq_pure (x := a.toInt - t * 8380417) (by omega) (by omega)
  refine ⟨Int32.ofInt (a.toInt - t * 8380417), ?_, ?_, ?_, ?_⟩
  · rw [barrettReduce, hV, i64_eq_pure (by omega) (by omega), pure_bind,
      i64_eq_pure (by omega) (by omega), pure_bind]
    show (do
      let product ← asI32 (← i64 ((8 * a.toInt + 2 ^ 25) / 2 ^ 26 * 8380417))
      asI32 (a.toInt - product.toInt)) = _
    rw [← ht, i64_eq_pure (by omega) (by omega), pure_bind, hproduct.1, pure_bind, hproduct.2,
      hresult.1]
  · rw [hresult.2, residue]
    show (a.toInt - t * 8380417) % 8380417 = a.toInt % 8380417
    omega
  all_goals
    rw [hresult.2]
    omega

/-- **The Montgomery reduction** divides by `2 ^ 32` modulo `q`, without an overflow. Only the
least `i64`s are out of its range. -/
theorem montgomeryReduce_spec (a : ℤ) (hlow : -2 ^ 63 + 2 ^ 55 ≤ a) (hhigh : a < 2 ^ 63) :
    ∃ r : Int32, montgomeryReduce a = pure r ∧ (r.toInt * 2 ^ 32 - a) % mlDsaQ = 0 ∧
      a / 2 ^ 32 - mlDsaQ ≤ r.toInt ∧ r.toInt ≤ a / 2 ^ 32 := by
  obtain ⟨t, ht⟩ : ∃ t : ℤ, t = (a * 58728449).bmod (2 ^ 64) % 2 ^ 32 := ⟨_, rfl⟩
  have hbounds : 0 ≤ t ∧ t < 2 ^ 32 := by omega
  have hcongr : t = a * 58728449 % 2 ^ 32 := by
    have hdvd : ((2 ^ 32 : ℕ) : ℤ) ∣ ((2 ^ 64 : ℕ) : ℤ) := by norm_num
    have hmod := Int.emod_emod_of_dvd ((a * 58728449).bmod (2 ^ 64)) hdvd
    rw [Int.bmod_emod, Int.emod_emod_of_dvd _ hdvd] at hmod
    rw [ht]
    exact_mod_cast hmod.symm
  have hwrap : (t * 8380417).bmod (2 ^ 64) = t * 8380417 :=
    Int.bmod_eq_of_le_mul_two (by norm_num; omega) (by norm_num; omega)
  -- The constant is the inverse of `q`, so that the difference is a multiple.
  obtain ⟨k, hk⟩ : (2 ^ 32 : ℤ) ∣ a - t * 8380417 := by omega
  have hresult := asI32_eq_pure (x := k) (by omega) (by omega)
  refine ⟨Int32.ofInt k, ?_, ?_, ?_, ?_⟩
  · rw [montgomeryReduce]
    show (do
      let d ← i64 (a - ((a * 58728449).bmod (2 ^ 64) % 2 ^ 32 * 8380417).bmod (2 ^ 64))
      asI32 (d / 2 ^ 32)) = _
    rw [← ht, hwrap, i64_eq_pure (by omega) (by omega), pure_bind, hk,
      Int.mul_ediv_cancel_left _ (by norm_num), hresult.1]
  · rw [hresult.2]
    show (k * 2 ^ 32 - a) % 8380417 = 0
    omega
  · rw [hresult.2]
    show a / 2 ^ 32 - 8380417 ≤ k
    omega
  · rw [hresult.2]
    omega

/-- The theorem at the number that is divided to one. -/
theorem montgomeryReduce_spec_two_pow : ∃ r : Int32, montgomeryReduce (2 ^ 32) = pure r ∧
    (r.toInt * 2 ^ 32 - 2 ^ 32) % mlDsaQ = 0 ∧ (2 ^ 32 : ℤ) / 2 ^ 32 - mlDsaQ ≤ r.toInt ∧
      r.toInt ≤ (2 ^ 32 : ℤ) / 2 ^ 32 :=
  montgomeryReduce_spec (2 ^ 32) (by norm_num) (by norm_num)

end QuDAG.Crypto.MlDsa
