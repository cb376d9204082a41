import Mathlib.FieldTheory.Finite.Basic
import Mathlib.RingTheory.RootsOfUnity.PrimitiveRoots
import Mathlib.Tactic.NormNum.Prime
import QuDAG.Lib.Overflow
import QuDAG.Lib.RootTransform

/-!
# The reference arithmetic of ML-DSA (`ml_dsa/mod.rs`)

Polynomials with 256 coefficients are multiplied modulo `x ^ 256 + 1` by their values at the odd
powers of a 512th root of unity modulo `q`.

## Main definitions

* `modularPow`, `ntt`, `invntt` — powers, the values of a polynomial, and the polynomial with some
  values.
* `matrixVectorMultiply` — a product with a matrix, and a sum.
* `toRq` — the element of the quotient ring that a polynomial stands for.

## Main results

* `nodes_root` — the odd powers are the roots of `x ^ 256 = -1`.
* `ntt_spec`, `invntt_spec` — what the transforms compute.
* `arithmetic_eq` — products and sums are those of the quotient ring.

## Implementation notes

An `i64` is an integer; its operations and casts note whether they overflow. So does the wrapping
addition of two `i32`.
-/

namespace QuDAG.Crypto.MlDsa

/-! ## The code -/

/-- The modulus. -/
abbrev mlDsaQ : ℤ := 8380417

/-- Polynomial degree. -/
abbrev mlDsaN : ℕ := 256

/-- Rows in A. -/
abbrev mlDsaK : ℕ := 6

/-- Columns in A. -/
abbrev mlDsaL : ℕ := 5

/-- Secret key coefficient range. -/
abbrev mlDsaEta : ℤ := 4

/-- The coefficients of a polynomial. -/
abbrev Poly : Type := Fin mlDsaN → Int32

/-- The result of an operation on `i64`. -/
def i64 (x : ℤ) : Noted ℤ := Noted.signed 64 x

/-- Cast an `i64` to an `i32`. -/
def asI32 (x : ℤ) : Noted Int32 := do
  let x ← Noted.signed 32 x
  pure (Int32.ofInt x)

/-- Add two `i32`. -/
def wrappingAdd (a b : Int32) : Noted Int32 := asI32 (a.toInt + b.toInt)

/-- Multiply if the least bit of the exponent is set. -/
def multiplyIfOdd (result base : ℤ) (exponent : ℕ) : Noted ℤ :=
  if exponent % 2 ≠ 0 then do
    let product ← i64 (result * base)
    pure (product.tmod mlDsaQ)
  else pure result

/-- The loop of `modular_pow`. -/
def modularPowLoop (result base : ℤ) (exponent : ℕ) : Noted ℤ :=
  if exponent = 0 then pure result
  else do
    let result ← multiplyIfOdd result base exponent
    let square ← i64 (base * base)
    modularPowLoop result (square.tmod mlDsaQ) (exponent / 2)
termination_by exponent

/-- A power modulo `q`. -/
def modularPow (base : ℤ) (exponent : ℕ) : Noted ℤ := modularPowLoop 1 base exponent

/-- One step of the evaluation at a root. -/
def evaluateStep (root : ℤ) (value : ℤ) (coefficient : Int32) : Noted ℤ := do
  let product ← i64 (value * root)
  let sum ← i64 (product + coefficient.toInt)
  pure (sum % mlDsaQ)

/-- Evaluate at the 256 odd powers of primitive 512th root 1753. -/
def ntt (poly : Poly) : Noted Poly :=
  .all fun k => do
    let root ← modularPow 1753 (2 * k.val + 1)
    let value ← (List.ofFn poly).reverse.foldlM (evaluateStep root) 0
    asI32 value

/-- Add the multiples of the powers of an inverse root to the coefficients. -/
def accumulate (value inverseRoot : ℤ) : ℤ → List ℤ → Noted (List ℤ)
  | _, [] => pure []
  | power, coefficient :: coefficients => do
    let product ← i64 (value * power)
    let sum ← i64 (coefficient + product)
    let next ← i64 (power * inverseRoot)
    let rest ← accumulate value inverseRoot (next.tmod mlDsaQ) coefficients
    pure (sum % mlDsaQ :: rest)

/-- Add the multiples of the powers of the inverse of one root. -/
def accumulateRoot (poly : Poly) (accumulator : List ℤ) (k : Fin mlDsaN) : Noted (List ℤ) := do
  let root ← modularPow 1753 (2 * k.val + 1)
  let inverseRoot ← modularPow root (mlDsaQ - 2).toNat
  accumulate (poly k).toInt inverseRoot 1 accumulator

/-- Exact inverse of the experimental reference transform, modulo q. -/
def invntt (poly : Poly) : Noted Poly := do
  let invN ← modularPow mlDsaN (mlDsaQ - 2).toNat
  let accumulator ←
    (List.finRange mlDsaN).foldlM (accumulateRoot poly) (List.replicate mlDsaN 0)
  .all fun i => do
    let product ← i64 (accumulator.getD i 0 * invN)
    asI32 (product.tmod mlDsaQ)

/-- The coefficientwise product. -/
def pointwise (a b : Poly) : Noted Poly :=
  .all fun k => do
    let product ← i64 ((a k).toInt * (b k).toInt)
    asI32 (product % mlDsaQ)

/-- The coefficientwise sum. -/
def addTo (t s : Poly) : Noted Poly :=
  .all fun k => do
    let sum ← wrappingAdd (t k) (s k)
    pure (Int32.ofInt (sum.toInt % mlDsaQ))

/-- Add one product to a row. -/
def addProduct (a : Fin mlDsaL → Poly) (s1Ntt : Fin mlDsaL → Poly) (t : Poly) (j : Fin mlDsaL) :
    Noted Poly := do
  let aNtt ← ntt (a j)
  let product ← pointwise aNtt (s1Ntt j)
  addTo t product

/-- Matrix-vector multiplication: t = As1 + s2 using NTT. -/
def matrixVectorMultiply (a : Fin mlDsaK → Fin mlDsaL → Poly) (s1 : Fin mlDsaL → Poly)
    (s2 : Fin mlDsaK → Poly) : Noted (Fin mlDsaK → Poly) := do
  let s1Ntt ← .all fun j => ntt (s1 j)
  .all fun i => do
    let t ← (List.finRange mlDsaL).foldlM (addProduct (a i) s1Ntt) fun _ => 0
    let t ← invntt t
    addTo t (s2 i)

/-! ## Residues -/

/-- The integers modulo `q`. -/
abbrev Zq : Type := ZMod 8380417

instance instFactPrime : Fact (Nat.Prime 8380417) := ⟨by norm_num⟩

/-- An integer is a residue: it is not negative and below `q`. -/
def Residue (x : ℤ) : Prop := 0 ≤ x ∧ x < mlDsaQ

namespace Residue

variable {x y : ℤ}

/-- Remainders are residues. -/
lemma emod (x : ℤ) : Residue (x % mlDsaQ) :=
  ⟨Int.emod_nonneg _ (by decide), Int.emod_lt_of_pos _ (by decide)⟩

/-- The remainder of a product of residues is the same with both divisions. -/
lemma tmod_mul (hx : Residue x) (hy : Residue y) : (x * y).tmod mlDsaQ = x * y % mlDsaQ :=
  Int.tmod_eq_emod_of_nonneg (mul_nonneg hx.1 hy.1)

/-- A product of residues fits. -/
lemma mul_lt (hx : Residue x) (hy : Residue y) : x * y < 2 ^ 46 := by
  have hle : x * y ≤ 8380416 * 8380416 :=
    mul_le_mul (Int.le_sub_one_of_lt hx.2) (Int.le_sub_one_of_lt hy.2) hy.1 (by decide)
  omega

/-- A product of residues does not overflow. -/
lemma i64_mul (hx : Residue x) (hy : Residue y) : i64 (x * y) = pure (x * y) := by
  have hnonneg := mul_nonneg hx.1 hy.1
  have hlt := hx.mul_lt hy
  exact Noted.signed_eq_pure (by decide) (by omega) (by omega)

/-- A residue fits an `i32`. -/
lemma toInt_ofInt (hx : Residue x) : (Int32.ofInt x).toInt = x :=
  Int32.toInt_ofInt_of_le (le_trans (by decide) hx.1) (lt_trans hx.2 (by decide))

/-- The cast of a residue does not overflow. -/
lemma asI32 (hx : Residue x) : asI32 x = pure (Int32.ofInt x) := by
  have hlow : -2 ^ (32 - 1) ≤ x := le_trans (by decide) hx.1
  have hhigh : x < 2 ^ (32 - 1) := lt_trans hx.2 (by decide)
  rw [MlDsa.asI32, Noted.signed_eq_pure (by decide) hlow hhigh, pure_bind]

end Residue

/-- A remainder stands for the same residue class. -/
lemma cast_emod (x : ℤ) : ((x % mlDsaQ : ℤ) : Zq) = (x : Zq) := ZMod.intCast_mod x 8380417

/-! ## Powers and roots -/

/-- The least bit of the exponent. -/
lemma multiplyIfOdd_spec {result base : ℤ} (hresult : Residue result) (hbase : Residue base)
    (exponent : ℕ) :
    ∃ v, multiplyIfOdd result base exponent = pure v ∧ Residue v ∧
      (v : Zq) = result * base ^ (exponent % 2) := by
  rw [multiplyIfOdd]
  split_ifs with hodd
  · refine ⟨result * base % mlDsaQ, ?_, Residue.emod _, ?_⟩
    · rw [hresult.i64_mul hbase, pure_bind, hresult.tmod_mul hbase]
    · rw [cast_emod, Int.cast_mul, Nat.mod_two_ne_zero.mp hodd, pow_one]
  · exact ⟨result, rfl, hresult, by rw [not_not.mp hodd, pow_zero, mul_one]⟩

/-- The loop multiplies by a power. -/
lemma modularPowLoop_spec {result base : ℤ} (hresult : Residue result) (hbase : Residue base)
    (exponent : ℕ) :
    ∃ v, modularPowLoop result base exponent = pure v ∧ Residue v ∧
      (v : Zq) = result * base ^ exponent := by
  induction exponent using Nat.strongRecOn generalizing result base with
  | ind exponent ih =>
    rw [modularPowLoop]
    split_ifs with hzero
    · exact ⟨result, rfl, hresult, by rw [hzero, pow_zero, mul_one]⟩
    · obtain ⟨next, hnext, hresidue, hcast⟩ := multiplyIfOdd_spec hresult hbase exponent
      obtain ⟨v, hv, hresidue', hcast'⟩ := ih (exponent / 2) (by omega) hresidue
        (Residue.emod (base * base))
      refine ⟨v, ?_, hresidue', ?_⟩
      · rw [hnext, pure_bind, hbase.i64_mul hbase, pure_bind, hbase.tmod_mul hbase, hv]
      · rw [hcast', hcast, cast_emod, Int.cast_mul, ← pow_two, ← pow_mul, mul_assoc, ← pow_add,
          Nat.mod_add_div]

/-- A power modulo `q`. -/
lemma modularPow_spec {base : ℤ} (hbase : Residue base) (exponent : ℕ) :
    ∃ v, modularPow base exponent = pure v ∧ Residue v ∧ (v : Zq) = base ^ exponent := by
  have hone : Residue 1 := ⟨by decide, by decide⟩
  obtain ⟨v, hv, hresidue, hcast⟩ := modularPowLoop_spec hone hbase exponent
  exact ⟨v, hv, hresidue, by rw [hcast, Int.cast_one, one_mul]⟩

/-- The inverse modulo `q` is a power. -/
lemma modularPow_inv {x : ℤ} (hx : Residue x) (hne : (x : Zq) ≠ 0) :
    ∃ v, modularPow x (mlDsaQ - 2).toNat = pure v ∧ Residue v ∧ (v : Zq) = (x : Zq)⁻¹ := by
  obtain ⟨v, hv, hresidue, hcast⟩ := modularPow_spec hx (mlDsaQ - 2).toNat
  refine ⟨v, hv, hresidue, eq_inv_of_mul_eq_one_left ?_⟩
  rw [hcast, ← pow_succ]
  exact ZMod.pow_card_sub_one_eq_one hne

/-- The odd powers of the root of unity. -/
def root (k : Fin mlDsaN) : Zq := 1753 ^ (2 * k.val + 1)

/-- The root of unity is a root of `x ^ 256 = -1`. -/
lemma pow_256 : (1753 : Zq) ^ 256 = -1 := by
  have hpow : ((1753 ^ 256 : ℕ) : Zq) = ((8380416 : ℕ) : Zq) :=
    (ZMod.natCast_eq_natCast_iff' _ _ _).mpr (by norm_num)
  have hneg : ((8380416 : ℕ) : Zq) = -1 := by decide
  rw [← hneg, ← hpow, Nat.cast_pow]
  rfl

/-- The root of unity has order 512. -/
lemma orderOf_root : orderOf (1753 : Zq) = 512 := by
  have hne : (-1 : Zq) ≠ 1 := by decide
  have horder : orderOf (1753 : Zq) = 2 ^ (8 + 1) := by
    refine orderOf_eq_prime_pow ?_ ?_
    · rw [show 2 ^ 8 = 256 from rfl, pow_256]
      exact hne
    · rw [pow_succ, pow_mul, show 2 ^ 8 = 256 from rfl, pow_256, neg_one_sq]
  exact horder

/-- **The odd powers are all the roots of `x ^ 256 = -1`.** -/
lemma nodes_root : RootTransform.Nodes (-1 : Zq) root where
  injective k l h := by
    have hprimitive : IsPrimitiveRoot (1753 : Zq) 512 := orderOf_root ▸ IsPrimitiveRoot.orderOf _
    have hk : k.val < 256 := k.isLt
    have hl : l.val < 256 := l.isLt
    have heq : 2 * k.val + 1 = 2 * l.val + 1 := hprimitive.pow_inj (by omega) (by omega) h
    exact Fin.ext (by omega)
  pow_eq k := by
    rw [root, ← pow_mul, mul_comm, pow_mul, pow_256]
    exact Odd.neg_one_pow ⟨k.val, rfl⟩
  ne_zero := by decide
  card_ne_zero := by decide

/-- The power for an entry is its root. -/
lemma modularPow_root (k : Fin mlDsaN) :
    ∃ v, modularPow 1753 (2 * k.val + 1) = pure v ∧ Residue v ∧ (v : Zq) = root k := by
  have hbase : Residue 1753 := ⟨by decide, by decide⟩
  obtain ⟨v, hv, hresidue, hcast⟩ := modularPow_spec hbase (2 * k.val + 1)
  exact ⟨v, hv, hresidue, by rw [hcast, Int.cast_ofNat, root]⟩

/-! ## The transforms -/

/-- The coefficients are residues. -/
def Reduced (p : Poly) : Prop := ∀ i, Residue (p i).toInt

/-- The residue classes of the coefficients. -/
def residues (p : Poly) (i : Fin mlDsaN) : Zq := ((p i).toInt : Zq)

/-- An array of casts of residues. -/
lemma exists_all_asI32 {f : Fin mlDsaN → Noted Int32} {v : Fin mlDsaN → Zq}
    (h : ∀ k, ∃ x, f k = asI32 x ∧ Residue x ∧ (x : Zq) = v k) :
    ∃ p, Noted.all f = pure p ∧ Reduced p ∧ residues p = v := by
  choose x hx hresidue hcast using h
  refine ⟨fun k => Int32.ofInt (x k), Noted.all_eq_pure fun k => ?_, fun k => ?_,
    funext fun k => ?_⟩
  · rw [hx, (hresidue k).asI32]
  · rw [(hresidue k).toInt_ofInt]
    exact hresidue k
  · rw [residues, (hresidue k).toInt_ofInt, hcast]

/-- One step of the evaluation does not overflow. -/
lemma evaluateStep_eq {root value : ℤ} (hroot : Residue root) (hvalue : Residue value)
    (c : Int32) : evaluateStep root value c = pure ((value * root + c.toInt) % mlDsaQ) := by
  have hlt := hvalue.mul_lt hroot
  have hnonneg := mul_nonneg hvalue.1 hroot.1
  have hlow := c.le_toInt
  have hhigh := c.toInt_lt
  have hsum : i64 (value * root + c.toInt) = pure (value * root + c.toInt) :=
    Noted.signed_eq_pure (by decide) (by omega) (by omega)
  rw [evaluateStep, hvalue.i64_mul hroot, pure_bind, hsum, pure_bind]

/-- **Evaluating is taking the value at the root.** -/
lemma evaluate_spec {n : ℕ} (p : Fin n → Int32) {root : ℤ} (hroot : Residue root) :
    ∃ v, (List.ofFn p).reverse.foldlM (evaluateStep root) 0 = pure v ∧ Residue v ∧
      (v : Zq) = ∑ i, ((p i).toInt : Zq) * (root : Zq) ^ (i : ℕ) := by
  rw [List.foldlM_reverse]
  induction n with
  | zero => exact ⟨0, rfl, ⟨by decide, by decide⟩, by rw [Fin.sum_univ_zero, Int.cast_zero]⟩
  | succ n ih =>
    obtain ⟨v, hv, hresidue, hcast⟩ := ih fun i => p i.succ
    refine ⟨(v * root + (p 0).toInt) % mlDsaQ, ?_, Residue.emod _, ?_⟩
    · rw [List.ofFn_succ, List.foldrM_cons, hv, pure_bind, evaluateStep_eq hroot hresidue]
    · rw [cast_emod, Int.cast_add, Int.cast_mul, hcast, Fin.sum_univ_succ, Finset.sum_mul, add_comm]
      refine congrArg₂ (· + ·) ?_ (Finset.sum_congr rfl fun i _ => ?_)
      · rw [Fin.val_zero, pow_zero, mul_one]
      · rw [Fin.val_succ, pow_succ, mul_assoc]

/-- **The transform takes the values at the roots.** -/
lemma ntt_spec (p : Poly) :
    ∃ v, ntt p = pure v ∧ Reduced v ∧
      residues v = RootTransform.transform root (residues p) := by
  refine exists_all_asI32 fun k => ?_
  obtain ⟨r, hr, hresidue, hcast⟩ := modularPow_root k
  obtain ⟨v, hv, hvresidue, hvcast⟩ := evaluate_spec p hresidue
  refine ⟨v, ?_, hvresidue, ?_⟩
  · rw [hr, pure_bind, hv, pure_bind]
  · rw [hvcast, hcast]
    rfl

/-- A product of a coefficient and a residue is far from overflowing. -/
lemma toInt_mul_bounds (value : Int32) {power : ℤ} (hpower : Residue power) :
    -2 ^ 54 ≤ value.toInt * power ∧ value.toInt * power ≤ 2 ^ 54 := by
  have hpower' : power ≤ 2 ^ 23 := le_trans hpower.2.le (by decide)
  have hlow : -2 ^ 31 * power ≤ value.toInt * power :=
    mul_le_mul_of_nonneg_right value.le_toInt hpower.1
  have hhigh : value.toInt * power ≤ 2 ^ 31 * power :=
    mul_le_mul_of_nonneg_right value.toInt_lt.le hpower.1
  constructor <;> omega

/-- Multiples of powers are added to the coefficients. -/
lemma accumulate_spec {n : ℕ} (f : Fin n → ℤ) (hf : ∀ i, Residue (f i)) (value : Int32)
    {inverseRoot power : ℤ} (hroot : Residue inverseRoot) (hpower : Residue power) :
    ∃ g : Fin n → ℤ,
      accumulate value.toInt inverseRoot power (List.ofFn f) = pure (List.ofFn g) ∧
        ∀ i, Residue (g i) ∧
          (g i : Zq) = f i + value.toInt * (power * (inverseRoot : Zq) ^ (i : ℕ)) := by
  induction n generalizing power with
  | zero => exact ⟨f, rfl, fun i => i.elim0⟩
  | succ n ih =>
    obtain ⟨g, hg, hspec⟩ := ih (fun i => f i.succ) (fun i => hf i.succ)
      (Residue.emod (power * inverseRoot))
    have hproduct : i64 (value.toInt * power) = pure (value.toInt * power) ∧
        i64 (f 0 + value.toInt * power) = pure (f 0 + value.toInt * power) := by
      obtain ⟨hlow, hhigh⟩ := toInt_mul_bounds value hpower
      have hnonneg := (hf 0).1
      have hlt : f 0 < 8380417 := (hf 0).2
      exact ⟨Noted.signed_eq_pure (by decide) (by omega) (by omega),
        Noted.signed_eq_pure (by decide) (by omega) (by omega)⟩
    refine ⟨Fin.cons ((f 0 + value.toInt * power) % mlDsaQ) g, ?_, Fin.cases ?_ fun i => ?_⟩
    · rw [List.ofFn_succ, accumulate, hproduct.1, pure_bind, hproduct.2, pure_bind,
        hpower.i64_mul hroot, pure_bind, hpower.tmod_mul hroot, hg, pure_bind, List.ofFn_succ]
      rfl
    · refine ⟨Residue.emod _, ?_⟩
      rw [Fin.cons_zero, cast_emod, Int.cast_add, Int.cast_mul, Fin.val_zero, pow_zero, mul_one]
    · refine ⟨(hspec i).1, ?_⟩
      rw [Fin.cons_succ, (hspec i).2, cast_emod, Int.cast_mul, Fin.val_succ, pow_succ']
      ring

/-- The multiples of the powers for some of the roots. -/
lemma foldlM_accumulateRoot (poly : Poly) (ks : List (Fin mlDsaN)) (f : Fin mlDsaN → ℤ)
    (hf : ∀ i, Residue (f i)) :
    ∃ g : Fin mlDsaN → ℤ,
      ks.foldlM (accumulateRoot poly) (List.ofFn f) = pure (List.ofFn g) ∧
        ∀ i, Residue (g i) ∧
          (g i : Zq) = f i + (ks.map fun k => residues poly k * (root k)⁻¹ ^ (i : ℕ)).sum := by
  induction ks generalizing f with
  | nil => exact ⟨f, rfl, fun i => ⟨hf i, (add_zero _).symm⟩⟩
  | cons k ks ih =>
    have hone : Residue 1 := ⟨by decide, by decide⟩
    obtain ⟨r, hr, hresidue, hcast⟩ := modularPow_root k
    obtain ⟨s, hs, hsresidue, hscast⟩ := modularPow_inv hresidue
      (hcast ▸ nodes_root.node_ne_zero k)
    obtain ⟨g, hg, hgspec⟩ := accumulate_spec f hf (poly k) hsresidue hone
    obtain ⟨g', hg', hspec⟩ := ih g fun i => (hgspec i).1
    refine ⟨g', ?_, fun i => ⟨(hspec i).1, ?_⟩⟩
    · rw [List.foldlM_cons, accumulateRoot, hr, pure_bind, hs, pure_bind, hg, pure_bind, hg']
    · rw [(hspec i).2, (hgspec i).2, hscast, hcast, Int.cast_one, one_mul, List.map_cons,
        List.sum_cons, add_assoc]
      rfl

/-- **The inverse transform takes the coefficients of the values.** -/
lemma invntt_spec (v : Poly) :
    ∃ p, invntt v = pure p ∧ Reduced p ∧
      residues p = RootTransform.inverse root (residues v) := by
  have hzero : Residue 0 := ⟨le_rfl, by decide⟩
  have hbase : Residue mlDsaN := ⟨by decide, by decide⟩
  have hcard : ((mlDsaN : ℤ) : Zq) = ((mlDsaN : ℕ) : Zq) := Int.cast_natCast _
  obtain ⟨invN, hinvN, hinvresidue, hinvcast⟩ := modularPow_inv hbase
    (hcard ▸ nodes_root.card_ne_zero)
  obtain ⟨g, hg, hspec⟩ := foldlM_accumulateRoot v (List.finRange mlDsaN) (fun _ => 0)
    fun _ => hzero
  rw [List.ofFn_const] at hg
  have hentry : ∀ i : Fin mlDsaN, (List.ofFn g).getD i 0 = g i := fun i => by
    rw [List.getD_eq_getElem?_getD, List.getElem?_ofFn, dif_pos i.isLt, Option.getD_some]
  have hentries : ∀ i : Fin mlDsaN, ∃ x, (do
      let product ← i64 ((List.ofFn g).getD i 0 * invN)
      asI32 (product.tmod mlDsaQ)) = asI32 x ∧ Residue x ∧
        (x : Zq) = RootTransform.inverse root (residues v) i := fun i => by
    refine ⟨g i * invN % mlDsaQ, ?_, Residue.emod _, ?_⟩
    · rw [hentry, (hspec i).1.i64_mul hinvresidue, pure_bind, (hspec i).1.tmod_mul hinvresidue]
    · rw [cast_emod, Int.cast_mul, hinvcast, (hspec i).2, Int.cast_zero, zero_add,
        ← Fin.sum_univ_def, hcard]
      rfl
  obtain ⟨p, hp, hreduced, hresidues⟩ := exists_all_asI32 hentries
  refine ⟨p, ?_, hreduced, hresidues⟩
  rw [invntt, hinvN, pure_bind, hg, pure_bind, hp]

/-! ## Products and sums -/

/-- The coefficientwise product. -/
lemma pointwise_spec {a b : Poly} (ha : Reduced a) (hb : Reduced b) :
    ∃ c, pointwise a b = pure c ∧ Reduced c ∧
      residues c = fun k => residues a k * residues b k := by
  refine exists_all_asI32 fun k => ⟨(a k).toInt * (b k).toInt % mlDsaQ, ?_, Residue.emod _, ?_⟩
  · rw [(ha k).i64_mul (hb k), pure_bind]
  · rw [cast_emod, Int.cast_mul]
    rfl

/-- The coefficientwise sum, of residues and other small numbers. -/
lemma addTo_spec {t s : Poly} (ht : Reduced t)
    (hs : ∀ k, -mlDsaQ ≤ (s k).toInt ∧ (s k).toInt ≤ mlDsaQ) :
    ∃ c, addTo t s = pure c ∧ Reduced c ∧ residues c = residues t + residues s := by
  have hsum : ∀ k, wrappingAdd (t k) (s k) = pure (Int32.ofInt ((t k).toInt + (s k).toInt)) ∧
      (Int32.ofInt ((t k).toInt + (s k).toInt)).toInt = (t k).toInt + (s k).toInt := by
    intro k
    have hlow : -2 ^ 31 ≤ (t k).toInt + (s k).toInt := by
      have := add_le_add (ht k).1 (hs k).1
      exact le_trans (by decide) this
    have hhigh : (t k).toInt + (s k).toInt < 2 ^ 31 :=
      lt_of_lt_of_le (add_lt_add_of_lt_of_le (ht k).2 (hs k).2) (by decide)
    refine ⟨?_, Int32.toInt_ofInt_of_le hlow hhigh⟩
    rw [wrappingAdd, asI32, Noted.signed_eq_pure (by decide) hlow hhigh, pure_bind]
  refine ⟨fun k => Int32.ofInt (((t k).toInt + (s k).toInt) % mlDsaQ),
    Noted.all_eq_pure fun k => ?_, fun k => ?_, funext fun k => ?_⟩
  · rw [(hsum k).1, pure_bind, (hsum k).2]
  · rw [(Residue.emod _).toInt_ofInt]
    exact Residue.emod _
  · rw [residues, (Residue.emod _).toInt_ofInt, cast_emod, Int.cast_add]
    rfl

/-! ## The quotient ring -/

open Polynomial

/-- The ring of the polynomials modulo `x ^ 256 + 1`. -/
abbrev Rq : Type := AdjoinRoot (X ^ mlDsaN - C (-1) : Zq[X])

/-- The element of the quotient ring that a polynomial stands for. -/
noncomputable def toRq (p : Poly) : Rq := RootTransform.element (-1) (residues p)

/-- Residues are given by their residue classes. -/
lemma Residue.eq_emod {x y : ℤ} (hx : Residue x) (h : (x : Zq) = y) : x = y % mlDsaQ := by
  have hmod : x % mlDsaQ = y % mlDsaQ := (ZMod.intCast_eq_intCast_iff' x y 8380417).mp h
  rwa [Int.emod_eq_of_lt hx.1 hx.2] at hmod

/-- The coefficients of an element of the quotient ring, from its values. -/
lemma invntt_eq {v : Poly} {x : Rq} (h : ∀ k, nodes_root.value k x = residues v k) :
    ∃ p, invntt v = pure p ∧ Reduced p ∧ toRq p = x := by
  obtain ⟨p, hp, hreduced, hresidues⟩ := invntt_spec v
  refine ⟨p, hp, hreduced, ?_⟩
  rw [toRq, hresidues]
  exact nodes_root.element_inverse h

/-- The values of a polynomial. -/
lemma value_toRq (p : Poly) (k : Fin mlDsaN) :
    nodes_root.value k (toRq p) = RootTransform.transform root (residues p) k :=
  nodes_root.value_element _ k

/-- **The inverse transform undoes the transform.** -/
lemma invntt_ntt (p : Poly) :
    (ntt p >>= invntt) = pure fun i => Int32.ofInt ((p i).toInt % mlDsaQ) := by
  obtain ⟨v, hv, -, hvresidues⟩ := ntt_spec p
  obtain ⟨p', hp', hreduced, hresidues⟩ := invntt_spec v
  rw [hvresidues, nodes_root.inverse_transform] at hresidues
  rw [hv, pure_bind, hp']
  refine congrArg pure (funext fun i => ?_)
  rw [← (hreduced i).eq_emod (congrFun hresidues i), Int32.ofInt_toInt]

/-- **The product of the values is the product** in the quotient ring. -/
lemma invntt_pointwise (a b : Poly) :
    ∃ c, (do
        let a ← ntt a
        let b ← ntt b
        let product ← pointwise a b
        invntt product) = pure c ∧ Reduced c ∧ toRq c = toRq a * toRq b := by
  obtain ⟨va, hva, hareduced, haresidues⟩ := ntt_spec a
  obtain ⟨vb, hvb, hbreduced, hbresidues⟩ := ntt_spec b
  obtain ⟨v, hv, -, hresidues⟩ := pointwise_spec hareduced hbreduced
  obtain ⟨c, hc, hreduced, hring⟩ := invntt_eq (v := v) (x := toRq a * toRq b) fun k => by
    rw [map_mul, value_toRq, value_toRq, hresidues, haresidues, hbresidues]
  exact ⟨c, by rw [hva, pure_bind, hvb, pure_bind, hv, pure_bind, hc], hreduced, hring⟩

/-- Residues are small numbers. -/
lemma Reduced.small {p : Poly} (hp : Reduced p) (k : Fin mlDsaN) :
    -mlDsaQ ≤ (p k).toInt ∧ (p k).toInt ≤ mlDsaQ :=
  ⟨le_trans (by decide) (hp k).1, (hp k).2.le⟩

/-- The products of some columns are added to a row. -/
lemma foldlM_addProduct (a : Fin mlDsaL → Poly) {s1Ntt : Fin mlDsaL → Poly}
    (hs1 : ∀ j, Reduced (s1Ntt j)) (js : List (Fin mlDsaL)) {t : Poly} (ht : Reduced t) :
    ∃ t', js.foldlM (addProduct a s1Ntt) t = pure t' ∧ Reduced t' ∧
      ∀ k, residues t' k = residues t k +
        (js.map fun j => RootTransform.transform root (residues (a j)) k *
          residues (s1Ntt j) k).sum := by
  induction js generalizing t with
  | nil => exact ⟨t, rfl, ht, fun k => (add_zero _).symm⟩
  | cons j js ih =>
    obtain ⟨v, hv, hvreduced, hvresidues⟩ := ntt_spec (a j)
    obtain ⟨c, hc, hcreduced, hcresidues⟩ := pointwise_spec hvreduced (hs1 j)
    obtain ⟨u, hu, hureduced, huresidues⟩ := addTo_spec ht hcreduced.small
    obtain ⟨t', ht', hreduced, hresidues⟩ := ih hureduced
    refine ⟨t', ?_, hreduced, fun k => ?_⟩
    · rw [List.foldlM_cons, addProduct, hv, pure_bind, hc, pure_bind, hu, pure_bind, ht']
    · rw [hresidues, huresidues, Pi.add_apply, hcresidues, hvresidues, List.map_cons,
        List.sum_cons, add_assoc]

/-- One row of the product with a matrix. -/
lemma row_spec (a s1 : Fin mlDsaL → Poly) {s1Ntt : Fin mlDsaL → Poly} {s2 : Poly}
    (hs1 : ∀ j, Reduced (s1Ntt j) ∧
      residues (s1Ntt j) = RootTransform.transform root (residues (s1 j)))
    (hs2 : ∀ k, -mlDsaEta ≤ (s2 k).toInt ∧ (s2 k).toInt ≤ mlDsaEta) :
    ∃ t, (do
        let t ← (List.finRange mlDsaL).foldlM (addProduct a s1Ntt) fun _ => 0
        let t ← invntt t
        addTo t s2) = pure t ∧ Reduced t ∧
      toRq t = ∑ j, toRq (a j) * toRq (s1 j) + toRq s2 := by
  have hresidue : Residue (0 : Int32).toInt := ⟨by decide, by decide⟩
  have hzero : Reduced fun _ => 0 := fun _ => hresidue
  obtain ⟨v, hv, -, hvresidues⟩ := foldlM_addProduct a (fun j => (hs1 j).1)
    (List.finRange mlDsaL) hzero
  obtain ⟨p, hp, hpreduced, hpring⟩ := invntt_eq (v := v) (x := ∑ j, toRq (a j) * toRq (s1 j))
    fun k => by
      rw [map_sum, hvresidues, Fin.sum_univ_def]
      simp only [map_mul, value_toRq, (hs1 _).2]
      exact (zero_add _).symm
  obtain ⟨t, ht, hreduced, hresidues⟩ := addTo_spec hpreduced fun k =>
    ⟨le_trans (by decide) (hs2 k).1, le_trans (hs2 k).2 (by decide)⟩
  refine ⟨t, by rw [hv, pure_bind, hp, pure_bind, ht], hreduced, ?_⟩
  have hsum : toRq t = toRq p + toRq s2 := by
    rw [toRq, hresidues, RootTransform.element_add, toRq, toRq]
  rw [hsum, hpring]

/-- **The product with a matrix** is the one of the quotient ring. -/
lemma matrixVectorMultiply_spec (a : Fin mlDsaK → Fin mlDsaL → Poly) (s1 : Fin mlDsaL → Poly)
    (s2 : Fin mlDsaK → Poly)
    (hs2 : ∀ i k, -mlDsaEta ≤ (s2 i k).toInt ∧ (s2 i k).toInt ≤ mlDsaEta) :
    ∃ t, matrixVectorMultiply a s1 s2 = pure t ∧ ∀ i, Reduced (t i) ∧
      toRq (t i) = ∑ j, toRq (a i j) * toRq (s1 j) + toRq (s2 i) := by
  choose s1Ntt hs1Ntt hs1 using fun j => ntt_spec (s1 j)
  choose t ht htspec using fun i => row_spec (a i) s1 hs1 (hs2 i)
  exact ⟨t, by rw [matrixVectorMultiply, Noted.all_eq_pure hs1Ntt, pure_bind,
    Noted.all_eq_pure ht], htspec⟩

/-- The reference arithmetic is the one of the quotient ring, and no operation overflows: the
inverse transform of the transform reduces the coefficients, the inverse transform of the products
of two transforms is the product, and a product with a matrix to which a small vector is added is
the one of the quotient ring, with reduced coefficients. -/
theorem arithmetic_eq (p a b : Poly) (A : Fin mlDsaK → Fin mlDsaL → Poly)
    (s1 : Fin mlDsaL → Poly) (s2 : Fin mlDsaK → Poly)
    (hs2 : ∀ i k, -mlDsaEta ≤ (s2 i k).toInt ∧ (s2 i k).toInt ≤ mlDsaEta) :
    (ntt p >>= invntt) = pure (fun i => Int32.ofInt ((p i).toInt % mlDsaQ)) ∧
      (∃ c, (do
          let a ← ntt a
          let b ← ntt b
          let product ← pointwise a b
          invntt product) = pure c ∧ Reduced c ∧ toRq c = toRq a * toRq b) ∧
      ∃ t, matrixVectorMultiply A s1 s2 = pure t ∧ ∀ i, Reduced (t i) ∧
        toRq (t i) = ∑ j, toRq (A i j) * toRq (s1 j) + toRq (s2 i) :=
  ⟨invntt_ntt p, invntt_pointwise a b, matrixVectorMultiply_spec A s1 s2 hs2⟩

/-- All coefficients are one. -/
def onesPoly : Poly := fun _ => 1

/-- All polynomials have only coefficients that are one. -/
theorem arithmetic_eq_ones :
    (ntt onesPoly >>= invntt) = pure fun i => Int32.ofInt ((onesPoly i).toInt % mlDsaQ) :=
  have hsmall : -mlDsaEta ≤ (1 : Int32).toInt ∧ (1 : Int32).toInt ≤ mlDsaEta := by decide
  (arithmetic_eq onesPoly onesPoly onesPoly (fun _ _ => onesPoly) (fun _ => onesPoly)
    (fun _ => onesPoly) fun _ _ => hsmall).1

end QuDAG.Crypto.MlDsa
