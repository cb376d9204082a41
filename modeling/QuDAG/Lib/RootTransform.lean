import Mathlib.Algebra.Field.GeomSum
import Mathlib.RingTheory.AdjoinRoot

/-!
# Evaluating at all roots of `x ^ n = c`

A polynomial with `n` coefficients over a field is given by its values at `n` different roots of
`x ^ n = c`, and its coefficients are sums over these values. The values of a product modulo
`x ^ n - c` are the products of the values.

## Main definitions

* `RootTransform.Nodes` — all roots of `x ^ n = c`.
* `RootTransform.transform`, `RootTransform.inverse` — the values, and the coefficients of values.
* `RootTransform.element` — the element of the quotient ring with some coefficients.

## Main results

* `RootTransform.inverse_transform` — the coefficients of the values are the coefficients.
* `RootTransform.element_inverse` — an element of the quotient ring is given by its values.
-/

open Polynomial

namespace RootTransform

variable {F : Type} [Field F] {n : ℕ}

/-- The nodes are all the roots of `x ^ n = c`. -/
structure Nodes (c : F) (r : Fin n → F) : Prop where
  injective : Function.Injective r
  pow_eq : ∀ k, r k ^ n = c
  ne_zero : c ≠ 0
  card_ne_zero : (n : F) ≠ 0

/-- The values at the nodes. -/
def transform (r p : Fin n → F) (k : Fin n) : F := ∑ i, p i * r k ^ (i : ℕ)

/-- The coefficients of some values. -/
def inverse (r v : Fin n → F) (i : Fin n) : F := (∑ k, v k * (r k)⁻¹ ^ (i : ℕ)) * (n : F)⁻¹

namespace Nodes

variable {c : F} {r : Fin n → F}

/-- Some value can be taken. -/
lemma pos (h : Nodes c r) : n ≠ 0 := by
  rintro rfl
  exact h.card_ne_zero Nat.cast_zero

/-- No node is zero. -/
lemma node_ne_zero (h : Nodes c r) (k : Fin n) : r k ≠ 0 := fun hzero =>
  h.ne_zero (by rw [← h.pow_eq k, hzero, zero_pow h.pos])

/-- **The powers of different nodes are orthogonal.** -/
lemma sum_pow_mul_inv_pow (h : Nodes c r) (k l : Fin n) :
    ∑ i : Fin n, (r k) ^ (i : ℕ) * (r l)⁻¹ ^ (i : ℕ) = if k = l then (n : F) else 0 := by
  split_ifs with heq
  · subst heq
    have hone : ∀ i : Fin n, (r k) ^ (i : ℕ) * (r k)⁻¹ ^ (i : ℕ) = 1 := fun i => by
      rw [← mul_pow, mul_inv_cancel₀ (h.node_ne_zero k), one_pow]
    simp only [hone, Finset.sum_const, Finset.card_univ, Fintype.card_fin, nsmul_eq_mul, mul_one]
  · -- a geometric sum whose ratio is another root of `x ^ n = 1`
    have hratio : r k * (r l)⁻¹ ≠ 1 := fun hone => heq (h.injective (by
      rwa [mul_inv_eq_one₀ (h.node_ne_zero l)] at hone))
    have hpow : (r k * (r l)⁻¹) ^ n = 1 := by
      rw [mul_pow, inv_pow, h.pow_eq, h.pow_eq, mul_inv_cancel₀ h.ne_zero]
    simp only [← mul_pow]
    rw [Fin.sum_univ_eq_sum_range fun i => (r k * (r l)⁻¹) ^ i, geom_sum_eq hratio, hpow, sub_self,
      zero_div]

/-- The values of the coefficients of values are the values. -/
lemma transform_inverse (h : Nodes c r) (v : Fin n → F) : transform r (inverse r v) = v := by
  funext k
  calc transform r (inverse r v) k
    _ = (∑ i : Fin n, ∑ l, v l * ((r k) ^ (i : ℕ) * (r l)⁻¹ ^ (i : ℕ))) * (n : F)⁻¹ := by
      rw [transform, Finset.sum_mul]
      refine Finset.sum_congr rfl fun i _ => ?_
      rw [inverse, mul_right_comm, Finset.sum_mul]
      exact congrArg (· * _) (Finset.sum_congr rfl fun l _ => by ring)
    _ = (∑ l, v l * ∑ i : Fin n, (r k) ^ (i : ℕ) * (r l)⁻¹ ^ (i : ℕ)) * (n : F)⁻¹ := by
      rw [Finset.sum_comm]
      simp only [Finset.mul_sum]
    _ = v k := by
      simp only [h.sum_pow_mul_inv_pow, mul_ite, mul_zero, Finset.sum_ite_eq, Finset.mem_univ,
        if_true]
      rw [mul_assoc, mul_inv_cancel₀ h.card_ne_zero, mul_one]

end Nodes

/-- Taking the values is linear. -/
def transformₗ (r : Fin n → F) : (Fin n → F) →ₗ[F] (Fin n → F) where
  toFun := transform r
  map_add' p p' := by
    funext k
    simp only [transform, Pi.add_apply, add_mul, Finset.sum_add_distrib]
  map_smul' a p := by
    funext k
    simp only [transform, Pi.smul_apply, smul_eq_mul, RingHom.id_apply, Finset.mul_sum, mul_assoc]

section Ring

variable {c : F} {r : Fin n → F}

/-- Different coefficients have different values. -/
lemma Nodes.transform_injective (h : Nodes c r) : Function.Injective (transform r) := by
  have hsurjective : Function.Surjective (transformₗ r) := fun v => ⟨_, h.transform_inverse v⟩
  exact LinearMap.injective_iff_surjective.mpr hsurjective

/-- **The coefficients of the values are the coefficients.** -/
theorem Nodes.inverse_transform (h : Nodes c r) (p : Fin n → F) :
    inverse r (transform r p) = p :=
  h.transform_injective (h.transform_inverse (transform r p))

variable (c) in
/-- The element of the quotient ring with some coefficients. -/
noncomputable def element (p : Fin n → F) : AdjoinRoot (X ^ n - C c : F[X]) :=
  ∑ i, AdjoinRoot.of _ (p i) * AdjoinRoot.root _ ^ (i : ℕ)

/-- The coefficients of a sum are the sums of the coefficients. -/
lemma element_add (p p' : Fin n → F) : element c (p + p') = element c p + element c p' := by
  simp only [element, Pi.add_apply, map_add, add_mul, Finset.sum_add_distrib]

/-- A node is a root. -/
lemma Nodes.eval₂_eq_zero (h : Nodes c r) (k : Fin n) :
    (X ^ n - C c : F[X]).eval₂ (RingHom.id F) (r k) = 0 := by
  rw [eval₂_sub, eval₂_X_pow, eval₂_C, RingHom.id_apply, h.pow_eq, sub_self]

/-- The value of an element of the quotient ring at a node. -/
noncomputable def Nodes.value (h : Nodes c r) (k : Fin n) :
    AdjoinRoot (X ^ n - C c : F[X]) →+* F :=
  AdjoinRoot.lift (RingHom.id F) (r k) (h.eval₂_eq_zero k)

/-- The values of an element are those of its coefficients. -/
lemma Nodes.value_element (h : Nodes c r) (p : Fin n → F) (k : Fin n) :
    h.value k (element c p) = transform r p k := by
  rw [element, map_sum, transform]
  refine Finset.sum_congr rfl fun i _ => ?_
  rw [map_mul, map_pow, Nodes.value, AdjoinRoot.lift_of, AdjoinRoot.lift_root, RingHom.id_apply]

/-- Every element of the quotient ring has coefficients. -/
lemma exists_element (hn : n ≠ 0) (x : AdjoinRoot (X ^ n - C c : F[X])) :
    ∃ p : Fin n → F, element c p = x := by
  obtain ⟨f, rfl⟩ := AdjoinRoot.mk_surjective x
  have hmonic : (X ^ n - C c : F[X]).Monic := monic_X_pow_sub_C c hn
  refine ⟨fun i => (f %ₘ (X ^ n - C c)).coeff i, ?_⟩
  have hdegree : (f %ₘ (X ^ n - C c)).natDegree < n := by
    have hlt := natDegree_modByMonic_lt f hmonic fun hone => hn (by
      have hzero := congrArg natDegree hone
      rwa [natDegree_X_pow_sub_C, natDegree_one] at hzero)
    rwa [natDegree_X_pow_sub_C] at hlt
  have hmod : AdjoinRoot.mk (X ^ n - C c) f = AdjoinRoot.mk (X ^ n - C c) (f %ₘ (X ^ n - C c)) :=
    AdjoinRoot.mk_eq_mk.mpr
      ⟨f /ₘ (X ^ n - C c), sub_eq_iff_eq_add'.mpr (modByMonic_add_div f _).symm⟩
  rw [hmod, element]
  generalize f %ₘ (X ^ n - C c) = g at hdegree
  conv_rhs => rw [g.as_sum_range' n hdegree, map_sum]
  rw [Fin.sum_univ_eq_sum_range fun i => AdjoinRoot.of _ (g.coeff i) * AdjoinRoot.root _ ^ i]
  refine Finset.sum_congr rfl fun i _ => ?_
  rw [← C_mul_X_pow_eq_monomial, map_mul, map_pow, AdjoinRoot.mk_C, AdjoinRoot.mk_X]

/-- **An element of the quotient ring is given by its values.** -/
theorem Nodes.element_inverse (h : Nodes c r) {v : Fin n → F}
    {x : AdjoinRoot (X ^ n - C c : F[X])} (hx : ∀ k, h.value k x = v k) :
    element c (inverse r v) = x := by
  obtain ⟨p, rfl⟩ := exists_element h.pos x
  have hv : transform r p = v := funext fun k => (h.value_element p k).symm.trans (hx k)
  rw [← hv, h.inverse_transform]

end Ring

end RootTransform
