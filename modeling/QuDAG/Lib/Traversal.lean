import Mathlib.Data.Finset.Card
import Mathlib.Data.List.Pairwise

/-!
# Closures and levels

A work list collects what can be reached from some nodes: it takes a node from the front, and puts
the successors of one that it has not seen before at the end. It ends if only finitely many nodes
have successors. A level walk replaces the nodes of a level by all their successors, so it lists a
node once for every walk that leads to it.

## Main definitions

* `Traversal.close` — the nodes that a work list collects.
* `Traversal.ends` — the level walk from a node.
* `Traversal.IsWalk` — a walk from one node to another, as the nodes after the first.
* `Traversal.UniqueWalks` — no two walks of a length lead to the same node.
* `Traversal.Cyclic` — some node can be reached from itself.

## Main results

* `Traversal.mem_close_iff` — a work list collects exactly what can be reached.
* `Traversal.mem_ends`, `Traversal.nodup_ends_iff` — a level has exactly the nodes that walks lead
  to, each once iff the walks are unique.
* `Traversal.cyclic_insert_iff` — when one more pair makes a relation cyclic.
-/

namespace Traversal

variable {ι : Type}

/-! ## Work lists -/

section WorkList

variable [DecidableEq ι]

/-- The nodes that are collected from a queue, on top of those found so far. Only nodes of `U` have
successors. -/
def close (next : ι → List ι) (U : Finset ι) (hU : ∀ v ∉ U, next v = []) (found : Finset ι) :
    List ι → Finset ι
  | [] => found
  | v :: queue =>
    if v ∈ found then close next U hU found queue
    else close next U hU (insert v found) (queue ++ next v)
termination_by queue => ((U \ found).card, queue.length)
decreasing_by
  · exact Prod.Lex.right _ (Nat.lt_succ_self _)
  · rename_i hv
    by_cases hmem : v ∈ U
    · refine Prod.Lex.left _ _ (Finset.card_lt_card ?_)
      refine Finset.ssubset_iff_subset_ne.mpr ⟨?_, fun heq => ?_⟩
      · exact Finset.sdiff_subset_sdiff (Finset.Subset.refl U) (Finset.subset_insert v found)
      · have hin : v ∈ U \ found := Finset.mem_sdiff.mpr ⟨hmem, hv⟩
        rw [← heq] at hin
        exact (Finset.mem_sdiff.mp hin).2 (Finset.mem_insert_self v found)
    · have hsame : U \ insert v found = U \ found := by
        ext u
        rw [Finset.mem_sdiff, Finset.mem_sdiff, Finset.mem_insert, not_or]
        exact and_congr_right fun hu => and_iff_right fun heq => hmem (heq ▸ hu)
      rw [hsame, hU v hmem, List.append_nil]
      exact Prod.Lex.right _ (Nat.lt_succ_self _)

variable {next : ι → List ι} {U : Finset ι} {hU : ∀ v ∉ U, next v = []} {found : Finset ι}
  {queue : List ι}

/-- A node that was found before is skipped. -/
lemma close_of_mem {v : ι} (hv : v ∈ found) :
    close next U hU found (v :: queue) = close next U hU found queue := by
  rw [close, if_pos hv]

/-- The successors of a node that was not found before are added. -/
lemma close_of_notMem {v : ι} (hv : v ∉ found) :
    close next U hU found (v :: queue) =
      close next U hU (insert v found) (queue ++ next v) := by
  rw [close, if_neg hv]

/-- One node can be reached from another. -/
def Reaches (next : ι → List ι) (a b : ι) : Prop :=
  Relation.ReflTransGen (fun a b => b ∈ next a) a b

/-- What is collected was found before or can be reached from the queue; what was found and what is
queued is collected; and with a node that was not found before its successors are collected. -/
structure Collected (next : ι → List ι) (found : Finset ι) (queue : List ι) (r : Finset ι) :
    Prop where
  /-- What was found stays. -/
  subset : found ⊆ r
  /-- What is queued is collected. -/
  queued : ∀ v ∈ queue, v ∈ r
  /-- Nothing else is. -/
  sound : ∀ u ∈ r, u ∈ found ∨ ∃ v ∈ queue, Reaches next v u
  /-- The successors of what is new. -/
  closed : ∀ u ∈ r, u ∉ found → ∀ c ∈ next u, c ∈ r

/-- **A work list collects** what it should.

**Proof sketch.** Induction on the iterations. -/
lemma collected_close : Collected next found queue (close next U hU found queue) := by
  induction found, queue using close.induct next U hU with
  | case1 found =>
    rw [close]
    exact ⟨Finset.Subset.refl _, by simp, fun u hu => .inl hu, fun u hu hnot => absurd hu hnot⟩
  | case2 found v queue hv ih =>
    rw [close_of_mem hv]
    refine ⟨ih.subset, ?_, fun u hu => ?_, ih.closed⟩
    · exact List.forall_mem_cons.mpr ⟨ih.subset hv, ih.queued⟩
    · exact (ih.sound u hu).imp_right fun ⟨w, hw, hreach⟩ => ⟨w, .tail _ hw, hreach⟩
  | case3 found v queue hv ih =>
    rw [close_of_notMem hv]
    have hself : v ∈ close next U hU (insert v found) (queue ++ next v) :=
      ih.subset (Finset.mem_insert_self v found)
    refine ⟨fun u hu => ih.subset (Finset.mem_insert_of_mem hu), ?_, fun u hu => ?_,
      fun u hu hnot c hc => ?_⟩
    · exact List.forall_mem_cons.mpr
        ⟨hself, fun w hw => ih.queued w (List.mem_append_left _ hw)⟩
    · rcases ih.sound u hu with hfound | ⟨w, hw, hreach⟩
      · rcases Finset.mem_insert.mp hfound with rfl | hfound
        · exact .inr ⟨u, .head _, .refl⟩
        · exact .inl hfound
      · rcases List.mem_append.mp hw with hw | hw
        · exact .inr ⟨w, .tail _ hw, hreach⟩
        · exact .inr ⟨v, .head _, .head hw hreach⟩
    · by_cases huv : u = v
      · exact ih.queued c (List.mem_append_right _ (huv ▸ hc))
      · exact ih.closed u hu (fun hmem => (Finset.mem_insert.mp hmem).elim huv hnot) c hc

/-- **A work list that starts with nothing collects exactly what can be reached** from its queue. -/
theorem mem_close_iff {u : ι} :
    u ∈ close next U hU ∅ queue ↔ ∃ v ∈ queue, Reaches next v u := by
  have h := @collected_close ι _ next U hU ∅ queue
  constructor
  · exact fun hu => (h.sound u hu).resolve_left (Finset.notMem_empty u)
  · rintro ⟨v, hv, hreach⟩
    induction hreach with
    | refl => exact h.queued v hv
    | tail _ hc ih => exact h.closed _ ih (Finset.notMem_empty _) _ hc

end WorkList

/-! ## Level walks -/

section Levels

/-- The nodes of a level, after a number of steps from a node. -/
def ends (next : ι → List ι) : ℕ → ι → List ι
  | 0, a => [a]
  | n + 1, a => (next a).flatMap (ends next n)

/-- The nodes of the list are those of a walk after its first node; it leads to the last node. -/
def IsWalk (R : ι → ι → Prop) : ι → List ι → ι → Prop
  | a, [], v => a = v
  | a, b :: l, v => R a b ∧ IsWalk R b l v

/-- A walk splits into two at each of its nodes. -/
lemma isWalk_append {R : ι → ι → Prop} {l l' : List ι} {v : ι} : ∀ {a : ι},
    IsWalk R a (l ++ l') v ↔ ∃ b, IsWalk R a l b ∧ IsWalk R b l' v := by
  induction l with
  | nil => simp [IsWalk]
  | cons c l ih => simp [IsWalk, ih, and_assoc]

/-- No two walks of the length lead to the same node. -/
def UniqueWalks (R : ι → ι → Prop) (n : ℕ) (a : ι) : Prop :=
  ∀ v l l', l.length = n → l'.length = n → IsWalk R a l v → IsWalk R a l' v → l = l'

variable {next : ι → List ι} {R : ι → ι → Prop} (hR : ∀ a b, b ∈ next a ↔ R a b)
include hR

/-- **A level has the nodes that walks of its length lead to.** -/
theorem mem_ends {n : ℕ} : ∀ {a v : ι}, v ∈ ends next n a ↔
    ∃ l : List ι, l.length = n ∧ IsWalk R a l v := by
  induction n with
  | zero =>
    intro a v
    rw [ends, List.mem_singleton]
    constructor
    · exact fun h => ⟨[], rfl, h.symm⟩
    · rintro ⟨l, hl, hwalk⟩
      obtain rfl := List.length_eq_zero_iff.mp hl
      exact hwalk.symm
  | succ n ih =>
    intro a v
    rw [ends, List.mem_flatMap]
    constructor
    · rintro ⟨b, hb, hv⟩
      obtain ⟨l, hl, hwalk⟩ := ih.mp hv
      exact ⟨b :: l, congrArg (· + 1) hl, (hR a b).mp hb, hwalk⟩
    · rintro ⟨l, hl, hwalk⟩
      cases l with
      | nil => cases hl
      | cons b l => exact ⟨b, (hR a b).mpr hwalk.1, ih.mpr ⟨l, Nat.succ.inj hl, hwalk.2⟩⟩

/-- **A level has every node once iff walks of its length are unique.**

**Proof sketch.** Induction on the length. The levels below the successors of a node have every
node once by the induction hypothesis, and no two of them have a node in common, because a walk
below one successor is not a walk below another. -/
theorem nodup_ends_iff (hnext : ∀ a, (next a).Nodup) {n : ℕ} :
    ∀ {a : ι}, (ends next n a).Nodup ↔ UniqueWalks R n a := by
  induction n with
  | zero =>
    intro a
    refine iff_of_true (List.nodup_singleton a) fun v l l' hl hl' _ _ => ?_
    rw [List.length_eq_zero_iff.mp hl, List.length_eq_zero_iff.mp hl']
  | succ n ih =>
    intro a
    rw [ends, List.nodup_flatMap]
    constructor
    · rintro ⟨hbelow, hdisjoint⟩ v l l' hl hl' hwalk hwalk'
      cases l with
      | nil => cases hl
      | cons b l =>
        cases l' with
        | nil => cases hl'
        | cons b' l' =>
          obtain ⟨hb, hwalk⟩ := hwalk
          obtain ⟨hb', hwalk'⟩ := hwalk'
          replace hl : l.length = n := Nat.succ.inj hl
          replace hl' : l'.length = n := Nat.succ.inj hl'
          have hsame : b = b' := by
            by_contra hne
            have : Std.Symm (Function.onFun List.Disjoint (ends next n)) :=
              ⟨fun _ _ h => List.Disjoint.symm h⟩
            have hapart := hdisjoint.forall ((hR a b).mpr hb) ((hR a b').mpr hb') hne
            exact hapart ((mem_ends hR).mpr ⟨l, hl, hwalk⟩) ((mem_ends hR).mpr ⟨l', hl', hwalk'⟩)
          subst hsame
          rw [ih.mp (hbelow b ((hR a b).mpr hb)) v l l' hl hl' hwalk hwalk']
    · intro hunique
      refine ⟨fun b hb => ih.mpr fun v l l' hl hl' hwalk hwalk' => ?_, ?_⟩
      · exact (List.cons.inj (hunique v (b :: l) (b :: l') (congrArg (· + 1) hl)
          (congrArg (· + 1) hl') ⟨(hR a b).mp hb, hwalk⟩ ⟨(hR a b).mp hb, hwalk'⟩)).2
      · refine (hnext a).imp_of_mem fun {b b'} hb hb' hne => ?_
        show List.Disjoint (ends next n b) (ends next n b')
        intro v hv hv'
        obtain ⟨l, hl, hwalk⟩ := (mem_ends hR).mp hv
        obtain ⟨l', hl', hwalk'⟩ := (mem_ends hR).mp hv'
        exact hne (List.cons.inj (hunique v (b :: l) (b' :: l') (congrArg (· + 1) hl)
          (congrArg (· + 1) hl') ⟨(hR a b).mp hb, hwalk⟩ ⟨(hR a b').mp hb', hwalk'⟩)).1

end Levels

/-! ## Cycles -/

/-- Some element can be reached from itself. -/
def Cyclic (R : ι → ι → Prop) : Prop := ∃ v, Relation.TransGen R v v

variable {R : ι → ι → Prop}

/-- What can be reached with one more pair: what could be reached before, or through the pair. -/
lemma transGen_or_pair {p c a b : ι}
    (h : Relation.TransGen (fun a b => R a b ∨ (a = p ∧ b = c)) a b) :
    Relation.TransGen R a b ∨ (Relation.ReflTransGen R a p ∧ Relation.ReflTransGen R c b) := by
  induction h with
  | single hab =>
    rcases hab with hab | ⟨rfl, rfl⟩
    · exact .inl (.single hab)
    · exact .inr ⟨.refl, .refl⟩
  | tail _ hbd ih =>
    rcases hbd with hbd | ⟨rfl, rfl⟩
    · exact ih.imp (·.tail hbd) fun h => ⟨h.1, h.2.tail hbd⟩
    · exact .inr ⟨ih.elim Relation.TransGen.to_reflTransGen And.left, .refl⟩

/-- **One more pair makes a relation cyclic** iff it is a loop, or its first element can be reached
from its second. -/
theorem cyclic_insert_iff (hR : ¬ Cyclic R) {p c : ι} :
    Cyclic (fun a b => R a b ∨ (a = p ∧ b = c)) ↔ p = c ∨ Relation.TransGen R c p := by
  constructor
  · rintro ⟨v, hv⟩
    rcases transGen_or_pair hv with hold | ⟨hvp, hcv⟩
    · exact absurd ⟨v, hold⟩ hR
    · exact (Relation.reflTransGen_iff_eq_or_transGen.mp (hcv.trans hvp)).imp_left fun h => h
  · rintro (rfl | h)
    · exact ⟨p, .single (.inr ⟨rfl, rfl⟩)⟩
    · exact ⟨p, .head (.inr ⟨rfl, rfl⟩) (Relation.TransGen.mono (fun _ _ => .inl) _ _ h)⟩

end Traversal
