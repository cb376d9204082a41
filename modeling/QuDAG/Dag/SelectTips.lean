import Mathlib.Data.List.GetD
import QuDAG.Dag.TipWeights
import QuDAG.Lib.Traversal
import QuDAG.Lib.WeightedChoice

/-!
# The selection of tips (`tip_selection.rs`)

How `select_tips` chooses parents. The random and the weighted selection take away one tip after the
other, so they return different tips. The walk starts at a vertex without known children and follows
children, but only for the configured number of steps: where it stops after them need not be a tip.

## Main definitions

* `AdvancedTipSelection.Draws` — what the random generator and the hash tables give.
* `AdvancedTipSelection.selectTips` — the selection.
* `AdvancedTipSelection.Selects` — different tips were selected, at least one and not more than are
  wanted.
* `AdvancedTipSelection.WalksEnd` — every walk of the full length ends at a tip.
* `AdvancedTipSelection.LongChain` — a chain of children with more steps than a walk has.

## Main results

* `AdvancedTipSelection.selects_iff` — the states in which all draws select tips.

## Implementation notes

Floats are exact numbers here, and the exponential is any positive function.
-/

namespace QuDAG

open RustStd

/-- Errors that can occur during tip selection. -/
inductive TipSelectionError
  | noValidTips
  | invalidTip
  | selectionFailed
  | mcmcWalkFailed (reason : String)
  | weightCalculationFailed
  deriving DecidableEq, Repr

/-- Tip selection algorithm configuration: how many tips are selected, the length of a walk and the
parameter of its weights. -/
structure TipSelectionConfig where
  tipCount : ℕ
  mcmcWalkLength : ℕ
  alpha : ℚ

/-- Parent selection algorithm type. -/
inductive ParentSelectionAlgorithm
  | random
  | weightedRandom
  | mcmcWalk
  deriving DecidableEq, Repr

/-- Check a configuration. -/
def TipSelectionConfig.init (config : TipSelectionConfig) : Except TipSelectionError Unit :=
  if config.tipCount = 0 then .error .selectionFailed
  else if config.mcmcWalkLength = 0 then
    .error (.mcmcWalkFailed "Walk length must be positive")
  else .ok ()

namespace AdvancedTipSelection

/-! ## Draws -/

/-- One draw: an index below a bound, a number of the unit interval, and the order in which a set is
seen. -/
structure Draw where
  index : ℕ → ℕ
  index_lt : ∀ n, 0 < n → index n < n
  unit : ℚ
  unit_nonneg : 0 ≤ unit
  unit_lt_one : unit < 1
  it : HashSet.Iteration VertexId

/-- The draws of a call: one in each round, one for each step of its walk, and one for the fallback
of the round. -/
structure Draws where
  round : ℕ → Draw
  step : ℕ → ℕ → Draw
  fallback : ℕ → Draw

/-- An index within the elements of a set. -/
lemma Draw.index_lt_length (draw : Draw) {s : HashSet VertexId} (h : s.Nonempty) :
    draw.index (draw.it.order s).length < (draw.it.order s).length := by
  obtain ⟨v, hv⟩ := h
  exact draw.index_lt _ (List.length_pos_of_mem (HashSet.Iteration.mem_order.mpr hv))

/-- An element of a set. -/
def Draw.oneOf (draw : Draw) (s : HashSet VertexId) (h : s.Nonempty) : VertexId :=
  (draw.it.order s).get ⟨_, draw.index_lt_length h⟩

/-- An index by weights, or any index if all weights are zero. -/
def Draw.choose (draw : Draw) (weights : List ℚ) : Option ℕ :=
  let totalWeight := WeightedChoice.total 0 weights
  if totalWeight = 0 then some (draw.index weights.length)
  else WeightedChoice.pick (draw.unit * totalWeight) 0 weights

/-! ## The algorithms -/

variable (exp : ℚ → ℚ) (config : TipSelectionConfig) (self : AdvancedTipSelection)

/-- The cumulative weight of a vertex, one if it has no weight yet. -/
def weightOf (v : VertexId) : ℕ :=
  ((self.weights.lookup v).map VertexWeight.cumulativeWeight).getD 1

/-- The next vertex of a walk. -/
def nextVertex (draw : Draw) (current : VertexId) : VertexId :=
  let candidates := draw.it.order (self.reverseAdjacency.members current)
  match draw.choose (candidates.map fun child => exp (-config.alpha * self.weightOf child)) with
  | some i => candidates.getD i current
  | none => current

/-- Perform MCMC walk for tip selection. -/
def mcmcWalk : (steps : ℕ) → (ℕ → Draw) → VertexId → Except TipSelectionError VertexId
  | 0, _, current => .ok current
  | steps + 1, draws, current =>
    -- reached a tip
    if self.reverseAdjacency.members current = ∅ then .ok current
    else mcmcWalk steps (fun i => draws (i + 1)) (nextVertex exp config self (draws 0) current)

/-- The rounds of the weighted selection from the tips that are left. -/
def weightedRounds : (rounds : ℕ) → (ℕ → Draw) → List VertexId → List VertexId
  | 0, _, _ => []
  | rounds + 1, draws, available =>
    if available.isEmpty then []
    else
      match (draws 0).choose (available.map fun tip => (self.weightOf tip : ℚ)) with
      | some i =>
        match available[i]? with
        | some tip => tip :: weightedRounds rounds (fun i => draws (i + 1)) (available.eraseIdx i)
        | none => []
      | none => weightedRounds rounds (fun i => draws (i + 1)) available

/-- Weighted random selection from tips. -/
def weightedRandomSelection (draws : ℕ → Draw) : Except TipSelectionError (List VertexId) :=
  if self.tips = ∅ then .error .noValidTips
  else
    let availableTips := (draws 0).it.order self.tips
    .ok (self.weightedRounds (min config.tipCount availableTips.length) draws availableTips)

/-- Random selection from tips. -/
def randomSelection (draws : ℕ → Draw) : Except TipSelectionError (List VertexId) :=
  if self.tips = ∅ then .error .noValidTips
  else
    let tips := (draws 0).it.order self.tips
    -- shuffle and take the required number
    let tips := (List.range tips.length).foldl (fun tips i =>
      tips.swap i (i + (draws i).index (tips.length - i))) tips
    .ok (tips.take config.tipCount)

/-- The vertices without known children when their weights were computed. -/
def startCandidates : HashSet VertexId :=
  self.weights.keys.filter fun id => (self.weights.lookup id).map VertexWeight.approvers = some 0

/-- The vertices that a walk can start from, all tips if there are no candidates. -/
def starts : HashSet VertexId :=
  if self.startCandidates = ∅ then self.tips else self.startCandidates

/-- There is a start if there is a tip. -/
lemma starts_nonempty {self : AdvancedTipSelection} (h : self.tips.Nonempty) :
    self.starts.Nonempty := by
  unfold starts
  split_ifs with hnone
  · exact h
  · exact Finset.nonempty_iff_ne_empty.mpr hnone

/-- Add what was not selected before. -/
def pushNew (selected : List VertexId) (tip : VertexId) : List VertexId :=
  if tip ∈ selected then selected else selected ++ [tip]

/-- Select tips for a new vertex. -/
def selectTips (algorithm : ParentSelectionAlgorithm) (draws : Draws) :
    Except TipSelectionError (List VertexId) :=
  match algorithm with
  | .random => self.randomSelection config draws.round
  | .weightedRandom => self.weightedRandomSelection config draws.round
  | .mcmcWalk =>
    if h : self.tips.Nonempty then
      .ok ((List.range config.tipCount).foldl (fun selected k =>
        let start := (draws.round k).oneOf self.starts (starts_nonempty h)
        match mcmcWalk exp config self config.mcmcWalkLength (draws.step k) start with
        | .ok tip => pushNew selected tip
        | .error _ => pushNew selected ((draws.fallback k).oneOf self.tips h)) [])
    else .error .noValidTips

/-! ## What a selection is for -/

/-- Different tips were selected, at least one and not more than are wanted. -/
def Selects (r : Except TipSelectionError (List VertexId)) : Prop :=
  ∃ l, r = .ok l ∧ l ≠ [] ∧ l.Nodup ∧ (∀ v ∈ l, v ∈ self.tips) ∧ l.length ≤ config.tipCount

/-- A vertex is a child of another. -/
def IsChild (p c : VertexId) : Prop := c ∈ self.reverseAdjacency.members p

/-- Every walk of the full length from a start ends at a tip. -/
def WalksEnd : Prop :=
  ∀ v ∈ self.starts, ∀ (l : List VertexId) u, l.length = config.mcmcWalkLength →
    Traversal.IsWalk self.IsChild v l u → u ∈ self.tips

/-- Every vertex was added once, after its parents. -/
def ParentFirst (calls : List Call) : Prop :=
  ∀ earlier c later, calls = earlier ++ c :: later →
    c.vertex.id ∉ added earlier ∧ ∀ p ∈ c.vertex.parents, p ∈ added earlier

/-- From an added vertex there is a chain of children with more steps than a walk has. -/
def LongChain (calls : List Call) : Prop :=
  ∃ v ∈ added calls, ∃ (l : List VertexId) (u : VertexId), config.mcmcWalkLength < l.length ∧
    Traversal.IsWalk (fun p c => c ∈ children calls p) v l u

/-! ## What draws can give -/

variable {exp config self} {draw : Draw} {s : HashSet VertexId} {u v c p : VertexId}
  {weights : List ℚ} {calls : List Call} {n : ℕ}

/-- An element that is drawn is one of the set. -/
lemma Draw.oneOf_mem (h : s.Nonempty) : draw.oneOf s h ∈ s :=
  HashSet.Iteration.mem_order.mp (List.get_mem _ _)

/-- A draw that gives the index, if it is below the bound, and the number. -/
def Draw.fixed (i : ℕ) (unit : ℚ) (hunit : 0 ≤ unit ∧ unit < 1) : Draw where
  index n := if i < n then i else 0
  index_lt n hn := by
    split_ifs with h
    · exact h
    · exact hn
  unit := unit
  unit_nonneg := hunit.1
  unit_lt_one := hunit.2
  it := .sorted

/-- Every element of a set can be drawn. -/
lemma exists_oneOf (h : s.Nonempty) (hv : v ∈ s) : ∃ draw : Draw, draw.oneOf s h = v := by
  have hmem : v ∈ (HashSet.Iteration.sorted.order s) := HashSet.Iteration.mem_order.mpr hv
  obtain ⟨i, hi, hget⟩ := List.mem_iff_getElem.mp hmem
  refine ⟨.fixed i 0 (by norm_num), ?_⟩
  have hindex : (if i < (HashSet.Iteration.sorted.order s).length then i else 0) = i := if_pos hi
  have hsome : (HashSet.Iteration.sorted.order s)[if i < (HashSet.Iteration.sorted.order s).length
      then i else 0]? = some v := by rw [hindex, List.getElem?_eq_getElem hi, hget]
  exact Option.some.inj ((List.getElem?_eq_getElem _).symm.trans hsome)

/-- A choice among weights that are not negative is an index. -/
lemma Draw.choose_lt (hne : weights ≠ []) (hpos : ∀ w ∈ weights, 0 ≤ w) :
    ∃ i, draw.choose weights = some i ∧ i < weights.length := by
  have htotal : 0 ≤ WeightedChoice.total 0 weights := WeightedChoice.le_total hpos
  simp only [Draw.choose]
  split_ifs with hzero
  · exact ⟨_, rfl, draw.index_lt _ (List.length_pos_of_ne_nil hne)⟩
  · have hle : draw.unit * WeightedChoice.total 0 weights ≤ WeightedChoice.total 0 weights :=
      mul_le_of_le_one_left htotal draw.unit_lt_one.le
    obtain ⟨i, hi⟩ := WeightedChoice.exists_pick_of_le hne hle
    exact ⟨i, hi, WeightedChoice.lt_of_pick hi⟩

/-- Every index can be chosen among positive weights. -/
lemma exists_choose (hpos : ∀ w ∈ weights, 0 < w) {i : ℕ} (hi : i < weights.length) :
    ∃ draw : Draw, draw.it = .sorted ∧ draw.choose weights = some i := by
  obtain ⟨target, hlow, hhigh, hpick⟩ := WeightedChoice.exists_target hpos hi
  have htotal : 0 < WeightedChoice.total 0 weights := lt_trans hlow hhigh
  refine ⟨.fixed 0 (target / WeightedChoice.total 0 weights)
    ⟨(div_pos hlow htotal).le, (div_lt_one htotal).mpr hhigh⟩, rfl, ?_⟩
  have htarget : target / WeightedChoice.total 0 weights * WeightedChoice.total 0 weights =
      target := div_mul_cancel₀ target htotal.ne'
  unfold Draw.choose
  rw [if_neg htotal.ne']
  exact (congrArg (fun t => WeightedChoice.pick t 0 weights) htarget).trans hpick

/-! ## Walks -/

section Walks

variable (hexp : ∀ x, 0 < exp x)
include hexp

/-- A walk goes on to a child. -/
lemma isChild_nextVertex (h : self.reverseAdjacency.members v ≠ ∅) :
    self.IsChild v (nextVertex exp config self draw v) := by
  have hne : draw.it.order (self.reverseAdjacency.members v) ≠ [] := by
    obtain ⟨c, hc⟩ := Finset.nonempty_iff_ne_empty.mpr h
    exact List.ne_nil_of_mem (HashSet.Iteration.mem_order.mpr hc)
  obtain ⟨i, hi, hlt⟩ := @Draw.choose_lt draw
    ((draw.it.order (self.reverseAdjacency.members v)).map fun child =>
      exp (-config.alpha * self.weightOf child)) (fun hnil => hne (List.map_eq_nil_iff.mp hnil))
    (fun w hw => by
      obtain ⟨child, -, rfl⟩ := List.mem_map.mp hw
      exact (hexp _).le)
  rw [List.length_map] at hlt
  unfold nextVertex IsChild
  simp only [hi]
  rw [List.getD_eq_getElem _ _ hlt]
  exact HashSet.Iteration.mem_order.mp (List.getElem_mem hlt)

/-- A walk can go on to every child. -/
lemma exists_nextVertex (h : self.IsChild v c) :
    ∃ draw : Draw, nextVertex exp config self draw v = c := by
  have hmem : c ∈ HashSet.Iteration.sorted.order (self.reverseAdjacency.members v) :=
    HashSet.Iteration.mem_order.mpr h
  obtain ⟨i, hi, hget⟩ := List.mem_iff_getElem.mp hmem
  have hlt : i < ((HashSet.Iteration.sorted.order (self.reverseAdjacency.members v)).map
      fun child => exp (-config.alpha * self.weightOf child)).length := by
    rw [List.length_map]
    exact hi
  obtain ⟨draw, hit, hchoose⟩ := exists_choose (fun w hw => by
    obtain ⟨child, -, rfl⟩ := List.mem_map.mp hw
    exact hexp _) hlt
  refine ⟨draw, ?_⟩
  unfold nextVertex
  simp only [hit, hchoose]
  rw [List.getD_eq_getElem _ _ hi, hget]

/-- **A walk** follows children, and stops before its full length only at a vertex without any. -/
lemma mcmcWalk_spec {steps : ℕ} : ∀ {draws : ℕ → Draw} {v : VertexId},
    ∃ l u, mcmcWalk exp config self steps draws v = .ok u ∧ Traversal.IsWalk self.IsChild v l u ∧
      (l.length = steps ∨ self.reverseAdjacency.members u = ∅) := by
  induction steps with
  | zero => exact fun {_ v} => ⟨[], v, rfl, rfl, .inl rfl⟩
  | succ steps ih =>
    intro draws v
    by_cases hnone : self.reverseAdjacency.members v = ∅
    · exact ⟨[], v, by rw [mcmcWalk, if_pos hnone], rfl, .inr hnone⟩
    · obtain ⟨l, u, hwalk, his, hend⟩ := @ih (fun i => draws (i + 1))
        (nextVertex exp config self (draws 0) v)
      refine ⟨_ :: l, u, ?_, ⟨isChild_nextVertex hexp hnone, his⟩, ?_⟩
      · rw [mcmcWalk, if_neg hnone, hwalk]
      · exact hend.imp_left fun hl => by rw [List.length_cons, hl]

/-- **Every walk can be drawn**. -/
lemma exists_mcmcWalk : ∀ {l : List VertexId} {v : VertexId}, Traversal.IsWalk self.IsChild v l u →
    ∃ draws, mcmcWalk exp config self l.length draws v = .ok u
  | [], v, h => by
    obtain ⟨draw⟩ : Nonempty Draw := ⟨.fixed 0 0 (by norm_num)⟩
    exact ⟨fun _ => draw, congrArg Except.ok h⟩
  | c :: l, v, h => by
    obtain ⟨draw, hdraw⟩ := @exists_nextVertex exp config self v c hexp h.1
    obtain ⟨draws, hdraws⟩ := exists_mcmcWalk h.2
    refine ⟨fun i => Nat.casesOn i draw draws, ?_⟩
    have hsome : self.reverseAdjacency.members v ≠ ∅ :=
      Finset.nonempty_iff_ne_empty.mp ⟨c, h.1⟩
    rw [List.length_cons, mcmcWalk, if_neg hsome]
    exact (congrArg (mcmcWalk exp config self l.length draws) hdraw).trans hdraws

end Walks

/-! ## The three selections -/

/-- **The weighted selection** takes away one tip after the other. -/
lemma weightedRounds_spec {rounds : ℕ} : ∀ {draws : ℕ → Draw} {available : List VertexId},
    available.Nodup →
      let r := self.weightedRounds rounds draws available
      r.Nodup ∧ r ⊆ available ∧ r.length ≤ rounds ∧ (0 < rounds → available ≠ [] → r ≠ []) := by
  induction rounds with
  | zero =>
    intro draws available _
    exact ⟨List.nodup_nil, List.nil_subset _, le_refl 0, fun h => absurd h (lt_irrefl 0)⟩
  | succ rounds ih =>
    intro draws available hnodup
    by_cases hnone : available = []
    · subst hnone
      exact ⟨List.nodup_nil, List.nil_subset _, Nat.zero_le _, fun _ h => absurd rfl h⟩
    · obtain ⟨i, hi, hlt⟩ := @Draw.choose_lt (draws 0)
        (available.map fun tip => (self.weightOf tip : ℚ))
        (fun hnil => hnone (List.map_eq_nil_iff.mp hnil))
        (fun w hw => by
          obtain ⟨tip, -, rfl⟩ := List.mem_map.mp hw
          exact Nat.cast_nonneg _)
      rw [List.length_map] at hlt
      have hperm : available.Perm (available[i] :: available.eraseIdx i) :=
        (List.getElem_cons_eraseIdx_perm hlt).symm
      have hcons := hperm.nodup_iff.mp hnodup
      obtain ⟨hrest, hsubset, hlength, -⟩ :=
        @ih (fun i => draws (i + 1)) (available.eraseIdx i) (List.nodup_cons.mp hcons).2
      have hround : self.weightedRounds (rounds + 1) draws available =
          available[i] :: self.weightedRounds rounds (fun i => draws (i + 1))
            (available.eraseIdx i) := by
        rw [weightedRounds, if_neg (by simpa using hnone)]
        simp only [hi, List.getElem?_eq_getElem hlt]
      simp only [hround]
      refine ⟨List.nodup_cons.mpr ⟨fun hmem => ?_, hrest⟩, fun v hv => ?_,
        Nat.succ_le_succ hlength, fun _ _ => List.cons_ne_nil _ _⟩
      · exact (List.nodup_cons.mp hcons).1 (hsubset hmem)
      · rcases List.mem_cons.mp hv with rfl | hv
        · exact List.getElem_mem hlt
        · exact List.mem_of_mem_eraseIdx (hsubset hv)

/-- The weighted selection selects tips. -/
lemma selects_weightedRandomSelection (htips : self.tips.Nonempty) (hcount : 0 < config.tipCount)
    (draws : ℕ → Draw) :
    Selects config self (self.weightedRandomSelection config draws) := by
  obtain ⟨v, hv⟩ := htips
  have hmem : v ∈ (draws 0).it.order self.tips := HashSet.Iteration.mem_order.mpr hv
  obtain ⟨hnodup, hsubset, hlength, hne⟩ := @weightedRounds_spec self
    (min config.tipCount ((draws 0).it.order self.tips).length) draws
    ((draws 0).it.order self.tips) ((draws 0).it.enumerates self.tips).1
  refine ⟨_, by rw [weightedRandomSelection, if_neg (Finset.ne_empty_of_mem hv)], ?_, hnodup,
    fun u hu => HashSet.Iteration.mem_order.mp (hsubset hu), le_trans hlength (min_le_left _ _)⟩
  exact hne (lt_min hcount (List.length_pos_of_mem hmem)) (List.ne_nil_of_mem hmem)

/-- Exchanges only change the order. -/
lemma foldl_swap_perm {f : ℕ → List VertexId → ℕ} {ks : List ℕ} : ∀ {l : List VertexId},
    (ks.foldl (fun l i => l.swap i (f i l)) l).Perm l := by
  induction ks with
  | nil => exact fun {l} => .refl l
  | cons k ks ih => exact fun {l} => ih.trans (List.swap_perm l k _)

/-- The random selection selects tips. -/
lemma selects_randomSelection (htips : self.tips.Nonempty) (hcount : 0 < config.tipCount)
    (draws : ℕ → Draw) : Selects config self (self.randomSelection config draws) := by
  obtain ⟨v, hv⟩ := htips
  have hperm := @foldl_swap_perm (fun i l => i + (draws i).index (l.length - i))
    (List.range ((draws 0).it.order self.tips).length) ((draws 0).it.order self.tips)
  have hmem := hperm.mem_iff.mpr (HashSet.Iteration.mem_order.mpr hv)
  refine ⟨_, by rw [randomSelection, if_neg (Finset.ne_empty_of_mem hv)], fun hnil => ?_, ?_,
    fun u hu => ?_, List.length_take_le _ _⟩
  · rcases List.take_eq_nil_iff.mp hnil with hzero | hnil
    · exact hcount.ne' hzero
    · exact List.ne_nil_of_mem hmem hnil
  · exact (List.take_sublist _ _).nodup
      (hperm.nodup_iff.mpr ((draws 0).it.enumerates self.tips).1)
  · exact HashSet.Iteration.mem_order.mp (hperm.mem_iff.mp (List.mem_of_mem_take hu))

/-- Adding only what is new gives every value once. -/
lemma foldl_pushNew {f : ℕ → VertexId} : ∀ {n : ℕ},
    let r := (List.range n).foldl (fun selected k => pushNew selected (f k)) []
    r.Nodup ∧ (∀ v, v ∈ r ↔ ∃ k < n, f k = v) ∧ r.length ≤ n
  | 0 => by simp
  | n + 1 => by
    obtain ⟨hnodup, hmem, hlength⟩ := @foldl_pushNew f n
    simp only [List.range_succ, List.foldl_append, List.foldl_cons, List.foldl_nil]
    generalize (List.range n).foldl (fun selected k => pushNew selected (f k)) [] = r at *
    have hsplit : ∀ v, (∃ k < n + 1, f k = v) ↔ (∃ k < n, f k = v) ∨ f n = v :=
      fun v => Nat.exists_lt_succ_right
    unfold pushNew
    split_ifs with hin
    · refine ⟨hnodup, fun v => ?_, Nat.le_succ_of_le hlength⟩
      rw [hsplit, ← hmem]
      exact ⟨.inl, fun h => h.elim id fun heq => heq ▸ hin⟩
    · refine ⟨?_, fun v => ?_, ?_⟩
      · exact List.nodup_append.mpr ⟨hnodup, List.nodup_singleton _, fun a ha b hb hab =>
          hin (List.mem_singleton.mp hb ▸ hab ▸ ha)⟩
      · rw [hsplit, ← hmem, List.mem_append, List.mem_singleton, @eq_comm _ v]
      · rw [List.length_append]
        exact Nat.succ_le_succ hlength

/-- What the walks select. -/
lemma selectTips_mcmcWalk (hexp : ∀ x, 0 < exp x) (htips : self.tips.Nonempty) (draws : Draws) :
    ∃ f : ℕ → VertexId, selectTips exp config self .mcmcWalk draws =
        .ok ((List.range config.tipCount).foldl (fun selected k => pushNew selected (f k)) []) ∧
      ∀ k, mcmcWalk exp config self config.mcmcWalkLength (draws.step k)
        ((draws.round k).oneOf self.starts (starts_nonempty htips)) = .ok (f k) := by
  have hspec := fun k => @mcmcWalk_spec exp config self hexp config.mcmcWalkLength
    (draws.step k) ((draws.round k).oneOf self.starts (starts_nonempty htips))
  choose l f hwalk _ _ using hspec
  refine ⟨f, ?_, hwalk⟩
  rw [selectTips, dif_pos htips]
  simp only [hwalk]

/-! ## The added vertices -/

/-- What has a weight was added. -/
lemma mem_added_of_lookup {w : VertexWeight} (calls : List Call) :
    (Runs.run AdvancedTipSelection.apply new calls).weights.lookup v = some w →
      v ∈ added calls := by
  induction calls using List.reverseRecOn with
  | nil =>
    intro h
    simp [Runs.run, new] at h
  | append_singleton calls c ih =>
    unfold Runs.run at ih ⊢
    rw [List.foldl_concat]
    intro h
    by_cases hv : v = c.vertex.id
    · exact mem_added.mpr ⟨c, List.mem_append_right _ (List.mem_singleton_self c), hv.symm⟩
    · refine added_subset (List.subset_append_left calls [c]) (ih ?_)
      have hinsert : (apply (List.foldl AdvancedTipSelection.apply new calls) c).weights.lookup v =
        (List.foldl AdvancedTipSelection.apply new calls).weights.lookup v :=
          Finmap.lookup_insert_of_ne _ hv
      exact hinsert.symm.trans h

/-- An added vertex without children is a tip. -/
lemma Tracks.mem_tips_of_childless (h : Tracks calls self) (hv : v ∈ added calls)
    (hnone : self.reverseAdjacency.members v = ∅) : v ∈ self.tips := by
  refine (h.tips v).mpr ⟨hv, fun c hc hp => ?_⟩
  have hin : c ∈ calls := by
    rw [← upTo_append_after v calls]
    exact List.mem_append_right _ hc
  have hchild : c.vertex.id ∈ self.reverseAdjacency.members v := by
    rw [h.children]
    exact mem_children.mpr ⟨c, hin, hp, rfl⟩
  rw [hnone] at hchild
  exact absurd hchild (Finset.notMem_empty _)

/-- A walk from an added vertex ends at one. -/
lemma Tracks.added_of_isWalk (h : Tracks calls self) : ∀ {l : List VertexId} {v : VertexId},
    v ∈ added calls → Traversal.IsWalk self.IsChild v l u → u ∈ added calls
  | [], _, hv, hwalk => hwalk ▸ hv
  | c :: l, v, _, hwalk => by
    refine added_of_isWalk h ?_ hwalk.2
    have hchild : c ∈ AdvancedTipSelection.children calls v := by
      rw [← h.children]
      exact hwalk.1
    obtain ⟨call, hcall, -, rfl⟩ := mem_children.mp hchild
    exact mem_added.mpr ⟨call, hcall, rfl⟩

/-- A walk starts at an added vertex. -/
lemma mem_added_of_starts (calls : List Call)
    (hv : v ∈ (Runs.run AdvancedTipSelection.apply new calls).starts) : v ∈ added calls := by
  unfold starts at hv
  split_ifs at hv
  · exact (((tracks_run calls).tips v).mp hv).1
  · obtain ⟨-, happrovers⟩ := Finset.mem_filter.mp hv
    obtain ⟨w, hw, -⟩ := Option.map_eq_some_iff.mp happrovers
    exact mem_added_of_lookup calls hw

/-- **All draws of the walks select tips** iff every walk ends at one. -/
lemma selects_mcmcWalk_iff (hexp : ∀ x, 0 < exp x) (hcount : 0 < config.tipCount)
    (calls : List Call) (htips : (Runs.run AdvancedTipSelection.apply new calls).tips.Nonempty) :
    (∀ draws, Selects config (Runs.run AdvancedTipSelection.apply new calls)
      (selectTips exp config (Runs.run AdvancedTipSelection.apply new calls) .mcmcWalk draws)) ↔
    WalksEnd config (Runs.run AdvancedTipSelection.apply new calls) := by
  have htracks := tracks_run calls
  have hstarts : ∀ v ∈ (Runs.run AdvancedTipSelection.apply new calls).starts, v ∈ added calls :=
    fun v hv => mem_added_of_starts calls hv
  generalize Runs.run AdvancedTipSelection.apply new calls = self at *
  constructor
  · rintro hall v hv l u hlength hwalk
    -- every round starts at `v` and takes this walk
    obtain ⟨start, hstart⟩ := exists_oneOf (starts_nonempty htips) hv
    obtain ⟨steps, hsteps⟩ := @exists_mcmcWalk exp config self u hexp l v hwalk
    obtain ⟨f, hselect, hwalks⟩ := @selectTips_mcmcWalk exp config self hexp htips
      ⟨fun _ => start, fun _ => steps, fun _ => start⟩
    obtain ⟨r, hr, -, -, hmem, -⟩ := hall ⟨fun _ => start, fun _ => steps, fun _ => start⟩
    obtain rfl := Except.ok.inj (hselect.symm.trans hr)
    have hend : f 0 = u := by
      have hzero := hwalks 0
      rw [hstart, ← hlength, hsteps] at hzero
      exact (Except.ok.inj hzero).symm
    exact hmem u ((foldl_pushNew.2.1 u).mpr ⟨0, hcount, hend⟩)
  · intro hends draws
    obtain ⟨f, hselect, hwalks⟩ := @selectTips_mcmcWalk exp config self hexp htips draws
    obtain ⟨hnodup, hmem, hlength⟩ := @foldl_pushNew f config.tipCount
    refine ⟨_, hselect, List.ne_nil_of_mem ((hmem (f 0)).mpr ⟨0, hcount, rfl⟩), hnodup,
      fun v hv => ?_, hlength⟩
    obtain ⟨k, -, rfl⟩ := (hmem v).mp hv
    have hstart := (draws.round k).oneOf_mem (starts_nonempty htips)
    obtain ⟨l, u, hwalk, his, hend⟩ := @mcmcWalk_spec exp config self hexp config.mcmcWalkLength
      (draws.step k) ((draws.round k).oneOf self.starts (starts_nonempty htips))
    obtain rfl : u = f k := Except.ok.inj (hwalk.symm.trans (hwalks k))
    rcases hend with hfull | hnone
    · exact hends _ hstart l _ hfull his
    · exact htracks.mem_tips_of_childless (htracks.added_of_isWalk (hstarts _ hstart) his) hnone

/-! ## Parents first -/

/-- The calls before the last one. -/
lemma ParentFirst.of_concat {c : Call} (h : ParentFirst (calls ++ [c])) : ParentFirst calls :=
  fun earlier c' later heq => h earlier c' (later ++ [c]) (by rw [heq]; simp)

/-- The parents of an added vertex were added. -/
lemma ParentFirst.parents_added {c : Call} (h : ParentFirst calls) (hc : c ∈ calls) :
    ∀ p ∈ c.vertex.parents, p ∈ added calls := by
  intro p hp
  obtain ⟨earlier, later, rfl⟩ := List.append_of_mem hc
  exact added_subset (List.subset_append_left _ _) ((h earlier c later rfl).2 p hp)

/-- When a vertex is added it has no children. -/
lemma ParentFirst.children_upTo : ∀ {calls : List Call}, ParentFirst calls →
    children (upTo v calls) v = ∅ := by
  intro calls
  induction calls using List.reverseRecOn with
  | nil => exact fun _ => rfl
  | append_singleton calls c ih =>
    intro h
    rw [upTo_concat]
    split_ifs with hid
    · obtain ⟨hnew, hparents⟩ := h calls c [] rfl
      rw [hid] at hnew
      refine Finset.not_nonempty_iff_eq_empty.mp fun hsome => ?_
      obtain ⟨c', hc', hp⟩ := children_nonempty_iff.mp hsome
      rcases List.mem_append.mp hc' with hc' | hc'
      · exact hnew (h.of_concat.parents_added hc' v hp)
      · rw [List.mem_singleton.mp hc'] at hp
        exact hnew (hparents v hp)
    · exact ih h.of_concat

/-- The tips are the vertices without children. -/
lemma Tracks.mem_tips_iff (h : Tracks calls self) (hfirst : ParentFirst calls) :
    v ∈ self.tips ↔ v ∈ added calls ∧ AdvancedTipSelection.children calls v = ∅ := by
  rw [h.tips]
  refine and_congr_right fun _ => ⟨fun hafter => ?_, fun hnone c hc hp => ?_⟩
  · refine Finset.not_nonempty_iff_eq_empty.mp fun hsome => ?_
    obtain ⟨c, hc, hp⟩ := children_nonempty_iff.mp hsome
    rw [← upTo_append_after v calls] at hc
    rcases List.mem_append.mp hc with hc | hc
    · have hchild : c.vertex.id ∈ AdvancedTipSelection.children (upTo v calls) v :=
        mem_children.mpr ⟨c, hc, hp, rfl⟩
      rw [hfirst.children_upTo] at hchild
      exact absurd hchild (Finset.notMem_empty _)
    · exact hafter c hc hp
  · have hin : c ∈ calls := by
      rw [← upTo_append_after v calls]
      exact List.mem_append_right _ hc
    have hchild : c.vertex.id ∈ AdvancedTipSelection.children calls v :=
      mem_children.mpr ⟨c, hin, hp, rfl⟩
    rw [hnone] at hchild
    exact absurd hchild (Finset.notMem_empty _)

/-- A walk can start at every added vertex. -/
lemma Tracks.mem_starts (h : Tracks calls self) (hfirst : ParentFirst calls)
    (hv : v ∈ added calls) : v ∈ self.starts := by
  obtain ⟨w, hw, happrovers, -⟩ := h.weights v hv
  rw [hfirst.children_upTo, Finset.card_empty] at happrovers
  have hcandidate : v ∈ self.startCandidates := Finset.mem_filter.mpr
    ⟨Finmap.mem_keys.mpr (Finmap.mem_of_lookup_eq_some hw), by rw [hw, Option.map_some, happrovers]⟩
  unfold starts
  rw [if_neg (Finset.ne_empty_of_mem hcandidate)]
  exact hcandidate

/-- **With parents first** every walk ends at a tip iff no chain is longer than a walk. -/
lemma walksEnd_iff (hfirst : ParentFirst calls) :
    WalksEnd config (Runs.run AdvancedTipSelection.apply new calls) ↔ ¬ LongChain config calls := by
  have h := tracks_run calls
  have hstarts : ∀ v ∈ (Runs.run AdvancedTipSelection.apply new calls).starts, v ∈ added calls :=
    fun v hv => mem_added_of_starts calls hv
  generalize Runs.run AdvancedTipSelection.apply new calls = self at *
  have hchild : self.IsChild = fun p c => c ∈ children calls p := by
    funext p c
    unfold IsChild
    rw [h.children]
  unfold WalksEnd LongChain
  rw [← hchild]
  constructor
  · rintro hends ⟨v, hv, l, u, hlong, hwalk⟩
    rw [← List.take_append_drop config.mcmcWalkLength l] at hwalk
    obtain ⟨w, hhead, htail⟩ := Traversal.isWalk_append.mp hwalk
    have htip := hends v (h.mem_starts hfirst hv) _ w
      (List.length_take_of_le hlong.le) hhead
    cases hrest : l.drop config.mcmcWalkLength with
    | nil => exact absurd (List.drop_eq_nil_iff.mp hrest) (not_le.mpr hlong)
    | cons c rest =>
      rw [hrest, hchild] at htail
      have hc : c ∈ children calls w := htail.1
      rw [((h.mem_tips_iff hfirst).mp htip).2] at hc
      exact absurd hc (Finset.notMem_empty _)
  · intro hno v hv l u hlength hwalk
    have hadded := hstarts v hv
    refine (h.mem_tips_iff hfirst).mpr ⟨h.added_of_isWalk hadded hwalk, ?_⟩
    refine Finset.not_nonempty_iff_eq_empty.mp fun hsome => ?_
    obtain ⟨c, hc⟩ := hsome
    refine hno ⟨v, hadded, l ++ [c], c, ?_, Traversal.isWalk_append.mpr ⟨u, hwalk, ?_, rfl⟩⟩
    · rw [List.length_append, hlength]
      exact Nat.lt_succ_self _
    · rw [hchild]
      exact hc

/-- The vertex `[3]`, a child of `[2]`. -/
def grandchild : Call := ⟨⟨.fromBytes [3], [.fromBytes [2]], [], 0, []⟩, 0, .sorted⟩

/-- One tip, by a walk of one step. -/
def oneStep : TipSelectionConfig := ⟨1, 1, 0⟩

/-- The first element of every set. -/
def firstDraw : Draw := .fixed 0 0 ⟨le_refl 0, one_pos⟩

end AdvancedTipSelection

end QuDAG
