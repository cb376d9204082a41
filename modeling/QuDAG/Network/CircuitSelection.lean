import Mathlib.Algebra.Order.BigOperators.Group.List
import Mathlib.Algebra.Order.Group.Nat
import QuDAG.Lib.Drawing
import QuDAG.Network.Circuits

/-!
# Selecting the nodes of a circuit (`onion.rs`)

The candidates for the first node are the guards, if there are any, and later nodes are drawn from
what is left of these candidates, since the list is narrowed in place. So the candidates may run out
before the last node is drawn, and the last node has to be a guard as well.

## Main definitions

* `entryCandidates` — what all nodes of a circuit are drawn from.
* `Selects` — whatever is drawn, selecting does not panic, and gives a circuit if the active nodes
  have one.

## Main results

* `selectLoop_eq` — the loop draws without replacement.
* `selectsCircuit_iff` — the directories from which all draws select.
-/

namespace QuDAG.Network.DirectoryClient

open RustStd List

/-- The candidates for the first node, and for all others. -/
def entryCandidates (available : List NodeInfo) : List NodeInfo :=
  if available.filter NodeInfo.guard ≠ [] then available.filter NodeInfo.guard else available

section Candidates

variable {available : List NodeInfo}

/-- Without guards, all nodes are candidates. -/
lemma entryCandidates_of_eq_nil (h : available.filter NodeInfo.guard = []) :
    entryCandidates available = available := if_neg (not_not.mpr h)

/-- With guards, only they are candidates. -/
lemma entryCandidates_of_ne_nil (h : available.filter NodeInfo.guard ≠ []) :
    entryCandidates available = available.filter NodeInfo.guard := if_pos h

/-- Narrowing twice is narrowing once. -/
lemma entryCandidates_idem :
    entryCandidates (entryCandidates available) = entryCandidates available := by
  by_cases h : available.filter NodeInfo.guard = []
  · rw [entryCandidates_of_eq_nil h, entryCandidates_of_eq_nil h]
  · have hfilter : (available.filter NodeInfo.guard).filter NodeInfo.guard =
        available.filter NodeInfo.guard := by
      rw [List.filter_filter]
      simp only [Bool.and_self]
    rw [entryCandidates_of_ne_nil h, entryCandidates_of_ne_nil (hfilter.symm ▸ h), hfilter]

end Candidates

/-! ## The loop -/

section Loop

variable {range : ℕ → ℕ} {i : ℕ} {pool available : List NodeInfo} {selected : List (List UInt8)}

/-- A node is picked by its bandwidth. -/
lemma pickWeighted_eq_pick (target : ℕ) (nodes : List NodeInfo) :
    pickWeighted target nodes = Drawing.pick NodeInfo.bandwidth target nodes := by
  induction nodes generalizing target with
  | nil => rfl
  | cons node nodes ih => rw [pickWeighted, Drawing.pick, ih]

/-- The candidates are narrowed before the first node is drawn. -/
lemma selectLoop_entryCandidates {count remaining : ℕ} :
    selectLoop range count remaining 0 (entryCandidates available) selected =
      selectLoop range count remaining 0 available selected := by
  cases remaining with
  | zero => rfl
  | succ remaining =>
    have hnarrow : ∀ l : List NodeInfo,
        (if (0 : ℕ) = 0 ∧ l.filter NodeInfo.guard ≠ [] then l.filter NodeInfo.guard else l) =
          entryCandidates l :=
      fun l => if_congr (and_iff_right rfl) rfl rfl
    rw [selectLoop, selectLoop, hnarrow, hnarrow, entryCandidates_idem]

/-- What the loop does with a pool: it panics if the sum of the bandwidths is too large or nothing
is left, and goes on with a drawn node otherwise. -/
def drawFrom (pool : List NodeInfo) (n : ℕ)
    (next : NodeInfo → List NodeInfo → Except (Abort OnionError) (List (List UInt8))) :
    Except (Abort OnionError) (List (List UInt8)) :=
  if 2 ^ 64 ≤ (pool.map NodeInfo.bandwidth).sum then .error .panic
  else (Drawing.draw NodeInfo.bandwidth n pool).elim (.error .panic) fun r => next r.1 r.2

/-- One pass of the loop, from candidates that are narrowed already. -/
lemma selectLoop_succ {count remaining : ℕ} (hpool : i = 0 → entryCandidates pool = pool) :
    selectLoop range count (remaining + 1) i pool selected =
      if i = count - 1 ∧ pool.filter NodeInfo.exit = [] then
        .error (.error (.routeError "No exit nodes available"))
      else drawFrom (if i = count - 1 then pool.filter NodeInfo.exit else pool) (range i)
        fun node rest =>
          selectLoop range count remaining (i + 1) rest (selected ++ [node.publicKey]) := by
  have hnarrow : (if i = 0 ∧ pool.filter NodeInfo.guard ≠ [] then pool.filter NodeInfo.guard
      else pool) = pool := by
    split_ifs with h
    · rw [← entryCandidates_of_ne_nil h.2, hpool h.1]
    · rfl
  have hexit : (i = count - 1 ∧
      (if i = count - 1 then pool.filter NodeInfo.exit else pool) = []) ↔
        i = count - 1 ∧ pool.filter NodeInfo.exit = [] :=
    and_congr_right fun h => by rw [if_pos h]
  rw [selectLoop, hnarrow]
  dsimp only
  generalize (if i = count - 1 then pool.filter NodeInfo.exit else pool) = candidates at hexit ⊢
  refine if_congr hexit rfl ?_
  rw [drawFrom, Drawing.draw]
  split_ifs with _ hzero
  · rfl
  · cases candidates[range i % candidates.length]? <;> rfl
  · obtain ⟨r, hr⟩ : ∃ r, Drawing.pick NodeInfo.bandwidth
        (range i % (candidates.map NodeInfo.bandwidth).sum) candidates = some r :=
      Drawing.exists_pick (Nat.mod_lt _ (Nat.pos_of_ne_zero hzero))
    rw [pickWeighted_eq_pick, hr]
    rfl

/-- A sum that fits is not looked at. -/
lemma drawFrom_of_lt {n : ℕ}
    {next : NodeInfo → List NodeInfo → Except (Abort OnionError) (List (List UInt8))}
    (hsum : (pool.map NodeInfo.bandwidth).sum < 2 ^ 64) :
    drawFrom pool n next =
      (Drawing.draw NodeInfo.bandwidth n pool).elim (.error .panic) fun r => next r.1 r.2 :=
  if_neg (Nat.not_le.mpr hsum)

/-- **The loop draws without replacement** up to the last pass. -/
lemma selectLoop_eq {more : ℕ} (hpool : i = 0 → entryCandidates pool = pool)
    (hsum : 0 < more → (pool.map NodeInfo.bandwidth).sum < 2 ^ 64) :
    selectLoop range (i + more + 1) (more + 1) i pool selected =
      (Drawing.draws NodeInfo.bandwidth ((List.range' i more).map range) pool).elim
        (.error .panic) fun s =>
          selectLoop range (i + more + 1) 1 (i + more) s.2
            (selected ++ s.1.map NodeInfo.publicKey) := by
  induction more generalizing i pool selected with
  | zero =>
    show _ = selectLoop range (i + 0 + 1) 1 (i + 0) pool (selected ++ [])
    rw [List.append_nil]
    rfl
  | succ more ih =>
    have hlast : i ≠ i + (more + 1) + 1 - 1 := by omega
    rw [selectLoop_succ hpool, if_neg fun h => hlast h.1, if_neg hlast,
      drawFrom_of_lt (hsum (Nat.succ_pos more)), List.range'_succ, List.map_cons, Drawing.draws]
    cases hdraw : Drawing.draw NodeInfo.bandwidth (range i) pool with
    | none => rfl
    | some r =>
      obtain ⟨node, rest⟩ := r
      have hrest : (rest.map NodeInfo.bandwidth).sum < 2 ^ 64 := by
        have hfits := hsum (Nat.succ_pos more)
        rw [((Drawing.draw_perm hdraw).1.map NodeInfo.bandwidth).sum_nat, List.map_cons,
          List.sum_cons] at hfits
        exact Nat.lt_of_le_of_lt (Nat.le_add_left _ _) hfits
      have hnext : i + 1 = 0 → entryCandidates rest = rest :=
        fun h => absurd h (Nat.succ_ne_zero i)
      rw [Option.elim_some, Option.bind_some]
      dsimp only
      rw [show i + (more + 1) + 1 = i + 1 + more + 1 by omega, ih hnext fun _ => hrest]
      cases Drawing.draws NodeInfo.bandwidth ((List.range' (i + 1) more).map range) rest with
      | none => rfl
      | some s =>
        rw [Option.map_some, Option.elim_some, Option.elim_some, List.map_cons,
          List.append_assoc, List.singleton_append, show i + 1 + more = i + (more + 1) by omega]

/-- The last pass fails without an exit among the candidates. -/
lemma selectLoop_last_of_eq_nil (hpool : i = 0 → entryCandidates pool = pool)
    (hexit : pool.filter NodeInfo.exit = []) :
    selectLoop range (i + 1) 1 i pool selected =
      .error (.error (.routeError "No exit nodes available")) := by
  rw [selectLoop_succ hpool, if_pos ⟨rfl, hexit⟩]

/-- The last pass draws an exit. -/
lemma selectLoop_last_of_ne_nil (hpool : i = 0 → entryCandidates pool = pool)
    (hexit : pool.filter NodeInfo.exit ≠ [])
    (hsum : ((pool.filter NodeInfo.exit).map NodeInfo.bandwidth).sum < 2 ^ 64) :
    ∃ node ∈ pool, node.exit = true ∧
      selectLoop range (i + 1) 1 i pool selected = .ok (selected ++ [node.publicKey]) := by
  obtain ⟨⟨node, rest⟩, hdraw⟩ : ∃ r, Drawing.draw NodeInfo.bandwidth (range i)
      (pool.filter NodeInfo.exit) = some r := Drawing.exists_draw hexit
  have hnode : node ∈ pool.filter NodeInfo.exit :=
    (Drawing.draw_perm hdraw).1.mem_iff.mpr List.mem_cons_self
  refine ⟨node, (List.mem_filter.mp hnode).1, (List.mem_filter.mp hnode).2, ?_⟩
  rw [selectLoop_succ hpool, if_neg fun h => hexit h.2, if_pos (Nat.add_sub_cancel i 1).symm,
    drawFrom_of_lt hsum, hdraw]
  rfl

end Loop

/-! ## All draws -/

section Outcome

variable {range : ℕ → ℕ} {more : ℕ} {active taken rest : List NodeInfo}

/-- The sum of the bandwidths at the first draw, if `more` draws follow. -/
def entryBandwidth (more : ℕ) (active : List NodeInfo) : ℕ :=
  ((if more = 0 then (entryCandidates active).filter NodeInfo.exit
    else entryCandidates active).map NodeInfo.bandwidth).sum

/-- A sum that does not fit panics. -/
lemma selectLoop_of_overflow (h : 2 ^ 64 ≤ entryBandwidth more active) :
    selectLoop range (more + 1) (more + 1) 0 active [] = .error .panic := by
  have hexit : ¬(0 = more + 1 - 1 ∧ (entryCandidates active).filter NodeInfo.exit = []) := by
    rintro ⟨hmore, hnil⟩
    rw [Nat.add_sub_cancel] at hmore
    rw [entryBandwidth, if_pos hmore.symm, hnil] at h
    exact absurd h (by decide)
  rw [← selectLoop_entryCandidates, selectLoop_succ fun _ => entryCandidates_idem, if_neg hexit,
    drawFrom, if_pos]
  rw [entryBandwidth] at h
  simpa only [Nat.add_sub_cancel, eq_comm] using h

/-- A sum that fits at the first draw fits at all later ones. -/
lemma sum_lt_of_entryBandwidth (h : entryBandwidth more active < 2 ^ 64) (hmore : 0 < more) :
    ((entryCandidates active).map NodeInfo.bandwidth).sum < 2 ^ 64 := by
  rwa [entryBandwidth, if_neg (Nat.ne_of_gt hmore)] at h

/-- The loop draws from the candidates for the first node. -/
lemma selectLoop_entry (h : entryBandwidth more active < 2 ^ 64) :
    selectLoop range (more + 1) (more + 1) 0 active [] =
      (Drawing.draws NodeInfo.bandwidth ((List.range' 0 more).map range)
        (entryCandidates active)).elim (.error .panic) fun s =>
          selectLoop range (more + 1) 1 more s.2 (s.1.map NodeInfo.publicKey) := by
  have hpool : 0 = 0 → entryCandidates (entryCandidates active) = entryCandidates active :=
    fun _ => entryCandidates_idem
  have heq := @selectLoop_eq range 0 _ [] more hpool (sum_lt_of_entryBandwidth h)
  rw [selectLoop_entryCandidates] at heq
  simpa only [Nat.zero_add, List.nil_append] using heq

/-- If the candidates run out, the loop panics. -/
lemma selectLoop_of_lt (h : entryBandwidth more active < 2 ^ 64)
    (hfew : (entryCandidates active).length < more) :
    selectLoop range (more + 1) (more + 1) 0 active [] = .error .panic := by
  rw [selectLoop_entry h]
  cases hdraws : Drawing.draws NodeInfo.bandwidth ((List.range' 0 more).map range)
      (entryCandidates active) with
  | none => rfl
  | some s =>
    obtain ⟨hperm, hlength⟩ := Drawing.draws_perm hdraws
    rw [List.length_map, List.length_range'] at hlength
    have htotal := hperm.length_eq
    rw [List.length_append] at htotal
    omega

/-- After the draws, the loop draws an exit among what is left, or fails if there is none. -/
lemma selectLoop_of_draws (h : entryBandwidth more active < 2 ^ 64)
    (hdraws : Drawing.draws NodeInfo.bandwidth ((List.range' 0 more).map range)
      (entryCandidates active) = some (taken, rest)) :
    (rest.filter NodeInfo.exit = [] ∧
      selectLoop range (more + 1) (more + 1) 0 active [] =
        .error (.error (.routeError "No exit nodes available"))) ∨
    ∃ node ∈ rest, node.exit = true ∧
      selectLoop range (more + 1) (more + 1) 0 active [] =
        .ok ((taken ++ [node]).map NodeInfo.publicKey) := by
  have hperm := (Drawing.draws_perm hdraws).1
  have heq : selectLoop range (more + 1) (more + 1) 0 active [] =
      selectLoop range (more + 1) 1 more rest (taken.map NodeInfo.publicKey) := by
    rw [selectLoop_entry h, hdraws, Option.elim_some]
  -- nothing is drawn before the last pass if that is the first one
  have hzero : more = 0 → rest = entryCandidates active := by
    rintro rfl
    cases hdraws
    rfl
  have hpool : more = 0 → entryCandidates rest = rest := fun hmore => by
    rw [hzero hmore, entryCandidates_idem]
  by_cases hexit : rest.filter NodeInfo.exit = []
  · exact .inl ⟨hexit, heq.trans (selectLoop_last_of_eq_nil hpool hexit)⟩
  · have hsum : ((rest.filter NodeInfo.exit).map NodeInfo.bandwidth).sum < 2 ^ 64 := by
      rcases Nat.eq_zero_or_pos more with hmore | hmore
      · rw [hzero hmore]
        rwa [entryBandwidth, if_pos hmore] at h
      · have hfits := sum_lt_of_entryBandwidth h hmore
        rw [(hperm.map NodeInfo.bandwidth).sum_nat, List.map_append, List.sum_append] at hfits
        have hle : ((rest.filter NodeInfo.exit).map NodeInfo.bandwidth).sum ≤
            (rest.map NodeInfo.bandwidth).sum :=
          (List.filter_sublist.map _).sum_le_sum fun _ _ => Nat.zero_le _
        omega
    obtain ⟨node, hnode, hflag, hlast⟩ := selectLoop_last_of_ne_nil hpool hexit hsum
    refine .inr ⟨node, hnode, hflag, heq.trans (hlast.trans ?_)⟩
    rw [List.map_append, List.map_singleton]

end Outcome

/-! ## Circuits from all draws -/

/-- The keys are those of `count` active nodes, none of which is taken twice, with a guard first and
an exit last. -/
def IsCircuit (active : List NodeInfo) (count : ℕ) (keys : List (List UInt8)) : Prop :=
  ∃ nodes, keys = nodes.map NodeInfo.publicKey ∧ nodes <+~ active ∧ nodes.length = count ∧
    (∃ first ∈ nodes.head?, first.guard = true) ∧ ∃ last ∈ nodes.getLast?, last.exit = true

/-- The active nodes have a guard, a different exit, and at least `count` nodes in total. -/
def HasCircuit (active : List NodeInfo) (count : ℕ) : Prop :=
  (∃ guard exit, [guard, exit] <+~ active ∧ guard.guard = true ∧ exit.exit = true) ∧
    count ≤ active.length

/-- Whatever is drawn, selecting nodes does not panic, and it gives a circuit if the active nodes
have one. -/
def Selects (draws : SelectDraws) (count : ℕ) (directory : DirectoryClient) : Prop :=
  ∀ range : ℕ → ℕ,
    ((selectRandomNodes { draws with range := range } count).run directory).1 ≠ .error .panic ∧
      (HasCircuit (activeNodes draws (updateDirectoryIfNeeded draws directory)) count →
        ∃ keys,
          ((selectRandomNodes { draws with range := range } count).run directory).1 = .ok keys ∧
            IsCircuit (activeNodes draws (updateDirectoryIfNeeded draws directory)) count keys)

section Selects

variable {draws : SelectDraws} {range : ℕ → ℕ} {count more : ℕ} {directory : DirectoryClient}
  {active taken rest : List NodeInfo} {node : NodeInfo}

/-- Selecting nodes is the loop over the active nodes, if there are enough of them. -/
lemma run_selectRandomNodes :
    ((selectRandomNodes { draws with range := range } count).run directory).1 =
      if (activeNodes draws (updateDirectoryIfNeeded draws directory)).length < count then
        .error (.error (.routeError "Not enough active nodes"))
      else selectLoop range count count 0
        (activeNodes draws (updateDirectoryIfNeeded draws directory)) [] := by
  show ((if (activeNodes draws (updateDirectoryIfNeeded draws directory)).length < count then
    Fallible.fail (.error (.routeError "Not enough active nodes"))
      else Fallible.ofExcept (selectLoop range count count 0
        (activeNodes draws (updateDirectoryIfNeeded draws directory)) []) :
    Fallible (Abort OnionError) DirectoryClient (List (List UInt8))).run
      (updateDirectoryIfNeeded draws directory)).1 = _
  split_ifs <;> rfl

/-- What is drawn from guards with an exit last is a circuit. -/
lemma isCircuit_of_draws {ns : List ℕ}
    (hdraws : Drawing.draws NodeInfo.bandwidth ns (active.filter NodeInfo.guard) =
      some (taken, rest))
    (hnode : node ∈ rest) (hexit : node.exit = true) :
    IsCircuit active (ns.length + 1) ((taken ++ [node]).map NodeInfo.publicKey) := by
  obtain ⟨hperm, hlength⟩ := Drawing.draws_perm hdraws
  have hsub : taken ++ [node] <+~ active.filter NodeInfo.guard :=
    ((List.Sublist.append_left (List.singleton_sublist.mpr hnode) taken).subperm).trans
      hperm.symm.subperm
  refine ⟨taken ++ [node], rfl, hsub.trans List.filter_sublist.subperm, ?_, ?_, node, ?_, hexit⟩
  · rw [List.length_append, hlength, List.length_singleton]
  · have hhead : (taken ++ [node]).head (by simp) ∈ taken ++ [node] := List.head_mem _
    exact ⟨_, List.head?_eq_some_head _, (List.mem_filter.mp (hsub.subset hhead)).2⟩
  · rw [List.getLast?_append, List.getLast?_singleton]
    rfl

/-- A circuit has a guard. -/
lemma HasCircuit.guards_ne_nil (h : HasCircuit active count) :
    active.filter NodeInfo.guard ≠ [] := by
  obtain ⟨⟨guard, exit, hsub, hguard, -⟩, -⟩ := h
  exact List.ne_nil_of_mem (List.mem_filter.mpr ⟨hsub.subset List.mem_cons_self, hguard⟩)

/-- If some draws leave no exit, nothing is selected. -/
lemma exists_selectLoop_error (hsum : entryBandwidth more active < 2 ^ 64)
    (hcost : Drawing.cost NodeInfo.bandwidth NodeInfo.exit (entryCandidates active) ≤ more)
    (hmore : more ≤ (entryCandidates active).length) :
    ∃ range, selectLoop range (more + 1) (more + 1) 0 active [] =
      .error (.error (.routeError "No exit nodes available")) := by
  obtain ⟨ns, taken, rest, hlength, hdraws, hnone⟩ := Drawing.exists_draws_of_cost_le hcost hmore
  have hrange : (List.range' 0 more).map (fun j => ns.getD j 0) = ns := by
    refine List.ext_getElem (by rw [List.length_map, List.length_range', hlength]) ?_
    intro j hj hj'
    rw [List.getElem_map, List.getElem_range', Nat.zero_add, Nat.one_mul,
      List.getD_eq_getElem?_getD, List.getElem?_eq_getElem hj', Option.getD_some]
  refine ⟨fun j => ns.getD j 0, ?_⟩
  rcases selectLoop_of_draws hsum (hrange.symm ▸ hdraws) with ⟨-, herror⟩ | ⟨node, hnode, hexit, -⟩
  · exact herror
  · rw [hnone node hnode] at hexit
    cases hexit

/-- A loop that never panics, and finds a circuit if there is one, has the condition. -/
lemma condition_of_selectLoop
    (h : ∀ range, selectLoop range (more + 1) (more + 1) 0 active [] ≠ .error .panic ∧
      (HasCircuit active (more + 1) →
        ∃ keys, selectLoop range (more + 1) (more + 1) 0 active [] = .ok keys ∧
          IsCircuit active (more + 1) keys)) :
    entryBandwidth more active < 2 ^ 64 ∧
      (active.filter NodeInfo.guard = [] ∨ more ≤ (active.filter NodeInfo.guard).length ∧
        (HasCircuit active (more + 1) →
          more < Drawing.cost NodeInfo.bandwidth NodeInfo.exit (active.filter NodeInfo.guard))) := by
  have hsum : entryBandwidth more active < 2 ^ 64 :=
    Nat.lt_of_not_le fun hover => (h fun _ => 0).1 (selectLoop_of_overflow hover)
  refine ⟨hsum, or_iff_not_imp_left.mpr fun hguards => ?_⟩
  have hmore : more ≤ (active.filter NodeInfo.guard).length :=
    Nat.le_of_not_lt fun hlt => (h fun _ => 0).1
      (selectLoop_of_lt hsum (entryCandidates_of_ne_nil hguards ▸ hlt))
  refine ⟨hmore, fun hcircuit => Nat.lt_of_not_le fun hcost => ?_⟩
  rw [← entryCandidates_of_ne_nil hguards] at hcost hmore
  obtain ⟨range, herror⟩ := exists_selectLoop_error hsum hcost hmore
  obtain ⟨keys, hok, -⟩ := (h range).2 hcircuit
  rw [herror] at hok
  cases hok

/-- With enough candidates the loop never panics, and finds a circuit if an exit is left whenever
there is one. -/
lemma selectLoop_of_condition (hfew : more < active.length)
    (hsum : entryBandwidth more active < 2 ^ 64)
    (hcandidates : active.filter NodeInfo.guard = [] ∨
      more ≤ (active.filter NodeInfo.guard).length ∧ (HasCircuit active (more + 1) →
        more < Drawing.cost NodeInfo.bandwidth NodeInfo.exit (active.filter NodeInfo.guard)))
    (range : ℕ → ℕ) :
    selectLoop range (more + 1) (more + 1) 0 active [] ≠ .error .panic ∧
      (HasCircuit active (more + 1) →
        ∃ keys, selectLoop range (more + 1) (more + 1) 0 active [] = .ok keys ∧
          IsCircuit active (more + 1) keys) := by
  have hmore : more ≤ (entryCandidates active).length := by
    rcases hcandidates with hnil | ⟨hmore, -⟩
    · rw [entryCandidates_of_eq_nil hnil]
      exact hfew.le
    · rw [entryCandidates]
      split_ifs
      · exact hmore
      · exact hfew.le
  have hlength : ((List.range' 0 more).map range).length = more := by
    rw [List.length_map, List.length_range']
  obtain ⟨⟨taken, rest⟩, hdraws⟩ : ∃ r, Drawing.draws NodeInfo.bandwidth
      ((List.range' 0 more).map range) (entryCandidates active) = some r :=
    Drawing.exists_draws (hlength.symm ▸ hmore)
  -- if there is a circuit, the guards are the candidates, and an exit is left
  have hcost : HasCircuit active (more + 1) →
      Drawing.draws NodeInfo.bandwidth ((List.range' 0 more).map range)
        (active.filter NodeInfo.guard) = some (taken, rest) ∧
      ∃ node ∈ rest, node.exit = true := by
    intro hcircuit
    have hguards := hcircuit.guards_ne_nil
    rw [entryCandidates_of_ne_nil hguards] at hdraws
    exact ⟨hdraws, Drawing.exists_marked_of_lt_cost hdraws
      (hlength.symm ▸ (hcandidates.resolve_left hguards).2 hcircuit)⟩
  rcases selectLoop_of_draws hsum hdraws with ⟨hnone, herror⟩ | ⟨node, hnode, hexit, hok⟩
  · refine ⟨herror ▸ nofun, fun hcircuit => ?_⟩
    obtain ⟨-, node, hnode, hexit⟩ := hcost hcircuit
    have hmem : node ∈ rest.filter NodeInfo.exit := List.mem_filter.mpr ⟨hnode, hexit⟩
    rw [hnone] at hmem
    cases hmem
  · refine ⟨hok ▸ nofun, fun hcircuit => ⟨_, hok, ?_⟩⟩
    have hselected := isCircuit_of_draws (hcost hcircuit).1 hnode hexit
    rwa [hlength] at hselected

end Selects

/-- Selecting nodes of a circuit never panics and finds a circuit iff there are too few active
nodes, or the sum of the bandwidths fits and there is no guard, or there are enough guards for all
nodes but the last and, if there is a circuit, no draws take away all guards that are exits. -/
theorem selectsCircuit_iff (draws : SelectDraws) (more : ℕ) (directory : DirectoryClient) :
    Selects draws (more + 1) directory ↔
      let active := activeNodes draws (updateDirectoryIfNeeded draws directory)
      let guards := active.filter NodeInfo.guard
      active.length < more + 1 ∨
        entryBandwidth more active < 2 ^ 64 ∧
          (guards = [] ∨ more ≤ guards.length ∧
            (HasCircuit active (more + 1) →
              more < Drawing.cost NodeInfo.bandwidth NodeInfo.exit guards)) := by
  dsimp only
  unfold Selects
  simp only [run_selectRandomNodes]
  generalize activeNodes draws (updateDirectoryIfNeeded draws directory) = active
  by_cases hfew : active.length < more + 1
  · -- too few nodes are an error, and no circuit
    simp only [hfew, if_true, true_or, iff_true]
    exact fun range => ⟨nofun, fun h => absurd h.2 (Nat.not_le.mpr hfew)⟩
  simp only [hfew, if_false, false_or]
  exact ⟨condition_of_selectLoop, fun h =>
    selectLoop_of_condition (Nat.lt_of_succ_le (Nat.le_of_not_lt hfew)) h.1 h.2⟩

/-! ## A directory that panics -/

/-- A stable node that is just seen. -/
def sampleNode (i : ℕ) (guard exit : Bool) : NodeInfo :=
  ⟨[UInt8.ofNat i], [UInt8.ofNat i], 1000000, guard, exit, true, 0⟩

/-- A directory with a guard, a middle node and an exit. -/
def sampleDirectory : DirectoryClient where
  nodes := ((∅ : HashMap (List UInt8) NodeInfo).insert [0] (sampleNode 0 true false)).insert [1]
    (sampleNode 1 false false) |>.insert [2] (sampleNode 2 false true)
  lastUpdate := 0
  updateInterval := 3600 * 10 ^ 9

/-- Draws at the time of the last update. -/
def sampleDraws (order : HashMap.Iteration (List UInt8) NodeInfo) : SelectDraws :=
  ⟨0, 0, fun _ => [], fun _ => 0, order, 0, fun _ => 0⟩

/-- All three nodes are active. -/
lemma activeNodes_sampleDirectory (order : HashMap.Iteration (List UInt8) NodeInfo) :
    activeNodes (sampleDraws order) (updateDirectoryIfNeeded (sampleDraws order) sampleDirectory) ~
      [sampleNode 2 false true, sampleNode 1 false false, sampleNode 0 true false] := by
  have hupdated : updateDirectoryIfNeeded (sampleDraws order) sampleDirectory = sampleDirectory :=
    if_pos (show (0 : ℕ) < 3600 * 10 ^ 9 by decide)
  have hentries : sampleDirectory.nodes.Enumerates [([2], sampleNode 2 false true),
      ([1], sampleNode 1 false false), ([0], sampleNode 0 true false)] :=
    ((HashMap.Enumerates.empty.insert (by decide) _).insert (by decide) _).insert (by decide) _
  have hperm := (List.perm_ext_iff_of_nodup (order.enumerates sampleDirectory.nodes).1.of_map
    hentries.1.of_map).mpr fun e => by rw [(order.enumerates _).2, hentries.2]
  rw [hupdated]
  exact (hperm.map Prod.snd).filter _

/-- There are three active nodes with a guard and an exit, and selecting three panics: the guard is
the only candidate, so nothing is left for the second node. -/
theorem not_selectsCircuit_sample :
    HasCircuit (activeNodes (sampleDraws .arbitrary)
        (updateDirectoryIfNeeded (sampleDraws .arbitrary) sampleDirectory)) 3 ∧
      ¬Selects (sampleDraws .arbitrary) 3 sampleDirectory := by
  have hperm := activeNodes_sampleDirectory .arbitrary
  refine ⟨⟨⟨sampleNode 0 true false, sampleNode 2 false true, ?_, rfl, rfl⟩, hperm.length_eq.ge⟩,
    fun h => (h fun _ => 0).1 ?_⟩
  · have hsub : [sampleNode 2 false true, sampleNode 0 true false] <+
        [sampleNode 2 false true, sampleNode 1 false false, sampleNode 0 true false] :=
      (List.sublist_cons_self _ _).cons_cons _
    exact (Perm.swap _ _ _).subperm.trans (hsub.subperm.trans hperm.symm.subperm)
  · rw [run_selectRandomNodes]
    generalize activeNodes (sampleDraws .arbitrary)
      (updateDirectoryIfNeeded (sampleDraws .arbitrary) sampleDirectory) = active at hperm
    have hguards : active.filter NodeInfo.guard = [sampleNode 0 true false] :=
      List.perm_singleton.mp (hperm.filter NodeInfo.guard)
    have hcandidates : entryCandidates active = [sampleNode 0 true false] := by
      rw [entryCandidates_of_ne_nil (by simp [hguards]), hguards]
    have hlength : 3 ≤ active.length := hperm.length_eq.ge
    rw [if_neg (Nat.not_lt.mpr hlength)]
    refine selectLoop_of_lt ?_ ?_
    · rw [entryBandwidth, hcandidates]
      decide
    · rw [hcandidates]
      decide

end QuDAG.Network.DirectoryClient
