import AxisEngine.Craft.BreadthFirst

/-!
# Augmenting — paths to "none", and the size of the matching

`do_dfs_raw` goes from a node to the partners of adjacent nodes, one distance further each time.

* `dfs?`, `matchAll?`, `rounds?` — the loops, `none` when the fuel runs out before they end;
* `Reach` — the nodes with a path to "none" along the distances;
* `Pruned`, `Augmented` — what a search that fails, and one that succeeds, does to the arrays.
-/

namespace AxisEngine
namespace Craft
namespace HopcroftKarp

open Lib

/-! ## The loops -/

/-- `dfsLoop`, as long as the searches it starts end. -/
def dfsLoop? (recurse : Nat → HopcroftKarp → Option (Bool × HopcroftKarp)) (u : Nat) :
    List Nat → HopcroftKarp → Option (Bool × HopcroftKarp)
  | [], s => some (false, { s with dist := Function.update s.dist u inf })
  | v :: vs, s =>
    if s.dist (s.pairV v) ≠ s.dist u + 1 then dfsLoop? recurse u vs s
    else
      (recurse (s.pairV v) s).bind fun r =>
        if r.1 then
          some (true, { r.2 with
            pairV := Function.update r.2.pairV v u
            pairU := Function.update r.2.pairU u v })
        else dfsLoop? recurse u vs r.2

/-- `dfs`, as long as the fuel lasts. -/
def dfs? (graph : Nat → List Nat) (nil : Nat) :
    Nat → Nat → HopcroftKarp → Option (Bool × HopcroftKarp)
  | 0, _, _ => none
  | fuel + 1, u, s =>
    if u = nil then some (true, s) else dfsLoop? (dfs? graph nil fuel) u (graph u) s

/-- `matchAll`, as long as the searches it starts end. -/
def matchAll? (graph : Nat → List Nat) (size fuel : Nat) :
    List Nat → Nat × HopcroftKarp → Option (Nat × HopcroftKarp)
  | [], state => some state
  | u :: us, state =>
    if state.2.pairU u = size then
      (dfs? graph size fuel u state.2).bind fun r =>
        matchAll? graph size fuel us (if r.1 then state.1 + 1 else state.1, r.2)
    else matchAll? graph size fuel us state

/-- `rounds`, as long as the fuel lasts for the rounds and for each search. -/
def rounds? (graph : Nat → List Nat) (size fuel : Nat) : Nat → Nat × HopcroftKarp → Option Nat
  | 0, _ => none
  | more + 1, state =>
    (bfs? graph size fuel state.2).bind fun r =>
      if r.1 then
        (matchAll? graph size fuel (List.range size) (state.1, r.2)).bind
          (rounds? graph size fuel more)
      else some state.1

section

variable {graph : Nat → List Nat} {n fuel : Nat} {s s' : HopcroftKarp}
variable {r : Bool × HopcroftKarp}

theorem dfsLoop_of_dfsLoop? {recurse : Nat → HopcroftKarp → Bool × HopcroftKarp}
    {recurse? : Nat → HopcroftKarp → Option (Bool × HopcroftKarp)}
    (hrecurse : ∀ u s r, recurse? u s = some r → recurse u s = r) {u : Nat} {vs : List Nat}
    (h : dfsLoop? recurse? u vs s = some r) : dfsLoop recurse u vs s = r := by
  induction vs generalizing s with
  | nil => exact Option.some.inj h
  | cons v vs ih =>
    rw [dfsLoop?] at h
    rw [dfsLoop]
    split at h
    · rename_i hskip
      rw [if_pos hskip]
      exact ih h
    · rename_i hstep
      rw [if_neg hstep]
      rcases Option.bind_eq_some_iff.1 h with ⟨r', hr', h⟩
      rw [hrecurse _ _ _ hr']
      dsimp only
      split at h
      · rename_i hfound
        rw [if_pos hfound]
        exact Option.some.inj h
      · rename_i hfound
        rw [if_neg hfound]
        exact ih h

theorem dfs_of_dfs? {u : Nat} (h : dfs? graph n fuel u s = some r) : dfs graph n fuel u s = r := by
  induction fuel generalizing u s r with
  | zero => cases h
  | succ fuel ih =>
    rw [dfs?] at h
    rw [dfs]
    split at h
    · rename_i hnil
      rw [if_pos hnil]
      exact Option.some.inj h
    · rename_i hnil
      rw [if_neg hnil]
      exact dfsLoop_of_dfsLoop? (fun u s r h => ih h) h

theorem matchAll_of_matchAll? {us : List Nat} {state state' : Nat × HopcroftKarp}
    (h : matchAll? graph n (n + 2) us state = some state') : matchAll graph n us state = state' := by
  induction us generalizing state with
  | nil => exact Option.some.inj h
  | cons u us ih =>
    rw [matchAll?] at h
    rw [matchAll]
    split at h
    · rename_i hfree
      rw [if_pos hfree]
      rcases Option.bind_eq_some_iff.1 h with ⟨r, hr, h⟩
      rw [dfs_of_dfs? hr]
      exact ih h
    · rename_i hfree
      rw [if_neg hfree]
      exact ih h

theorem rounds_of_rounds? {state : Nat × HopcroftKarp} {m : Nat}
    (h : rounds? graph n (n + 2) fuel state = some m) : rounds graph n fuel state = m := by
  induction fuel generalizing state with
  | zero => cases h
  | succ fuel ih =>
    rcases Option.bind_eq_some_iff.1 h with ⟨r, hr, h⟩
    rw [rounds, bfs_of_bfs? hr]
    dsimp only
    split at h
    · rename_i hreached
      rw [if_pos hreached]
      rcases Option.bind_eq_some_iff.1 h with ⟨state', hall, h⟩
      rw [matchAll_of_matchAll? hall]
      exact ih h
    · rename_i hreached
      rw [if_neg hreached]
      exact Option.some.inj h

end

/-! ## Paths to "none" -/

/-- From the node, "none" is reached along partners of adjacent nodes, the distance growing by one
with each. -/
inductive Reach (graph : Nat → List Nat) (n : Nat) (s : HopcroftKarp) : Nat → Prop
  | nil : Reach graph n s n
  | step (u v : Nat) (hedge : v ∈ graph u) (hdist : s.dist (s.pairV v) = s.dist u + 1)
      (hrest : Reach graph n s (s.pairV v)) : Reach graph n s u

/-- No path through `u` was found: nodes that do not lead to "none", none of them before `u`, are not
walked again. -/
structure Pruned (graph : Nat → List Nat) (n u : Nat) (s s' : HopcroftKarp) : Prop where
  pairU : s'.pairU = s.pairU
  pairV : s'.pairV = s.pairV
  self : s'.dist u = inf
  others : ∀ w, w ≠ u → s'.dist w = s.dist w ∨
    s'.dist w = inf ∧ s.dist u < s.dist w ∧ ¬Reach graph n s w

/-- A path from `u` was found, and its edges swapped: the pairs are in order but for the former
partner of `u`, which still points to `u`; nodes before `u` are as they were. -/
structure Augmented (graph : Nat → List Nat) (n u : Nat) (s s' : HopcroftKarp) : Prop where
  left : ∀ w < n, s'.pairU w ≠ n → s'.pairU w ∈ graph w ∧ s'.pairV (s'.pairU w) = w
  right : ∀ v < n, v ≠ s.pairU u → s'.pairV v ≠ n → s'.pairV v < n ∧ s'.pairU (s'.pairV v) = v
  matched : s'.pairU u ≠ n
  moved : s'.pairU u ≠ s.pairU u
  others : ∀ w < n, w ≠ u → (s'.pairU w = n ↔ s.pairU w = n)
  lower : ∀ w, s.dist w < s.dist u → s'.pairU w = s.pairU w
  kept : ∀ v < n, s.pairV v < n → s.dist (s.pairV v) ≤ s.dist u → s'.pairV v = s.pairV v

/-- Distances are those of nodes, or infinite. -/
def Bounded (n : Nat) (s : HopcroftKarp) : Prop :=
  ∀ w, s.dist w = inf ∨ s.dist w ≤ n

section

variable {graph : Nat → List Nat} {n : Nat} {s s' s'' : HopcroftKarp} {u w : Nat}

variable {v : Nat}

section

variable (h : Pruned graph n u s s')

include h

theorem Pruned.dist_of_reach (hu : ¬Reach graph n s u) (hw : Reach graph n s w) :
    s'.dist w = s.dist w := by
  rcases h.others w (by rintro rfl; exact hu hw) with hsame | ⟨-, -, hnot⟩
  · exact hsame
  · exact absurd hw hnot

/-- A path does not go through nodes that were pruned. -/
theorem Pruned.reach (hu : ¬Reach graph n s u) (hw : Reach graph n s w) : Reach graph n s' w := by
  induction hw with
  | nil => exact .nil
  | step w v hedge hdist hrest ih =>
    have hw := Reach.step w v hedge hdist hrest
    refine .step w v hedge ?_ ?_
    · rw [h.pairV, h.dist_of_reach hu hrest, h.dist_of_reach hu hw]
      exact hdist
    · rw [h.pairV]
      exact ih

theorem Pruned.paired (hpaired : Paired graph n s) : Paired graph n s' := by
  constructor
  · rw [h.pairU, h.pairV]
    exact hpaired.left
  · rw [h.pairU, h.pairV]
    exact hpaired.right

theorem Pruned.dist_eq (hw : s.dist w < s.dist u) : s'.dist w = s.dist w := by
  rcases h.others w (by rintro rfl; exact lt_irrefl _ hw) with hsame | ⟨-, hlt, -⟩
  · exact hsame
  · omega

end

/-- A search that fails after another one, from a node one further, has failed. -/
theorem Pruned.trans {c : Nat} (h : Pruned graph n c s s') (hc : ¬Reach graph n s c)
    (hdist : s.dist c = s.dist u + 1) (h' : Pruned graph n u s' s'') : Pruned graph n u s s'' := by
  have hu : s'.dist u = s.dist u := h.dist_eq (by omega)
  refine ⟨h'.pairU.trans h.pairU, h'.pairV.trans h.pairV, h'.self, fun w hw => ?_⟩
  rcases h'.others w hw with hsame' | ⟨hinf, hlt, hnot⟩
  · by_cases hwc : w = c
    · subst hwc
      exact Or.inr ⟨hsame'.trans h.self, by omega, hc⟩
    · rcases h.others w hwc with hsame | ⟨hinf, hlt, hnot⟩
      · exact Or.inl (hsame'.trans hsame)
      · exact Or.inr ⟨hsame'.trans hinf, by omega, hnot⟩
  · have hbefore : ¬Reach graph n s w := fun hreach => hnot (h.reach hc hreach)
    by_cases hwc : w = c
    · subst hwc
      exact Or.inr ⟨hinf, by omega, hc⟩
    · rcases h.others w hwc with hsame | ⟨-, hlt', -⟩
      · exact Or.inr ⟨hinf, by omega, hbefore⟩
      · exact Or.inr ⟨hinf, by omega, hbefore⟩

/-- What was given up in between does not change what a search that succeeds has done. -/
theorem Augmented.of_pruned {c : Nat} (h : Pruned graph n c s s')
    (hdist : s.dist c = s.dist u + 1) (h' : Augmented graph n u s' s'') :
    Augmented graph n u s s'' := by
  have hu : s'.dist u = s.dist u := h.dist_eq (by omega)
  have hlower : ∀ w, s.dist w ≤ s.dist u → s'.dist w = s.dist w := fun w hw =>
    h.dist_eq (by omega)
  refine ⟨h'.left, ?_, h'.matched, ?_, ?_, ?_, ?_⟩
  · rw [← h.pairU]
    exact h'.right
  · rw [← h.pairU]
    exact h'.moved
  · rw [← h.pairU]
    exact h'.others
  · intro w hw
    rw [← h.pairU]
    refine h'.lower w ?_
    rw [hu, hlower w hw.le]
    exact hw
  · intro v hv hback hw
    rw [← h.pairV] at hback hw ⊢
    refine h'.kept v hv hback ?_
    rw [hu, hlower _ hw]
    exact hw

/-! ## Swapping the edges -/

/-- `u` and `v` become partners, when no node has `v` as its partner. -/
theorem swap_left (hedge : v ∈ graph u) (hnone : ∀ w < n, s.pairU w ≠ v)
    (hleft : ∀ w < n, s.pairU w ≠ n → s.pairU w ∈ graph w ∧ s.pairV (s.pairU w) = w) :
    ∀ w < n, Function.update s.pairU u v w ≠ n → Function.update s.pairU u v w ∈ graph w ∧
      Function.update s.pairV v u (Function.update s.pairU u v w) = w := by
  intro w hw hne
  by_cases hwu : w = u
  · subst hwu
    rw [Function.update_self, Function.update_self]
    exact ⟨hedge, rfl⟩
  · rw [Function.update_of_ne hwu] at hne ⊢
    rw [Function.update_of_ne (hnone w hw)]
    exact hleft w hw hne

theorem swap_right (hu : u < n)
    (hright : ∀ v' < n, v' ≠ v → s.pairV v' ≠ n → s.pairV v' < n ∧ s.pairU (s.pairV v') = v') :
    ∀ v' < n, v' ≠ s.pairU u → Function.update s.pairV v u v' ≠ n →
      Function.update s.pairV v u v' < n ∧
        Function.update s.pairU u v (Function.update s.pairV v u v') = v' := by
  intro v' hv' hother hne
  by_cases hvv : v' = v
  · subst hvv
    rw [Function.update_self, Function.update_self]
    exact ⟨hu, rfl⟩
  · rw [Function.update_of_ne hvv] at hne ⊢
    rcases hright v' hv' hvv hne with ⟨hlt, hpair⟩
    refine ⟨hlt, ?_⟩
    rw [Function.update_of_ne]
    · exact hpair
    · intro heq
      rw [heq] at hpair
      exact hother hpair.symm

theorem augmented_nil (hgraph : Bipartite graph n) (hpaired : Paired graph n s) (hedge : v ∈ graph u)
    (hfree : s.pairV v = n) :
    Augmented graph n u s { s with
      pairV := Function.update s.pairV v u
      pairU := Function.update s.pairU u v } := by
  rcases hgraph.range u v hedge with ⟨hu, hv⟩
  -- no node has `v` as its partner
  have hnone : ∀ w < n, s.pairU w ≠ v := by
    intro w hw hpair
    have hback := (hpaired.left w hw (by omega)).2
    rw [hpair, hfree] at hback
    omega
  refine ⟨swap_left hedge hnone hpaired.left, swap_right hu fun v' hv' _ => hpaired.right v' hv',
    ?_, ?_, ?_, ?_, ?_⟩
  · dsimp only
    rw [Function.update_self]
    exact hv.ne
  · dsimp only
    rw [Function.update_self]
    exact (hnone u hu).symm
  · intro w _ hwu
    dsimp only
    rw [Function.update_of_ne hwu]
  · intro w hw
    refine Function.update_of_ne ?_ _ _
    rintro rfl
    exact lt_irrefl _ hw
  · intro v' _ hback _
    refine Function.update_of_ne ?_ _ _
    rintro rfl
    omega

/-- An edge in the middle of a path: the partner of `v` has got another one. -/
theorem augmented_step (hgraph : Bipartite graph n) (hpaired : Paired graph n s) (hedge : v ∈ graph u)
    (hback : s.pairV v ≠ n) (hdist : s.dist (s.pairV v) = s.dist u + 1)
    (h : Augmented graph n (s.pairV v) s s') :
    Augmented graph n u s { s' with
      pairV := Function.update s'.pairV v u
      pairU := Function.update s'.pairU u v } := by
  rcases hgraph.range u v hedge with ⟨hu, hv⟩
  rcases hpaired.right v hv hback with ⟨hlt, hpair⟩
  have hother : s.pairV v ≠ u := by
    intro heq
    rw [heq] at hdist
    omega
  have hkept : s'.pairV v = s.pairV v := h.kept v hv hlt le_rfl
  have hlower : s'.pairU u = s.pairU u := h.lower u (by omega)
  -- no node has `v` as its partner any more
  have hnone : ∀ w < n, s'.pairU w ≠ v := by
    intro w hw hpair'
    have hback' := (h.left w hw (by omega)).2
    rw [hpair', hkept] at hback'
    subst hback'
    exact h.moved (hpair'.trans hpair.symm)
  have hright : ∀ v' < n, v' ≠ v → s'.pairV v' ≠ n →
      s'.pairV v' < n ∧ s'.pairU (s'.pairV v') = v' := by
    rw [← hpair]
    exact h.right
  refine ⟨swap_left hedge hnone h.left, hlower ▸ swap_right hu hright, ?_, ?_, ?_, ?_, ?_⟩
  · dsimp only
    rw [Function.update_self]
    exact hv.ne
  · dsimp only
    rw [Function.update_self, ← hlower]
    exact (hnone u hu).symm
  · intro w hw hwu
    dsimp only
    rw [Function.update_of_ne hwu]
    by_cases hwv : w = s.pairV v
    · subst hwv
      refine iff_of_false h.matched ?_
      rw [hpair]
      exact hv.ne
    · exact h.others w hw hwv
  · intro w hw
    dsimp only
    rw [Function.update_of_ne]
    · exact h.lower w (by omega)
    · rintro rfl
      exact lt_irrefl _ hw
  · intro v' hv' hback' hw
    dsimp only
    rw [Function.update_of_ne]
    · exact h.kept v' hv' hback' (by omega)
    · rintro rfl
      omega

/-! ## A search from one node -/

/-- What a search leaves behind. -/
structure Outcome (graph : Nat → List Nat) (n u : Nat) (s : HopcroftKarp)
    (r : Bool × HopcroftKarp) : Prop where
  bounded : Bounded n r.2
  found : r.1 = true → Augmented graph n u s r.2
  failed : r.1 = false → Pruned graph n u s r.2

/-- The loop over the adjacent nodes, when the searches it starts are as they should be. -/
theorem dfsLoop?_spec {recurse? : Nat → HopcroftKarp → Option (Bool × HopcroftKarp)} {d : Nat}
    (hgraph : Bipartite graph n) (hnil : ∀ s, Bounded n s → s.dist n = d + 1 →
      recurse? n s = some (true, s))
    (hrecurse : ∀ c s, c < n → Paired graph n s → Bounded n s → s.dist c = d + 1 →
      ∃ r, recurse? c s = some r ∧ Outcome graph n c s r ∧ (r.1 = false → ¬Reach graph n s c))
    {vs : List Nat} (hvs : ∀ v ∈ vs, v ∈ graph u) (hpaired : Paired graph n s)
    (hbounded : Bounded n s) (hd : s.dist u = d) :
    ∃ r, dfsLoop? recurse? u vs s = some r ∧ Outcome graph n u s r ∧
      (r.1 = false → ∀ v ∈ vs, s.dist (s.pairV v) = s.dist u + 1 →
        ¬Reach graph n s (s.pairV v)) := by
  induction vs generalizing s with
  | nil =>
    refine ⟨_, rfl, ⟨fun w => ?_, fun h => Bool.noConfusion h, fun _ => ?_⟩, ?_⟩
    · by_cases hw : w = u
      · subst hw
        exact Or.inl (Function.update_self _ _ _)
      · dsimp only
        rw [Function.update_of_ne hw]
        exact hbounded w
    · refine ⟨rfl, rfl, Function.update_self _ _ _, fun w hw => ?_⟩
      exact Or.inl (Function.update_of_ne hw _ _)
    · intro _ v hv
      cases hv
  | cons v vs ih =>
    have hedge := hvs v List.mem_cons_self
    have hrest : ∀ v ∈ vs, v ∈ graph u := fun v hv => hvs v (List.mem_cons_of_mem _ hv)
    rw [dfsLoop?]
    split
    · -- "only walk according to bfs dists"
      rename_i hskip
      rcases ih hrest hpaired hbounded hd with ⟨r, hr, hout, hnone⟩
      refine ⟨r, hr, hout, fun hfail v' hv' hdist => ?_⟩
      rcases List.mem_cons.1 hv' with rfl | hv'
      · exact absurd hdist hskip
      · exact hnone hfail v' hv' hdist
    · rename_i hdist
      have hdist : s.dist (s.pairV v) = s.dist u + 1 := not_not.1 hdist
      by_cases hfree : s.pairV v = n
      · -- the end of a path
        rw [hfree, hnil s hbounded (by rw [← hfree, hdist, hd])]
        refine ⟨_, rfl, ⟨hbounded, fun _ => ?_, fun h => by cases h⟩, fun h => by cases h⟩
        exact augmented_nil hgraph hpaired hedge hfree
      · have hlt := (hpaired.right v (hgraph.range u v hedge).2 hfree).1
        rcases hrecurse _ s hlt hpaired hbounded (by rw [hdist, hd]) with ⟨r, hr, hout, hfail⟩
        rw [hr, Option.bind_some]
        by_cases hfound : r.1 = true
        · rw [if_pos hfound]
          refine ⟨_, rfl, ⟨hout.bounded, fun _ => ?_, fun h => by cases h⟩, fun h => by cases h⟩
          exact augmented_step hgraph hpaired hedge hfree hdist (hout.found hfound)
        · rw [if_neg hfound]
          have hfalse := eq_false_of_ne_true hfound
          have hpruned := hout.failed hfalse
          have hnot := hfail hfalse
          have hu : r.2.dist u = s.dist u := hpruned.dist_eq (by omega)
          rcases ih hrest (hpruned.paired hpaired) hout.bounded (hu.trans hd) with
            ⟨r', hr', hout', hnone⟩
          refine ⟨r', hr', ⟨hout'.bounded, fun h => ?_, fun h => ?_⟩, ?_⟩
          · exact (hout'.found h).of_pruned hpruned hdist
          · exact hpruned.trans hnot hdist (hout'.failed h)
          · intro hfail' v' hv' hdist' hreach
            rcases List.mem_cons.1 hv' with rfl | hv'
            · exact hnot hreach
            · refine hnone hfail' v' hv' ?_ ?_
              · rw [hpruned.pairV, hpruned.dist_of_reach hnot hreach, hu]
                exact hdist'
              · rw [hpruned.pairV]
                exact hpruned.reach hnot hreach

/-- A search ends, as distances grow; it fails only where there is no path. -/
theorem dfs?_spec (hgraph : Bipartite graph n) {fuel : Nat} (hu : u < n)
    (hpaired : Paired graph n s) (hbounded : Bounded n s) (hpos : 1 ≤ fuel)
    (hfuel : s.dist u ≠ inf → n + 2 ≤ s.dist u + fuel) :
    ∃ r, dfs? graph n fuel u s = some r ∧ Outcome graph n u s r ∧
      (r.1 = false → ¬Reach graph n s u) := by
  induction fuel generalizing u s with
  | zero => omega
  | succ fuel ih =>
    -- one step further the fuel is still enough
    have hnext : ∀ (s' : HopcroftKarp) (c : Nat), Bounded n s' → s'.dist c = s.dist u + 1 →
        n + 2 ≤ s'.dist c + fuel ∧ 1 ≤ fuel := by
      intro s' c hbounded' hdist
      have hsmall := hgraph.small
      have hc := hbounded' c
      rcases hbounded u with hinf | hle
      · rw [hinf, inf] at hdist
        rw [inf] at hc
        omega
      · rw [inf] at hc hfuel
        have hmore := hfuel (by omega)
        omega
    have hnil : ∀ s', Bounded n s' → s'.dist n = s.dist u + 1 →
        dfs? graph n fuel n s' = some (true, s') := by
      intro s' hbounded' hdist
      rcases Nat.exists_eq_add_of_le' (hnext s' n hbounded' hdist).2 with ⟨more, rfl⟩
      rw [dfs?, if_pos rfl]
    have hrecurse : ∀ c s', c < n → Paired graph n s' → Bounded n s' →
        s'.dist c = s.dist u + 1 → ∃ r, dfs? graph n fuel c s' = some r ∧
          Outcome graph n c s' r ∧ (r.1 = false → ¬Reach graph n s' c) := by
      intro c s' hc hpaired' hbounded' hdist
      rcases hnext s' c hbounded' hdist with ⟨hmore, hpos'⟩
      exact ih hc hpaired' hbounded' hpos' fun _ => hmore
    rcases dfsLoop?_spec hgraph hnil hrecurse (fun v hv => hv) hpaired hbounded rfl with
      ⟨r, hr, hout, hnone⟩
    refine ⟨r, ?_, hout, fun hfail hreach => ?_⟩
    · rw [dfs?, if_neg hu.ne]
      exact hr
    · cases hreach with
      | nil => exact lt_irrefl _ hu
      | step _ v hedge hdist hrest => exact hnone hfail v hedge hdist hrest

/-! ## A search from each unmatched node -/

theorem Augmented.paired (h : Augmented graph n u s s') (hfree : s.pairU u = n) :
    Paired graph n s' where
  left := h.left
  right v hv := h.right v hv (by omega)

theorem Augmented.card (h : Augmented graph n u s s') (hu : u < n) (hfree : s.pairU u = n) :
    (matchedNodes n s').card = (matchedNodes n s).card + 1 := by
  have hinsert : matchedNodes n s' = insert u (matchedNodes n s) := by
    ext w
    rw [Finset.mem_insert, mem_matchedNodes, mem_matchedNodes]
    by_cases hw : w = u
    · subst hw
      exact iff_of_true ⟨hu, h.matched⟩ (Or.inl rfl)
    · constructor
      · rintro ⟨hlt, hne⟩
        exact Or.inr ⟨hlt, (h.others w hlt hw).not.1 hne⟩
      · rintro (heq | ⟨hlt, hne⟩)
        · exact absurd heq hw
        · exact ⟨hlt, (h.others w hlt hw).not.2 hne⟩
  rw [hinsert, Finset.card_insert_of_notMem]
  intro hmem
  exact (mem_matchedNodes.1 hmem).2 hfree

/-- The counter is the number of matched nodes, and grows when an unmatched node leads to "none". -/
theorem matchAll?_spec (hgraph : Bipartite graph n) {fuel : Nat} (hfuel : n + 2 ≤ fuel)
    {us : List Nat} (hus : ∀ u ∈ us, u < n) {m : Nat} (hpaired : Paired graph n s)
    (hbounded : Bounded n s) (hm : m = (matchedNodes n s).card) :
    ∃ m' s', matchAll? graph n fuel us (m, s) = some (m', s') ∧ Paired graph n s' ∧
      m' = (matchedNodes n s').card ∧ m ≤ m' ∧
      ((∃ u ∈ us, s.pairU u = n ∧ Reach graph n s u) → m < m') := by
  induction us generalizing m s with
  | nil =>
    refine ⟨m, s, rfl, hpaired, hm, le_rfl, ?_⟩
    rintro ⟨u, hu, -⟩
    cases hu
  | cons u us ih =>
    have hu := hus u List.mem_cons_self
    have hrest : ∀ u ∈ us, u < n := fun u hu => hus u (List.mem_cons_of_mem _ hu)
    rw [matchAll?]
    dsimp only
    split
    · rename_i hfree
      have hpos : 1 ≤ fuel := by omega
      rcases dfs?_spec hgraph hu hpaired hbounded hpos fun _ => by omega with
        ⟨r, hr, hout, hfail⟩
      rw [hr, Option.bind_some]
      by_cases hfound : r.1 = true
      · rw [if_pos hfound]
        have haug := hout.found hfound
        have hcount : m + 1 = (matchedNodes n r.2).card := by rw [haug.card hu hfree, hm]
        rcases ih hrest (haug.paired hfree) hout.bounded hcount with
          ⟨m', s', hall, hpaired', hm', hle, -⟩
        exact ⟨m', s', hall, hpaired', hm', by omega, fun _ => by omega⟩
      · rw [if_neg hfound]
        have hfalse := eq_false_of_ne_true hfound
        have hpruned := hout.failed hfalse
        have hsame : matchedNodes n r.2 = matchedNodes n s := by
          rw [matchedNodes, matchedNodes, hpruned.pairU]
        rcases ih hrest (hpruned.paired hpaired) hout.bounded (hsame ▸ hm) with
          ⟨m', s', hall, hpaired', hm', hle, hmore⟩
        refine ⟨m', s', hall, hpaired', hm', hle, ?_⟩
        rintro ⟨w, hw, hwfree, hreach⟩
        rcases List.mem_cons.1 hw with rfl | hw
        · exact absurd hreach (hfail hfalse)
        · refine hmore ⟨w, hw, ?_, hpruned.reach (hfail hfalse) hreach⟩
          rw [hpruned.pairU]
          exact hwfree
    · rename_i hmatched
      rcases ih hrest hpaired hbounded hm with ⟨m', s', hall, hpaired', hm', hle, hmore⟩
      refine ⟨m', s', hall, hpaired', hm', hle, ?_⟩
      rintro ⟨w, hw, hwfree, hreach⟩
      rcases List.mem_cons.1 hw with rfl | hw
      · exact absurd hwfree hmatched
      · exact hmore ⟨w, hw, hwfree, hreach⟩

/-! ## All rounds -/

/-- A node that has a distance and leads to "none" lies on a path from an unmatched node. -/
theorem Searched.exists_root {dist : Nat → Nat} (h : Searched graph n s [] dist)
    (hw : dist w ≠ inf) (hreach : Reach graph n { s with dist := dist } w) :
    ∃ u < n, s.pairU u = n ∧ Reach graph n { s with dist := dist } u := by
  induction hd : dist w generalizing w with
  | zero =>
    rcases h.found w hw with ⟨hlt, hfree, -⟩ | ⟨u, v, -, -, -, hnext⟩
    · exact ⟨w, hlt, hfree, hreach⟩
    · omega
  | succ d ih =>
    rcases h.found w hw with ⟨hlt, hfree, -⟩ | ⟨u, v, hedge, rfl, hu, hnext⟩
    · exact ⟨w, hlt, hfree, hreach⟩
    · exact ih hu (.step u v hedge hnext hreach) (by omega)

/-- Each round matches more nodes, and there is none after the matching is a maximum. -/
theorem rounds?_spec (hgraph : Bipartite graph n) {fuel : Nat} (hfuel : n + 2 ≤ fuel) {more m : Nat}
    (hpaired : Paired graph n s) (hm : m = (matchedNodes n s).card) (hmore : n + 1 ≤ m + more) :
    ∃ m' M, rounds? graph n fuel more (m, s) = some m' ∧
      IsMaximum (fun u v => v ∈ graph u) M ∧ M.card = m' := by
  induction more generalizing m s with
  | zero =>
    have hle := card_matchedNodes_le (n := n) (s := s)
    omega
  | succ more ih =>
    have hsearch : n + 1 ≤ fuel := by omega
    rcases bfs?_spec hgraph hpaired hsearch with ⟨dist, hbfs, hsearched⟩
    rw [rounds?]
    dsimp only
    rw [hbfs, Option.bind_some]
    dsimp only
    by_cases hnil : dist n = inf
    · rw [if_neg (by simpa using hnil)]
      refine ⟨m, matching n s, rfl, ?_, ?_⟩
      · exact isMaximum_of_not_reached hgraph hpaired hsearched hnil
      · rw [card_matching, hm]
    · rw [if_pos (by simpa using hnil)]
      have hpaired' : Paired graph n { s with dist := dist } := ⟨hpaired.left, hpaired.right⟩
      have hbounded : Bounded n { s with dist := dist } := by
        intro w
        by_cases hw : dist w = inf
        · exact Or.inl hw
        · exact Or.inr (hsearched.dist_le hgraph hpaired hw)
      have hnodes : ∀ u ∈ List.range n, u < n := fun u hu => List.mem_range.1 hu
      rcases matchAll?_spec hgraph hfuel hnodes hpaired' hbounded hm with
        ⟨m', s', hall, hpaired'', hm', -, hgrow⟩
      rw [hall, Option.bind_some]
      have hlt : m < m' := by
        rcases hsearched.exists_root hnil .nil with ⟨u, hu, hfree, hreach⟩
        exact hgrow ⟨u, List.mem_range.2 hu, hfree, hreach⟩
      exact ih hpaired'' hm' (by omega)

end

end HopcroftKarp

open Lib HopcroftKarp

/-- `num_matched` in the end, `none` when the fuel runs out before the loops end. -/
def numMatched? (graph : List (List Nat)) (fuel : Nat) : Option Nat :=
  rounds? (fun u => graph[u]?.getD []) graph.length fuel fuel (0,
    { pairU := fun _ => graph.length, pairV := fun _ => graph.length, dist := fun _ => 0 })

/-- The edges of a graph that is given by the nodes adjacent to each one. -/
def Edge (graph : List (List Nat)) (u v : Nat) : Prop :=
  ∃ vs, graph[u]? = some vs ∧ v ∈ vs

section

variable {graph : List (List Nat)}

theorem mem_adjacent {u v : Nat} : v ∈ graph[u]?.getD [] ↔ Edge graph u v := by
  rw [Edge]
  cases graph[u]? with
  | none => simp
  | some vs => simp

/-- The loops end, with the size of a maximum matching. -/
theorem numMatched?_spec (hsmall : graph.length ≤ 30000)
    (hrange : ∀ vs ∈ graph, ∀ v ∈ vs, v < graph.length) {fuel : Nat}
    (hfuel : graph.length + 2 ≤ fuel) :
    ∃ m M, numMatched? graph fuel = some m ∧ IsMaximum (Edge graph) M ∧ M.card = m := by
  have hgraph : Bipartite (fun u => graph[u]?.getD []) graph.length := by
    refine ⟨hsmall, fun u v huv => ?_⟩
    rcases mem_adjacent.1 huv with ⟨vs, hvs, hv⟩
    exact ⟨(List.getElem?_eq_some_iff.1 hvs).1, hrange vs (List.mem_of_getElem? hvs) v hv⟩
  have hedge : (fun u v => v ∈ graph[u]?.getD []) = Edge graph := by
    funext u v
    exact propext mem_adjacent
  rw [← hedge]
  refine rounds?_spec hgraph hfuel ⟨fun u _ h => absurd rfl h, fun v _ h => absurd rfl h⟩ ?_ (by omega)
  symm
  refine Finset.card_eq_zero.2 (Finset.filter_eq_empty_iff.2 fun u _ h => ?_)
  exact h rfl

theorem hopcroftKarpCanMatchAll_of_numMatched? {m : Nat}
    (h : numMatched? graph (graph.length + 2) = some m) :
    hopcroftKarpCanMatchAll graph = decide (m = graph.length) := by
  rw [hopcroftKarpCanMatchAll, rounds_of_rounds? h]

/-- All nodes are matched when they can be. -/
theorem hopcroftKarpCanMatchAll_iff (hsmall : graph.length ≤ 30000)
    (hrange : ∀ vs ∈ graph, ∀ v ∈ vs, v < graph.length) :
    hopcroftKarpCanMatchAll graph = true ↔
      Arrangeable (Edge graph) (List.range graph.length) (List.range graph.length) := by
  rcases numMatched?_spec hsmall hrange le_rfl with ⟨m, M, hm, hmax, hcard⟩
  have hE : ∀ u v, Edge graph u v → u < graph.length ∧ v < graph.length := by
    rintro u v ⟨vs, hvs, hv⟩
    exact ⟨(List.getElem?_eq_some_iff.1 hvs).1, hrange vs (List.mem_of_getElem? hvs) v hv⟩
  rw [hopcroftKarpCanMatchAll_of_numMatched? hm, decide_eq_true_iff, arrangeable_range_iff hE]
  constructor
  · rintro rfl
    exact ⟨M, hmax.toIsMatching, hcard⟩
  · rintro ⟨M', hM', hcard'⟩
    refine le_antisymm ?_ ?_
    · rw [← hcard, ← hmax.toIsMatching.card_fst, ← Finset.card_range graph.length]
      refine Finset.card_le_card fun u hu => ?_
      rcases Finset.mem_image.1 hu with ⟨⟨u, v⟩, huv, rfl⟩
      exact Finset.mem_range.2 (hE u v (hmax.edge u v huv)).1
    · rw [← hcard', ← hcard]
      exact hmax.le M' hM'

end

end Craft
end AxisEngine
