import AxisEngine.Craft.HopcroftKarp
import AxisEngine.Lib.Matching

/-!
# BreadthFirst — the distances of `do_bfs`

* `bfsLoop?` — the loop over the queue, `none` when the fuel runs out before the queue does;
* `Paired` — the two arrays of pairs describe one matching;
* `Searched` — the invariant of the loop: where the distances come from, and what is still queued.
-/

namespace AxisEngine
namespace Craft
namespace HopcroftKarp

open Lib

/-- `bfsLoop`, as long as the fuel lasts. -/
def bfsLoop? (graph : Nat → List Nat) (nil : Nat) (pairV : Nat → Nat) :
    Nat → List Nat → (Nat → Nat) → Option (Nat → Nat)
  | _, [], dist => some dist
  | 0, _ :: _, _ => none
  | fuel + 1, u :: queue, dist =>
    if dist u < dist nil then
      let state := visit pairV u (graph u) (queue, dist)
      bfsLoop? graph nil pairV fuel state.1 state.2
    else bfsLoop? graph nil pairV fuel queue dist

theorem bfsLoop_of_bfsLoop? {graph : Nat → List Nat} {nil : Nat} {pairV : Nat → Nat} {fuel : Nat}
    {queue : List Nat} {dist dist' : Nat → Nat}
    (h : bfsLoop? graph nil pairV fuel queue dist = some dist') :
    bfsLoop graph nil pairV fuel queue dist = dist' := by
  induction fuel generalizing queue dist with
  | zero =>
    cases queue with
    | nil => exact Option.some.inj h
    | cons u queue => cases h
  | succ fuel ih =>
    cases queue with
    | nil => exact Option.some.inj h
    | cons u queue =>
      rw [bfsLoop?] at h
      rw [bfsLoop]
      split at h
      · rename_i hlt
        rw [if_pos hlt]
        exact ih h
      · rename_i hlt
        rw [if_neg hlt]
        exact ih h

/-- The graph has nodes below `n` only, and `n` is small enough for distances of 16 bits. -/
structure Bipartite (graph : Nat → List Nat) (n : Nat) : Prop where
  small : n ≤ 30000
  range : ∀ u v, v ∈ graph u → u < n ∧ v < n

/-- Nodes are paired along edges, and each is the partner of its partner; `n` is "none". -/
structure Paired (graph : Nat → List Nat) (n : Nat) (s : HopcroftKarp) : Prop where
  left : ∀ u < n, s.pairU u ≠ n → s.pairU u ∈ graph u ∧ s.pairV (s.pairU u) = u
  right : ∀ v < n, s.pairV v ≠ n → s.pairV v < n ∧ s.pairU (s.pairV v) = v

section

variable {graph : Nat → List Nat} {n : Nat} {s : HopcroftKarp}
variable {queue : List Nat} {dist : Nat → Nat} {u v w : Nat}

theorem Paired.pairV_le (h : Paired graph n s) (hv : v < n) : s.pairV v ≤ n := by
  by_cases hnil : s.pairV v = n
  · exact hnil.le
  · exact (h.right v hv hnil).1.le

/-! ## The matching of the pairs -/

/-- The nodes that have a partner. -/
def matchedNodes (n : Nat) (s : HopcroftKarp) : Finset Nat :=
  (Finset.range n).filter fun u => s.pairU u ≠ n

/-- The edges along which nodes are paired. -/
def matching (n : Nat) (s : HopcroftKarp) : Finset (Nat × Nat) :=
  (matchedNodes n s).image fun u => (u, s.pairU u)

theorem mem_matchedNodes : u ∈ matchedNodes n s ↔ u < n ∧ s.pairU u ≠ n := by
  rw [matchedNodes, Finset.mem_filter, Finset.mem_range]

theorem mem_matching : (u, v) ∈ matching n s ↔ u < n ∧ s.pairU u ≠ n ∧ s.pairU u = v := by
  rw [matching, Finset.mem_image]
  constructor
  · rintro ⟨w, hw, heq⟩
    cases heq
    rcases mem_matchedNodes.1 hw with ⟨hlt, hne⟩
    exact ⟨hlt, hne, rfl⟩
  · rintro ⟨hlt, hne, rfl⟩
    exact ⟨u, mem_matchedNodes.2 ⟨hlt, hne⟩, rfl⟩

theorem card_matching : (matching n s).card = (matchedNodes n s).card := by
  refine Finset.card_image_of_injOn ?_
  intro u _ w _ h
  exact congrArg Prod.fst h

theorem card_matchedNodes_le : (matchedNodes n s).card ≤ n := by
  have hle := Finset.card_filter_le (Finset.range n) fun u => s.pairU u ≠ n
  rw [Finset.card_range] at hle
  exact hle

theorem Paired.isMatching (h : Paired graph n s) :
    IsMatching (fun u v => v ∈ graph u) (matching n s) where
  edge u v huv := by
    rcases mem_matching.1 huv with ⟨hlt, hne, rfl⟩
    exact (h.left u hlt hne).1
  left u v v' huv huv' := by
    rcases mem_matching.1 huv with ⟨-, -, rfl⟩
    exact (mem_matching.1 huv').2.2
  right u u' v huv huv' := by
    rcases mem_matching.1 huv with ⟨hlt, hne, rfl⟩
    rcases mem_matching.1 huv' with ⟨hlt', hne', heq⟩
    calc u = s.pairV (s.pairU u) := (h.left u hlt hne).2.symm
      _ = s.pairV (s.pairU u') := by rw [heq]
      _ = u' := (h.left u' hlt' hne').2

/-! ## One node of the queue -/

/-- The nodes that are not visited yet. -/
def unvisited (n : Nat) (dist : Nat → Nat) : Finset Nat :=
  (Finset.range (n + 1)).filter fun w => dist w = inf

/-- A node that is visited now is none that was visited before. -/
theorem update_of_unvisited (hu : dist u ≠ inf) (hw : dist w = inf) (d : Nat) :
    Function.update dist w d u = dist u := by
  refine Function.update_of_ne ?_ _ _
  rintro rfl
  exact hu hw

/-- What one node adds to the queue gets the next distance; all partners of adjacent nodes are
visited then. -/
theorem visit_spec (pairV : Nat → Nat) (queue : List Nat) (hu : dist u ≠ inf)
    (hnext : dist u + 1 ≠ inf) (vs : List Nat) :
    ∃ new dist', visit pairV u vs (queue, dist) = (queue ++ new, dist') ∧
      (∀ w ∈ new, dist w = inf ∧ dist' w = dist u + 1 ∧ ∃ v ∈ vs, pairV v = w) ∧
      (∀ w, w ∉ new → dist' w = dist w) ∧ ∀ v ∈ vs, dist' (pairV v) ≠ inf := by
  induction vs generalizing queue dist with
  | nil =>
    refine ⟨[], dist, ?_, ?_, fun _ _ => rfl, ?_⟩
    · rw [visit, List.append_nil]
    · intro w hw
      cases hw
    · intro v hv
      cases hv
  | cons v vs ih =>
    rw [visit]
    split
    · rename_i hinf
      have hkept := update_of_unvisited hu hinf (dist u + 1)
      have hu' : Function.update dist (pairV v) (dist u + 1) u ≠ inf := by
        rw [hkept]
        exact hu
      have hnext' : Function.update dist (pairV v) (dist u + 1) u + 1 ≠ inf := by
        rw [hkept]
        exact hnext
      rcases ih (queue ++ [pairV v]) hu' hnext' with ⟨new, dist', hvisit, hnew, hold, hall⟩
      rw [hkept] at hnew
      have hfirst : pairV v ∉ new := by
        intro hmem
        rcases hnew _ hmem with ⟨hfresh, -⟩
        rw [Function.update_self] at hfresh
        exact hnext hfresh
      have hdist : dist' (pairV v) = dist u + 1 := by
        rw [hold _ hfirst, Function.update_self]
      refine ⟨pairV v :: new, dist', ?_, ?_, ?_, ?_⟩
      · rw [hvisit, List.append_assoc]
        rfl
      · intro w hw
        rcases List.mem_cons.1 hw with rfl | hw
        · exact ⟨hinf, hdist, v, List.mem_cons_self, rfl⟩
        · rcases hnew w hw with ⟨hfresh, hset, v', hv', rfl⟩
          have hother : pairV v' ≠ pairV v := by
            intro h
            exact hfirst (h ▸ hw)
          rw [Function.update_of_ne hother] at hfresh
          exact ⟨hfresh, hset, v', List.mem_cons_of_mem _ hv', rfl⟩
      · intro w hw
        rcases not_or.1 (mt List.mem_cons.2 hw) with ⟨hother, hw⟩
        rw [hold w hw, Function.update_of_ne hother]
      · intro v' hv'
        rcases List.mem_cons.1 hv' with rfl | hv'
        · rw [hdist]
          exact hnext
        · exact hall v' hv'
    · rename_i hvisited
      rcases ih queue hu hnext with ⟨new, dist', hvisit, hnew, hold, hall⟩
      refine ⟨new, dist', hvisit, ?_, hold, ?_⟩
      · intro w hw
        rcases hnew w hw with ⟨hfresh, hset, v', hv', hpair⟩
        exact ⟨hfresh, hset, v', List.mem_cons_of_mem _ hv', hpair⟩
      · intro v' hv'
        rcases List.mem_cons.1 hv' with rfl | hv'
        · rw [hold]
          · exact hvisited
          · intro hmem
            exact hvisited (hnew _ hmem).1
        · exact hall v' hv'

theorem visit_count (pairV : Nat → Nat) (queue : List Nat) (hu : dist u ≠ inf)
    (hnext : dist u + 1 ≠ inf) (vs : List Nat) (hrange : ∀ v ∈ vs, pairV v ≤ n) :
    (visit pairV u vs (queue, dist)).1.length +
        (unvisited n (visit pairV u vs (queue, dist)).2).card =
      queue.length + (unvisited n dist).card := by
  induction vs generalizing queue dist with
  | nil => rfl
  | cons v vs ih =>
    have hrest : ∀ v ∈ vs, pairV v ≤ n := fun v hv => hrange v (List.mem_cons_of_mem _ hv)
    rw [visit]
    split
    · rename_i hinf
      have hkept := update_of_unvisited hu hinf (dist u + 1)
      have hu' : Function.update dist (pairV v) (dist u + 1) u ≠ inf := by
        rw [hkept]
        exact hu
      have hnext' : Function.update dist (pairV v) (dist u + 1) u + 1 ≠ inf := by
        rw [hkept]
        exact hnext
      rw [ih _ hu' hnext' hrest]
      have herase : unvisited n (Function.update dist (pairV v) (dist u + 1)) =
          (unvisited n dist).erase (pairV v) := by
        ext w
        rw [unvisited, Finset.mem_filter, Finset.mem_erase, unvisited, Finset.mem_filter]
        by_cases hw : w = pairV v
        · subst hw
          rw [Function.update_self]
          exact iff_of_false (fun h => hnext h.2) fun h => h.1 rfl
        · rw [Function.update_of_ne hw]
          exact ⟨fun h => ⟨hw, h⟩, fun h => h.2⟩
      have hmem : pairV v ∈ unvisited n dist := by
        have hle := hrange v List.mem_cons_self
        exact Finset.mem_filter.2 ⟨Finset.mem_range.2 (by omega), hinf⟩
      have hcard := Finset.card_erase_add_one hmem
      rw [herase, List.length_append, List.length_singleton]
      omega
    · exact ih _ hu hnext hrest

/-! ## The invariant of the loop -/

/-- Distances come from unmatched nodes along the graph, and what such a node leads to is visited or
the node is still in the queue. -/
structure Searched (graph : Nat → List Nat) (n : Nat) (s : HopcroftKarp) (queue : List Nat)
    (dist : Nat → Nat) : Prop where
  root : ∀ u < n, s.pairU u = n → dist u = 0
  found : ∀ w, dist w ≠ inf → (w < n ∧ s.pairU w = n ∧ dist w = 0) ∨
    ∃ u v, v ∈ graph u ∧ s.pairV v = w ∧ dist u ≠ inf ∧ dist w = dist u + 1
  queued : ∀ w ∈ queue, dist w ≠ inf
  closed : dist n = inf → ∀ u < n, dist u ≠ inf → u ∈ queue ∨ ∀ v ∈ graph u, dist (s.pairV v) ≠ inf

section

variable (h : Searched graph n s queue dist) (hgraph : Bipartite graph n)
  (hpaired : Paired graph n s)

include h hgraph hpaired

/-- All smaller distances occur, too. -/
theorem Searched.attained {k : Nat} (hw : dist w ≠ inf) (hk : k ≤ dist w) :
    ∃ u ≤ n, dist u = k := by
  induction hd : dist w generalizing w with
  | zero =>
    rcases h.found w hw with ⟨hlt, -, -⟩ | ⟨u, v, -, -, -, hnext⟩
    · exact ⟨w, hlt.le, by omega⟩
    · omega
  | succ d ih =>
    rcases h.found w hw with ⟨-, -, hzero⟩ | ⟨u, v, hedge, hpair, hu, hnext⟩
    · omega
    · by_cases hlast : k = d + 1
      · refine ⟨w, ?_, by omega⟩
        rw [← hpair]
        exact hpaired.pairV_le (hgraph.range u v hedge).2
      · exact ih hu (by omega) (by omega)

/-- As each distance occurs at another node, there is none above `n`. -/
theorem Searched.dist_le (hw : dist w ≠ inf) : dist w ≤ n := by
  have hsub : Finset.range (dist w + 1) ⊆ (Finset.range (n + 1)).image dist := by
    intro k hk
    have hk := Finset.mem_range.1 hk
    rcases h.attained hgraph hpaired hw (k := k) (by omega) with ⟨u, hu, rfl⟩
    exact Finset.mem_image_of_mem _ (Finset.mem_range.2 (by omega))
  have hcard := (Finset.card_le_card hsub).trans Finset.card_image_le
  rw [Finset.card_range, Finset.card_range] at hcard
  omega

/-- Distances stay below "infinite". -/
theorem Searched.next_ne_inf (hw : dist w ≠ inf) : dist w + 1 ≠ inf := by
  have hle := h.dist_le hgraph hpaired hw
  have hsmall := hgraph.small
  rw [inf]
  omega

end

section

variable (h : Searched graph n s (u :: queue) dist) (hgraph : Bipartite graph n)
  (hpaired : Paired graph n s)

include h hgraph hpaired

/-- A node beyond the distance of "none" is left out. -/
theorem Searched.skip (hfar : ¬dist u < dist n) : Searched graph n s queue dist where
  root := h.root
  found := h.found
  queued w hw := h.queued w (List.mem_cons_of_mem _ hw)
  closed hnil := by
    have hu := h.dist_le hgraph hpaired (h.queued u List.mem_cons_self)
    have hsmall := hgraph.small
    rw [hnil, inf] at hfar
    omega

/-- The partners of the nodes adjacent to the first one of the queue are visited. -/
theorem Searched.visit :
    Searched graph n s (HopcroftKarp.visit s.pairV u (graph u) (queue, dist)).1
      (HopcroftKarp.visit s.pairV u (graph u) (queue, dist)).2 := by
  have hu := h.queued u List.mem_cons_self
  have hnext := h.next_ne_inf hgraph hpaired hu
  rcases visit_spec s.pairV queue hu hnext (graph u) with
    ⟨new, dist', hvisit, hnew, hold, hall⟩
  rw [hvisit]
  change Searched graph n s (queue ++ new) dist'
  -- what had a distance keeps it
  have hkept : ∀ w, dist w ≠ inf → dist' w = dist w := by
    intro w hw
    refine hold w fun hmem => ?_
    exact hw (hnew w hmem).1
  constructor
  · intro w hw hfree
    have hzero := h.root w hw hfree
    rw [hkept w (by rw [hzero, inf]; omega), hzero]
  · intro w hw
    by_cases hmem : w ∈ new
    · rcases hnew w hmem with ⟨-, hset, v, hv, hpair⟩
      refine Or.inr ⟨u, v, hv, hpair, ?_, ?_⟩
      · rw [hkept u hu]
        exact hu
      · rw [hkept u hu, hset]
    · rw [hold w hmem] at hw ⊢
      rcases h.found w hw with hroot | ⟨u', v, hedge, hpair, hu', hdist⟩
      · exact Or.inl hroot
      · refine Or.inr ⟨u', v, hedge, hpair, ?_, ?_⟩
        · rw [hkept u' hu']
          exact hu'
        · rw [hkept u' hu', hdist]
  · intro w hw
    rcases List.mem_append.1 hw with hw | hw
    · have hold := h.queued w (List.mem_cons_of_mem _ hw)
      rw [hkept w hold]
      exact hold
    · rw [(hnew w hw).2.1]
      exact hnext
  · intro hnil w hw hvisited
    by_cases hmem : w ∈ new
    · exact Or.inl (List.mem_append_right _ hmem)
    · have hnil' : dist n = inf := by
        by_contra hne
        exact hne ((hkept n hne).symm.trans hnil)
      rw [hold w hmem] at hvisited
      rcases h.closed hnil' w hw hvisited with hqueue | hdone
      · rcases List.mem_cons.1 hqueue with rfl | hqueue
        · exact Or.inr hall
        · exact Or.inl (List.mem_append_left _ hqueue)
      · refine Or.inr fun v hv => ?_
        rw [hkept _ (hdone v hv)]
        exact hdone v hv

end

/-- The loop ends, as every node gets into the queue once at most. -/
theorem bfsLoop?_spec (hgraph : Bipartite graph n) (hpaired : Paired graph n s) {fuel : Nat}
    (h : Searched graph n s queue dist) (hfuel : queue.length + (unvisited n dist).card ≤ fuel) :
    ∃ dist', bfsLoop? graph n s.pairV fuel queue dist = some dist' ∧
      Searched graph n s [] dist' := by
  induction fuel generalizing queue dist with
  | zero =>
    cases queue with
    | nil => exact ⟨dist, rfl, h⟩
    | cons u queue =>
      rw [List.length_cons] at hfuel
      omega
  | succ fuel ih =>
    cases queue with
    | nil => exact ⟨dist, rfl, h⟩
    | cons u queue =>
      have hu := h.queued u List.mem_cons_self
      rw [List.length_cons] at hfuel
      rw [bfsLoop?]
      dsimp only
      split
      · have hnext := h.next_ne_inf hgraph hpaired hu
        have hcount := visit_count (n := n) s.pairV queue hu hnext (graph u) fun v hv =>
          hpaired.pairV_le (hgraph.range u v hv).2
        exact ih (h.visit hgraph hpaired) (by omega)
      · rename_i hfar
        exact ih (h.skip hgraph hpaired hfar) (by omega)

/-! ## The search -/

/-- `bfs`, as long as the fuel lasts. -/
def bfs? (graph : Nat → List Nat) (size fuel : Nat) (s : HopcroftKarp) :
    Option (Bool × HopcroftKarp) :=
  let unmatched := (List.range size).filter fun u => s.pairU u = size
  let dist : Nat → Nat := fun u => if u < size ∧ s.pairU u = size then 0 else inf
  (bfsLoop? graph size s.pairV fuel unmatched dist).map fun dist =>
    (dist size ≠ inf, { s with dist := dist })

theorem bfs_of_bfs? {r : Bool × HopcroftKarp} (h : bfs? graph n (n + 2) s = some r) :
    bfs graph n s = r := by
  rcases Option.map_eq_some_iff.1 h with ⟨dist', hloop, rfl⟩
  rw [bfs, bfsLoop_of_bfsLoop? hloop]

theorem bfs?_spec (hgraph : Bipartite graph n) (hpaired : Paired graph n s) {fuel : Nat}
    (hfuel : n + 1 ≤ fuel) :
    ∃ dist', bfs? graph n fuel s = some (decide (dist' n ≠ inf), { s with dist := dist' }) ∧
      Searched graph n s [] dist' := by
  have hstart : Searched graph n s ((List.range n).filter fun u => s.pairU u = n)
      fun u => if u < n ∧ s.pairU u = n then 0 else inf := by
    have hvisited : ∀ w, (if w < n ∧ s.pairU w = n then 0 else inf) ≠ inf →
        w < n ∧ s.pairU w = n := by
      intro w hw
      by_contra hnot
      rw [if_neg hnot] at hw
      exact hw rfl
    constructor
    · intro u hu hfree
      exact if_pos ⟨hu, hfree⟩
    · intro w hw
      rcases hvisited w hw with ⟨hlt, hfree⟩
      exact Or.inl ⟨hlt, hfree, if_pos ⟨hlt, hfree⟩⟩
    · intro w hw
      rcases List.mem_filter.1 hw with ⟨hlt, hfree⟩
      rw [if_pos ⟨List.mem_range.1 hlt, of_decide_eq_true hfree⟩, inf]
      omega
    · intro _ u hu hvisitedU
      rcases hvisited u hvisitedU with ⟨hlt, hfree⟩
      exact Or.inl (List.mem_filter.2 ⟨List.mem_range.2 hlt, decide_eq_true hfree⟩)
  -- what is in the queue is visited
  have hcount : ((List.range n).filter fun u => s.pairU u = n).length +
      (unvisited n fun u => if u < n ∧ s.pairU u = n then 0 else inf).card ≤ n + 1 := by
    have hqueue : ((List.range n).filter fun u => s.pairU u = n).length =
        ((List.range n).filter fun u => s.pairU u = n).toFinset.card :=
      (List.toFinset_card_of_nodup (List.nodup_range.filter _)).symm
    rw [hqueue, ← Finset.card_union_of_disjoint, ← Finset.card_range (n + 1)]
    · refine Finset.card_le_card fun w hw => ?_
      rcases Finset.mem_union.1 hw with hw | hw
      · have hlt := List.mem_range.1 (List.mem_filter.1 (List.mem_toFinset.1 hw)).1
        exact Finset.mem_range.2 (by omega)
      · exact (Finset.mem_filter.1 hw).1
    · refine Finset.disjoint_left.2 fun w hw hun => ?_
      rcases List.mem_filter.1 (List.mem_toFinset.1 hw) with ⟨hlt, hfree⟩
      have hzero := hstart.root w (List.mem_range.1 hlt) (of_decide_eq_true hfree)
      have hinf := (Finset.mem_filter.1 hun).2
      have hsame : (0 : Nat) = inf := hzero.symm.trans hinf
      rw [inf] at hsame
      omega
  rcases bfsLoop?_spec hgraph hpaired hstart (hcount.trans hfuel) with ⟨dist', hloop, hend⟩
  refine ⟨dist', ?_, hend⟩
  rw [bfs?, hloop]
  rfl

/-- A search that does not get to "none" has visited everything that unmatched nodes lead to. -/
theorem isMaximum_of_not_reached (hgraph : Bipartite graph n) (hpaired : Paired graph n s)
    (h : Searched graph n s [] dist) (hnil : dist n = inf) :
    IsMaximum (fun u v => v ∈ graph u) (matching n s) := by
  refine isMaximum_of_closed (Finset.range n) ((Finset.range n).filter fun u => dist u ≠ inf)
    hpaired.isMatching ?_ ?_ ?_
  · intro u v huv
    exact Finset.mem_range.2 (hgraph.range u v huv).1
  · intro u hu hout
    have hlt := Finset.mem_range.1 hu
    have hunvisited : dist u = inf := by
      by_contra hne
      exact hout (Finset.mem_filter.2 ⟨hu, hne⟩)
    refine ⟨s.pairU u, mem_matching.2 ⟨hlt, fun hfree => ?_, rfl⟩⟩
    have hzero := h.root u hlt hfree
    rw [hunvisited, inf] at hzero
    omega
  · intro u hu v huv
    rcases Finset.mem_filter.1 hu with ⟨hlt, hvisited⟩
    have hback : dist (s.pairV v) ≠ inf := by
      rcases h.closed hnil u (Finset.mem_range.1 hlt) hvisited with hqueue | hdone
      · cases hqueue
      · exact hdone v huv
    have hne : s.pairV v ≠ n := by
      intro heq
      rw [heq] at hback
      exact hback hnil
    rcases hpaired.right v (hgraph.range u v huv).2 hne with ⟨hback', hpair⟩
    refine ⟨s.pairV v, Finset.mem_filter.2 ⟨Finset.mem_range.2 hback', hback⟩, ?_⟩
    refine mem_matching.2 ⟨hback', ?_, hpair⟩
    rw [hpair]
    exact (hgraph.range u v huv).2.ne

end

end HopcroftKarp
end Craft
end AxisEngine
