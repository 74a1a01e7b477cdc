import AxisEngine.KdTrees.Forest
import AxisEngine.KdTrees.IdxLoops
import Mathlib.Algebra.Order.BigOperators.Group.List

/-!
# FullRange — how many points the spatial index holds

A tree of 65536 points can be built, and its indices are all kept.  Then `foreach` goes through it
with a counter that never reaches 65536.  Such a tree comes up when an insertion makes the number of
points 65536, deleted ones included.

* `loopIdx_iff` — which loops end;
* `initIn_eq`, `mergeIn_eq` — up to 65536 points no index is truncated;
* `plantIn_eq`, `plantIn_endless`, `removeIn_eq` — the operations on a forest;
* `Counts` — how many points there are, deleted ones included;
* `runIn_iff` — when a sequence of operations comes to its end.
-/

namespace AxisEngine
namespace KdTrees

open Lib

/-! ## Loops -/

section

variable {α : Type*} {n fuel : ℕ} {body : UInt16 → α → α} {i : UInt16} {a : α}

/-- The counter is always below the bound. -/
theorem idxFor_endless (hn : 2 ^ 16 ≤ n) : idxFor n body fuel i a = none := by
  induction fuel generalizing i a with
  | zero => rfl
  | succ fuel ih =>
    rw [idxFor, if_pos (i.toNat_lt.trans_le hn)]
    exact ih

theorem idxFor_ends (hn : n < 2 ^ 16) (hi : i.toNat ≤ n) (hfuel : n - i.toNat < fuel) :
    ∃ b, idxFor n body fuel i a = some b := by
  induction fuel generalizing i a with
  | zero => exact absurd hfuel (Nat.not_lt_zero _)
  | succ fuel ih =>
    rw [idxFor]
    by_cases hlt : i.toNat < n
    · have hnext : (i + 1).toNat = i.toNat + 1 := by
        rw [UInt16.toNat_add]
        exact Nat.mod_eq_of_lt (by simp; omega)
      rw [if_pos hlt]
      exact ih (by omega) (by omega)
    · exact ⟨a, if_neg hlt⟩

theorem loopIdx_eq (hn : n < 2 ^ 16) : loopIdx n = .ok () :=
  if_pos hn

theorem loopIdx_endless (hn : 2 ^ 16 ≤ n) : loopIdx n = .error .endless :=
  if_neg (Nat.not_lt.2 hn)

/-- What `loopIdx` says of a loop, whatever its body does. -/
theorem loopIdx_iff (n : ℕ) (body : UInt16 → α → α) (a : α) :
    loopIdx n = .ok () ↔ ∃ fuel b, idxFor n body fuel 0 a = some b := by
  by_cases hn : n < 2 ^ 16
  · refine iff_of_true (loopIdx_eq hn) ⟨n + 1, ?_⟩
    exact idxFor_ends hn (Nat.zero_le n) (Nat.lt_succ_of_le (Nat.sub_le _ _))
  · rw [not_lt] at hn
    rw [loopIdx_endless hn]
    refine iff_of_false (fun h => by cases h) ?_
    rintro ⟨fuel, b, h⟩
    rw [idxFor_endless hn] at h
    cases h

end

theorem narrow_eq {i : ℕ} (h : i < 2 ^ 16) : narrow i = .ok () :=
  if_pos (idx_of_lt h)

theorem forM_ok {α : Type} {l : List α} {f : α → Except Trouble Unit} (h : ∀ a ∈ l, f a = .ok ()) :
    l.forM f = .ok () := by
  induction l with
  | nil => rfl
  | cons a l ih =>
    change (f a >>= fun _ => l.forM f) = _
    rw [h a List.mem_cons_self]
    exact ih fun b hb => h b (List.mem_cons_of_mem a hb)

theorem splitIn_eq {size : ℕ} (h : size ≤ 2 ^ 16) : splitIn size = .ok () := by
  have hhalf : size / 2 < 2 ^ 16 := by omega
  rw [splitIn, narrow_eq hhalf, idx_of_lt hhalf, loopIdx_eq hhalf]
  exact loopIdx_eq (by omega)

/-! ## Trees -/

variable {Dim n : ℕ} [NeZero Dim] {Component Id : Type} [LinearOrder Component]

/-- The places of a tree of at most 65536 points are all kept in an `Idx`. -/
theorem initIn_eq (hn : n ≤ 2 ^ 16) {r : ℕ} (axis : Fin Dim) {sorted : SortedIndices Dim n}
    (arrays : Build n) (hfits : Fits n r sorted.size) (hs : 0 < sorted.size) :
    ∃ arrays', initIn r axis sorted arrays = .ok arrays' ∧
      init r axis sorted arrays = some arrays' := by
  induction hm : sorted.size using Nat.strong_induction_on generalizing r axis sorted arrays with
  | _ m ih =>
    have hhalf : ∀ (half : SortedIndices Dim n) (r' : ℕ) (arrays : Build n),
        half.size < m → Fits n r' half.size →
        ∃ arrays', (if 0 < half.size then
            narrow r' >>= fun _ => initIn (idx r') (axis + 1) half arrays
            else .ok arrays) = .ok arrays' ∧
          (if 0 < half.size then init (idx r') (axis + 1) half arrays
            else some arrays) = some arrays' := by
      intro half r' arrays hlt hfits
      by_cases hpos : 0 < half.size
      · have hr' : r' < 2 ^ 16 := (hfits.lt hpos).trans_le hn
        rw [if_pos hpos, if_pos hpos, narrow_eq hr', idx_of_lt hr']
        exact ih half.size hlt (axis + 1) arrays hfits hpos rfl
      · exact ⟨arrays, if_neg hpos, if_neg hpos⟩
    have hr : r < n := hfits.lt hs
    have hfitsLeft := hfits.left hs
    have hfitsRight := hfits.right hs
    rw [← SortedIndices.leftN_eq hn] at hfitsLeft hfitsRight
    rw [initIn, init, dif_pos ⟨hs, hr⟩, dif_pos ⟨hs, hr⟩]
    rcases hhalf (sorted.split axis hs arrays.markers).1.left (2 * r + 1)
      ⟨Function.update arrays.tree ⟨r, hr⟩ (sorted.split axis hs arrays.markers).1.pivot,
        (sorted.split axis hs arrays.markers).2⟩
      (SortedIndices.size_left_lt.trans_eq hm) (by rwa [SortedIndices.size_left])
      with ⟨left, hleft, hleft'⟩
    rcases hhalf (sorted.split axis hs arrays.markers).1.right (2 * r + 2) left
      (SortedIndices.size_right_lt.trans_eq hm) (by rwa [SortedIndices.size_right])
      with ⟨right, hright, hright'⟩
    refine ⟨right, ?_, ?_⟩
    · dsimp only
      rw [splitIn_eq (sorted.size_le.trans hn), hleft]
      exact hright
    · dsimp only
      rw [hleft', Option.bind_some, hright']

theorem buildArraysIn_eq (items : SortedPoints Dim Component n) {h : ℕ} (hpow : n = 2 ^ h)
    (hn : n ≤ 2 ^ 16) : ∃ arrays, buildArraysIn items.indices = .ok arrays ∧
      (n < 2 ^ 16 → buildArrays items.indices = some arrays) := by
  have hsize : items.indices.size = n := by
    rw [SortedIndices.size, (items.all 0).length_eq, List.length_finRange]
  have hpos : 0 < n := hpow ▸ Nat.two_pow_pos h
  have hfits : Fits n 0 items.indices.size := by
    rw [hsize, hpow]
    exact .start h
  rcases initIn_eq hn 0 ⟨fun _ => ⟨0, hpos⟩, .clear n⟩ hfits (hsize.symm ▸ hpos) with ⟨arrays, hin, hinit⟩
  refine ⟨arrays, ?_, fun hlt => ?_⟩
  · rw [buildArraysIn, dif_pos hpos]
    exact hin
  · rw [buildArrays, dif_pos ⟨hpos, hlt⟩]
    exact hinit

namespace KdTree

variable {a b : KdTree Dim Component Id}

theorem buildIn_eq (S : Sorter Component) (ids : Fin n → Id) (points : Fin n → Point Dim Component)
    {h : ℕ} (hpow : n = 2 ^ h) (hn : n < 2 ^ 16) :
    ∃ t, buildIn S ids points = .ok t ∧ build S ids points = some t := by
  rcases buildArraysIn_eq (SortedPoints.sort S points) hpow hn.le with ⟨arrays, hin, hbuild⟩
  refine ⟨{ cap := n, items := SortedPoints.sort S points, ids := ids, tree := arrays.tree
            deleted := arrays.markers.1 }, ?_, ?_⟩
  · rw [buildIn, loopIdx_eq hn]
    change (buildArraysIn (SortedPoints.sort S points).indices >>= _) = _
    rw [hin]
    rfl
  · rw [build, hbuild hn]
    rfl

omit [NeZero Dim] in
/-- The last index of all is 65535. -/
theorem shiftIn_eq (hpos : 0 < b.cap) (hle : a.cap + b.cap ≤ 2 ^ 16) : a.shiftIn b = .ok () := by
  refine forM_ok fun d _ => ?_
  rw [narrow_eq (by omega)]
  refine forM_ok fun j _ => narrow_eq ?_
  have hj := j.isLt
  omega

theorem mergeIn_eq {h : ℕ} (hpow : a.cap + b.cap = 2 ^ h) (hpos : 0 < b.cap)
    (hle : a.cap + b.cap ≤ 2 ^ 16) :
    ∃ t, a.mergeIn b = .ok t ∧ t.cap = a.cap + b.cap ∧
      (a.cap + b.cap < 2 ^ 16 → a.merge b = some t) := by
  rcases buildArraysIn_eq (a.items.merge b.items) hpow hle with ⟨arrays, hin, hbuild⟩
  refine ⟨{ cap := a.cap + b.cap, items := a.items.merge b.items, ids := Fin.append a.ids b.ids
            tree := arrays.tree, deleted := Fin.append a.deleted b.deleted }, ?_, rfl, fun hlt => ?_⟩
  · rw [mergeIn, shiftIn_eq hpos hle]
    change (buildArraysIn (a.items.merge b.items).indices >>= _) = _
    rw [hin]
    rfl
  · rw [merge, hbuild hlt]
    rfl

end KdTree

/-! ## The forest -/

variable [DecidableEq Id] {k : ℕ} {t tree : KdTree Dim Component Id}
  {ts : List (KdTree Dim Component Id)} {entries : DelEntries Id}

namespace DynamicKdTrees

omit [NeZero Dim] in
theorem updateDelEntriesIn_eq (hcap : t.cap < 2 ^ 16) (entries : DelEntries Id) :
    updateDelEntriesIn k t entries = .ok (updateDelEntries k t entries) := by
  rw [updateDelEntriesIn, KdTree.foreachIn, loopIdx_eq hcap]
  rfl

omit [NeZero Dim] in
theorem updateDelEntriesIn_endless (hcap : 2 ^ 16 ≤ t.cap) (entries : DelEntries Id) :
    updateDelEntriesIn k t entries = .error .endless := by
  rw [updateDelEntriesIn, KdTree.foreachIn, loopIdx_endless hcap]
  rfl

theorem plantIn_eq {planted : List (KdTree Dim Component Id) × DelEntries Id}
    (hcap : tree.cap = 2 ^ k) (h : Forest entries k ts) (hlt : 2 ^ k + caps ts < 2 ^ 16)
    (hplant : plant tree entries k ts = some planted) :
    plantIn tree entries k ts = .ok planted := by
  induction ts generalizing tree k planted with
  | nil =>
    rw [caps_nil, Nat.add_zero] at hlt
    rw [plantIn, updateDelEntriesIn_eq (by omega)]
    rw [← Option.some.inj hplant]
    rfl
  | cons t ts ih =>
    rw [caps_cons] at hlt
    cases h with
    | cons hcap' _ _ hts =>
      rw [plant] at hplant
      rw [plantIn]
      by_cases hzero : t.cap = 0
      · rw [if_pos hzero] at hplant ⊢
        rw [updateDelEntriesIn_eq (by omega), ← Option.some.inj hplant]
        rfl
      · have hcap' := hcap'.resolve_left hzero
        have hpow : tree.cap + t.cap = 2 ^ (k + 1) := by rw [hcap, hcap', pow_succ, Nat.mul_two]
        rcases KdTree.mergeIn_eq hpow (Nat.pos_of_ne_zero hzero) (by omega) with
          ⟨merged, hmergeIn, hmcap, hmerge⟩
        rw [if_neg hzero, hmerge (by omega), Option.bind_some] at hplant
        rcases Option.map_eq_some_iff.1 hplant with ⟨rest, hrest, rfl⟩
        rw [if_neg hzero, hmergeIn]
        change (plantIn merged entries (k + 1) ts >>= _) = _
        rw [ih (hmcap.trans hpow) hts (by omega) hrest]
        rfl

/-- With one more point there are 65536: the trees are all merged, and the loop over the points of
the last one does not end. -/
theorem plantIn_endless (hcap : tree.cap = 2 ^ k) (h : Forest entries k ts)
    (hfull : 2 ^ k + caps ts = 2 ^ 16) : plantIn tree entries k ts = .error .endless := by
  induction ts generalizing tree k with
  | nil =>
    rw [caps_nil, Nat.add_zero] at hfull
    rw [plantIn, updateDelEntriesIn_endless (hcap.trans hfull).ge]
    rfl
  | cons t ts ih =>
    rw [caps_cons] at hfull
    cases h with
    | cons hcap' _ _ hts =>
      rw [plantIn]
      by_cases hzero : t.cap = 0
      · -- the trees behind the free slot are of a size that 65536 is no multiple of
        have hdvd : 2 ^ (k + 1) ∣ caps ts := hts.pow_dvd_caps
        have hk : 16 ≤ k := by
          by_contra hlt
          have hfits : 2 ^ (k + 1) ∣ 2 ^ 16 := pow_dvd_pow 2 (by omega)
          rw [hzero, Nat.zero_add] at hfull
          rw [← hfull, Nat.dvd_add_left hdvd] at hfits
          have hle := Nat.le_of_dvd (Nat.two_pow_pos k) hfits
          rw [pow_succ] at hle
          have hpos := Nat.two_pow_pos k
          omega
        have hge : 2 ^ 16 ≤ 2 ^ k := Nat.pow_le_pow_right two_pos hk
        rw [if_pos hzero, updateDelEntriesIn_endless (hcap.symm ▸ hge)]
        rfl
      · have hcap' := hcap'.resolve_left hzero
        have hpow : tree.cap + t.cap = 2 ^ (k + 1) := by rw [hcap, hcap', pow_succ, Nat.mul_two]
        rcases KdTree.mergeIn_eq hpow (Nat.pos_of_ne_zero hzero) (by omega) with
          ⟨merged, hmergeIn, hmcap, -⟩
        rw [if_neg hzero, hmergeIn]
        change (plantIn merged entries (k + 1) ts >>= _) = _
        rw [ih (hmcap.trans hpow) hts (by omega)]
        rfl

/-! ### remove -/

omit [DecidableEq Id] in
theorem chunkIn_eq (S : Sorter Component) (live : List (Point Dim Component × Id)) {h : ℕ}
    (hpow : n = 2 ^ h) (hle : n ≤ live.length) (hn : n < 2 ^ 16) :
    ∃ next, chunkIn S n live = .ok next ∧ chunk S n live = some next := by
  rcases KdTree.buildIn_eq S (fun i : Fin n => (live.get (i.castLE hle)).2)
    (fun i => (live.get (i.castLE hle)).1) hpow hn with ⟨t, hbuildIn, hbuild⟩
  refine ⟨(t, live.drop n), ?_, ?_⟩
  · rw [chunkIn, dif_pos hle, hbuildIn]
    rfl
  · rw [chunk, dif_pos hle, hbuild]
    rfl

theorem refillIn_eq (S : Sorter Component) {live : List (Point Dim Component × Id)}
    {filled : List (KdTree Dim Component Id) × DelEntries Id} {start : DelEntries Id}
    (h : Forest entries (k + 1) ts) (hcaps : caps ts = 2 * live.length)
    (hlt : live.length < 2 ^ 16) (hrefill : refill S live (2 ^ k) k start ts = some filled) :
    refillIn S live (2 ^ k) k start ts = .ok filled := by
  induction ts generalizing live k start filled with
  | nil =>
    rw [refill] at hrefill
    rw [← Option.some.inj hrefill]
    rfl
  | cons t ts ih =>
    rw [caps_cons] at hcaps
    cases h with
    | cons hcap _ _ hts =>
      -- what the place gets, and what is left for the places behind it
      have hnext : ∃ next, nextIn S (2 ^ k) live t = .ok next ∧
          (if 0 < t.cap then chunk S (2 ^ k) live else some (.empty, live)) = some next ∧
          next.1.cap < 2 ^ 16 ∧ caps ts = 2 * next.2.length ∧ next.2.length < 2 ^ 16 := by
        by_cases hpos : 0 < t.cap
        · have hcap := hcap.resolve_left hpos.ne'
          rw [pow_succ] at hcap
          have hpow : 2 ^ k < 2 ^ 16 := by omega
          rcases chunkIn_eq S live (n := 2 ^ k) rfl (by omega) hpow with ⟨next, hin, hchunk⟩
          rcases chunk_spec S live (n := 2 ^ k) rfl (by omega) hpow with
            ⟨tree, hchunk', htcap, -, -⟩
          rw [hchunk] at hchunk'
          rw [Option.some.inj hchunk'] at hin hchunk
          refine ⟨_, by rw [nextIn, if_pos hpos, hin], by rw [if_pos hpos, hchunk], ?_, ?_, ?_⟩
          · exact htcap.trans_lt hpow
          · rw [List.length_drop]
            omega
          · rw [List.length_drop]
            omega
        · refine ⟨(.empty, live), if_neg hpos, if_neg hpos, ?_, ?_, hlt⟩
          · exact Nat.two_pow_pos 16
          · show caps ts = 2 * live.length
            omega
      rcases hnext with ⟨next, hin, hnext, htcap, hcaps', hlt'⟩
      rw [refill, hnext, Option.bind_some, ← pow_succ'] at hrefill
      rcases Option.map_eq_some_iff.1 hrefill with ⟨rest, hrest, rfl⟩
      have hrestIn := ih hts hcaps' hlt' hrest
      rw [refillIn, hin]
      change (updateDelEntriesIn k next.1 start >>= fun entries =>
        refillIn S next.2 (2 * 2 ^ k) (k + 1) entries ts >>= _) = _
      rw [updateDelEntriesIn_eq htcap, ← pow_succ']
      change (refillIn S next.2 (2 ^ (k + 1)) (k + 1) (updateDelEntries k next.1 start) ts >>=
        _) = _
      rw [hrestIn]
      rfl

variable {s s' : DynamicKdTrees Dim Component Id} {live : List (Point Dim Component × Id)}

omit [NeZero Dim] [DecidableEq Id] in
theorem cap_le_caps (h : t ∈ ts) : t.cap ≤ caps ts :=
  List.single_le_sum (fun _ _ => Nat.zero_le _) _ (List.mem_map_of_mem h)

omit [NeZero Dim] [DecidableEq Id] in
theorem collectIn_eq (hlt : caps ts < 2 ^ 16) (hlive : (lives ts).length ≤ 2 ^ 16) :
    collectIn ts = .ok (lives ts) := by
  have hloops : ts.forM (fun t => loopIdx t.cap) = .ok () :=
    forM_ok fun t ht => loopIdx_eq ((cap_le_caps ht).trans_lt hlt)
  have hstores : (List.range (lives ts).length).forM narrow = .ok () :=
    forM_ok fun i hi => narrow_eq ((List.mem_range.1 hi).trans_le hlive)
  rw [collectIn, hloops]
  change ((List.range (lives ts).length).forM narrow >>= fun _ => _) = _
  rw [hstores]
  rfl

theorem shrinkToHalfIn_eq (S : Sorter Component) (h : Unlisted s live)
    (hfull : (s.nEntries + 1) / 2 ≤ s.deleted) (hlt : s.nEntries < 2 ^ 16)
    (hshrink : s.shrinkToHalf S = some s') : s.shrinkToHalfIn S = .ok s' := by
  have hlength := h.holds.length_eq
  have hsize := h.size
  have hless : (lives s.trees).length < 2 ^ 16 := by omega
  have hcaps : caps s.trees < 2 ^ 16 := h.entries.trans_lt hlt
  rcases h.tail_halves hfull with ⟨htail, htailCaps⟩
  rw [shrinkToHalf] at hshrink
  rw [shrinkToHalfIn]
  by_cases hassert : s.deleted ≤ s.nEntries ∧ s.nEntries - s.deleted = s.nEntries / 2
  · rw [if_pos hassert] at hshrink ⊢
    rw [collectIn_eq hcaps hless.le]
    change (if (lives s.trees).length = s.nEntries - s.deleted then
      (refill S (lives s.trees) (2 ^ 0) 0 (fun _ => none) s.trees.tail).map _ else none) = _
      at hshrink
    change (if (lives s.trees).length = s.nEntries - s.deleted then
      refillIn S (lives s.trees) (2 ^ 0) 0 (fun _ => none) s.trees.tail >>= _ else _) = _
    by_cases hcount : (lives s.trees).length = s.nEntries - s.deleted
    · rw [if_pos hcount] at hshrink ⊢
      rcases Option.map_eq_some_iff.1 hshrink with ⟨filled, hrefill, rfl⟩
      rw [refillIn_eq S htail htailCaps hless hrefill]
      rfl
    · rw [if_neg hcount] at hshrink
      cases hshrink
  · rw [if_neg hassert] at hshrink
    cases hshrink

/-! ### All operations -/

theorem shrinkToHalf_counts {S : Sorter Component} (h : s.shrinkToHalf S = some s') :
    s'.nEntries = s.nEntries - s.deleted ∧ s'.deleted = 0 := by
  rw [shrinkToHalf] at h
  split at h
  · dsimp only at h
    split at h
    · rcases Option.map_eq_some_iff.1 h with ⟨filled, -, rfl⟩
      exact ⟨rfl, rfl⟩
    · cases h
  · cases h

theorem insertIn_eq (h : Inv s live) (point : Point Dim Component) {id : Id}
    (hid : id ∉ live.map Prod.snd) (hlt : s.nEntries + 1 < 2 ^ 16) :
    ∃ s', s.insertIn point id = .ok s' ∧ Inv s' ((point, id) :: live) ∧
      s'.nEntries = s.nEntries + 1 ∧ s'.deleted = s.deleted := by
  rcases insert_inv h point hid hlt with ⟨s', hinsert, hinv⟩
  rw [insert] at hinsert
  rcases Option.map_eq_some_iff.1 hinsert with ⟨planted, hplant, rfl⟩
  have hcaps : 2 ^ 0 + caps s.trees < 2 ^ 16 := by
    rw [h.entries, pow_zero, Nat.add_comm]
    exact hlt
  refine ⟨_, ?_, hinv, rfl, rfl⟩
  rw [insertIn, loopIdx_eq (by decide)]
  change (plantIn (.single point id) s.delEntries 0 s.trees >>= _) = _
  rw [plantIn_eq rfl h.forest hcaps hplant]
  rfl

theorem insertIn_endless (h : Inv s live) (point : Point Dim Component) (id : Id)
    (hfull : s.nEntries + 1 = 2 ^ 16) : s.insertIn point id = .error .endless := by
  have hcaps : 2 ^ 0 + caps s.trees = 2 ^ 16 := by
    rw [h.entries, pow_zero, Nat.add_comm]
    exact hfull
  rw [insertIn, loopIdx_eq (by decide)]
  change (plantIn (.single point id) s.delEntries 0 s.trees >>= _) = _
  rw [plantIn_endless rfl h.forest hcaps]
  rfl

theorem removeIn_eq (S : Sorter Component) (h : Inv s live) {id : Id}
    (hid : id ∈ live.map Prod.snd) (hlt : s.nEntries < 2 ^ 16) :
    ∃ s', s.removeIn S id = .ok s' ∧ Inv s' (live.filter fun e => decide (e.2 ≠ id)) ∧
      (s'.nEntries, s'.deleted) = if (s.nEntries + 1) / 2 ≤ s.deleted + 1 then
        (s.nEntries - (s.deleted + 1), 0) else (s.nEntries, s.deleted + 1) := by
  rcases unlist_spec h hid with ⟨s₁, hunlist, hentries, hdeleted, h₁⟩
  rw [removeIn, hunlist, ← hentries, ← hdeleted]
  dsimp only
  by_cases hfull : (s₁.nEntries + 1) / 2 ≤ s₁.deleted
  · have hsize := h₁.size
    rcases shrinkToHalf_inv S h₁ hfull (by omega) with ⟨s', hshrink, hinv⟩
    have hshrinkIn := shrinkToHalfIn_eq S h₁ hfull (by omega) hshrink
    refine ⟨s', ?_, hinv, ?_⟩
    · rw [if_pos hfull, hshrinkIn]
    · rw [if_pos hfull, Prod.mk.injEq]
      exact shrinkToHalf_counts hshrink
  · exact ⟨s₁, if_neg hfull, h₁.inv hfull, (if_neg hfull).symm⟩

end DynamicKdTrees

/-! ## Sequences of operations -/

/-- `n_entries`, which counts all points, and `deleted`. -/
structure Counts where
  nEntries : ℕ := 0
  deleted : ℕ := 0

namespace Counts

def insert (c : Counts) : Counts :=
  { c with nEntries := c.nEntries + 1 }

def remove (c : Counts) : Counts :=
  if (c.nEntries + 1) / 2 ≤ c.deleted + 1 then { nEntries := c.nEntries - (c.deleted + 1) }
  else { c with deleted := c.deleted + 1 }

def step (c : Counts) : Op Dim Component Id → Counts
  | .insert _ _ => c.insert
  | .remove _ => c.remove
  | .update _ _ => c.remove.insert

/-- An `Idx` always counts the points, deleted ones included. -/
def Within (c : Counts) : List (Op Dim Component Id) → Prop
  | [] => True
  | op :: ops => (c.step op).nEntries < 2 ^ 16 ∧ (c.step op).Within ops

end Counts

/-- Inserted ids are not live, removed and updated ones are. -/
def AllPermitted (live : List (Point Dim Component × Id)) : List (Op Dim Component Id) → Prop
  | [] => True
  | op :: ops => op.Permitted live ∧ AllPermitted (liveStep live op) ops

section

variable {s : DynamicKdTrees Dim Component Id} {live : List (Point Dim Component × Id)}
  {ops : List (Op Dim Component Id)}

def DynamicKdTrees.counts (s : DynamicKdTrees Dim Component Id) : Counts :=
  ⟨s.nEntries, s.deleted⟩

variable (S : Sorter Component)

theorem remove_counts (h : Inv s live) {id : Id} (hid : id ∈ live.map Prod.snd)
    (hlt : s.nEntries < 2 ^ 16) :
    ∃ s', s.removeIn S id = .ok s' ∧ Inv s' (live.filter fun e => decide (e.2 ≠ id)) ∧
      s'.counts = s.counts.remove ∧ s'.nEntries < 2 ^ 16 := by
  rcases DynamicKdTrees.removeIn_eq S h hid hlt with ⟨s', hremove, hinv, hcounts⟩
  refine ⟨s', hremove, hinv, ?_⟩
  rw [DynamicKdTrees.counts, Counts.remove]
  by_cases hfull : (s.nEntries + 1) / 2 ≤ s.deleted + 1
  · rw [if_pos hfull, Prod.mk.injEq] at hcounts
    refine ⟨?_, by omega⟩
    rw [hcounts.1, hcounts.2]
    exact (if_pos hfull).symm
  · rw [if_neg hfull, Prod.mk.injEq] at hcounts
    refine ⟨?_, by omega⟩
    rw [hcounts.1, hcounts.2]
    exact (if_neg hfull).symm

/-- An insertion comes to its end as long as there are fewer than 65536 points. -/
theorem insert_counts (h : Inv s live) (point : Point Dim Component) {id : Id}
    (hid : id ∉ live.map Prod.snd) (hlt : s.nEntries < 2 ^ 16) :
    (s.nEntries + 1 < 2 ^ 16 → ∃ s', s.insertIn point id = .ok s' ∧
      Inv s' ((point, id) :: live) ∧ s'.counts = s.counts.insert) ∧
    (¬ s.nEntries + 1 < 2 ^ 16 → s.insertIn point id = .error .endless) := by
  constructor
  · intro hless
    rcases DynamicKdTrees.insertIn_eq h point hid hless with ⟨s', hinsert, hinv, hentries, hdeleted⟩
    refine ⟨s', hinsert, hinv, ?_⟩
    rw [DynamicKdTrees.counts, hentries, hdeleted]
    rfl
  · intro hnot
    exact DynamicKdTrees.insertIn_endless h point id (by omega)

theorem step_counts (h : Inv s live) {op : Op Dim Component Id} (hop : op.Permitted live)
    (hlt : s.nEntries < 2 ^ 16) :
    ((s.counts.step op).nEntries < 2 ^ 16 → ∃ s', s.stepIn S op = .ok s' ∧
      Inv s' (liveStep live op) ∧ s'.counts = s.counts.step op) ∧
    (¬ (s.counts.step op).nEntries < 2 ^ 16 → s.stepIn S op = .error .endless) := by
  cases op with
  | insert point id => exact insert_counts h point hop hlt
  | remove id =>
    rcases remove_counts S h hop hlt with ⟨s', hremove, hinv, hcounts, hlt'⟩
    refine ⟨fun _ => ⟨s', hremove, hinv, hcounts⟩, fun hnot => absurd ?_ hnot⟩
    rw [show s.counts.step (Op.remove id : Op Dim Component Id) = s'.counts from hcounts.symm]
    exact hlt'
  | update newPos id =>
    rcases remove_counts S h hop hlt with ⟨s₁, hremove, h₁, hcounts, hlt₁⟩
    have hid : id ∉ (live.filter fun e => decide (e.2 ≠ id)).map Prod.snd := by
      intro hid
      rcases List.mem_map.1 hid with ⟨e, he, heq⟩
      exact of_decide_eq_true (List.mem_filter.1 he).2 heq
    have hupdate : s.updateIn S newPos id = s₁.insertIn newPos id := by
      rw [DynamicKdTrees.updateIn, hremove]
      rfl
    have hstep : s.counts.step (Op.update newPos id) = s₁.counts.insert := by
      rw [hcounts]
      rfl
    rw [hstep]
    change (_ → ∃ s', s.updateIn S newPos id = .ok s' ∧ _) ∧
      (_ → s.updateIn S newPos id = .error .endless)
    rw [hupdate]
    exact insert_counts h₁ newPos hid hlt₁

theorem run_counts (h : Inv s live) (hops : AllPermitted live ops) (hlt : s.nEntries < 2 ^ 16) :
    (s.counts.Within ops → ∃ s', ops.foldlM (DynamicKdTrees.stepIn S) s = .ok s' ∧
      Inv s' (ops.foldl liveStep live)) ∧
    (¬ s.counts.Within ops → ops.foldlM (DynamicKdTrees.stepIn S) s = .error .endless) := by
  induction ops generalizing s live with
  | nil => exact ⟨fun _ => ⟨s, rfl, h⟩, fun hnot => absurd trivial hnot⟩
  | cons op ops ih =>
    rcases hops with ⟨hop, hops⟩
    rcases step_counts S h hop hlt with ⟨hok, hendless⟩
    rw [List.foldlM_cons]
    by_cases hless : (s.counts.step op).nEntries < 2 ^ 16
    · rcases hok hless with ⟨s₁, hstep, h₁, hcounts⟩
      rw [← hcounts] at hless
      rcases ih h₁ hops hless with ⟨hrun, hstuck⟩
      rw [hcounts] at hrun hstuck hless
      rw [hstep]
      refine ⟨fun hwithin => hrun hwithin.2, fun hnot => hstuck fun hwithin => hnot ?_⟩
      exact ⟨hless, hwithin⟩
    · rw [hendless hless]
      exact ⟨fun hwithin => absurd hwithin.1 hless, fun _ => rfl⟩

/-- Every loop over `Idx` ends, and every index is kept as it is. -/
def EndsUntruncated (S : Sorter Component) (ops : List (Op Dim Component Id)) : Prop :=
  DynamicKdTrees.runIn S ops ≠ .error .endless ∧ DynamicKdTrees.runIn S ops ≠ .error .truncated

/-- A sequence of operations comes to its end if and only if there are never 65536 points, deleted
ones included. -/
theorem runIn_iff (S : Sorter Component) (ops : List (Op Dim Component Id))
    (h : AllPermitted [] ops) : EndsUntruncated S ops ↔ Counts.Within {} ops := by
  rcases run_counts S inv_empty h (Nat.two_pow_pos 16) with ⟨hrun, hstuck⟩
  constructor
  · intro hends
    by_contra hnot
    exact hends.1 (hstuck hnot)
  · intro hwithin
    rcases hrun hwithin with ⟨s, hok, -⟩
    rw [EndsUntruncated, DynamicKdTrees.runIn, hok]
    exact ⟨(fun heq => by cases heq), fun heq => by cases heq⟩

theorem runIn_iff_moved :
    AllPermitted [] [.insert ![0, 0, 0] (1 : UInt16), .insert ![0, 4, 0] 2, .update ![5, 4, 0] 1] ∧
      EndsUntruncated (.stable ℤ) [.insert ![0, 0, 0] (1 : UInt16), .insert ![0, 4, 0] 2,
        .update ![5, 4, 0] 1] := by
  have hpermitted : AllPermitted [] [.insert (![0, 0, 0] : Point 3 ℤ) (1 : UInt16),
      .insert ![0, 4, 0] 2, .update ![5, 4, 0] 1] := by
    refine ⟨?_, ?_, ?_, trivial⟩ <;> decide
  refine ⟨hpermitted, (runIn_iff (.stable ℤ) _ hpermitted).2 ⟨?_, ?_, ?_, trivial⟩⟩ <;> decide

/-! ### The last id -/

/-- The ids from 1 on. -/
def insertions (point : Point Dim Component) (n : ℕ) : List (Op Dim Component UInt16) :=
  (List.range n).map fun i => .insert point (UInt16.ofNat (i + 1))

omit [NeZero Dim] [LinearOrder Component] in
theorem insertions_succ (point : Point Dim Component) (n : ℕ) :
    insertions point (n + 1) = insertions point n ++ [.insert point (UInt16.ofNat (n + 1))] := by
  rw [insertions, List.range_succ, List.map_append]
  rfl

omit [NeZero Dim] [LinearOrder Component] in
theorem permitted_append {ops' : List (Op Dim Component Id)} (h : AllPermitted live ops)
    (h' : AllPermitted (ops.foldl liveStep live) ops') : AllPermitted live (ops ++ ops') := by
  induction ops generalizing live with
  | nil => exact h'
  | cons op ops ih => exact ⟨h.1, ih h.2 h'⟩

omit [NeZero Dim] [LinearOrder Component] [DecidableEq Id] in
theorem within_append {c : Counts} {ops' : List (Op Dim Component Id)} :
    c.Within (ops ++ ops') → (ops.foldl Counts.step c).Within ops' := by
  induction ops generalizing c with
  | nil => exact id
  | cons op ops ih => exact fun h => ih h.2

omit [NeZero Dim] [LinearOrder Component] in
theorem live_insertions (point : Point Dim Component) (n : ℕ) :
    (liveAfter (insertions point n)).map Prod.snd =
      ((List.range n).map fun i => UInt16.ofNat (i + 1)).reverse := by
  induction n with
  | zero => rfl
  | succ n ih =>
    rw [insertions_succ, liveAfter, List.foldl_append, List.range_succ, List.map_append,
      List.reverse_append, ← ih]
    rfl

omit [NeZero Dim] [LinearOrder Component] in
theorem permitted_insertions (point : Point Dim Component) {n : ℕ} (hn : n < 2 ^ 16) :
    AllPermitted [] (insertions point n) := by
  induction n with
  | zero => exact trivial
  | succ n ih =>
    rw [insertions_succ]
    refine permitted_append (ih (by omega)) ⟨?_, trivial⟩
    change UInt16.ofNat (n + 1) ∉ (liveAfter (insertions point n)).map Prod.snd
    rw [live_insertions, List.mem_reverse]
    intro hmem
    rcases List.mem_map.1 hmem with ⟨i, hi, heq⟩
    have hi := List.mem_range.1 hi
    have hsame := congrArg UInt16.toNat heq
    rw [UInt16.toNat_ofNat_of_lt' (by simp [UInt16.size]; omega),
      UInt16.toNat_ofNat_of_lt' (by simp [UInt16.size]; omega)] at hsame
    omega

omit [NeZero Dim] [LinearOrder Component] in
theorem counts_insertions (point : Point Dim Component) (n : ℕ) :
    (insertions point n).foldl Counts.step {} = { nEntries := n } := by
  induction n with
  | zero => rfl
  | succ n ih =>
    rw [insertions_succ, List.foldl_append, ih]
    rfl

/-- The ids up to `n` are inserted, and then the first one is moved. -/
def moveOne (n : ℕ) : List (Op 3 ℤ UInt16) :=
  insertions ![0, 0, 0] n ++ [.update ![1, 0, 0] 1]

theorem permitted_moveOne {n : ℕ} (hpos : 0 < n) (hn : n < 2 ^ 16) :
    AllPermitted [] (moveOne n) := by
  refine permitted_append (permitted_insertions _ hn) ⟨?_, trivial⟩
  change (1 : UInt16) ∈ (liveAfter (insertions ![0, 0, 0] n)).map Prod.snd
  rw [live_insertions, List.mem_reverse]
  exact List.mem_map.2 ⟨0, List.mem_range.2 hpos, rfl⟩

/-- The point that was moved counts twice. -/
theorem within_moveOne {n : ℕ} (hn : 3 ≤ n) (h : Counts.Within {} (moveOne n)) :
    n + 1 < 2 ^ 16 := by
  have hlast := (within_append h).1
  rw [counts_insertions] at hlast
  change (Counts.remove { nEntries := n }).insert.nEntries < 2 ^ 16 at hlast
  rw [Counts.remove, if_neg (by show ¬ (n + 1) / 2 ≤ 0 + 1; omega)] at hlast
  exact hlast

theorem moveOne_stuck {n : ℕ} (hn : n < 2 ^ 16) (hfull : 2 ^ 16 ≤ n + 1) :
    AllPermitted [] (moveOne n) ∧ DynamicKdTrees.runIn (.stable ℤ) (moveOne n) = .error .endless ∧
      ¬ EndsUntruncated (.stable ℤ) (moveOne n) := by
  have hpermitted : AllPermitted [] (moveOne n) := permitted_moveOne (by omega) hn
  have hendless : DynamicKdTrees.runIn (.stable ℤ) (moveOne n) = .error .endless := by
    refine (run_counts (.stable ℤ) inv_empty hpermitted (Nat.two_pow_pos 16)).2 fun hwithin => ?_
    have hless := within_moveOne (by omega) hwithin
    omega
  exact ⟨hpermitted, hendless, fun h => h.1 hendless⟩

/-- All ids but 0 are live when one of them is moved. -/
theorem moveOne_endless :
    AllPermitted [] (moveOne 65535) ∧
      DynamicKdTrees.runIn (.stable ℤ) (moveOne 65535) = .error .endless ∧
      ¬ EndsUntruncated (.stable ℤ) (moveOne 65535) :=
  moveOne_stuck (by decide) (by decide)

end

end KdTrees
end AxisEngine
