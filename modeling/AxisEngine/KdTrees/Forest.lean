import AxisEngine.KdTrees.DynamicKdTrees
import AxisEngine.KdTrees.Layout
import Mathlib.Data.Fin.VecNotation
import Mathlib.Tactic.Linarith

/-!
# Forest — the spatial index answers for the live points

* `Forest`: the tree at place `k` is empty or has `2 ^ k` points, is laid out, and its live points
  are where `del_entries` says.
* `Inv`: a forest with its two counts against the live points; `step_inv`, `run_inv`.
* `rangeQuery_exact`: after any permitted operations.
-/

namespace AxisEngine
namespace KdTrees

open Lib

variable {Dim n : ℕ} {Component Id : Type*} [LinearOrder Component]

/-! ## Single trees -/

namespace KdTree

variable {t a b : KdTree Dim Component Id}

theorem mem_foreach {i : Fin t.cap} : i ∈ t.foreach ↔ t.deleted i = false := by
  simp [foreach]

theorem foreach_eq_nil (h : t.cap = 0) : t.foreach = [] := by
  rw [foreach, List.finRange_eq_nil_iff.2 h, List.filter_nil]

theorem live_eq_nil (h : t.cap = 0) : t.live = [] := by
  rw [live, foreach_eq_nil h, List.map_nil]

theorem map_ids_foreach (t : KdTree Dim Component Id) :
    t.foreach.map t.ids = t.live.map Prod.snd := by
  rw [live, List.map_map]
  rfl

theorem mem_ids_of_mem_foreach {i : Fin t.cap} (hi : i ∈ t.foreach) :
    t.ids i ∈ t.live.map Prod.snd :=
  map_ids_foreach t ▸ List.mem_map_of_mem hi

variable [NeZero Dim]

theorem merge_spec {h : ℕ} (hpow : a.cap + b.cap = 2 ^ h) (hlt : a.cap + b.cap < 2 ^ 16) :
    ∃ t, a.merge b = some t ∧ t.cap = a.cap + b.cap ∧ t.Laid ∧ t.live.Perm (a.live ++ b.live) := by
  rcases buildArrays_layout (a.items.merge b.items) hpow hlt with ⟨arrays, harrays, hlayout⟩
  let t : KdTree Dim Component Id :=
    { cap := a.cap + b.cap, items := a.items.merge b.items, ids := Fin.append a.ids b.ids
      tree := arrays.tree, deleted := Fin.append a.deleted b.deleted }
  have hmerge : a.merge b = some t := by
    rw [merge, harrays, Option.map_some]
  refine ⟨t, hmerge, rfl, hlayout, ?_⟩
  have hleft : ∀ i, t.deleted (Fin.castAdd b.cap i) = a.deleted i ∧
      t.entry (Fin.castAdd b.cap i) = a.entry i := by
    intro i
    simp [t, entry, SortedPoints.merge, SortedPoints.mergedPoints]
  have hright : ∀ i, t.deleted (Fin.natAdd a.cap i) = b.deleted i ∧
      t.entry (Fin.natAdd a.cap i) = b.entry i := by
    intro i
    simp [t, entry, SortedPoints.merge, SortedPoints.mergedPoints]
  -- the cells of `a` come first, those of `b` behind them
  refine (((finRange_add_perm a.cap b.cap).symm.filter _).map _).trans (.of_eq ?_)
  rw [List.filter_append, List.map_append, List.filter_map, List.filter_map, List.map_map,
    List.map_map]
  simp only [live, foreach, Function.comp_def, hleft, hright]

theorem build_spec (S : Sorter Component) (ids : Fin n → Id) (points : Fin n → Point Dim Component)
    {h : ℕ} (hpow : n = 2 ^ h) (hlt : n < 2 ^ 16) :
    ∃ t, build S ids points = some t ∧ t.cap = n ∧ t.Laid ∧
      t.live = (List.finRange n).map fun i => (points i, ids i) := by
  rcases buildArrays_layout (SortedPoints.sort S points) hpow hlt with ⟨arrays, harrays, hlayout⟩
  let t : KdTree Dim Component Id :=
    { cap := n, items := SortedPoints.sort S points, ids := ids, tree := arrays.tree
      deleted := arrays.markers.1 }
  have hbuild : build S ids points = some t := by
    rw [build, harrays, Option.map_some]
  have hall : t.foreach = List.finRange n :=
    List.filter_eq_self.2 fun i _ => by simp [t, arrays.markers.2 i]
  refine ⟨t, hbuild, rfl, hlayout, ?_⟩
  rw [live, hall]
  rfl

theorem remove_spec {j : Fin t.cap} (h : t.deleted j = false) (hlaid : t.Laid) :
    ∃ t', t.remove j = some t' ∧ t'.cap = t.cap ∧ t'.Laid ∧ t.live.Perm (t.entry j :: t'.live) ∧
      ∀ k (entries : DelEntries Id), (∀ i ∈ t.foreach, entries (t.ids i) = some ⟨k, i⟩) → 
        ∀ i ∈ t'.foreach, entries (t'.ids i) = some ⟨k, i⟩ := by
  let t' : KdTree Dim Component Id := { t with deleted := Function.update t.deleted j true }
  have hmem : ∀ i : Fin t.cap, i ∈ t'.foreach ↔ i ∈ t.foreach ∧ i ≠ j := by
    intro i
    have hupdate : t'.deleted i = if i = j then true else t.deleted i := Function.update_apply ..
    rw [mem_foreach (t := t'), mem_foreach, hupdate]
    by_cases hij : i = j <;> simp [hij]
  have hsplit : t.foreach.Perm (j :: t'.foreach) := by
    have hnodup : (j :: t'.foreach).Nodup :=
      List.nodup_cons.2 ⟨fun hj => ((hmem j).1 hj).2 rfl, (List.nodup_finRange _).filter _⟩
    refine (List.perm_ext_iff_of_nodup ((List.nodup_finRange _).filter _) hnodup).2 fun i => ?_
    rw [List.mem_cons, hmem]
    by_cases hij : i = j
    · simp [hij, mem_foreach, h]
    · exact ⟨fun hi => .inr ⟨hi, hij⟩, fun hi => (hi.resolve_left hij).1⟩
  refine ⟨t', ?_, rfl, hlaid, hsplit.map t.entry, ?_⟩
  · rw [remove, dif_pos j.2]
    simp only [Fin.eta, h, Bool.false_eq_true, if_false]
    rfl
  · intro k entries hentries i hi
    exact hentries i ((hmem i).1 hi).1

end KdTree

/-- The points of all trees, deleted ones included. -/
def caps (ts : List (KdTree Dim Component Id)) : ℕ := (ts.map KdTree.cap).sum

def lives (ts : List (KdTree Dim Component Id)) : List (Point Dim Component × Id) :=
  ts.flatMap KdTree.live

section Sums

variable {t : KdTree Dim Component Id} {ts : List (KdTree Dim Component Id)}

@[simp] theorem caps_nil : caps ([] : List (KdTree Dim Component Id)) = 0 := rfl

@[simp] theorem caps_cons : caps (t :: ts) = t.cap + caps ts := rfl

@[simp] theorem lives_nil : lives ([] : List (KdTree Dim Component Id)) = [] := rfl

@[simp] theorem lives_cons : lives (t :: ts) = t.live ++ lives ts := rfl

end Sums

/-! ## Entries for deletion -/

section Entries

variable [DecidableEq Id] {k : ℕ} {t : KdTree Dim Component Id} {entries : DelEntries Id}

theorem foldl_update_of_notMem {ι : Type*} {f : ι → Id} {g : ι → Option DelEntry} {id : Id}
    {l : List ι} (h : id ∉ l.map f) (entries : DelEntries Id) :
    l.foldl (fun entries i => Function.update entries (f i) (g i)) entries id = entries id := by
  induction l generalizing entries with
  | nil => rfl
  | cons i l ih =>
    rw [List.map_cons, List.mem_cons, not_or] at h
    rw [List.foldl_cons, ih h.2, Function.update_of_ne h.1]

theorem foldl_update_of_mem {ι : Type*} {f : ι → Id} {g : ι → Option DelEntry} {i : ι}
    {l : List ι} (hnodup : (l.map f).Nodup) (hi : i ∈ l) (entries : DelEntries Id) :
    l.foldl (fun entries i => Function.update entries (f i) (g i)) entries (f i) = g i := by
  induction l generalizing entries with
  | nil => exact absurd hi List.not_mem_nil
  | cons j l ih =>
    rw [List.map_cons, List.nodup_cons] at hnodup
    rw [List.foldl_cons]
    rcases List.mem_cons.1 hi with rfl | hi
    · rw [foldl_update_of_notMem hnodup.1, Function.update_self]
    · exact ih hnodup.2 hi _

theorem updateDelEntries_of_notMem {id : Id} (h : id ∉ t.live.map Prod.snd) :
    DynamicKdTrees.updateDelEntries k t entries id = entries id :=
  foldl_update_of_notMem (t.map_ids_foreach ▸ h) entries

theorem updateDelEntries_of_mem (hnodup : (t.live.map Prod.snd).Nodup) {i : Fin t.cap}
    (hi : i ∈ t.foreach) :
    DynamicKdTrees.updateDelEntries k t entries (t.ids i) = some ⟨k, i⟩ :=
  foldl_update_of_mem (f := t.ids) (t.map_ids_foreach ▸ hnodup) hi entries

end Entries

/-! ## The forest -/

/-- The trees from place `k` on. -/
inductive Forest [NeZero Dim] (entries : DelEntries Id) : ℕ → List (KdTree Dim Component Id) → Prop where
  | nil {k : ℕ} : Forest entries k []
  | cons {k : ℕ} {t : KdTree Dim Component Id} {ts : List (KdTree Dim Component Id)} :
      t.cap = 0 ∨ t.cap = 2 ^ k → t.Laid →
      (∀ i ∈ t.foreach, entries (t.ids i) = some ⟨k, i⟩) →
      Forest entries (k + 1) ts → Forest entries k (t :: ts)

section Forest

variable [NeZero Dim] {k : ℕ} {t : KdTree Dim Component Id} {ts : List (KdTree Dim Component Id)}
  {entries entries' : DelEntries Id}

theorem Forest.congr (h : Forest entries k ts)
    (hsame : ∀ id ∈ (lives ts).map Prod.snd, entries' id = entries id) :
    Forest entries' k ts := by
  induction h with
  | nil => exact .nil
  | @cons k t ts hcap hlaid hentries _ ih =>
    rw [lives_cons, List.map_append] at hsame
    refine .cons hcap hlaid (fun i hi => ?_) (ih fun id hid => hsame id (List.mem_append_right _ hid))
    rw [hsame _ (List.mem_append_left _ (KdTree.mem_ids_of_mem_foreach hi))]
    exact hentries i hi

theorem Forest.laid (h : Forest entries k ts) : ∀ t ∈ ts, t.Laid := by
  induction h with
  | nil => exact fun t ht => absurd ht List.not_mem_nil
  | cons _ hlaid _ _ ih => exact List.forall_mem_cons.2 ⟨hlaid, ih⟩

/-- The trees from a place on have a multiple of its size together. -/
theorem Forest.pow_dvd_caps (h : Forest entries k ts) : 2 ^ k ∣ caps ts := by
  induction ts generalizing k with
  | nil => exact dvd_zero _
  | cons t ts ih =>
    cases h with
    | cons hcap _ _ hts =>
      refine Nat.dvd_add ?_ ((pow_dvd_pow 2 (Nat.le_succ k)).trans (ih hts))
      rcases hcap with hcap | hcap
      · exact hcap ▸ dvd_zero _
      · exact hcap ▸ dvd_rfl

theorem Forest.two_dvd_caps (h : Forest entries (k + 1) ts) : 2 ∣ caps ts :=
  (Dvd.intro_left (2 ^ k) rfl).trans h.pow_dvd_caps

theorem chunk_spec (S : Sorter Component) (live : List (Point Dim Component × Id)) {h : ℕ}
    (hpow : n = 2 ^ h) (hle : n ≤ live.length) (hlt : n < 2 ^ 16) :
    ∃ t, DynamicKdTrees.chunk S n live = some (t, live.drop n) ∧ t.cap = n ∧ t.Laid ∧
      t.live = live.take n := by
  rcases KdTree.build_spec S (fun i : Fin n => (live.get (i.castLE hle)).2)
    (fun i => (live.get (i.castLE hle)).1) hpow hlt with ⟨t, hbuild, hcap, hlaid, hlive⟩
  refine ⟨t, ?_, hcap, hlaid, ?_⟩
  · rw [DynamicKdTrees.chunk, dif_pos hle, hbuild, Option.map_some]
  · rw [hlive]
    refine List.ext_getElem ?_ fun i hi hi' => ?_
    · simp [hle]
    · simp

/-! ### insert -/

variable [DecidableEq Id]

/-- Planting a tree of the size that belongs to place `k`. -/
theorem plant_forest {tree : KdTree Dim Component Id} (hcap : tree.cap = 2 ^ k) (hlaid : tree.Laid)
    (h : Forest entries k ts) (hlt : 2 ^ k + caps ts < 2 ^ 16)
    (hnodup : ((tree.live ++ lives ts).map Prod.snd).Nodup) :
    ∃ ts' entries', DynamicKdTrees.plant tree entries k ts = some (ts', entries') ∧
      Forest entries' k ts' ∧ caps ts' = 2 ^ k + caps ts ∧
      (lives ts').Perm (tree.live ++ lives ts) := by
  induction ts generalizing tree k with
  | nil =>
    rw [lives_nil, List.append_nil] at hnodup
    refine ⟨_, _, rfl, .cons (.inr hcap) hlaid (fun i hi => ?_) .nil, ?_, .refl _⟩
    · exact updateDelEntries_of_mem hnodup hi
    · rw [caps_cons, hcap]
  | cons t ts ih =>
    rw [lives_cons] at hnodup
    rw [caps_cons] at hlt
    cases h with
    | cons hcap' hlaid' hentries hts =>
      by_cases hzero : t.cap = 0
      · -- a free slot
        rw [KdTree.live_eq_nil hzero, List.nil_append, List.map_append] at hnodup
        rcases List.nodup_append.1 hnodup with ⟨htree, _, hapart⟩
        have hrest : Forest (DynamicKdTrees.updateDelEntries k tree entries) (k + 1) ts :=
          hts.congr fun id hid => updateDelEntries_of_notMem fun hid' =>
            hapart id hid' id hid rfl
        refine ⟨_, _, by rw [DynamicKdTrees.plant, if_pos hzero], .cons (.inr hcap) hlaid
          (fun i hi => updateDelEntries_of_mem htree hi) hrest, ?_, ?_⟩
        · rw [caps_cons, caps_cons, hcap, hzero, Nat.zero_add]
        · rw [lives_cons, lives_cons, KdTree.live_eq_nil hzero, List.nil_append]
      · -- a tree of the same size, which leaves the place and is planted one further
        have hcap' := hcap'.resolve_left hzero
        have hpow : tree.cap + t.cap = 2 ^ (k + 1) := by rw [hcap, hcap', pow_succ, Nat.mul_two]
        rcases KdTree.merge_spec hpow (by omega) with ⟨merged, hmerge, hmcap, hmlaid, hmlive⟩
        have hperm : (merged.live ++ lives ts).Perm (tree.live ++ (t.live ++ lives ts)) := by
          rw [← List.append_assoc]
          exact hmlive.append_right _
        rcases ih (hmcap.trans hpow) hmlaid hts (by omega)
          ((hperm.map Prod.snd).nodup_iff.2 hnodup) with
          ⟨ts', entries', hplant, hforest, hcaps, hlives⟩
        refine ⟨.empty :: ts', entries', ?_, .cons (.inl rfl) KdTree.laid_empty ?_ hforest, ?_, ?_⟩
        · rw [DynamicKdTrees.plant, if_neg hzero, hmerge, Option.bind_some, hplant,
            Option.map_some]
        · exact fun i => i.elim0
        · rw [caps_cons, caps_cons, hcaps, hcap', pow_succ]
          show 0 + _ = _
          omega
        · exact hlives.trans hperm

/-! ### remove -/

/-- Deleting a live point: its entry leads to it, and everything else is as before. -/
theorem Forest.remove (h : Forest entries k ts) (hnodup : ((lives ts).map Prod.snd).Nodup)
    {p : Point Dim Component} {id : Id} (hmem : (p, id) ∈ lives ts) :
    ∃ i t j t', entries id = some ⟨k + i, j⟩ ∧ ts[i]? = some t ∧ t.remove j = some t' ∧
      Forest (Function.update entries id none) k (ts.set i t') ∧
      caps (ts.set i t') = caps ts ∧ (lives ts).Perm ((p, id) :: lives (ts.set i t')) := by
  induction h with
  | nil => exact absurd hmem List.not_mem_nil
  | @cons k t ts hcap hlaid hentries hts ih =>
    rw [lives_cons, List.map_append] at hnodup
    rcases List.nodup_append.1 hnodup with ⟨htree, hrest, hapart⟩
    rw [lives_cons, List.mem_append] at hmem
    rcases hmem with hmem | hmem
    · rcases List.mem_map.1 hmem with ⟨j, hj, hentry⟩
      have hid : t.ids j = id := congrArg Prod.snd hentry
      rcases KdTree.remove_spec (KdTree.mem_foreach.1 hj) hlaid with
        ⟨t', hremove, hcap', hlaid', hlive, hkept⟩
      rw [hentry] at hlive
      have hne : id ∉ t'.live.map Prod.snd :=
        (List.nodup_cons.1 ((hlive.map Prod.snd).nodup_iff.1 htree)).1
      refine ⟨0, t, j, t', hid ▸ hentries j hj, rfl, hremove, ?_, ?_, ?_⟩
      · refine .cons (hcap' ▸ hcap) hlaid' (fun i hi => ?_) (hts.congr fun id' hid' => ?_)
        · have hidne : t'.ids i ≠ id := by
            intro heq
            exact hne (heq ▸ KdTree.mem_ids_of_mem_foreach hi)
          rw [Function.update_of_ne hidne]
          exact hkept k entries hentries i hi
        · rw [Function.update_of_ne]
          rintro rfl
          exact hapart _ (List.mem_map_of_mem hmem) _ hid' rfl
      · rw [List.set_cons_zero, caps_cons, caps_cons, hcap']
      · exact hlive.append_right _
    · rcases ih hrest hmem with ⟨i, u, j, u', hentry, hget, hremove, hforest, hcaps, hlives⟩
      refine ⟨i + 1, u, j, u', ?_, hget, hremove, ?_, ?_, ?_⟩
      · rw [hentry, Nat.add_right_comm, Nat.add_assoc]
      · refine .cons hcap hlaid (fun i' hi' => ?_) hforest
        rw [Function.update_of_ne]
        · exact hentries i' hi'
        · intro heq
          exact hapart _ (heq ▸ KdTree.mem_ids_of_mem_foreach hi') _ (List.mem_map_of_mem hmem) rfl
      · rw [List.set_cons_succ, caps_cons, caps_cons, hcaps]
      · exact (hlives.append_left _).trans List.perm_middle

/-- Constructing the new forest from place `k` on, where the old one had trees of twice the size. -/
theorem refill_forest (S : Sorter Component) (h : Forest entries (k + 1) ts)
    {live : List (Point Dim Component × Id)} (hcaps : caps ts = 2 * live.length)
    (hlt : live.length < 2 ^ 16) (hnodup : (live.map Prod.snd).Nodup) (start : DelEntries Id) :
    ∃ ts' entries', DynamicKdTrees.refill S live (2 ^ k) k start ts = some (ts', entries') ∧
      Forest entries' k ts' ∧ caps ts' = live.length ∧ lives ts' = live ∧
      ∀ id, id ∉ live.map Prod.snd → entries' id = start id := by
  induction ts generalizing live k start with
  | nil =>
    have hlive : live = [] := List.length_eq_zero_iff.1 (by rw [caps_nil] at hcaps; omega)
    subst hlive
    exact ⟨[], start, rfl, .nil, rfl, rfl, fun _ _ => rfl⟩
  | cons t ts ih =>
    rw [caps_cons] at hcaps
    cases h with
    | cons hcap _ _ hts =>
      -- what the place gets, and what is left for the places behind it
      have hnext : ∃ tree rest, (if 0 < t.cap then DynamicKdTrees.chunk S (2 ^ k) live
            else some (.empty, live)) = some (tree, rest) ∧
          (tree.cap = 0 ∨ tree.cap = 2 ^ k) ∧ tree.Laid ∧ tree.live ++ rest = live ∧
          tree.cap + rest.length = live.length ∧ caps ts = 2 * rest.length := by
        by_cases hpos : 0 < t.cap
        · have hcap := hcap.resolve_left hpos.ne'
          rw [pow_succ] at hcap
          rcases chunk_spec S live (n := 2 ^ k) rfl (by omega) (by omega) with
            ⟨tree, hchunk, htcap, htlaid, htlive⟩
          refine ⟨tree, live.drop (2 ^ k), by rw [if_pos hpos, hchunk], .inr htcap, htlaid, ?_, ?_, ?_⟩
          · rw [htlive, List.take_append_drop]
          · rw [htcap, List.length_drop]
            omega
          · rw [List.length_drop]
            omega
        · refine ⟨.empty, live, if_neg hpos, .inl rfl, KdTree.laid_empty, rfl, ?_, ?_⟩
          · exact Nat.zero_add _
          · omega
      rcases hnext with ⟨tree, rest, hnext, htcap, htlaid, happend, hlength, hcaps'⟩
      have hids : (tree.live.map Prod.snd ++ rest.map Prod.snd).Nodup := by
        rw [← List.map_append, happend]
        exact hnodup
      rcases List.nodup_append.1 hids with ⟨htree, hrest, hapart⟩
      rcases ih hts hcaps' (by omega) hrest (DynamicKdTrees.updateDelEntries k tree start) with
        ⟨ts', entries', hrefill, hforest, hcaps'', hlives, hkept⟩
      refine ⟨tree :: ts', entries', ?_, .cons htcap htlaid (fun i hi => ?_) hforest, ?_, ?_, ?_⟩
      · rw [DynamicKdTrees.refill, hnext, Option.bind_some, ← pow_succ', hrefill, Option.map_some]
      · have hid := KdTree.mem_ids_of_mem_foreach hi
        rw [hkept _ fun hid' => hapart _ hid _ hid' rfl]
        exact updateDelEntries_of_mem htree hi
      · rw [caps_cons, hcaps'', hlength]
      · rw [lives_cons, hlives, happend]
      · intro id hid
        rw [← happend, List.map_append, List.mem_append, not_or] at hid
        rw [hkept id hid.2, updateDelEntries_of_notMem hid.1]

end Forest

/-! ## All operations -/

variable [NeZero Dim]

/-- The forest against the live points: less than half of its points are deleted. -/
structure Inv (s : DynamicKdTrees Dim Component Id) (live : List (Point Dim Component × Id)) :
    Prop where
  forest : Forest s.delEntries 0 s.trees
  entries : caps s.trees = s.nEntries
  holds : (lives s.trees).Perm live
  nodup : (live.map Prod.snd).Nodup
  size : s.nEntries = s.deleted + live.length
  half : s.nEntries = 0 ∨ s.deleted < (s.nEntries + 1) / 2

variable {s : DynamicKdTrees Dim Component Id} {live : List (Point Dim Component × Id)}

theorem inv_empty : Inv (.empty : DynamicKdTrees Dim Component Id) [] where
  forest := .nil
  entries := rfl
  holds := .refl _
  nodup := .nil
  size := rfl
  half := .inl rfl

theorem Inv.rangeQuery_perm (h : Inv s live) (min max : Point Dim Component) :
    (s.rangeQuery min max).Perm (live.filter fun e => decide (InBox min max e.1)) := by
  have hlaid : ∀ t ∈ s.trees, t.Laid := h.forest.laid
  have hquery : (s.rangeQuery min max).Perm
      ((lives s.trees).filter fun e => decide (InBox min max e.1)) := by
    rw [DynamicKdTrees.rangeQuery, lives, List.filter_flatMap]
    exact List.Perm.flatMap_left _ fun t ht => (hlaid t ht).rangeQuery_perm min max
  exact hquery.trans (h.holds.filter _)

/-- At least half of the points are live, so that an `Idx` still counts all of them. -/
theorem Inv.entries_lt (h : Inv s live) (hlt : live.length + 1 < 32768) :
    s.nEntries + 1 < 2 ^ 16 := by
  have hsize := h.size
  rcases h.half with hzero | hhalf <;> omega

variable [DecidableEq Id]

theorem insert_inv (h : Inv s live) (point : Point Dim Component) {id : Id}
    (hid : id ∉ live.map Prod.snd) (hlt : s.nEntries + 1 < 2 ^ 16) :
    ∃ s', s.insert point id = some s' ∧ Inv s' ((point, id) :: live) := by
  have hcaps : 2 ^ 0 + caps s.trees < 2 ^ 16 := by
    rw [h.entries, pow_zero, Nat.add_comm]
    exact hlt
  have hperm : ((KdTree.single point id).live ++ lives s.trees).Perm ((point, id) :: live) :=
    h.holds.cons _
  have hnodup : (((point, id) :: live).map Prod.snd).Nodup := List.nodup_cons.2 ⟨hid, h.nodup⟩
  rcases plant_forest rfl (KdTree.laid_single point id) h.forest hcaps
    ((hperm.map Prod.snd).nodup_iff.2 hnodup) with
    ⟨trees, entries, hplant, hforest, hcaps', hlives⟩
  refine ⟨⟨trees, entries, s.nEntries + 1, s.deleted⟩, ?_, hforest, ?_, hlives.trans hperm, hnodup,
    ?_, ?_⟩
  · rw [DynamicKdTrees.insert, hplant, Option.map_some]
  · rw [hcaps', h.entries, pow_zero, Nat.add_comm]
  · rw [List.length_cons, h.size, Nat.add_assoc]
  · have hsize := h.size
    rcases h.half with hzero | hhalf
    · right
      show s.deleted < (s.nEntries + 1 + 1) / 2
      omega
    · right
      show s.deleted < (s.nEntries + 1 + 1) / 2
      omega

/-- After one more point was deleted, before the forest is built again. -/
structure Unlisted (s : DynamicKdTrees Dim Component Id) (live : List (Point Dim Component × Id)) :
    Prop where
  forest : Forest s.delEntries 0 s.trees
  entries : caps s.trees = s.nEntries
  holds : (lives s.trees).Perm live
  nodup : (live.map Prod.snd).Nodup
  size : s.nEntries = s.deleted + live.length
  half : s.deleted ≤ (s.nEntries + 1) / 2

omit [DecidableEq Id] in
/-- Without the first tree, which has one point or none, every tree can be halved. -/
theorem Unlisted.tail_halves (h : Unlisted s live) (hfull : (s.nEntries + 1) / 2 ≤ s.deleted) :
    Forest s.delEntries 1 s.trees.tail ∧ caps s.trees.tail = 2 * (lives s.trees).length := by
  have hlength := h.holds.length_eq
  have hforest := h.forest
  have hentries := h.entries
  have hsize := h.size
  have hhalf := h.half
  generalize (lives s.trees).length = m at hlength
  generalize s.trees = trees at hforest hentries
  cases hforest with
  | nil =>
    rw [caps_nil] at hentries
    exact ⟨.nil, by rw [List.tail_nil, caps_nil]; omega⟩
  | cons hcap _ _ hts =>
    refine ⟨hts, ?_⟩
    rw [caps_cons] at hentries
    rcases hts.two_dvd_caps with ⟨m, hm⟩
    rw [pow_zero] at hcap
    rw [List.tail_cons]
    omega

variable (S : Sorter Component)

/-- Half of the points are deleted: the forest is built again from the others, and both assertions
hold. -/
theorem shrinkToHalf_inv (h : Unlisted s live) (hfull : (s.nEntries + 1) / 2 ≤ s.deleted)
    (hlt : live.length < 2 ^ 16) : ∃ s', s.shrinkToHalf S = some s' ∧ Inv s' live := by
  have hlength : (lives s.trees).length = live.length := h.holds.length_eq
  have hsize := h.size
  have hhalf := h.half
  rcases h.tail_halves hfull with ⟨htail, hcaps⟩
  rcases refill_forest S htail hcaps (hlength ▸ hlt)
    ((h.holds.map Prod.snd).nodup_iff.2 h.nodup) (fun _ => none) with
    ⟨trees, entries, hrefill, hforest', hcaps', hlives', _⟩
  have hassert : s.deleted ≤ s.nEntries ∧ s.nEntries - s.deleted = s.nEntries / 2 := by omega
  have hcount : (lives s.trees).length = s.nEntries - s.deleted := by omega
  refine ⟨⟨trees, entries, s.nEntries - s.deleted, 0⟩, ?_, hforest', ?_, hlives' ▸ h.holds, h.nodup,
    ?_, ?_⟩
  · rw [DynamicKdTrees.shrinkToHalf, if_pos hassert]
    show (if (lives s.trees).length = s.nEntries - s.deleted then
      (DynamicKdTrees.refill S (lives s.trees) (2 ^ 0) 0 (fun _ => none) s.trees.tail).map _
      else none) = _
    rw [if_pos hcount, hrefill, Option.map_some]
  · rw [hcaps', hcount]
  · show s.nEntries - s.deleted = 0 + live.length
    omega
  · show s.nEntries - s.deleted = 0 ∨ 0 < (s.nEntries - s.deleted + 1) / 2
    omega

theorem unlist_spec (h : Inv s live) {id : Id} (hid : id ∈ live.map Prod.snd) :
    ∃ s', s.unlist id = some s' ∧ s'.nEntries = s.nEntries ∧ s'.deleted = s.deleted + 1 ∧
      Unlisted s' (live.filter fun e => decide (e.2 ≠ id)) := by
  have hpoint : ∃ p, (p, id) ∈ live := by simpa using hid
  rcases hpoint with ⟨p, hmem⟩
  rcases h.forest.remove ((h.holds.map Prod.snd).nodup_iff.2 h.nodup) (h.holds.mem_iff.2 hmem) with
    ⟨i, t, j, t', hentry, hget, hremove, hforest, hcaps, hlives⟩
  let s₁ : DynamicKdTrees Dim Component Id :=
    ⟨s.trees.set i t', Function.update s.delEntries id none, s.nEntries, s.deleted + 1⟩
  -- what is left is the live points without the one that was removed
  have hsplit : live.Perm ((p, id) :: lives s₁.trees) := h.holds.symm.trans hlives
  have hids : (id :: (lives s₁.trees).map Prod.snd).Nodup :=
    (hsplit.map Prod.snd).nodup_iff.1 h.nodup
  have hkept : (lives s₁.trees).filter (fun e => decide (e.2 ≠ id)) = lives s₁.trees := by
    refine List.filter_eq_self.2 fun e he => decide_eq_true ?_
    intro heq
    exact (List.nodup_cons.1 hids).1 (heq ▸ List.mem_map_of_mem he)
  have hrest : (lives s₁.trees).Perm (live.filter fun e => decide (e.2 ≠ id)) := by
    refine ((hsplit.filter _).trans (.of_eq ?_)).symm
    rw [List.filter_cons_of_neg (by simp), hkept]
  have hlength : live.length = (live.filter fun e => decide (e.2 ≠ id)).length + 1 := by
    rw [hsplit.length_eq, List.length_cons, hrest.length_eq]
  have hsize := h.size
  refine ⟨s₁, ?_, rfl, rfl, hforest, hcaps.trans h.entries, hrest, ?_, ?_, ?_⟩
  · rw [Nat.zero_add] at hentry
    rw [DynamicKdTrees.unlist, hentry, Option.bind_some, hget, Option.bind_some, hremove,
      Option.map_some]
  · exact (hrest.map Prod.snd).nodup_iff.1 (List.nodup_cons.1 hids).2
  · show s.nEntries = s.deleted + 1 + _
    omega
  · show s.deleted + 1 ≤ (s.nEntries + 1) / 2
    rcases h.half with hzero | hhalf <;> omega

omit [DecidableEq Id] in
/-- Nothing else is done while less than half of the points are deleted. -/
theorem Unlisted.inv (h : Unlisted s live) (hfull : ¬ (s.nEntries + 1) / 2 ≤ s.deleted) :
    Inv s live :=
  ⟨h.forest, h.entries, h.holds, h.nodup, h.size, .inr (Nat.lt_of_not_le hfull)⟩

theorem remove_inv (h : Inv s live) {id : Id} (hid : id ∈ live.map Prod.snd) (hlt : live.length < 2 ^ 16) :
    ∃ s', s.remove S id = some s' ∧ Inv s' (live.filter fun e => decide (e.2 ≠ id)) := by
  rcases unlist_spec h hid with ⟨s₁, hunlist, -, -, h₁⟩
  rw [DynamicKdTrees.remove_eq, hunlist, Option.bind_some]
  have hless := List.length_filter_le (fun e => decide (e.2 ≠ id)) live
  split
  · next hfull => exact shrinkToHalf_inv S h₁ hfull (hless.trans_lt hlt)
  · next hfull => exact ⟨s₁, rfl, h₁.inv hfull⟩

theorem step_inv (h : Inv s live) {op : Op Dim Component Id} (hop : op.Permitted live)
    (hbefore : live.length < 32768) (hafter : (liveStep live op).length < 32768) :
    ∃ s', s.step S op = some s' ∧ Inv s' (liveStep live op) := by
  cases op with
  | insert point id => exact insert_inv h point hop (h.entries_lt hafter)
  | remove id => exact remove_inv S h hop (hbefore.trans (by decide))
  | update newPos id =>
    rcases remove_inv S h hop (hbefore.trans (by decide)) with ⟨s₁, hremove, h₁⟩
    have hid : id ∉ (live.filter fun e => decide (e.2 ≠ id)).map Prod.snd := by
      intro hid
      rcases List.mem_map.1 hid with ⟨e, he, heq⟩
      exact of_decide_eq_true (List.mem_filter.1 he).2 heq
    rcases insert_inv h₁ newPos hid (h₁.entries_lt hafter) with ⟨s₂, hinsert, h₂⟩
    refine ⟨s₂, ?_, h₂⟩
    show (s.remove S id).bind _ = _
    rw [hremove, Option.bind_some, hinsert]

theorem run_inv (h : Inv s live) {ops : List (Op Dim Component Id)} (hops : Permitted live ops)
    (hbefore : live.length < 32768) :
    ∃ s', ops.foldlM (DynamicKdTrees.step S) s = some s' ∧ Inv s' (ops.foldl liveStep live) := by
  induction ops generalizing s live with
  | nil => exact ⟨s, rfl, h⟩
  | cons op ops ih =>
    rcases hops with ⟨hop, hafter, hops⟩
    rcases step_inv S h hop hbefore hafter with ⟨s₁, hstep, h₁⟩
    rcases ih h₁ hops hafter with ⟨s₂, hrun, h₂⟩
    refine ⟨s₂, ?_, h₂⟩
    rw [List.foldlM_cons, hstep]
    exact hrun

/-- After permitted operations no assertion has failed, `size` counts the live ids, and a range
query calls back once for each of them in the box, with its last position. -/
theorem rangeQuery_exact (S : Sorter Component) (ops : List (Op Dim Component Id))
    (h : Permitted [] ops) :
    ∃ s, DynamicKdTrees.run S ops = some s ∧ s.size = (liveAfter ops).length ∧
      ((liveAfter ops).map Prod.snd).Nodup ∧
      ∀ min max : Point Dim Component, (s.rangeQuery min max).Perm
        ((liveAfter ops).filter fun e => decide (InBox min max e.1)) := by
  rcases run_inv S inv_empty h (by simp) with ⟨s, hrun, hinv⟩
  refine ⟨s, hrun, ?_, hinv.nodup, hinv.rangeQuery_perm⟩
  rw [DynamicKdTrees.size, hinv.size, Nat.add_sub_cancel_left]
  rfl

/-- Three points, of which the first one is moved and the second one leaves. -/
theorem rangeQuery_exact_moved :
    ∃ s, DynamicKdTrees.run (.stable ℤ) [.insert ![0, 0, 0] 7, .insert ![0, 4, 0] 8,
        .insert ![0, 4, 9] 9, .update ![5, 4, 0] 7, .remove 8] = some s ∧
      s.size = 2 ∧ ∀ min max : Point 3 ℤ, (s.rangeQuery min max).Perm
        ([(![5, 4, 0], 7), (![0, 4, 9], 9)].filter fun e => decide (InBox min max e.1)) := by
  rcases rangeQuery_exact (.stable ℤ) [.insert ![0, 0, 0] 7, .insert ![0, 4, 0] 8,
      .insert ![0, 4, 9] 9, .update ![5, 4, 0] 7, .remove 8]
    (by decide) with ⟨s, hrun, hsize, _, hquery⟩
  exact ⟨s, hrun, hsize, hquery⟩

end KdTrees
end AxisEngine
