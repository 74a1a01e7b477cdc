import AxisEngine.KdTrees.KdTree
import AxisEngine.Lib.TreePositions
import Mathlib.Data.List.Perm.Basic

/-!
# Layout — the array of a k-d tree holds a search tree

`Layout tree points r axis l` says that the part of the array under position `r` is a k-d tree of
the indices `l`: the points to the left of a node are not above it on the axis of its level, those
to the right are not below it. Points that are equal on the axis may be on either side.

* `Layout.congr`: only the cells under `r` matter;
* `init_layout`: what `init` writes is laid out, and it leaves all other cells alone;
* `Layout.rangeQueryFrom_perm`: a query skips a subtree only when the box has none of its points.
-/

namespace AxisEngine
namespace KdTrees

open Lib

variable {Dim n : ℕ} [NeZero Dim] {Component Id : Type*} [LinearOrder Component]

inductive Layout (tree : Fin n → Fin n) (points : Fin n → Point Dim Component) :
    ℕ → Fin Dim → List (Fin n) → Prop where
  | behind {r : ℕ} {axis : Fin Dim} : n ≤ r → Layout tree points r axis []
  | node {r : ℕ} {axis : Fin Dim} {l left right : List (Fin n)} (h : r < n) :
      l.Perm (tree ⟨r, h⟩ :: (left ++ right)) →
      (∀ i ∈ left, points i axis ≤ points (tree ⟨r, h⟩) axis) →
      (∀ i ∈ right, points (tree ⟨r, h⟩) axis ≤ points i axis) →
      Layout tree points (2 * r + 1) (axis + 1) left →
      Layout tree points (2 * r + 2) (axis + 1) right →
      Layout tree points r axis l

variable {points : Fin n → Point Dim Component}

theorem Layout.congr {tree tree' : Fin n → Fin n} {r : ℕ} {axis : Fin Dim} {l : List (Fin n)}
    (h : Layout tree points r axis l) (hsame : ∀ i : Fin n, Under r i → tree' i = tree i) :
    Layout tree' points r axis l := by
  induction h with
  | behind h => exact .behind h
  | @node r axis l left right h hl hleft hright _ _ ihleft ihright =>
    have hroot : tree' ⟨r, h⟩ = tree ⟨r, h⟩ := hsame _ .root
    rw [← hroot] at hl hleft hright
    exact .node h hl hleft hright (ihleft fun i hi => hsame i hi.ofLeft)
      (ihright fun i hi => hsame i hi.ofRight)

/-! ## Building -/

namespace SortedIndices

variable {sorted : SortedIndices Dim n} {axis : Fin Dim} {h : 0 < sorted.size}
  {markers : Markers n}

theorem By.left (hby : sorted.By points) : (sorted.split axis h markers).1.left.By points :=
  fun d => (hby d).sublist (left_sublist d)

theorem By.right (hby : sorted.By points) : (sorted.split axis h markers).1.right.By points :=
  fun d => (hby d).sublist (right_sublist d)

theorem left_perm : ((sorted.split axis h markers).1.left.axes 0).Perm (sorted.toLeft axis) :=
  ((sorted.split axis h markers).1.left.perm 0 axis).trans (.of_eq axis_left)

theorem right_perm : ((sorted.split axis h markers).1.right.axes 0).Perm (sorted.toRight axis) :=
  ((sorted.split axis h markers).1.right.perm 0 axis).trans (.of_eq axis_right)

theorem split_perm : (sorted.axes 0).Perm ((sorted.split axis h markers).1.pivot ::
    ((sorted.split axis h markers).1.left.axes 0 ++
      (sorted.split axis h markers).1.right.axes 0)) := by
  have hparts : (sorted.axes 0).Perm
      (sorted.toLeft axis ++ sorted.mid axis h :: sorted.toRight axis) :=
    sorted.axis_eq axis h ▸ sorted.perm 0 axis
  exact (hparts.trans List.perm_middle).trans ((left_perm.symm.append right_perm.symm).cons _)

/-- The parts are partitioned along the axis: left (<=), the pivot, and right (>=). -/
theorem By.partition (hby : sorted.By points) (axis : Fin Dim) (h : 0 < sorted.size)
    (markers : Markers n) :
    (∀ i ∈ (sorted.split axis h markers).1.left.axes 0,
      points i axis ≤ points (sorted.split axis h markers).1.pivot axis) ∧
    ∀ i ∈ (sorted.split axis h markers).1.right.axes 0,
      points (sorted.split axis h markers).1.pivot axis ≤ points i axis := by
  have hsorted := hby axis
  rw [sorted.axis_eq axis h] at hsorted
  rcases List.pairwise_append.1 hsorted with ⟨_, hright, hleft⟩
  refine ⟨fun i hi => hleft i (left_perm.mem_iff.1 hi) _ (List.mem_cons_self ..), fun i hi => ?_⟩
  exact (List.pairwise_cons.1 hright).1 i (right_perm.mem_iff.1 hi)

theorem axes_eq_nil (hs : sorted.size = 0) : sorted.axes 0 = [] :=
  List.length_eq_zero_iff.1 hs

end SortedIndices

/-- What a call of `init` has achieved: its part is laid out, nothing else has changed. -/
structure Placed (points : Fin n → Point Dim Component) (r : ℕ) (axis : Fin Dim)
    (sorted : SortedIndices Dim n) (before after : Build n) : Prop where
  layout : Layout after.tree points r axis (sorted.axes 0)
  frame : ∀ i : Fin n, ¬ Under r i → after.tree i = before.tree i

variable {axis : Fin Dim} {sorted : SortedIndices Dim n}

theorem Placed.none {r : ℕ} {arrays : Build n} (hr : n ≤ r) (hs : sorted.size = 0) :
    Placed points r axis sorted arrays arrays :=
  ⟨SortedIndices.axes_eq_nil hs ▸ .behind hr, fun _ _ => rfl⟩

/-- A node whose halves have been placed one after the other. -/
theorem Placed.node {r : ℕ} {h : 0 < sorted.size} {before own left right : Build n} (hr : r < n)
    (hby : sorted.By points)
    (hown : own.tree =
      Function.update before.tree ⟨r, hr⟩ (sorted.split axis h before.markers).1.pivot)
    (hleft : Placed points (2 * r + 1) (axis + 1) (sorted.split axis h before.markers).1.left
      own left)
    (hright : Placed points (2 * r + 2) (axis + 1) (sorted.split axis h before.markers).1.right
      left right) : Placed points r axis sorted before right := by
  have hroot : right.tree ⟨r, hr⟩ = (sorted.split axis h before.markers).1.pivot := by
    have hnotright : ¬ Under (2 * r + 2) r := fun hu => absurd hu.le (by omega)
    have hnotleft : ¬ Under (2 * r + 1) r := fun hu => absurd hu.le (by omega)
    calc right.tree ⟨r, hr⟩ = left.tree ⟨r, hr⟩ := hright.frame ⟨r, hr⟩ hnotright
      _ = own.tree ⟨r, hr⟩ := hleft.frame ⟨r, hr⟩ hnotleft
      _ = _ := by rw [hown, Function.update_self]
  rcases hby.partition axis h before.markers with ⟨hle, hge⟩
  -- the second half is written to cells that the first one does not use
  have hkept := hleft.layout.congr fun i hi => hright.frame i fun hi' => hi.siblings_disjoint hi'
  refine ⟨.node hr ?_ ?_ ?_ hkept hright.layout, ?_⟩
  · rw [hroot]
    exact SortedIndices.split_perm
  · rw [hroot]
    exact hle
  · rw [hroot]
    exact hge
  · intro i hi
    have hne : i ≠ ⟨r, hr⟩ := by
      rintro rfl
      exact hi .root
    calc right.tree i = left.tree i := hright.frame i fun hu => hi hu.ofRight
      _ = own.tree i := hleft.frame i fun hu => hi hu.ofLeft
      _ = before.tree i := by rw [hown, Function.update_of_ne hne]

theorem init_placed (hn : n < 2 ^ 16) {r : ℕ} {axis : Fin Dim} {sorted : SortedIndices Dim n}
    {arrays : Build n} (hby : sorted.By points) (hfits : Fits n r sorted.size)
    (hs : 0 < sorted.size) :
    ∃ arrays', init r axis sorted arrays = some arrays' ∧
      Placed points r axis sorted arrays arrays' := by
  induction hm : sorted.size using Nat.strong_induction_on generalizing r axis sorted arrays with
  | _ m ih =>
    -- a half, which is built only when it has points
    have hhalf : ∀ (half : SortedIndices Dim n) (r' : ℕ) (arrays : Build n),
        half.size < m → half.By points → Fits n r' half.size →
        ∃ arrays', (if 0 < half.size then init (idx r') (axis + 1) half arrays
            else some arrays) = some arrays' ∧
          Placed points r' (axis + 1) half arrays arrays' := by
      intro half r' arrays hlt hby hfits
      by_cases hpos : 0 < half.size
      · rw [if_pos hpos, idx_of_lt ((hfits.lt hpos).trans hn)]
        exact ih half.size hlt hby hfits hpos rfl
      · have hzero : half.size = 0 := Nat.eq_zero_of_not_pos hpos
        rw [if_neg hpos]
        rw [hzero] at hfits
        exact ⟨arrays, rfl, .none hfits.le hzero⟩
    have hr : r < n := hfits.lt hs
    have hfitsLeft := hfits.left hs
    have hfitsRight := hfits.right hs
    rw [← SortedIndices.leftN_eq hn.le] at hfitsLeft hfitsRight
    rw [init, dif_pos ⟨hs, hr⟩]
    rcases hhalf (sorted.split axis hs arrays.markers).1.left (2 * r + 1)
      ⟨Function.update arrays.tree ⟨r, hr⟩ (sorted.split axis hs arrays.markers).1.pivot,
        (sorted.split axis hs arrays.markers).2⟩
      (SortedIndices.size_left_lt.trans_eq hm) hby.left (by rwa [SortedIndices.size_left])
      with ⟨left, hleft, hpleft⟩
    rcases hhalf (sorted.split axis hs arrays.markers).1.right (2 * r + 2) left
      (SortedIndices.size_right_lt.trans_eq hm) hby.right (by rwa [SortedIndices.size_right])
      with ⟨right, hright, hpright⟩
    refine ⟨right, ?_, .node hr hby rfl hpleft hpright⟩
    dsimp only
    rw [hleft, Option.bind_some, hright]

/-! ## Querying -/

/-- The box of a query, borders included. -/
def InBox (min max point : Point Dim Component) : Prop :=
  ∀ d, min d ≤ point d ∧ point d ≤ max d

instance (min max point : Point Dim Component) : Decidable (InBox min max point) := by
  unfold InBox
  infer_instance

namespace KdTree

variable (t : KdTree Dim Component Id)

omit [NeZero Dim] in
theorem report_eq (i : Fin t.cap) (min max : Point Dim Component) :
    t.report i min max =
      if t.deleted i = false ∧ InBox min max (t.items.points i) then [t.entry i] else [] := by
  have hbox : InBox min max (t.items.points i) ↔
      ¬ ∃ d, t.items.points i d < min d ∨ max d < t.items.points i d := by
    simp [InBox]
  rw [report]
  cases t.deleted i with
  | true => simp
  | false =>
    by_cases hi : InBox min max (t.items.points i)
    · simp only [if_neg (hbox.1 hi), hi, entry, and_self, if_true, Bool.false_eq_true, if_false]
    · simp only [if_pos (not_not.1 fun hn => hi (hbox.2 hn)), hi, and_false, if_false, ite_self]

variable {t} in
omit [NeZero Dim] in
theorem report_of_not_inBox {i : Fin t.cap} {min max : Point Dim Component}
    (h : ¬ InBox min max (t.items.points i)) : t.report i min max = [] := by
  rw [report_eq, if_neg fun hi => h hi.2]

/-- Every index is laid out from the root. -/
def Laid : Prop :=
  Layout t.tree t.items.points 0 0 (t.items.indices.axes 0)

variable {t}

theorem rangeQueryFrom_perm {r : ℕ} {axis : Fin Dim} {l : List (Fin t.cap)}
    (h : Layout t.tree t.items.points r axis l) (min max : Point Dim Component) :
    (t.rangeQueryFrom r axis min max).Perm (l.flatMap fun i => t.report i min max) := by
  induction h with
  | behind h =>
    rw [rangeQueryFrom, dif_neg (Nat.not_lt.2 h)]
    exact .refl _
  | @node r axis l left right h hl hleft hright _ _ ihleft ihright =>
    let ptid := t.tree ⟨r, h⟩
    have hparts : (l.flatMap fun i => t.report i min max).Perm
        (t.report ptid min max ++ ((left.flatMap fun i => t.report i min max) ++
          right.flatMap fun i => t.report i min max)) := by
      refine (hl.flatMap_right _).trans (.of_eq ?_)
      rw [List.flatMap_cons, List.flatMap_append]
    rw [rangeQueryFrom, dif_pos h]
    dsimp only
    split
    · -- the box starts after the point: nothing of it is here or on the left
      next hmin =>
      have hown : t.report ptid min max = [] :=
        report_of_not_inBox fun hbox => absurd (hbox axis).1 (not_le.2 hmin)
      have hnone : (left.flatMap fun i => t.report i min max) = [] := by
        refine List.flatMap_eq_nil_iff.2 fun i hi => report_of_not_inBox fun hbox => ?_
        exact absurd (hbox axis).1 (not_le.2 ((hleft i hi).trans_lt hmin))
      rw [hown, hnone] at hparts
      exact ihright.trans hparts.symm
    · split
      · next hmax =>
        have hown : t.report ptid min max = [] :=
          report_of_not_inBox fun hbox => absurd (hbox axis).2 (not_le.2 hmax)
        have hnone : (right.flatMap fun i => t.report i min max) = [] := by
          refine List.flatMap_eq_nil_iff.2 fun i hi => report_of_not_inBox fun hbox => ?_
          exact absurd (hbox axis).2 (not_le.2 (hmax.trans_le (hright i hi)))
        rw [hown, hnone, List.append_nil] at hparts
        exact ihleft.trans hparts.symm
      · refine ((ihright.append ihleft).append_right _).trans (.trans ?_ hparts.symm)
        exact (List.perm_append_comm.append_right _).trans List.perm_append_comm

/-- A query of a tree calls back for the live points in the box. -/
theorem Laid.rangeQuery_perm (h : t.Laid) (min max : Point Dim Component) :
    (t.rangeQuery min max).Perm (t.live.filter fun e => decide (InBox min max e.1)) := by
  have hquery : (t.rangeQuery min max).Perm
      ((List.finRange t.cap).flatMap fun i => t.report i min max) :=
    (rangeQueryFrom_perm h min max).trans ((t.items.all 0).flatMap_right _)
  refine hquery.trans (.of_eq ?_)
  rw [live, foreach]
  induction List.finRange t.cap with
  | nil => rfl
  | cons i l ih =>
    rw [List.flatMap_cons, ih, report_eq]
    cases hdel : t.deleted i with
    | true => simp [hdel]
    | false =>
      by_cases hbox : InBox min max (t.items.points i) <;> simp [hdel, hbox, entry]

/-! ## The constructors lay the tree out -/

theorem laid_empty : (empty : KdTree Dim Component Id).Laid :=
  .behind le_rfl

theorem laid_single (point : Point Dim Component) (id : Id) : (single point id).Laid := by
  have hall : ([0] : List (Fin 1)).Perm ((single point id).tree ⟨0, Nat.one_pos⟩ :: ([] ++ [])) :=
    .refl _
  refine .node Nat.one_pos hall ?_ ?_ (.behind ?_) (.behind ?_)
  · exact fun i hi => absurd hi (List.not_mem_nil)
  · exact fun i hi => absurd hi (List.not_mem_nil)
  · exact Nat.le_refl 1
  · exact Nat.le_succ 1

end KdTree

theorem buildArrays_layout (items : SortedPoints Dim Component n) {h : ℕ} (hpow : n = 2 ^ h)
    (hn : n < 2 ^ 16) : ∃ arrays, buildArrays items.indices = some arrays ∧
      Layout arrays.tree items.points 0 0 (items.indices.axes 0) := by
  have hsize : items.indices.size = n := by
    rw [SortedIndices.size, (items.all 0).length_eq, List.length_finRange]
  have hpos : 0 < n := hpow ▸ Nat.two_pow_pos h
  have hfits : Fits n 0 items.indices.size := by
    rw [hsize, hpow]
    exact .start h
  rw [buildArrays, dif_pos ⟨hpos, hn⟩]
  rcases init_placed hn items.sorted hfits (hsize.symm ▸ hpos) with ⟨arrays, hinit, hplaced⟩
  exact ⟨arrays, hinit, hplaced.layout⟩

end KdTrees
end AxisEngine
