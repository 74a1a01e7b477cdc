import Mathlib.Algebra.GroupWithZero.Nat
import Mathlib.Data.Fin.Tuple.Basic
import Mathlib.Data.List.FinRange
import Mathlib.Data.List.Nodup
import Mathlib.Data.Fintype.Card
import Mathlib.Order.Defs.LinearOrder
import Mathlib.Tactic.Basic

/-!
# SortedPoints — points with their indices presorted by every axis (`util/k_d_tree.h`)

Model of `Points`, `SortedIndices` and `SortedPoints`.

* An array of `n` cells is a function on `Fin n`; the index arrays hold `Fin n`, so that an index
  that points nowhere cannot be built.
* `SortedIndices` carries that all axes hold the same indices, each once. For the two halves of a
  split this says that the loops of `split` fill both arrays exactly.
* `SortedPoints` carries that every axis holds all indices, in the order of its coordinates.
* `Sorter` stands for `std::sort`, which leaves open which of two equal points comes first.
-/

namespace AxisEngine
namespace KdTrees

/-- What `Idx`, a `uint16_t`, keeps of a number. -/
def idx (i : ℕ) : ℕ := i % 2 ^ 16

theorem idx_of_lt {i : ℕ} (h : i < 2 ^ 16) : idx i = i :=
  Nat.mod_eq_of_lt h

theorem idx_le (i : ℕ) : idx i ≤ i :=
  Nat.mod_le i _

abbrev Point (Dim : ℕ) (Component : Type*) := Fin Dim → Component

variable {Dim n : ℕ}

/-! ## The marks of a split -/

/-- The bitset that `split` borrows: between two splits no bit is set. -/
def Markers (n : ℕ) := { marks : Fin n → Bool // ∀ i, marks i = false }

def Markers.clear (n : ℕ) : Markers n := ⟨fun _ => false, fun _ => rfl⟩

/-- The loops `for (auto it = begin; it != mid; ++it) markers[*it] = value`. -/
def setMarks (marks : Fin n → Bool) (value : Bool) (l : List (Fin n)) : Fin n → Bool :=
  l.foldl (fun marks i => Function.update marks i value) marks

theorem setMarks_apply (marks : Fin n → Bool) (value : Bool) (l : List (Fin n)) (i : Fin n) :
    setMarks marks value l i = if i ∈ l then value else marks i := by
  induction l generalizing marks with
  | nil => simp [setMarks]
  | cons j l ih =>
    have hstep : setMarks marks value (j :: l) = setMarks (Function.update marks j value) value l :=
      rfl
    rw [hstep, ih, Function.update_apply]
    by_cases hl : i ∈ l
    · simp [hl]
    · by_cases hj : i = j <;> simp [hl, hj]

/-! ## SortedIndices -/

structure SortedIndices (Dim n : ℕ) where
  axes : Fin Dim → List (Fin n)
  nodup : ∀ d, (axes d).Nodup
  perm : ∀ d e, (axes d).Perm (axes e)

namespace SortedIndices

/-- The identity permutation on all axes. -/
def identity (Dim n : ℕ) : SortedIndices Dim n where
  axes _ := List.finRange n
  nodup _ := List.nodup_finRange n
  perm _ _ := .refl _

variable [NeZero Dim] (sorted : SortedIndices Dim n)

def size : ℕ := (sorted.axes 0).length

variable (sorted : SortedIndices Dim n) (axis : Fin Dim)

theorem length_axis (d : Fin Dim) : (sorted.axes d).length = sorted.size :=
  (sorted.perm d 0).length_eq

theorem size_le : sorted.size ≤ n := by
  have h := List.Nodup.length_le_card (sorted.nodup 0)
  rwa [Fintype.card_fin] at h

/-! ### Splitting -/

/-- `left_n`, also the place of `mid` in the array of the split axis. -/
def leftN : ℕ := idx (sorted.size / 2)

theorem leftN_lt {sorted : SortedIndices Dim n} (h : 0 < sorted.size) :
    sorted.leftN < sorted.size :=
  (idx_le _).trans_lt (Nat.div_lt_self h Nat.one_lt_two)

theorem leftN_eq {sorted : SortedIndices Dim n} (h : n ≤ 2 ^ 16) :
    sorted.leftN = sorted.size / 2 := by
  have hsize := sorted.size_le
  exact idx_of_lt (by omega)

def mid (axis : Fin Dim) (h : 0 < sorted.size) : Fin n :=
  (sorted.axes axis).get ⟨sorted.leftN, (leftN_lt h).trans_eq (sorted.length_axis axis).symm⟩

def toLeft (axis : Fin Dim) : List (Fin n) :=
  (sorted.axes axis).take sorted.leftN

def toRight (axis : Fin Dim) : List (Fin n) :=
  (sorted.axes axis).drop (sorted.leftN + 1)

theorem axis_eq (h : 0 < sorted.size) :
    sorted.axes axis = sorted.toLeft axis ++ sorted.mid axis h :: sorted.toRight axis := by
  have hlt : sorted.leftN < (sorted.axes axis).length :=
    (leftN_lt h).trans_eq (sorted.length_axis axis).symm
  have hdrop : (sorted.axes axis).drop sorted.leftN = sorted.mid axis h :: sorted.toRight axis :=
    List.drop_eq_getElem_cons hlt
  calc sorted.axes axis
      = (sorted.axes axis).take sorted.leftN ++ (sorted.axes axis).drop sorted.leftN :=
        (List.take_append_drop _ _).symm
    _ = sorted.toLeft axis ++ sorted.mid axis h :: sorted.toRight axis := by rw [hdrop, toLeft]

theorem mem_axis (axis d : Fin Dim) (h : 0 < sorted.size) {i : Fin n} : i ∈ sorted.axes d ↔
      i ∈ sorted.toLeft axis ∨ i = sorted.mid axis h ∨ i ∈ sorted.toRight axis := by
  rw [(sorted.perm d axis).mem_iff, sorted.axis_eq axis h, List.mem_append, List.mem_cons]

theorem nodup_parts (h : 0 < sorted.size) :
    (sorted.toLeft axis ++ sorted.mid axis h :: sorted.toRight axis).Nodup := by
  rw [← sorted.axis_eq axis h]
  exact sorted.nodup axis

theorem parts_disjoint (h : 0 < sorted.size) :
    sorted.mid axis h ∉ sorted.toLeft axis ∧ sorted.mid axis h ∉ sorted.toRight axis ∧
      ∀ i ∈ sorted.toLeft axis, i ∉ sorted.toRight axis := by
  rcases List.nodup_append.1 (sorted.nodup_parts axis h) with ⟨_, hright, hapart⟩
  refine ⟨?_, (List.nodup_cons.1 hright).1, ?_⟩
  · intro hmem
    exact hapart _ hmem _ (List.mem_cons_self ..) rfl
  · intro i hi hi'
    exact hapart i hi i (List.mem_cons_of_mem _ hi') rfl

/-- The points that are marked when the other axes are partitioned. -/
def marked (axis : Fin Dim) (markers : Markers n) : Fin n → Bool :=
  setMarks markers.1 true (sorted.toLeft axis)

theorem marked_iff {sorted : SortedIndices Dim n} {axis : Fin Dim} {markers : Markers n}
    {i : Fin n} : sorted.marked axis markers i = true ↔ i ∈ sorted.toLeft axis := by
  rw [marked, setMarks_apply, markers.2 i]
  by_cases h : i ∈ sorted.toLeft axis <;> simp [h]

section Halves

variable (sorted : SortedIndices Dim n) (axis : Fin Dim) (h : 0 < sorted.size) (markers : Markers n)

def leftAxis (d : Fin Dim) : List (Fin n) :=
  if d = axis then sorted.toLeft axis
  else (sorted.axes d).filter fun i => decide (i ≠ sorted.mid axis h) && sorted.marked axis markers i

def rightAxis (d : Fin Dim) : List (Fin n) :=
  if d = axis then sorted.toRight axis
  else (sorted.axes d).filter fun i => decide (i ≠ sorted.mid axis h) && !sorted.marked axis markers i

variable {sorted axis h markers}

theorem mem_leftAxis {d : Fin Dim} {i : Fin n} :
    i ∈ sorted.leftAxis axis h markers d ↔ i ∈ sorted.toLeft axis := by
  rw [leftAxis]
  split
  · exact Iff.rfl
  · rcases sorted.parts_disjoint axis h with ⟨hmid, _, _⟩
    rw [List.mem_filter, Bool.and_eq_true, decide_eq_true_iff, marked_iff, sorted.mem_axis axis d h]
    refine ⟨fun hi => hi.2.2, fun hi => ⟨.inl hi, ?_, hi⟩⟩
    rintro rfl
    exact hmid hi

theorem mem_rightAxis {d : Fin Dim} {i : Fin n} :
    i ∈ sorted.rightAxis axis h markers d ↔ i ∈ sorted.toRight axis := by
  rw [rightAxis]
  split
  · exact Iff.rfl
  · rcases sorted.parts_disjoint axis h with ⟨_, hmid, hapart⟩
    rw [List.mem_filter, Bool.and_eq_true, decide_eq_true_iff, Bool.not_eq_true',
      ← Bool.not_eq_true, marked_iff, sorted.mem_axis axis d h]
    constructor
    · rintro ⟨hleft | hi | hright, hne, hnot⟩
      · exact absurd hleft hnot
      · exact absurd hi hne
      · exact hright
    · intro hi
      refine ⟨.inr (.inr hi), ?_, fun hleft => hapart i hleft hi⟩
      rintro rfl
      exact hmid hi

theorem nodup_leftAxis (d : Fin Dim) : (sorted.leftAxis axis h markers d).Nodup := by
  rw [leftAxis]
  split
  · exact (List.take_sublist _ _).nodup (sorted.nodup axis)
  · exact (sorted.nodup d).filter _

theorem nodup_rightAxis (d : Fin Dim) : (sorted.rightAxis axis h markers d).Nodup := by
  rw [rightAxis]
  split
  · exact (List.drop_sublist _ _).nodup (sorted.nodup axis)
  · exact (sorted.nodup d).filter _

end Halves

end SortedIndices

/-- `SplitResult`: left (<=), the pivot, and right (>=). -/
structure SplitResult (Dim n : ℕ) where
  left : SortedIndices Dim n
  right : SortedIndices Dim n
  pivot : Fin n

namespace SortedIndices

variable [NeZero Dim]

/-- `split`, which marks what goes to the left and clears the marks again at the end. -/
def split (sorted : SortedIndices Dim n) (axis : Fin Dim) (h : 0 < sorted.size)
    (markers : Markers n) : SplitResult Dim n × Markers n :=
  let left : SortedIndices Dim n :=
    { axes := sorted.leftAxis axis h markers
      nodup := nodup_leftAxis
      perm := fun d e => (List.perm_ext_iff_of_nodup (nodup_leftAxis d) (nodup_leftAxis e)).2
        fun _ => mem_leftAxis.trans mem_leftAxis.symm }
  let right : SortedIndices Dim n :=
    { axes := sorted.rightAxis axis h markers
      nodup := nodup_rightAxis
      perm := fun d e => (List.perm_ext_iff_of_nodup (nodup_rightAxis d) (nodup_rightAxis e)).2
        fun _ => mem_rightAxis.trans mem_rightAxis.symm }
  let unmarked : Markers n :=
    ⟨setMarks (sorted.marked axis markers) false (sorted.toLeft axis), by
      intro i
      rw [setMarks_apply]
      split
      · rfl
      · next hi => exact Bool.eq_false_iff.2 fun hmark => hi (marked_iff.1 hmark)⟩
  (⟨left, right, sorted.mid axis h⟩, unmarked)

section Split

variable {sorted : SortedIndices Dim n} {axis : Fin Dim} {h : 0 < sorted.size}
  {markers : Markers n}

theorem axis_left : (sorted.split axis h markers).1.left.axes axis = sorted.toLeft axis :=
  if_pos rfl

theorem axis_right : (sorted.split axis h markers).1.right.axes axis = sorted.toRight axis :=
  if_pos rfl

theorem size_left : (sorted.split axis h markers).1.left.size = sorted.leftN := by
  rw [← length_axis _ axis, axis_left, toLeft, List.length_take, length_axis]
  exact Nat.min_eq_left (leftN_lt h).le

theorem size_right :
    (sorted.split axis h markers).1.right.size = sorted.size - sorted.leftN - 1 := by
  rw [← length_axis _ axis, axis_right, toRight, List.length_drop, length_axis, Nat.sub_sub]

theorem size_left_lt : (sorted.split axis h markers).1.left.size < sorted.size := by
  rw [size_left]
  exact leftN_lt h

theorem size_right_lt : (sorted.split axis h markers).1.right.size < sorted.size := by
  rw [size_right]
  omega

theorem left_sublist (d : Fin Dim) :
    ((sorted.split axis h markers).1.left.axes d).Sublist (sorted.axes d) := by
  show (sorted.leftAxis axis h markers d).Sublist _
  rw [leftAxis]
  split
  · next hd => exact hd ▸ List.take_sublist _ _
  · exact List.filter_sublist

theorem right_sublist (d : Fin Dim) :
    ((sorted.split axis h markers).1.right.axes d).Sublist (sorted.axes d) := by
  show (sorted.rightAxis axis h markers d).Sublist _
  rw [rightAxis]
  split
  · next hd => exact hd ▸ List.drop_sublist _ _
  · exact List.filter_sublist

end Split

end SortedIndices

/-! ## SortedPoints -/

/-- The cells of an array that two arrays were copied to, one behind the other. -/
theorem finRange_add_perm (m n : ℕ) :
    ((List.finRange m).map (Fin.castAdd n) ++ (List.finRange n).map (Fin.natAdd m)).Perm
      (List.finRange (m + n)) := by
  have hnodup : ((List.finRange m).map (Fin.castAdd n) ++
      (List.finRange n).map (Fin.natAdd m)).Nodup := by
    refine List.Nodup.append ?_ ?_ ?_
    · exact (List.nodup_finRange m).map (Fin.castAdd_injective m n)
    · exact (List.nodup_finRange n).map (Fin.natAdd_injective n m)
    · intro i hleft hright
      rcases List.mem_map.1 hleft with ⟨j, _, rfl⟩
      rcases List.mem_map.1 hright with ⟨k, _, hk⟩
      exact absurd (congrArg Fin.val hk) (by simp; omega)
  refine (List.perm_ext_iff_of_nodup hnodup (List.nodup_finRange _)).2 fun i => ?_
  refine ⟨fun _ => List.mem_finRange i, fun _ => ?_⟩
  refine Fin.addCases (fun j => ?_) (fun j => ?_) i
  · exact List.mem_append_left _ (List.mem_map_of_mem (List.mem_finRange j))
  · exact List.mem_append_right _ (List.mem_map_of_mem (List.mem_finRange j))

variable {Component : Type*} [LinearOrder Component]

/-- `std::sort` of indices by a coordinate. -/
structure Sorter (Component : Type*) [LinearOrder Component] where
  sort : {n : ℕ} → (Fin n → Component) → List (Fin n) → List (Fin n)
  perm : ∀ {n : ℕ} (coord : Fin n → Component) (l : List (Fin n)), (sort coord l).Perm l
  sorted : ∀ {n : ℕ} (coord : Fin n → Component) (l : List (Fin n)),
    (sort coord l).Pairwise fun i j => coord i ≤ coord j

/-- A sort that keeps equal points in their order. -/
def Sorter.stable (Component : Type*) [LinearOrder Component] : Sorter Component where
  sort coord l := l.mergeSort fun i j => decide (coord i ≤ coord j)
  perm _ _ := List.mergeSort_perm _ _
  sorted coord l := by
    refine (List.pairwise_mergeSort ?_ ?_ l).imp fun h => of_decide_eq_true h
    · intro i j k hij hjk
      exact decide_eq_true ((of_decide_eq_true hij).trans (of_decide_eq_true hjk))
    · intro i j
      simpa using le_total (coord i) (coord j)

/-- The indices follow the coordinates of each axis. -/
def SortedIndices.By (sorted : SortedIndices Dim n) (points : Fin n → Point Dim Component) : Prop :=
  ∀ d, (sorted.axes d).Pairwise fun i j => points i d ≤ points j d

structure SortedPoints (Dim : ℕ) (Component : Type*) [LinearOrder Component] (n : ℕ) where
  points : Fin n → Point Dim Component
  indices : SortedIndices Dim n
  all : ∀ d, (indices.axes d).Perm (List.finRange n)
  sorted : indices.By points

namespace SortedPoints

def empty : SortedPoints Dim Component 0 where
  points i := i.elim0
  indices := .identity Dim 0
  all _ := .refl _
  sorted _ := .nil

/-- Single point. -/
def single (point : Point Dim Component) : SortedPoints Dim Component 1 where
  points _ := point
  indices := .identity Dim 1
  all _ := .refl _
  sorted _ := List.pairwise_singleton _ _

/-- Sort points. -/
def sort (S : Sorter Component) (points : Fin n → Point Dim Component) :
    SortedPoints Dim Component n where
  points := points
  indices :=
    { axes := fun d => S.sort (fun i => points i d) ((SortedIndices.identity Dim n).axes d)
      nodup := fun d => (S.perm _ _).nodup_iff.2 ((SortedIndices.identity Dim n).nodup d)
      perm := fun _ _ => (S.perm _ _).trans (S.perm _ _).symm }
  all _ := S.perm _ _
  sorted _ := S.sorted _ _

section Merge

variable {m : ℕ} (a : SortedPoints Dim Component m) (b : SortedPoints Dim Component n)

def mergedPoints : Fin (m + n) → Point Dim Component :=
  Fin.append a.points b.points

def mergedAxis (d : Fin Dim) : List (Fin (m + n)) :=
  List.merge ((a.indices.axes d).map (Fin.castAdd n)) ((b.indices.axes d).map (Fin.natAdd m))
    fun i j => decide (a.mergedPoints b i d ≤ a.mergedPoints b j d)

theorem mergedAxis_perm (d : Fin Dim) : (a.mergedAxis b d).Perm (List.finRange (m + n)) :=
  (List.merge_perm_append _).trans
    ((((a.all d).map _).append ((b.all d).map _)).trans (finRange_add_perm m n))

theorem mergedAxis_sorted (d : Fin Dim) :
    (a.mergedAxis b d).Pairwise fun i j => a.mergedPoints b i d ≤ a.mergedPoints b j d := by
  have hleft : ((a.indices.axes d).map (Fin.castAdd n)).Pairwise fun i j =>
      decide (a.mergedPoints b i d ≤ a.mergedPoints b j d) = true := by
    refine List.pairwise_map.2 ((a.sorted d).imp fun {i j} h => decide_eq_true ?_)
    simpa [mergedPoints] using h
  have hright : ((b.indices.axes d).map (Fin.natAdd m)).Pairwise fun i j =>
      decide (a.mergedPoints b i d ≤ a.mergedPoints b j d) = true := by
    refine List.pairwise_map.2 ((b.sorted d).imp fun {i j} h => decide_eq_true ?_)
    simpa [mergedPoints] using h
  refine (List.pairwise_merge ?_ ?_ _ _ hleft hright).imp fun h => of_decide_eq_true h
  · intro i j k hij hjk
    exact decide_eq_true ((of_decide_eq_true hij).trans (of_decide_eq_true hjk))
  · intro i j
    simpa using le_total (a.mergedPoints b i d) (a.mergedPoints b j d)

/-- Merge two sets of sorted points. -/
def merge : SortedPoints Dim Component (m + n) where
  points := a.mergedPoints b
  indices :=
    { axes := a.mergedAxis b
      nodup := fun d => (a.mergedAxis_perm b d).nodup_iff.2 (List.nodup_finRange _)
      perm := fun d e => (a.mergedAxis_perm b d).trans (a.mergedAxis_perm b e).symm }
  all := a.mergedAxis_perm b
  sorted := a.mergedAxis_sorted b

end Merge

end SortedPoints

end KdTrees
end AxisEngine
