import AxisEngine.KdTrees.SortedPoints

/-!
# KdTree — a static k-d tree over presorted points (`util/k_d_tree.h`)

Model of `KdTree`: its constructors, `init`, `rangeQuery`, `remove` and `foreach`.

* The arrays have the type that their allocation gives them: `cap` cells.
* `none`: a cell outside the array is written or read, or `cap` is no longer counted by an `Idx`
  (the loops over `Idx` do not end then).
* A range query is the list of its callbacks, in the order in which they are made.
-/

namespace AxisEngine
namespace KdTrees

variable {Dim n : ℕ} [NeZero Dim] {Component Id : Type*} [LinearOrder Component]

/-! ## Building the tree -/

/-- The two arrays that `init` writes: `tree`, and the marks kept in `deleted` meanwhile. -/
structure Build (n : ℕ) where
  tree : Fin n → Fin n
  markers : Markers n

def init (root : ℕ) (axis : Fin Dim) (sorted : SortedIndices Dim n) (arrays : Build n) :
    Option (Build n) :=
  if h : 0 < sorted.size ∧ root < n then
    let split := sorted.split axis h.1 arrays.markers
    let arrays : Build n := ⟨Function.update arrays.tree ⟨root, h.2⟩ split.1.pivot, split.2⟩
    (if 0 < split.1.left.size then
        init (idx (2 * root + 1)) (axis + 1) split.1.left arrays
      else some arrays).bind fun arrays =>
    if 0 < split.1.right.size then
      init (idx (2 * root + 2)) (axis + 1) split.1.right arrays
    else some arrays
  else none
termination_by sorted.size
decreasing_by
  · exact SortedIndices.size_left_lt
  · exact SortedIndices.size_right_lt

/-- The arrays of a new tree of `n` points: zeros and unset marks, then `init(0, 0, items.indices)`. -/
def buildArrays (indices : SortedIndices Dim n) : Option (Build n) :=
  if h : 0 < n ∧ n < 2 ^ 16 then init 0 0 indices ⟨fun _ => ⟨0, h.1⟩, .clear n⟩ else none

/-! ## KdTree -/

structure KdTree (Dim : ℕ) (Component Id : Type*) [LinearOrder Component] where
  cap : ℕ
  items : SortedPoints Dim Component cap
  ids : Fin cap → Id
  tree : Fin cap → Fin cap
  deleted : Fin cap → Bool

namespace KdTree

/-- Empty tree. -/
def empty : KdTree Dim Component Id where
  cap := 0
  items := .empty
  ids i := i.elim0
  tree i := i
  deleted _ := false

/-- Build a tree containing just a single point. -/
def single (point : Point Dim Component) (id : Id) : KdTree Dim Component Id where
  cap := 1
  items := .single point
  ids _ := id
  tree _ := 0
  deleted _ := false

/-- Build a tree. -/
def build (S : Sorter Component) (ids : Fin n → Id) (points : Fin n → Point Dim Component) :
    Option (KdTree Dim Component Id) :=
  let items := SortedPoints.sort S points
  (buildArrays items.indices).map fun arrays =>
    { cap := n, items := items, ids := ids, tree := arrays.tree, deleted := arrays.markers.1 }

/-- Merge two trees. -/
def merge (a b : KdTree Dim Component Id) : Option (KdTree Dim Component Id) :=
  let items := a.items.merge b.items
  (buildArrays items.indices).map fun arrays =>
    { cap := a.cap + b.cap, items := items, ids := Fin.append a.ids b.ids, tree := arrays.tree
      deleted := Fin.append a.deleted b.deleted }

variable (t : KdTree Dim Component Id)

/-- The end of `rangeQuery` at a node: the callback for its own point, if there is one. -/
def report (ptid : Fin t.cap) (min max : Point Dim Component) : List (Point Dim Component × Id) :=
  let point := t.items.points ptid
  if t.deleted ptid then []
  else if ∃ d, point d < min d ∨ max d < point d then []
  else [(point, t.ids ptid)]

def rangeQueryFrom (root : ℕ) (split : Fin Dim) (min max : Point Dim Component) :
    List (Point Dim Component × Id) :=
  if h : root < t.cap then
    let ptid := t.tree ⟨root, h⟩
    let coord := t.items.points ptid split
    if coord < min split then
      rangeQueryFrom (2 * root + 2) (split + 1) min max
    else if max split < coord then
      rangeQueryFrom (2 * root + 1) (split + 1) min max
    else
      rangeQueryFrom (2 * root + 2) (split + 1) min max ++
        rangeQueryFrom (2 * root + 1) (split + 1) min max ++ t.report ptid min max
  else []
termination_by t.cap - root

def rangeQuery (min max : Point Dim Component) : List (Point Dim Component × Id) :=
  t.rangeQueryFrom 0 0 min max

/-- The indices that `foreach` calls back for. -/
def foreach : List (Fin t.cap) :=
  (List.finRange t.cap).filter fun i => !t.deleted i

/-- The point and the id that `foreach` passes along with an index. -/
def entry (i : Fin t.cap) : Point Dim Component × Id :=
  (t.items.points i, t.ids i)

def live : List (Point Dim Component × Id) :=
  t.foreach.map t.entry

/-- `remove`, with its assertion that the point is not deleted yet. -/
def remove (internalIdx : ℕ) : Option (KdTree Dim Component Id) :=
  if h : internalIdx < t.cap then
    if t.deleted ⟨internalIdx, h⟩ then none
    else some { t with deleted := Function.update t.deleted ⟨internalIdx, h⟩ true }
  else none

end KdTree

end KdTrees
end AxisEngine
