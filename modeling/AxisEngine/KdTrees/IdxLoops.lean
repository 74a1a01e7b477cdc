import AxisEngine.KdTrees.DynamicKdTrees
import Mathlib.Data.UInt

/-!
# IdxLoops — the loops over `Idx`, and what is stored as `Idx` (`util/k_d_tree.h`)

Sizes are of type `size_t` and indices of type `Idx`, which has 16 bits.  Here the operations on the
forest say what goes wrong with that: a loop whose counter never reaches its bound, or a number that
an `Idx` does not keep.

* `idxFor`, `loopIdx` — a loop whose counter is an `Idx`, and whether it ends;
* `narrow` — a number is stored as `Idx`;
* `initIn`, `buildIn`, `mergeIn` — the trees;
* `insertIn`, `removeIn`, `updateIn`, `runIn` — the forest.
-/

namespace AxisEngine
namespace KdTrees

/-- `failed`: an assertion, or a cell outside of an array. -/
inductive Trouble
  | endless
  | truncated
  | failed
deriving DecidableEq

/-! ## Loops and indices -/

section

variable {α : Type*}

/-- `for (Idx i = 0; i < n; ++i)`, from `i` on, for as many tests as there is fuel. -/
def idxFor (n : ℕ) (body : UInt16 → α → α) : ℕ → UInt16 → α → Option α
  | 0, _, _ => none
  | fuel + 1, i, a => if i.toNat < n then idxFor n body fuel (i + 1) (body i a) else some a

end

/-- A loop over `Idx` up to `n`. -/
def loopIdx (n : ℕ) : Except Trouble Unit :=
  if n < 2 ^ 16 then return () else throw .endless

/-- A number is stored as `Idx`. -/
def narrow (i : ℕ) : Except Trouble Unit :=
  if idx i = i then return () else throw .truncated

variable {Dim n : ℕ} [NeZero Dim] {Component Id : Type} [LinearOrder Component]

/-! ## Trees -/

/-- `left_n`, and the two arrays of a split, which are filled with all their indices first. -/
def splitIn (size : ℕ) : Except Trouble Unit := do
  narrow (size / 2)
  loopIdx (idx (size / 2))
  loopIdx (size - idx (size / 2) - 1)

def initIn (root : ℕ) (axis : Fin Dim) (sorted : SortedIndices Dim n) (arrays : Build n) :
    Except Trouble (Build n) :=
  if h : 0 < sorted.size ∧ root < n then
    let split := sorted.split axis h.1 arrays.markers
    let arrays : Build n := ⟨Function.update arrays.tree ⟨root, h.2⟩ split.1.pivot, split.2⟩
    splitIn sorted.size >>= fun _ =>
    (if 0 < split.1.left.size then
        narrow (2 * root + 1) >>= fun _ =>
          initIn (idx (2 * root + 1)) (axis + 1) split.1.left arrays
      else .ok arrays) >>= fun arrays =>
    if 0 < split.1.right.size then
      narrow (2 * root + 2) >>= fun _ =>
        initIn (idx (2 * root + 2)) (axis + 1) split.1.right arrays
    else .ok arrays
  else .error .failed
termination_by sorted.size
decreasing_by
  · exact SortedIndices.size_left_lt
  · exact SortedIndices.size_right_lt

def buildArraysIn (indices : SortedIndices Dim n) : Except Trouble (Build n) :=
  if h : 0 < n then initIn 0 0 indices ⟨fun _ => ⟨0, h⟩, .clear n⟩ else .error .failed

namespace KdTree

/-- `SortedIndices(n)` fills the arrays that are sorted then. -/
def buildIn (S : Sorter Component) (ids : Fin n → Id) (points : Fin n → Point Dim Component) :
    Except Trouble (KdTree Dim Component Id) := do
  loopIdx n
  let items := SortedPoints.sort S points
  let arrays ← buildArraysIn items.indices
  return { cap := n, items := items, ids := ids, tree := arrays.tree, deleted := arrays.markers.1 }

/-- The points of the second tree are put behind those of the first, and so are its indices. -/
def shiftIn (a b : KdTree Dim Component Id) : Except Trouble Unit :=
  (List.finRange Dim).forM fun d => do
    narrow a.cap
    (b.items.indices.axes d).forM fun j => narrow (j.val + a.cap)

def mergeIn (a b : KdTree Dim Component Id) : Except Trouble (KdTree Dim Component Id) := do
  shiftIn a b
  let items := a.items.merge b.items
  let arrays ← buildArraysIn items.indices
  return { cap := a.cap + b.cap, items := items, ids := Fin.append a.ids b.ids
           tree := arrays.tree, deleted := Fin.append a.deleted b.deleted }

/-- What `foreach` calls back for, if it ends. -/
def foreachIn (t : KdTree Dim Component Id) : Except Trouble (List (Fin t.cap)) := do
  loopIdx t.cap
  return t.foreach

end KdTree

variable [DecidableEq Id]

namespace DynamicKdTrees

def updateDelEntriesIn (treeIdx : ℕ) (t : KdTree Dim Component Id) (entries : DelEntries Id) :
    Except Trouble (DelEntries Id) := do
  let indices ← t.foreachIn
  return indices.foldl (fun entries i => Function.update entries (t.ids i) (some ⟨treeIdx, i⟩)) entries

/-! ## insert -/

def plantIn (tree : KdTree Dim Component Id) (entries : DelEntries Id) (treeIdx : ℕ) :
    List (KdTree Dim Component Id) → Except Trouble (List (KdTree Dim Component Id) × DelEntries Id)
  | [] => do
      let entries ← updateDelEntriesIn treeIdx tree entries
      return ([tree], entries)
  | t :: ts =>
    if t.cap = 0 then do
      let entries ← updateDelEntriesIn treeIdx tree entries
      return (tree :: ts, entries)
    else do
      let tree ← tree.mergeIn t
      let planted ← plantIn tree entries (treeIdx + 1) ts
      return (.empty :: planted.1, planted.2)

def insertIn (s : DynamicKdTrees Dim Component Id) (point : Point Dim Component) (id : Id) :
    Except Trouble (DynamicKdTrees Dim Component Id) := do
  loopIdx 1
  let planted ← plantIn (.single point id) s.delEntries 0 s.trees
  return ⟨planted.1, planted.2, s.nEntries + 1, s.deleted⟩

/-! ## remove -/

def chunkIn (S : Sorter Component) (n : ℕ) (live : List (Point Dim Component × Id)) :
    Except Trouble (KdTree Dim Component Id × List (Point Dim Component × Id)) :=
  if h : n ≤ live.length then do
    let tree ← KdTree.buildIn S (fun i : Fin n => (live.get (i.castLE h)).2)
      fun i => (live.get (i.castLE h)).1
    return (tree, live.drop n)
  else .error .failed

/-- The new tree at a place, which depends on the old tree at the place behind it. -/
def nextIn (S : Sorter Component) (n : ℕ) (live : List (Point Dim Component × Id))
    (t : KdTree Dim Component Id) :
    Except Trouble (KdTree Dim Component Id × List (Point Dim Component × Id)) :=
  if 0 < t.cap then chunkIn S n live else return (.empty, live)

def refillIn (S : Sorter Component) (live : List (Point Dim Component × Id)) (n treeIdx : ℕ)
    (entries : DelEntries Id) : List (KdTree Dim Component Id) →
      Except Trouble (List (KdTree Dim Component Id) × DelEntries Id)
  | [] => return ([], entries)
  | t :: ts => do
      let next ← nextIn S n live t
      let entries ← updateDelEntriesIn treeIdx next.1 entries
      let filled ← refillIn S next.2 (2 * n) (treeIdx + 1) entries ts
      return (next.1 :: filled.1, filled.2)

/-- All live points, each of them stored under the next index. -/
def collectIn (trees : List (KdTree Dim Component Id)) :
    Except Trouble (List (Point Dim Component × Id)) := do
  trees.forM fun t => loopIdx t.cap
  let live := trees.flatMap KdTree.live
  (List.range live.length).forM narrow
  return live

variable (S : Sorter Component) (s : DynamicKdTrees Dim Component Id)

def shrinkToHalfIn : Except Trouble (DynamicKdTrees Dim Component Id) :=
  if s.deleted ≤ s.nEntries ∧ s.nEntries - s.deleted = s.nEntries / 2 then do
    let live ← collectIn s.trees
    if live.length = s.nEntries - s.deleted then
      let filled ← refillIn S live 1 0 (fun _ => none) s.trees.tail
      return ⟨filled.1, filled.2, s.nEntries - s.deleted, 0⟩
    else .error .failed
  else .error .failed

def removeIn (id : Id) : Except Trouble (DynamicKdTrees Dim Component Id) :=
  match s.unlist id with
  | none => .error .failed
  | some s => if (s.nEntries + 1) / 2 ≤ s.deleted then s.shrinkToHalfIn S else return s

def updateIn (newPos : Point Dim Component) (id : Id) : Except Trouble (DynamicKdTrees Dim Component Id) := do
  let s ← s.removeIn S id
  s.insertIn newPos id

/-! ## Sequences of operations -/

def stepIn : Op Dim Component Id → Except Trouble (DynamicKdTrees Dim Component Id)
  | .insert point id => s.insertIn point id
  | .remove id => s.removeIn S id
  | .update newPos id => s.updateIn S newPos id

def runIn (S : Sorter Component) (ops : List (Op Dim Component Id)) :
    Except Trouble (DynamicKdTrees Dim Component Id) :=
  ops.foldlM (stepIn S) .empty

end DynamicKdTrees

end KdTrees
end AxisEngine
