import AxisEngine.KdTrees.KdTree

/-!
# DynamicKdTrees — a forest of k-d trees, and what it is meant to hold (`util/k_d_tree.h`)

Model of `DynamicKdTrees`. `none` is an assertion that fails, `trees.at` out of range, or one of the
failures of a tree; the `uint8_t` that counts trees never comes near its end, since a merge fails
for more points than an `Idx` counts.

* `DynamicKdTrees.run`: the forest after a sequence of operations.
* `liveAfter`: the live ids after it with their last positions, which is what the forest stands for.
* `Permitted`: inserted ids are not live, removed and updated ones are, and there are never too
  many of them.
-/

namespace AxisEngine
namespace KdTrees

structure DelEntry where
  treeIdx : ℕ
  inTree : ℕ
deriving DecidableEq

abbrev DelEntries (Id : Type*) := Id → Option DelEntry

structure DynamicKdTrees (Dim : ℕ) (Component Id : Type*) [LinearOrder Component] where
  trees : List (KdTree Dim Component Id)
  delEntries : DelEntries Id
  nEntries : ℕ
  deleted : ℕ

variable {Dim n : ℕ} [NeZero Dim] {Component Id : Type*} [LinearOrder Component] [DecidableEq Id]

namespace DynamicKdTrees

/-- A forest before the first insertion. -/
def empty : DynamicKdTrees Dim Component Id := ⟨[], fun _ => none, 0, 0⟩

def updateDelEntries (treeIdx : ℕ) (t : KdTree Dim Component Id) (entries : DelEntries Id) :
    DelEntries Id :=
  t.foreach.foldl (fun entries i => Function.update entries (t.ids i) (some ⟨treeIdx, i⟩)) entries

/-! ## insert -/

/-- The loop of `insert` from the tree at `treeIdx` on. -/
def plant (tree : KdTree Dim Component Id) (entries : DelEntries Id) (treeIdx : ℕ) :
    List (KdTree Dim Component Id) → Option (List (KdTree Dim Component Id) × DelEntries Id)
  | [] => some ([tree], updateDelEntries treeIdx tree entries)
  | t :: ts =>
    if t.cap = 0 then some (tree :: ts, updateDelEntries treeIdx tree entries)
    else (tree.merge t).bind fun tree =>
      (plant tree entries (treeIdx + 1) ts).map fun planted => (.empty :: planted.1, planted.2)

variable (s : DynamicKdTrees Dim Component Id)

def insert (point : Point Dim Component) (id : Id) : Option (DynamicKdTrees Dim Component Id) :=
  (plant (.single point id) s.delEntries 0 s.trees).map fun planted =>
    ⟨planted.1, planted.2, s.nEntries + 1, s.deleted⟩

/-! ## remove -/

/-- `Tree(n, id_ptr, point_ptrs)`, after which the pointers move on by `n`. -/
def chunk (S : Sorter Component) (n : ℕ) (live : List (Point Dim Component × Id)) :
    Option (KdTree Dim Component Id × List (Point Dim Component × Id)) :=
  if h : n ≤ live.length then
    (KdTree.build S (fun i : Fin n => (live.get (i.castLE h)).2)
      fun i => (live.get (i.castLE h)).1).map fun tree => (tree, live.drop n)
  else none

/-- The loop that constructs the new forest: `n` is the size of the tree at `treeIdx`, and the list
holds the old trees from `trees[treeIdx + 1]` on. -/
def refill (S : Sorter Component) (live : List (Point Dim Component × Id)) (n treeIdx : ℕ)
    (entries : DelEntries Id) :
    List (KdTree Dim Component Id) → Option (List (KdTree Dim Component Id) × DelEntries Id)
  | [] => some ([], entries)
  | t :: ts =>
    (if 0 < t.cap then chunk S n live else some (.empty, live)).bind fun next =>
      (refill S next.2 (2 * n) (treeIdx + 1) (updateDelEntries treeIdx next.1 entries) ts).map
        fun filled => (next.1 :: filled.1, filled.2)

variable (S : Sorter Component) (s : DynamicKdTrees Dim Component Id)

/-- `shrink_to_half`. There is a tree whenever it is called, so that `trees.size() - 1` is the
length of the tail. -/
def shrinkToHalf : Option (DynamicKdTrees Dim Component Id) :=
  if s.deleted ≤ s.nEntries ∧ s.nEntries - s.deleted = s.nEntries / 2 then
    let live := s.trees.flatMap KdTree.live
    if live.length = s.nEntries - s.deleted then
      (refill S live 1 0 (fun _ => none) s.trees.tail).map fun filled =>
        ⟨filled.1, filled.2, s.nEntries - s.deleted, 0⟩
    else none
  else none

def remove (id : Id) : Option (DynamicKdTrees Dim Component Id) :=
  (s.delEntries id).bind fun it =>
    (s.trees[it.treeIdx]?).bind fun tree =>
      (tree.remove it.inTree).bind fun tree =>
        let s : DynamicKdTrees Dim Component Id :=
          ⟨s.trees.set it.treeIdx tree, Function.update s.delEntries id none, s.nEntries,
            s.deleted + 1⟩
        if (s.nEntries + 1) / 2 ≤ s.deleted then s.shrinkToHalf S else some s

/-- The point is marked in its tree, and its entry is gone. -/
def unlist (id : Id) : Option (DynamicKdTrees Dim Component Id) :=
  (s.delEntries id).bind fun it =>
    (s.trees[it.treeIdx]?).bind fun tree =>
      (tree.remove it.inTree).map fun tree =>
        ⟨s.trees.set it.treeIdx tree, Function.update s.delEntries id none, s.nEntries,
          s.deleted + 1⟩

theorem remove_eq (S : Sorter Component) (s : DynamicKdTrees Dim Component Id) (id : Id) :
    s.remove S id = (s.unlist id).bind fun s =>
      if (s.nEntries + 1) / 2 ≤ s.deleted then s.shrinkToHalf S else some s := by
  rw [remove, unlist]
  cases s.delEntries id with
  | none => rfl
  | some it =>
    rw [Option.bind_some, Option.bind_some]
    cases s.trees[it.treeIdx]? with
    | none => rfl
    | some tree =>
      rw [Option.bind_some, Option.bind_some]
      cases tree.remove it.inTree with
      | none => rfl
      | some tree => rfl

def update (newPos : Point Dim Component) (id : Id) : Option (DynamicKdTrees Dim Component Id) :=
  (s.remove S id).bind fun s => s.insert newPos id

/-! ## Queries -/

def rangeQuery (min max : Point Dim Component) : List (Point Dim Component × Id) :=
  s.trees.flatMap fun tree => tree.rangeQuery min max

def size : ℕ := s.nEntries - s.deleted

end DynamicKdTrees

/-! ## Sequences of operations -/

inductive Op (Dim : ℕ) (Component Id : Type*) where
  | insert (point : Point Dim Component) (id : Id)
  | remove (id : Id)
  | update (newPos : Point Dim Component) (id : Id)

def DynamicKdTrees.step (S : Sorter Component) (s : DynamicKdTrees Dim Component Id) :
    Op Dim Component Id → Option (DynamicKdTrees Dim Component Id)
  | .insert point id => s.insert point id
  | .remove id => s.remove S id
  | .update newPos id => s.update S newPos id

def DynamicKdTrees.run (S : Sorter Component) (ops : List (Op Dim Component Id)) :
    Option (DynamicKdTrees Dim Component Id) :=
  ops.foldlM (DynamicKdTrees.step S) .empty

/-- The live ids with their last positions after an operation. -/
def liveStep (live : List (Point Dim Component × Id)) :
    Op Dim Component Id → List (Point Dim Component × Id)
  | .insert point id => (point, id) :: live
  | .remove id => live.filter fun e => decide (e.2 ≠ id)
  | .update newPos id => (newPos, id) :: live.filter fun e => decide (e.2 ≠ id)

def liveAfter (ops : List (Op Dim Component Id)) : List (Point Dim Component × Id) :=
  ops.foldl liveStep []

def Op.Permitted (live : List (Point Dim Component × Id)) : Op Dim Component Id → Prop
  | .insert _ id => id ∉ live.map Prod.snd
  | .remove id => id ∈ live.map Prod.snd
  | .update _ id => id ∈ live.map Prod.snd

instance (live : List (Point Dim Component × Id)) :
    (op : Op Dim Component Id) → Decidable (op.Permitted live)
  | .insert _ id => inferInstanceAs (Decidable (id ∉ live.map Prod.snd))
  | .remove id => inferInstanceAs (Decidable (id ∈ live.map Prod.snd))
  | .update _ id => inferInstanceAs (Decidable (id ∈ live.map Prod.snd))

/-- Each operation is permitted where it is made, with fewer than 32768 live ids after it. -/
def Permitted (live : List (Point Dim Component × Id)) : List (Op Dim Component Id) → Prop
  | [] => True
  | op :: ops =>
    op.Permitted live ∧ (liveStep live op).length < 32768 ∧ Permitted (liveStep live op) ops

instance decidablePermitted : (live : List (Point Dim Component × Id)) →
    (ops : List (Op Dim Component Id)) → Decidable (Permitted live ops)
  | _, [] => .isTrue trivial
  | live, op :: ops =>
    have := decidablePermitted (liveStep live op) ops
    inferInstanceAs (Decidable (op.Permitted live ∧ (liveStep live op).length < 32768 ∧
      Permitted (liveStep live op) ops))

end KdTrees
end AxisEngine
