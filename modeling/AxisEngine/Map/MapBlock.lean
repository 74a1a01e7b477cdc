import AxisEngine.Map.BlockLists
import AxisEngine.Map.MapNode
import AxisEngine.Map.NodeDefManager
import AxisEngine.Map.NodeMetadata

/-!
# MapBlock — a block of the map on the server

`mapblock.h`, `mapblock.cpp`.  A block that is the same node everywhere may store only that node.
Whether a block is all air is cached; the cache is filled when somebody asks, and whoever writes nodes
has to say that it is out of date.

* `BlockData` — the nodes, one or all of them;
* `MapBlock` — the block;
* `setNodeNoCheck`, `tryShrinkNodes`, `copyFrom` — writing nodes;
* `isAir`, `expireIsAirCache` — the cache;
* `refGrab`, `refDrop` — the count of those that need the block.
-/

namespace AxisEngine
namespace Map

open Lib

/-- `data`; a mono block has a single node. -/
inductive BlockData where
  | mono (n : MapNode)
  | full (nodes : Nodes)

namespace BlockData

def get : BlockData → Fin nodecount → MapNode
  | mono n, _ => n
  | full nodes, i => nodes.get i

/-- `expandNodesIfNeeded`. -/
def expand : BlockData → Nodes
  | mono n => Nodes.fill n
  | full nodes => nodes

/-- The nodes that are stored. -/
def stored : BlockData → List MapNode
  | mono n => [n]
  | full nodes => nodes.list

def isMono : BlockData → Bool
  | mono _ => true
  | full _ => false

/-- Every node that is stored is air. -/
def onlyAir (d : BlockData) : Bool :=
  d.stored.all fun n => n.getContent == contentAir

end BlockData

/-- `BLOCK_TIMESTAMP_UNDEFINED`. -/
def blockTimestampUndefined : UInt32 := 0xffffffff

structure MapBlock where
  data : BlockData := .full (.fill { param0 := contentIgnore })
  mIsAir : Bool := false
  mIsAirExpired : Bool := true
  isUnderground : Bool := false
  lightingComplete : UInt16 := 0xffff
  generated : Bool := false
  timestamp : UInt32 := blockTimestampUndefined
  diskTimestamp : UInt32 := blockTimestampUndefined
  nodeMetadata : NodeMetadataList := .empty
  staticObjects : StaticObjectList := {}
  nodeTimers : NodeTimerList := .empty
  refcount : Nat := 0

namespace MapBlock

variable (b : MapBlock)

def get (i : Fin nodecount) : MapNode := b.data.get i

/-! ## Writing nodes -/

/-- The cache stays as it is. -/
def setNodeNoCheck (i : Fin nodecount) (n : MapNode) : MapBlock :=
  { b with data := .full (b.data.expand.set i n) }

/-- A block of equal nodes keeps one of them, and is or is not air from then on. -/
def tryShrinkNodes : MapBlock :=
  match b.data with
  | .mono _ => b
  | .full nodes =>
    let n := nodes.list.headD default
    if nodes.list.all fun n' => n' = n then
      { b with
        data := .mono n
        mIsAir := n.getContent == contentAir
        mIsAirExpired := false }
    else b

/-- The nodes come from a voxel manipulator. -/
def copyFrom (nodes : Nodes) : MapBlock :=
  { b with data := .full nodes }.tryShrinkNodes

/-! ## The cache -/

def actuallyUpdateIsAir : MapBlock :=
  { b with
    mIsAir := b.data.onlyAir
    mIsAirExpired := false }

def expireIsAirCache : MapBlock :=
  { b with mIsAirExpired := true }

/-- The answer, and the block with its cache. -/
def isAir : Bool × MapBlock :=
  let b := if b.mIsAirExpired then b.actuallyUpdateIsAir else b
  (b.mIsAir, b)

/-! ## References -/

/-- `SHRT_MAX`. -/
def shrtMax : Nat := 32767

/-- `none` is a failed assertion. -/
def refGrab : Option MapBlock :=
  if b.refcount < shrtMax then some { b with refcount := b.refcount + 1 } else none

/-- `none` is a failed assertion. -/
def refDrop : Option MapBlock :=
  if 0 < b.refcount then some { b with refcount := b.refcount - 1 } else none

/-! ## What the nodes are -/

section

variable {b : MapBlock} {nodes : Nodes} {n : MapNode} {i j : Fin nodecount}

theorem nodecount_pos : 0 < nodecount := by
  rw [nodecount_eq]
  decide

theorem BlockData.mem_stored {d : BlockData} : n ∈ d.stored ↔ ∃ i, d.get i = n := by
  cases d with
  | mono m =>
    rw [BlockData.stored, List.mem_singleton]
    exact ⟨fun h => ⟨⟨0, nodecount_pos⟩, h.symm⟩, fun ⟨_, h⟩ => h.symm⟩
  | full nodes =>
    constructor
    · exact Nodes.exists_get
    · rintro ⟨i, rfl⟩
      exact nodes.get_mem i

@[simp] theorem get_expand (d : BlockData) : d.expand.get i = d.get i := by
  cases d with
  | mono n => exact Nodes.get_fill n i
  | full nodes => rfl

theorem get_setNodeNoCheck : (b.setNodeNoCheck i n).get j = if i = j then n else b.get j := by
  rw [get, setNodeNoCheck, BlockData.get, Nodes.get_set, get_expand]
  rfl

theorem onlyAir_iff {d : BlockData} :
    d.onlyAir = true ↔ ∀ i, (d.get i).getContent = contentAir := by
  rw [BlockData.onlyAir, List.all_eq_true]
  constructor
  · intro h i
    exact beq_iff_eq.1 (h _ (BlockData.mem_stored.2 ⟨i, rfl⟩))
  · intro h n hn
    rcases BlockData.mem_stored.1 hn with ⟨i, rfl⟩
    exact beq_iff_eq.2 (h i)

theorem nodes_list_ne_nil (nodes : Nodes) : nodes.list ≠ [] := by
  intro hnil
  have hlength := nodes.length_eq
  rw [hnil] at hlength
  exact nodecount_pos.ne hlength

theorem get_tryShrinkNodes (b : MapBlock) (i : Fin nodecount) : b.tryShrinkNodes.get i = b.get i := by
  rw [tryShrinkNodes]
  cases hdata : b.data with
  | mono n => rfl
  | full nodes =>
    dsimp only
    split
    · rename_i hall
      have hsame := List.all_eq_true.1 hall _ (nodes.get_mem i)
      rw [decide_eq_true_eq] at hsame
      rw [get, get, hdata]
      exact hsame.symm
    · rfl

end

end MapBlock

end Map
end AxisEngine
