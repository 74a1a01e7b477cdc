import AxisEngine.Map.BlockFormat
import AxisEngine.Voxel.VoxelManipulator

/-!
# MonoBlock — a block does not show how it is stored

A block of equal nodes may store only one of them (`mapblock.h`, `mapblock.cpp`).  Whatever is done
to it, the nodes that come out are those of a block that stores them all.

* `MapBlock.step` — the operations on the nodes of a block;
* `FullBlock.step` — the same operations on an array of 4096 nodes;
* `outputs_eq` — nobody can tell the two apart.
-/

namespace AxisEngine
namespace Map

open Lib Util Voxel MapBlock

/-! ## Positions in a block -/

namespace MapBlock

def isValidPosition (p : V3s16) : Bool :=
  p.x ≥ 0 && p.x < 16 && p.y ≥ 0 && p.y < 16 && p.z ≥ 0 && p.z < 16

theorem strideIndex_lt {p : V3s16} (h : isValidPosition p = true) :
    (p.z.toInt * 256 + p.y.toInt * 16 + p.x.toInt).toNat < nodecount := by
  have hzero : (0 : Int16).toInt = 0 := rfl
  have hsize : (16 : Int16).toInt = 16 := rfl
  simp only [isValidPosition, Bool.and_eq_true, decide_eq_true_eq, ge_iff_le,
    Int16.le_iff_toInt_le, Int16.lt_iff_toInt_lt, hzero, hsize] at h
  rw [nodecount_eq]
  omega

/-- `z * zstride + y * ystride + x`. -/
def strideIndex (p : V3s16) (h : isValidPosition p = true) : Fin nodecount :=
  ⟨(p.z.toInt * 256 + p.y.toInt * 16 + p.x.toInt).toNat, strideIndex_lt h⟩

end MapBlock

/-- `pos * MAP_BLOCKSIZE`. -/
def posRelative (pos : V3s16) : V3s16 :=
  ⟨pos.x * 16, pos.y * 16, pos.z * 16⟩

def dataSize : V3s16 := ⟨16, 16, 16⟩

def dataArea : VoxelArea := ⟨⟨0, 0, 0⟩, ⟨15, 15, 15⟩, by decide⟩

/-! ## Arrays of nodes -/

/-- The array; there is nothing behind its end. -/
def Nodes.cells (nodes : Nodes) : ℕ → MapNode :=
  fun i => nodes.list.getD i default

def Nodes.ofCells (cells : ℕ → MapNode) : Nodes :=
  ⟨(List.range nodecount).map cells, (List.length_map ..).trans List.length_range⟩

def Nodes.map (f : MapNode → MapNode) (nodes : Nodes) : Nodes :=
  ⟨nodes.list.map f, (List.length_map ..).trans nodes.length_eq⟩

/-- `data`; that of a mono block is an array of one node. -/
def BlockData.cells (d : BlockData) : ℕ → MapNode :=
  fun i => d.stored.getD i default

/-! ## The operations -/

inductive BlockOp
  | getNode (p : V3s16)
  | setNode (p : V3s16) (n : MapNode)
  | setNodeNoCheck (p : V3s16) (h : isValidPosition p = true) (n : MapNode)
  | copyTo (dst : VoxelManipulator)
  | copyFrom (src : VoxelManipulator)
  | remapContentIds (mapping : List UInt16)
  | serialize (disk : Bool)

/-- What comes out of a block. -/
inductive BlockOutput
  | done
  | invalidPosition
  | node (n : MapNode) (validPosition : Bool)
  | copied (dst : VoxelManipulator)
  /-- The table of names, if it goes to the disk, and the bulk data. -/
  | bulk (written : Except String (Option NameIdMapping × Bytes))

/-- A node with its content out of the mapping. -/
def remapNode (mapping : List UInt16) (n : MapNode) : MapNode :=
  n.setContent (mapping.getD n.getContent.toNat contentUnknown)

/-- The nodes of `MapBlock::serialize`. -/
def writeNodes (nodedef : NodeDefManager) (data : List MapNode) (isMonoBlock disk : Bool) :
    Except String (Option NameIdMapping × Bytes) :=
  if disk then do
    let ids ← getBlockNodeIdMapping nodedef data
    return (some ids.1, serializeBulk ids.2 isMonoBlock)
  else return (none, serializeBulk data isMonoBlock)

namespace MapBlock

/-- Blocks of a client are not shrunk. -/
def shrink (isClient : Bool) (b : MapBlock) : MapBlock :=
  if isClient then b else b.tryShrinkNodes

/-- The block at `pos` after an operation, and what comes out. -/
def step (isClient : Bool) (nodedef : NodeDefManager) (pos : V3s16) (b : MapBlock) :
    BlockOp → MapBlock × BlockOutput
  | .getNode p =>
    if h : isValidPosition p = true then (b, .node (b.get (strideIndex p h)) true)
    else (b, .node { param0 := contentIgnore } false)
  | .setNode p n =>
    if h : isValidPosition p = true then (b.setNodeNoCheck (strideIndex p h) n, .done)
    else (b, .invalidPosition)
  | .setNodeNoCheck p h n => (b.setNodeNoCheck (strideIndex p h) n, .done)
  | .copyTo dst =>
    (b, .copied (dst.copyFrom b.data.cells b.data.isMono dataArea ⟨0, 0, 0⟩ (posRelative pos)
      dataSize))
  | .copyFrom src =>
    let nodes := Nodes.ofCells (src.copyTo b.data.expand.cells dataArea ⟨0, 0, 0⟩
      (posRelative pos) dataSize)
    ({ b with data := .full nodes }.shrink isClient, .done)
  | .remapContentIds mapping =>
    let data :=
      match b.data with
      | .mono n => BlockData.mono (remapNode mapping n)
      | .full nodes => .full (nodes.map (remapNode mapping))
    ({ b with data }, .done)
  | .serialize disk => (b, .bulk (writeNodes nodedef b.data.stored b.data.isMono disk))

def outputs (isClient : Bool) (nodedef : NodeDefManager) (pos : V3s16) :
    MapBlock → List BlockOp → List BlockOutput
  | _, [] => []
  | b, op :: ops =>
    (b.step isClient nodedef pos op).2 ::
      outputs isClient nodedef pos (b.step isClient nodedef pos op).1 ops

end MapBlock

namespace FullBlock

/-- The same for a block that always has all its nodes. -/
def step (nodedef : NodeDefManager) (pos : V3s16) (nodes : Nodes) : BlockOp → Nodes × BlockOutput
  | .getNode p =>
    if h : isValidPosition p = true then (nodes, .node (nodes.get (strideIndex p h)) true)
    else (nodes, .node { param0 := contentIgnore } false)
  | .setNode p n =>
    if h : isValidPosition p = true then (nodes.set (strideIndex p h) n, .done)
    else (nodes, .invalidPosition)
  | .setNodeNoCheck p h n => (nodes.set (strideIndex p h) n, .done)
  | .copyTo dst =>
    (nodes, .copied (dst.copyFrom nodes.cells false dataArea ⟨0, 0, 0⟩ (posRelative pos)
      dataSize))
  | .copyFrom src =>
    (Nodes.ofCells (src.copyTo nodes.cells dataArea ⟨0, 0, 0⟩ (posRelative pos) dataSize), .done)
  | .remapContentIds mapping => (nodes.map (remapNode mapping), .done)
  | .serialize disk => (nodes, .bulk (writeNodes nodedef nodes.list false disk))

def outputs (nodedef : NodeDefManager) (pos : V3s16) : Nodes → List BlockOp → List BlockOutput
  | _, [] => []
  | nodes, op :: ops =>
    (step nodedef pos nodes op).2 :: outputs nodedef pos (step nodedef pos nodes op).1 ops

end FullBlock

section

variable {isClient : Bool} {nodedef : NodeDefManager} {pos : V3s16} {b : MapBlock} {d : BlockData}
variable {n n' : MapNode} {nodes : Nodes} {i : ℕ}

/-! ## One node and all of them -/

theorem Nodes.eq_fill (h : ∀ n' ∈ nodes.list, n' = n) : nodes = Nodes.fill n :=
  Nodes.ext (List.eq_replicate_iff.2 ⟨nodes.length_eq, h⟩)

@[simp] theorem Nodes.map_fill (f : MapNode → MapNode) : (Nodes.fill n).map f = Nodes.fill (f n) :=
  Nodes.ext List.map_replicate

theorem Nodes.cells_fill (hi : i < nodecount) : (Nodes.fill n).cells i = n := by
  rw [Nodes.cells, Nodes.fill, List.getD_eq_getElem _ _ (by rwa [List.length_replicate]),
    List.getElem_replicate]

theorem expand_shrink (isClient : Bool) (b : MapBlock) :
    (b.shrink isClient).data.expand = b.data.expand := by
  rw [shrink]
  split
  · rfl
  · rw [tryShrinkNodes]
    cases hdata : b.data with
    | mono n => simp only [hdata]
    | full nodes =>
      dsimp only
      split
      · rename_i hall
        rw [List.all_eq_true] at hall
        exact (Nodes.eq_fill fun n' hn' => of_decide_eq_true (hall n' hn')).symm
      · rw [hdata]

/-! ## Copying out -/

variable {destStep : ℤ} {k : ℕ} {s : VoxelManipulator.CopyState}

theorem copyLine_mono (hk : k < 256) (hs : s.iSrc = 16 * k) :
    VoxelManipulator.copyLine (BlockData.mono n).cells true 16 destStep 16 s =
      VoxelManipulator.copyLine (Nodes.fill n).cells false 16 destStep 16 s := by
  rw [VoxelManipulator.copyLine, VoxelManipulator.copyLine]
  simp only [if_true, Bool.false_eq_true, if_false, VoxelManipulator.CopyState.mk.injEq, true_and,
    and_true]
  funext i
  split
  · rename_i hi
    rw [Nodes.cells_fill (by rw [nodecount_eq]; omega)]
    rfl
  · rfl

theorem iterate_copyLine_mono (l : ℕ) (hl : k + l ≤ 256) (hs : s.iSrc = 16 * k) :
    (VoxelManipulator.copyLine (BlockData.mono n).cells true 16 destStep 16)^[l] s =
        (VoxelManipulator.copyLine (Nodes.fill n).cells false 16 destStep 16)^[l] s ∧
      ((VoxelManipulator.copyLine (Nodes.fill n).cells false 16 destStep 16)^[l] s).iSrc =
        16 * (k + l : ℕ) := by
  induction l generalizing s k with
  | zero => exact ⟨rfl, hs⟩
  | succ l ih =>
    rw [Function.iterate_succ_apply, Function.iterate_succ_apply, copyLine_mono (by omega) hs]
    have hnext : (VoxelManipulator.copyLine (Nodes.fill n).cells false 16 destStep 16 s).iSrc =
        16 * (k + 1 : ℕ) := by
      rw [VoxelManipulator.copyLine]
      dsimp only
      omega
    have hrest := ih (by omega) hnext
    rwa [add_assoc, add_comm 1 l] at hrest

theorem copyPlane_mono (destStep destMod : ℤ) {k : ℕ} (hk : k < 16) (hs : s.iSrc = 256 * k) :
    VoxelManipulator.copyPlane (VoxelManipulator.copyLine (BlockData.mono n).cells true 16 destStep
        16) 16 destMod s =
        VoxelManipulator.copyPlane (VoxelManipulator.copyLine (Nodes.fill n).cells false 16 destStep
          16) 16 destMod s ∧
      (VoxelManipulator.copyPlane (VoxelManipulator.copyLine (Nodes.fill n).cells false 16 destStep
        16) 16 destMod s).iSrc = 256 * (k + 1 : ℕ) := by
  have hs' : s.iSrc = 16 * (16 * k : ℕ) := by omega
  rcases iterate_copyLine_mono 16 (by omega) hs' with ⟨hlines, hnext⟩
  rw [VoxelManipulator.copyPlane, VoxelManipulator.copyPlane, hlines]
  refine ⟨rfl, ?_⟩
  dsimp only
  omega

theorem iterate_copyPlane_mono {destStep destMod : ℤ} (l : ℕ) (hl : k + l ≤ 16)
    (hs : s.iSrc = 256 * k) :
    (VoxelManipulator.copyPlane (VoxelManipulator.copyLine (BlockData.mono n).cells true 16 destStep
        16) 16 destMod)^[l] s =
      (VoxelManipulator.copyPlane (VoxelManipulator.copyLine (Nodes.fill n).cells false 16 destStep
        16) 16 destMod)^[l] s := by
  induction l generalizing s k with
  | zero => rfl
  | succ l ih =>
    rcases copyPlane_mono (n := n) destStep destMod (by omega : k < 16) hs with ⟨hplane, hnext⟩
    rw [Function.iterate_succ_apply, Function.iterate_succ_apply, hplane]
    exact ih (by omega) hnext

/-- What is copied out of a single node is copied out of all of them. -/
theorem copyFrom_mono (dst : VoxelManipulator) (toPos : V3s16) :
    dst.copyFrom (BlockData.mono n).cells true dataArea ⟨0, 0, 0⟩ toPos dataSize =
      dst.copyFrom (Nodes.fill n).cells false dataArea ⟨0, 0, 0⟩ toPos dataSize := by
  have hextent : dataArea.extentX = 16 := by decide
  have hsize : (16 : Int16).toInt = 16 := rfl
  have hlines : (16 : ℤ).toNat = 16 := rfl
  have hfirst : (dataArea.index ⟨0, 0, 0⟩).toInt = 256 * (0 : ℕ) := by decide
  simp only [VoxelManipulator.copyFrom, dataSize, hextent, hsize, hlines]
  rw [iterate_copyPlane_mono 16 le_rfl hfirst]

/-! ## Writing -/

theorem renumber_replicate (nodedef : NodeDefManager) {mapping : IdIdMapping} (counter : UInt16)
    (nimap : NameIdMapping) (h : mapping n.getContent ≠ 0xffff) (k : ℕ) :
    renumber nodedef (List.replicate k n) mapping counter nimap =
      .ok (nimap, List.replicate k (n.setContent (mapping n.getContent))) := by
  induction k with
  | zero => rfl
  | succ k ih =>
    rw [List.replicate_succ, renumber, if_pos h, ih]
    rfl

/-- The first of equal nodes gets a number, and the others have it already. -/
theorem getBlockNodeIdMapping_replicate (nodedef : NodeDefManager) (n : MapNode) (k : ℕ) :
    getBlockNodeIdMapping nodedef (List.replicate (k + 1) n) = do
      let nimap ← NameIdMapping.set {} 0 (nodedef.get n.getContent)
      return (nimap, List.replicate (k + 1) (n.setContent 0)) := by
  have hcleared : ¬ IdIdMapping.cleared n.getContent ≠ 0xffff := not_not.2 rfl
  rw [getBlockNodeIdMapping, List.replicate_succ, renumber, if_neg hcleared]
  cases NameIdMapping.set {} 0 (nodedef.get n.getContent) with
  | error e => rfl
  | ok nimap =>
    have hfound : Function.update IdIdMapping.cleared n.getContent 0 n.getContent = 0 :=
      Function.update_self ..
    have hnew : Function.update IdIdMapping.cleared n.getContent 0 n.getContent ≠ 0xffff := by
      rw [hfound]
      decide
    have hrest := renumber_replicate nodedef (0 + 1) nimap hnew k
    rw [hfound] at hrest
    change (do
      let rest ← renumber nodedef (List.replicate k n) _ (0 + 1) nimap
      return (rest.1, n.setContent 0 :: rest.2)) = _
    rw [hrest, List.replicate_succ]
    rfl

theorem writeNodes_mono (disk : Bool) :
    writeNodes nodedef [n] true disk = writeNodes nodedef (Nodes.fill n).list false disk := by
  cases disk with
  | false =>
    rw [writeNodes, writeNodes, serializeBulk_mono]
    rfl
  | true =>
    have hcount : nodecount = 4095 + 1 := nodecount_eq
    have hone := getBlockNodeIdMapping_replicate nodedef n 0
    have hall := getBlockNodeIdMapping_replicate nodedef n 4095
    rw [← hcount] at hall
    rw [List.replicate_one] at hone
    rw [writeNodes, writeNodes, if_pos rfl, if_pos rfl, Nodes.fill, hone, hall]
    cases NameIdMapping.set {} 0 (nodedef.get n.getContent) with
    | error e => rfl
    | ok nimap => rfl

/-! ## Any sequence -/

/-- The same comes out, and afterwards the nodes are the same again. -/
theorem step_expand (isClient : Bool) (nodedef : NodeDefManager) (pos : V3s16) (b : MapBlock)
    (op : BlockOp) :
    (b.step isClient nodedef pos op).2 = (FullBlock.step nodedef pos b.data.expand op).2 ∧
      (b.step isClient nodedef pos op).1.data.expand =
        (FullBlock.step nodedef pos b.data.expand op).1 := by
  cases op with
  | getNode p =>
    rw [step, FullBlock.step]
    split
    · rw [MapBlock.get, get_expand]
      exact ⟨rfl, rfl⟩
    · exact ⟨rfl, rfl⟩
  | setNode p n =>
    rw [step, FullBlock.step]
    split
    · exact ⟨rfl, rfl⟩
    · exact ⟨rfl, rfl⟩
  | setNodeNoCheck p h n => exact ⟨rfl, rfl⟩
  | copyTo dst =>
    refine ⟨?_, rfl⟩
    rw [step, FullBlock.step]
    cases b.data with
    | mono n => exact congrArg BlockOutput.copied (copyFrom_mono dst _)
    | full nodes => rfl
  | copyFrom src => exact ⟨rfl, expand_shrink isClient _⟩
  | remapContentIds mapping =>
    refine ⟨rfl, ?_⟩
    rw [step, FullBlock.step]
    cases b.data with
    | mono n => exact (Nodes.map_fill _).symm
    | full nodes => rfl
  | serialize disk =>
    refine ⟨?_, rfl⟩
    rw [step, FullBlock.step]
    cases b.data with
    | mono n => exact congrArg BlockOutput.bulk (writeNodes_mono disk)
    | full nodes => rfl

/-- Nobody sees that a block stores a single node. -/
theorem outputs_eq (isClient : Bool) (nodedef : NodeDefManager) (pos : V3s16) (b : MapBlock)
    (ops : List BlockOp) :
    b.outputs isClient nodedef pos ops = FullBlock.outputs nodedef pos b.data.expand ops := by
  induction ops generalizing b with
  | nil => rfl
  | cons op ops ih =>
    rcases step_expand isClient nodedef pos b op with ⟨hout, hdata⟩
    rw [outputs, FullBlock.outputs, ih, hout, hdata]

end

end Map
end AxisEngine
