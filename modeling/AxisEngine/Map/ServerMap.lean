import AxisEngine.Map.ContentFeatures
import AxisEngine.Map.MapBlock
import Mathlib.Data.Finset.Basic

/-!
# ServerMap — the loaded part of the map

`map.cpp`, `servermap.cpp`: the blocks in memory by position, the chunks that are being generated and
the queue of liquids.  A node is found through the block that has its position.  What the database
holds for a position comes from outside, and so do the results of the light updates, which only
change first parameters.

* `getNodeBlockPos`, `nodeIndex` — where a node is;
* `getNode`, `setNode` — nodes;
* `emergeBlock`, `loadBlock`, `createBlock`, `deleteBlock`, `unloadBlock` — blocks;
* `blitBackAll` — nodes from a voxel manipulator;
* `getNode_setNode` — what a write changes.
-/

namespace AxisEngine
namespace Map

/-! ## Positions -/

/-- `getContainerPos` for one coordinate. -/
def containerPos (p d : Int16) : Int16 :=
  Int16.ofInt ((if 0 ≤ p.toInt then p.toInt else p.toInt - d.toInt + 1).tdiv d.toInt)

def getContainerPos (p d : V3s16) : V3s16 :=
  ⟨containerPos p.x d.x, containerPos p.y d.y, containerPos p.z d.z⟩

def getNodeBlockPos (p : V3s16) : V3s16 :=
  getContainerPos p ⟨16, 16, 16⟩

/-- The position in its block. -/
def relPos (p : V3s16) : V3s16 :=
  ⟨p.x - (getNodeBlockPos p).x * 16, p.y - (getNodeBlockPos p).y * 16,
    p.z - (getNodeBlockPos p).z * 16⟩

def nodeIndex (p : V3s16) : Fin nodecount :=
  ⟨(blockIndex (relPos p)).toNat % nodecount, Nat.mod_lt _ MapBlock.nodecount_pos⟩

/-- `blockpos_over_max_limit`. -/
def blockposOverMaxLimit (p : V3s16) : Bool :=
  decide (1937 < p.cubeRadius)

/-! ## Blocks and nodes -/

structure ServerMap where
  blocks : V3s16 → Option MapBlock := fun _ => none
  chunksInProgress : Finset V3s16 := ∅
  transformingLiquid : List V3s16 := []

/-- What the database has for a position; `broken` data make reading throw. -/
inductive Stored where
  | missing
  | broken
  | data (read : MapBlock)

/-- What an operation finds in the database, and for a block that was loaded what `ReflowScan` queues
and what the light update writes. -/
structure Outside where
  stored : V3s16 → Stored
  reflows : V3s16 → List V3s16
  relights : V3s16 → List (V3s16 × UInt8)

/-- `UniqueQueue::push_back`. -/
def pushBack (queue : List V3s16) (p : V3s16) : List V3s16 :=
  if p ∈ queue then queue else queue ++ [p]

def pushAll (queue : List V3s16) (ps : List V3s16) : List V3s16 :=
  ps.foldl pushBack queue

/-- The block that was read into `b`, which keeps its references. -/
def MapBlock.readInto (read b : MapBlock) : MapBlock :=
  { read with refcount := b.refcount }

namespace ServerMap

variable (m : ServerMap) (p : V3s16)

def setBlock (b : Option MapBlock) : ServerMap :=
  { m with blocks := Function.update m.blocks p b }

/-- `CONTENT_IGNORE` where nothing is loaded. -/
def getNode : MapNode :=
  match m.blocks (getNodeBlockPos p) with
  | none => { param0 := contentIgnore }
  | some b => b.get (nodeIndex p)

/-- "Never allow placing CONTENT_IGNORE, it causes problems". -/
def setNodeInBlock (b : MapBlock) (i : Fin nodecount) (n : MapNode) : MapBlock :=
  if n.getContent = contentIgnore then b else b.setNodeNoCheck i n

/-- `none`: `InvalidPositionException`. -/
def setNode (n : MapNode) : Option ServerMap :=
  match m.blocks (getNodeBlockPos p) with
  | none => none
  | some b => some (m.setBlock (getNodeBlockPos p) (some (setNodeInBlock b (nodeIndex p) n)))

/-- The first parameter of a node is written by the lighting. -/
def setParam1 (light : UInt8) : ServerMap :=
  match m.blocks (getNodeBlockPos p) with
  | none => m
  | some b => m.setBlock (getNodeBlockPos p)
      (some (b.setNodeNoCheck (nodeIndex p) { b.get (nodeIndex p) with param1 := light }))

/-- All that a light update writes. -/
def relight (writes : List (V3s16 × UInt8)) (m : ServerMap) : ServerMap :=
  writes.foldl (fun m w => m.setParam1 w.1 w.2) m

/-! ## Placing a node -/

/-- `removeNodeMetadata`. -/
def removeNodeMetadata (b : MapBlock) (p : V3s16) : MapBlock :=
  { b with nodeMetadata := b.nodeMetadata.remove p }

/-- The light of a node with the same lighting is copied, and otherwise updated afterwards. -/
def placedLight (f : Features) (n oldnode : MapNode) : MapNode :=
  let flags := (f n.getContent).lighting
  if flags = (f oldnode.getContent).lighting then
    (n.setLight .day (oldnode.getLightRaw .day flags) flags).setLight .night
      (oldnode.getLightRaw .night flags) flags
  else n.clearLight flags

/-- "Add neighboring liquid nodes and this node to transform queue"; `g_7dirs`. -/
def dirs7 : List V3s16 :=
  [⟨0, 0, 1⟩, ⟨0, 1, 0⟩, ⟨1, 0, 0⟩, ⟨0, 0, -1⟩, ⟨0, -1, 0⟩, ⟨-1, 0, 0⟩, ⟨0, 0, 0⟩]

def queuedNear (f : Features) (m : ServerMap) (p : V3s16) : List V3s16 :=
  (dirs7.map fun dir => p + dir).filter fun q =>
    (m.blocks (getNodeBlockPos q)).isSome &&
      (decide ((f (m.getNode q).getContent).liquidType ≠ .none) ||
        (m.getNode q).getContent == contentAir)

/-- `Map::addNodeAndUpdate` on the block.  The cache is out of date when air comes or goes. -/
def addNodeToBlock (f : Features) (b : MapBlock) (p : V3s16) (n : MapNode) (removeMetadata : Bool) :
    MapBlock :=
  let oldnode := b.get (nodeIndex p)
  let b := if removeMetadata then removeNodeMetadata b (relPos p) else b
  let b := setNodeInBlock b (nodeIndex p) (placedLight f n oldnode)
  if n.getContent ≠ oldnode.getContent ∧
      (oldnode.getContent = contentAir ∨ n.getContent = contentAir) then b.expireIsAirCache
  else b

/-- `ServerMap::addNodeAndUpdate`; the light is updated when the lighting differs.  `none`:
`InvalidPositionException`. -/
def addNodeAndUpdate (f : Features) (writes : List (V3s16 × UInt8)) (m : ServerMap) (p : V3s16)
    (n : MapNode) (removeMetadata : Bool) : Option ServerMap :=
  match m.blocks (getNodeBlockPos p) with
  | none => none
  | some b =>
    let oldnode := b.get (nodeIndex p)
    let placed := m.setBlock (getNodeBlockPos p) (some (addNodeToBlock f b p n removeMetadata))
    let lit := if (f n.getContent).lighting = (f oldnode.getContent).lighting then placed
      else placed.relight writes
    some { lit with transformingLiquid := pushAll lit.transformingLiquid (queuedNear f lit p) }

/-! ## Loading, creating and removing blocks -/

/-- What can come of looking for a block. -/
inductive Emerged where
  | found
  | notFound
  | thrown
deriving DecidableEq

/-- `createBlankBlock`, for a position that has no block. -/
def createBlank : ServerMap × Emerged :=
  if blockposOverMaxLimit p then (m, .thrown) else (m.setBlock p (some {}), .found)

def createBlock : ServerMap × Emerged :=
  if (m.blocks p).isSome then (m, .found) else m.createBlank p

def reflow (queued : List V3s16) (m : ServerMap) : ServerMap :=
  { m with transformingLiquid := pushAll m.transformingLiquid queued }

variable (o : Outside) (m : ServerMap) (p : V3s16)

/-- A block that is there is read again; a new one is scanned for liquids that may flow, and its light
is updated. -/
def loadBlock : ServerMap × Emerged :=
  match o.stored p, m.blocks p with
  | .missing, some _ => (m, .found)
  | .missing, none => (m, .notFound)
  | .broken, _ => (m, .thrown)
  | .data read, some b => (m.setBlock p (some (read.readInto b)), .found)
  | .data read, none =>
    if blockposOverMaxLimit p then (m, .thrown)
    else
      (((m.setBlock p (some (read.readInto {}))).reflow (o.reflows p)).relight (o.relights p),
        .found)

/-- The exceptions of creating a blank block are caught. -/
def emergeBlock (createBlank : Bool) : ServerMap × Emerged :=
  if (m.blocks p).isSome then (m, .found)
  else
    let loaded := m.loadBlock o p
    if loaded.2 = .notFound ∧ createBlank ∧ blockposOverMaxLimit p = false then
      loaded.1.createBlank p
    else loaded

/-- The block leaves the map when the database has deleted it. -/
def deleteBlock (deleted : Bool) : ServerMap × Bool :=
  if deleted then (m.setBlock p none, true) else (m, false)

/-- `timerUpdate`, for one block: only a block without references is unloaded. -/
def unloadBlock : ServerMap :=
  match m.blocks p with
  | none => m
  | some b => if b.refcount = 0 then m.setBlock p none else m

/-! ## Voxel manipulators -/

/-- The block that nodes are copied to. -/
def blitTarget : ServerMap × Emerged :=
  if (m.blocks p).isNone ∧ blockposOverMaxLimit p then (m, .notFound)
  else m.emergeBlock o p true

/-- One block of `blitBackAll`: whether nothing was thrown, and whether the block was modified. -/
def blitBlock (o : Outside) (overwriteGenerated : Bool) (m : ServerMap) (p : V3s16)
    (nodes : Nodes) : ServerMap × Bool × Bool :=
  let target := m.blitTarget o p
  match target.2, target.1.blocks p with
  | .thrown, _ => (target.1, false, false)
  | _, none => (target.1, true, false)
  | _, some b =>
    if !overwriteGenerated && b.generated then (target.1, true, false)
    else (target.1.setBlock p (some (b.copyFrom nodes).expireIsAirCache), true, true)

/-- The blocks with data go back to the map; the result is whether nothing was thrown, and which
blocks were modified. -/
def blitBackAll (o : Outside) (overwriteGenerated : Bool) :
    List (V3s16 × Nodes) → ServerMap → ServerMap × Bool × List V3s16
  | [], m => (m, true, [])
  | (p, nodes) :: rest, m =>
    let block := m.blitBlock o overwriteGenerated p nodes
    if block.2.1 then
      let result := blitBackAll o overwriteGenerated rest block.1
      (result.1, result.2.1, if block.2.2 then p :: result.2.2 else result.2.2)
    else (block.1, false, [])

end ServerMap

@[simp] theorem mem_pushAll {queue ps : List V3s16} {q : V3s16} :
    q ∈ pushAll queue ps ↔ q ∈ queue ∨ q ∈ ps := by
  induction ps generalizing queue with
  | nil => simp [pushAll]
  | cons p ps ih =>
    have hpush : q ∈ pushBack queue p ↔ q ∈ queue ∨ q = p := by
      rw [pushBack]
      split
      · rename_i hp
        exact ⟨.inl, fun h => h.elim id fun h => h ▸ hp⟩
      · rw [List.mem_append, List.mem_singleton]
    have hall := @ih (pushBack queue p)
    rw [pushAll, List.foldl_cons]
    rw [pushAll] at hall
    rw [hall, hpush, List.mem_cons, or_assoc]

/-! ## A position is its block and its place there -/

section

variable {p q : V3s16} {n : Int16}

theorem toInt_ofInt_of_fits {i : ℤ} (h : -32768 ≤ i ∧ i < 32768) : (Int16.ofInt i).toInt = i := by
  rw [Int16.toInt_ofInt]
  exact Int.bmod_eq_of_le (show -(((Int16.size : Nat) : ℤ) / 2) ≤ i from h.1)
    (show i < (((Int16.size : Nat) : ℤ) + 1) / 2 from h.2)

theorem toInt_containerPos_16 (n : Int16) : (containerPos n 16).toInt = n.toInt / 16 := by
  have hlow := n.le_toInt
  have hhigh := n.toInt_lt
  have h16 : (16 : Int16).toInt = 16 := rfl
  have hsign : (16 : ℤ).sign = 1 := rfl
  have hdiv : (if 0 ≤ n.toInt then n.toInt else n.toInt - 16 + 1).tdiv 16 = n.toInt / 16 := by
    rw [Int.tdiv_eq_ediv, hsign]
    split <;> split <;> omega
  rw [containerPos, h16, hdiv, toInt_ofInt_of_fits (by omega)]

theorem toInt_sub_containerPos (n : Int16) : (n - containerPos n 16 * 16).toInt = n.toInt % 16 := by
  have hlow := n.le_toInt
  have hhigh := n.toInt_lt
  have h16 : (16 : Int16).toInt = 16 := rfl
  have hmul : (containerPos n 16 * 16).toInt = n.toInt / 16 * 16 := by
    rw [Int16.toInt_mul, toInt_containerPos_16, h16]
    exact Int.bmod_eq_of_le (by omega) (by omega)
  rw [Int16.toInt_sub, hmul]
  have hrest : n.toInt - n.toInt / 16 * 16 = n.toInt % 16 := by omega
  rw [hrest]
  exact Int.bmod_eq_of_le (by omega) (by omega)

theorem inBlock_relPos (p : V3s16) : InBlock (relPos p) := by
  have hin : ∀ n : Int16, 0 ≤ (n - containerPos n 16 * 16).toInt ∧
      (n - containerPos n 16 * 16).toInt < 16 := by
    intro n
    rw [toInt_sub_containerPos]
    omega
  exact ⟨hin p.x, hin p.y, hin p.z⟩

theorem nodeIndex_val (p : V3s16) : (nodeIndex p).val = (blockIndex (relPos p)).toNat := by
  have hlt := toNat_blockIndex_lt (inBlock_relPos p)
  change (blockIndex (relPos p)).toNat % nodecount = _
  rw [nodecount_eq]
  exact Nat.mod_eq_of_lt hlt

theorem add_relPos (n : Int16) (c : Int16) : n - c * 16 + c * 16 = n := by
  rw [Int16.sub_add_cancel]

/-- Two positions in one block are the same when they are at the same place in it. -/
theorem pos_eq (hblock : getNodeBlockPos p = getNodeBlockPos q) (hindex : nodeIndex p = nodeIndex q) :
    p = q := by
  have hsame : blockIndex (relPos p) = blockIndex (relPos q) := by
    apply UInt16.toNat_inj.1
    rw [← nodeIndex_val, ← nodeIndex_val, hindex]
  have hrel : relPos p = relPos q := by
    rw [← ofBlockIndex_blockIndex (inBlock_relPos p), hsame,
      ofBlockIndex_blockIndex (inBlock_relPos q)]
  rw [relPos, relPos, hblock, V3s16.mk.injEq] at hrel
  rcases hrel with ⟨hx, hy, hz⟩
  have hcancel : ∀ a b c : Int16, a - c * 16 = b - c * 16 → a = b := by
    intro a b c h
    rw [← add_relPos a c, h, add_relPos]
  cases p
  cases q
  rw [V3s16.mk.injEq]
  exact ⟨hcancel _ _ _ hx, hcancel _ _ _ hy, hcancel _ _ _ hz⟩

end

/-! ## What an operation changes -/

namespace ServerMap

section

variable {m m' : ServerMap} {p q : V3s16} {n : MapNode} {b : MapBlock} {light : UInt8}

@[simp] theorem blocks_setBlock (m : ServerMap) (p : V3s16) (b : Option MapBlock) :
    (m.setBlock p b).blocks = Function.update m.blocks p b := rfl

@[simp] theorem chunksInProgress_setBlock (m : ServerMap) (p : V3s16) (b : Option MapBlock) :
    (m.setBlock p b).chunksInProgress = m.chunksInProgress := rfl

/-- A position of a block that is loaded. -/
def Loaded (m : ServerMap) (p : V3s16) : Prop := (m.blocks (getNodeBlockPos p)).isSome

theorem getNode_of_block (h : m.blocks (getNodeBlockPos p) = some b) :
    m.getNode p = b.get (nodeIndex p) := by
  rw [getNode, h]

theorem getNode_of_not_loaded (h : m.blocks (getNodeBlockPos p) = none) :
    m.getNode p = { param0 := contentIgnore } := by
  rw [getNode, h]

/-- The nodes after the block of a position was changed at that position only. -/
theorem getNode_setBlock {b' : MapBlock} (hb : m.blocks (getNodeBlockPos p) = some b)
    (hplace : b'.get (nodeIndex p) = n) (hother : ∀ i, i ≠ nodeIndex p → b'.get i = b.get i) :
    (m.setBlock (getNodeBlockPos p) (some b')).getNode = Function.update m.getNode p n := by
  funext q
  by_cases hpos : getNodeBlockPos q = getNodeBlockPos p
  · have hq : (m.setBlock (getNodeBlockPos p) (some b')).blocks (getNodeBlockPos q) = some b' := by
      rw [blocks_setBlock, hpos, Function.update_self]
    rw [getNode_of_block hq]
    by_cases hqp : q = p
    · rw [hqp, Function.update_self, hplace]
    · have hne : nodeIndex q ≠ nodeIndex p := fun h => hqp (pos_eq hpos h)
      rw [Function.update_of_ne hqp, hother _ hne, getNode_of_block (hpos ▸ hb)]
  · have hqp : q ≠ p := fun h => hpos (h ▸ rfl)
    rw [Function.update_of_ne hqp, getNode, getNode, blocks_setBlock, Function.update_of_ne hpos]

theorem getNode_setNode (hset : m.setNode p n = some m') (hn : n.getContent ≠ contentIgnore) :
    m'.getNode = Function.update m.getNode p n := by
  rw [setNode] at hset
  cases hb : m.blocks (getNodeBlockPos p) with
  | none =>
    rw [hb] at hset
    cases hset
  | some b =>
    rw [hb] at hset
    dsimp only at hset
    rw [setNodeInBlock, if_neg hn, Option.some.injEq] at hset
    rw [← hset]
    refine getNode_setBlock hb ?_ fun i hi => ?_
    · rw [MapBlock.get_setNodeNoCheck, if_pos rfl]
    · rw [MapBlock.get_setNodeNoCheck, if_neg (Ne.symm hi)]

theorem getNode_setNode_ignore (hset : m.setNode p n = some m')
    (hn : n.getContent = contentIgnore) : m'.getNode = m.getNode := by
  rw [setNode] at hset
  cases hb : m.blocks (getNodeBlockPos p) with
  | none =>
    rw [hb] at hset
    cases hset
  | some b =>
    rw [hb] at hset
    dsimp only at hset
    rw [setNodeInBlock, if_pos hn, Option.some.injEq] at hset
    rw [← hset, getNode_setBlock hb rfl fun _ _ => rfl, ← getNode_of_block hb,
      Function.update_eq_self]

/-- The two maps have the same nodes, but for the light. -/
def Relit (m m' : ServerMap) : Prop :=
  ∀ p, ∃ light, m'.getNode p = { m.getNode p with param1 := light }

theorem relit_setParam1 (m : ServerMap) (p : V3s16) (light : UInt8) :
    m.Relit (m.setParam1 p light) := by
  intro q
  rw [setParam1]
  cases hb : m.blocks (getNodeBlockPos p) with
  | none => exact ⟨_, rfl⟩
  | some b =>
    have hnode : (m.setBlock (getNodeBlockPos p) (some (b.setNodeNoCheck (nodeIndex p)
        { b.get (nodeIndex p) with param1 := light }))).getNode =
          Function.update m.getNode p { m.getNode p with param1 := light } := by
      refine getNode_setBlock hb ?_ fun i hi => ?_
      · rw [MapBlock.get_setNodeNoCheck, if_pos rfl, getNode_of_block hb]
      · rw [MapBlock.get_setNodeNoCheck, if_neg (Ne.symm hi)]
    dsimp only
    rw [hnode]
    by_cases hq : q = p
    · rw [hq, Function.update_self]
      exact ⟨light, rfl⟩
    · rw [Function.update_of_ne hq]
      exact ⟨_, rfl⟩

/-- A light update changes nothing but light. -/
theorem relit_relight (writes : List (V3s16 × UInt8)) (m : ServerMap) :
    m.Relit (m.relight writes) := by
  rw [relight]
  induction writes generalizing m with
  | nil => exact fun p => ⟨_, rfl⟩
  | cons w writes ih =>
    intro p
    rcases relit_setParam1 m w.1 w.2 p with ⟨light, hfirst⟩
    rcases ih (m.setParam1 w.1 w.2) p with ⟨light', hrest⟩
    refine ⟨light', ?_⟩
    rw [List.foldl_cons, hrest, hfirst]

theorem setNode_ne_none (h : m.Loaded p) : m.setNode p n ≠ none := by
  rcases Option.isSome_iff_exists.1 h with ⟨b, hb⟩
  rw [setNode, hb]
  exact Option.some_ne_none _

end

end ServerMap

end Map
end AxisEngine
