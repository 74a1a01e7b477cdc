import AxisEngine.Map.Liquids

/-!
# BlockMake — the generation of a chunk

`ServerMap::initBlockMake` loads or creates every block of a chunk and of a border around it and takes
a reference to each.  A generator then works on a copy of the nodes, without the lock of the map.
`finishBlockMake` writes the copy back and drops the references; `cancelBlockMake` only drops them.

* `MapgenParams` — the size of a chunk and the limits;
* `borderedArea` — the blocks of a chunk and of its border;
* `initBlockMake`, `cancelBlockMake`, `finishBlockMake` — the operations; `none` is a failed assertion.
-/

namespace AxisEngine
namespace Map

structure MapgenParams where
  chunksize : V3s16 := ⟨5, 5, 5⟩
  mapgenLimit : Int16 := 31007
  numEmergeThreads : Int16 := 1

/-- The coordinates of a loop from `a` to `b`. -/
def coords (a b : Int16) : List Int16 :=
  (List.range (b.toInt - a.toInt + 1).toNat).map fun i => a + Int16.ofNat i

namespace MapgenParams

variable (params : MapgenParams)

/-- `EmergeManager::getContainingChunk`. -/
def containingChunk (blockpos : V3s16) : V3s16 :=
  let size := params.chunksize
  let offset : V3s16 := ⟨-size.x / 2, -size.y / 2, -size.z / 2⟩
  let container := getContainerPos (blockpos - offset) size
  ⟨container.x * size.x, container.y * size.y, container.z * size.z⟩ + offset

/-- `blockpos_over_mapgen_limit`. -/
def blockposOverMapgenLimit (p : V3s16) : Bool :=
  let limit := (max 0 (min params.mapgenLimit.toInt 31007)).tdiv 16
  decide (p.x.toInt < -limit ∨ limit < p.x.toInt ∨ p.y.toInt < -limit ∨ limit < p.y.toInt ∨
    p.z.toInt < -limit ∨ limit < p.z.toInt)

/-- A chunk is named by its first block. -/
def blockposMax (chunk : V3s16) : V3s16 :=
  chunk + params.chunksize - ⟨1, 1, 1⟩

/-- `EMERGE_EXTRA_BORDER` is one block on every side. -/
def fullMin (chunk : V3s16) : V3s16 := chunk - ⟨1, 1, 1⟩

def fullMax (chunk : V3s16) : V3s16 :=
  params.blockposMax chunk + ⟨1, 1, 1⟩

/-- The blocks of a chunk and of its border, in the order of the loops. -/
def borderedArea (chunk : V3s16) : List V3s16 :=
  let low := fullMin chunk
  let high := params.fullMax chunk
  (coords low.x high.x).flatMap fun x => (coords low.z high.z).flatMap fun z =>
    (coords low.y high.y).map fun y => ⟨x, y, z⟩

/-- "Border blocks are grabbed during generation but mustn't be marked generated." -/
def isInner (chunk p : V3s16) : Bool :=
  let high := params.blockposMax chunk
  decide (chunk.x ≤ p.x ∧ p.x ≤ high.x ∧ chunk.y ≤ p.y ∧ p.y ≤ high.y ∧ chunk.z ≤ p.z ∧ p.z ≤ high.z)

/-- Whether a chunk may be generated. -/
def inLimits (chunk : V3s16) : Bool :=
  !params.blockposOverMapgenLimit (fullMin chunk) &&
    !params.blockposOverMapgenLimit (params.fullMax chunk)

end MapgenParams

namespace ServerMap

/-! ## Taking hold of the blocks -/

def modifyBlock (m : ServerMap) (p : V3s16) (change : MapBlock → MapBlock) : ServerMap :=
  match m.blocks p with
  | none => m
  | some b => m.setBlock p (some (change b))

/-- The block of a position; what the database does not have is created. -/
def blockForMake (o : Outside) (isUnderground : V3s16 → Bool) (m : ServerMap) (p : V3s16) :
    ServerMap × Emerged :=
  let emerged := m.emergeBlock o p false
  match emerged.2 with
  | .notFound =>
    let created := emerged.1.createBlock p
    (created.1.modifyBlock p fun b => { b with isUnderground := isUnderground p }, created.2)
  | _ => emerged

/-- `none` also for a block that is not there: the pointer is null. -/
def refGrab (m : ServerMap) (p : V3s16) : Option ServerMap :=
  match m.blocks p with
  | none => none
  | some b => b.refGrab.map fun b => m.setBlock p (some b)

/-- The loop of `initBlockMake`, and whether it came to its end. -/
def grabAll (o : Outside) (isUnderground : V3s16 → Bool) :
    List V3s16 → ServerMap → Option (ServerMap × Bool)
  | [], m => some (m, true)
  | p :: rest, m =>
    let block := m.blockForMake o isUnderground p
    if block.2 = .thrown then some (block.1, false)
    else
      match block.1.refGrab p with
      | none => none
      | some m => grabAll o isUnderground rest m

inductive Made where
  | made
  | refused
  | thrown
deriving DecidableEq

def initBlockMake (params : MapgenParams) (o : Outside) (isUnderground : V3s16 → Bool)
    (m : ServerMap) (blockpos : V3s16) : Option (ServerMap × Made) :=
  let chunk := params.containingChunk blockpos
  if chunk ∈ m.chunksInProgress then some (m, .refused)
  else
    let m := { m with chunksInProgress := insert chunk m.chunksInProgress }
    if params.inLimits chunk = false then some (m, .refused)
    else
      match grabAll o isUnderground (params.borderedArea chunk) m with
      | none => none
      | some (m, complete) => some (m, if complete then .made else .thrown)

/-! ## Letting go of the blocks -/

/-- The references of the blocks that are there are dropped. -/
def dropAll (after : V3s16 → MapBlock → MapBlock) : List V3s16 → ServerMap → Option ServerMap
  | [], m => some m
  | p :: rest, m =>
    match m.blocks p with
    | none => dropAll after rest m
    | some b =>
      match b.refDrop with
      | none => none
      | some b => dropAll after rest (m.setBlock p (some (after p b)))

def cancelBlockMake (params : MapgenParams) (m : ServerMap) (chunk : V3s16) : Option ServerMap :=
  dropAll (fun _ b => b) (params.borderedArea chunk) m

/-- The nodes that the generator leaves, the positions of liquids it queued, and what the steps of
`finishBlockMake` find outside of the map. -/
structure Generated where
  written : List (V3s16 × Nodes)
  transformingLiquid : List V3s16
  onFlood : OnFlood
  lightWrites : List (V3s16 × UInt8)
  liquidLoopMax : Nat
  gameTime : UInt32

def expireAll (ps : List V3s16) (m : ServerMap) : ServerMap :=
  ps.foldl (fun m p => m.modifyBlock p MapBlock.expireIsAirCache) m

/-- A block of the chunk itself is generated now. -/
def finished (params : MapgenParams) (g : Generated) (chunk p : V3s16) (b : MapBlock) : MapBlock :=
  if params.isInner chunk p then { b with generated := true, timestamp := g.gameTime } else b

/-- The result is whether it came to its end. -/
def finishBlockMake (f : Features) (params : MapgenParams) (o : Outside) (g : Generated)
    (m : ServerMap) (chunk : V3s16) : Option (ServerMap × Bool) :=
  let blit := m.blitBackAll o true g.written
  if blit.2.1 = false then some (blit.1, false)
  else
    match transformLiquidsLocal f g.onFlood g.lightWrites blit.1 g.transformingLiquid
        g.liquidLoopMax with
    | none => some (blit.1, false)
    | some l =>
      let changedBlocks :=
        blit.2.2 ++ l.modifiedBlocks ++ g.lightWrites.map fun w => getNodeBlockPos w.1
      let m := (l.map.reflow l.queue).expireAll changedBlocks
      match dropAll (finished params g chunk) (params.borderedArea chunk) m with
      | none => none
      | some m => some ({ m with chunksInProgress := m.chunksInProgress.erase chunk }, true)

end ServerMap

end Map
end AxisEngine
