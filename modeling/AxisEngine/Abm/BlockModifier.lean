import AxisEngine.Map.ServerMap
import Mathlib.Algebra.GroupWithZero.Nat
import Mathlib.Data.UInt

/-!
# BlockModifier — active block modifiers on the blocks of the map

`ABMHandler::apply` (`server/blockmodifier.cpp`) runs the active block modifiers (ABMs) of a block, and
caches on the way which contents the block has; `MapBlock::raiseModified` (`mapblock.h`) forgets them.

The state holds the block objects themselves, since an object that has left the map can still be in
the hands of `apply`.  What a trigger does is a list of deeds, any list; `Fate` has those of one call
of `apply`, and the random numbers it draws.  The constructor of the handler (timers, names) is left
out: a handler is any table of modifiers.

* `ActiveBlock`, `Env` — the block objects, and the map;
* `Deed`, `Env.act` — what changes them;
* `ABMHandler.apply` — the check of the cache, and the scan.
-/

namespace AxisEngine
namespace Abm

open Map

/-! ## Blocks -/

/-- `MOD_STATE_WRITE_AT_UNLOAD`. -/
def modStateWriteAtUnload : UInt16 := 2

/-- `MOD_STATE_WRITE_NEEDED`. -/
def modStateWriteNeeded : UInt16 := 4

/-- `MOD_REASON_SET_NODE`. -/
def modReasonSetNode : UInt32 := 0x10

/-- `MOD_REASON_VMANIP`. -/
def modReasonVmanip : UInt32 := 0x20000

/-- `CONTENT_TYPE_CACHE_MAX`. -/
def contentTypeCacheMax : Nat := 64

structure ActiveBlock extends MapBlock where
  pos : V3s16
  /-- "Can be empty, in which case nothing was cached yet." -/
  contents : List UInt16 := []
  doNotCacheContents : Bool := false
  isOrphan : Bool := false
  modified : UInt16 := 0
  modifiedReason : UInt32 := 0

namespace ActiveBlock

variable (b : ActiveBlock)

def getContent (i : Fin nodecount) : UInt16 :=
  (b.toMapBlock.get i).getContent

def getPosRelative : V3s16 :=
  ⟨b.pos.x * 16, b.pos.y * 16, b.pos.z * 16⟩

/-- The first half of `raiseModified`. -/
def raise (mod : UInt16) (reason : UInt32) : ActiveBlock :=
  if mod > b.modified then
    { b with
      modified := mod
      modifiedReason := reason
      diskTimestamp := if mod ≥ modStateWriteAtUnload then b.timestamp else b.diskTimestamp }
  else if mod = b.modified then { b with modifiedReason := b.modifiedReason ||| reason }
  else b

def raiseModified (mod : UInt16) (reason : UInt32) : ActiveBlock :=
  let b := b.raise mod reason
  if mod = modStateWriteNeeded then { b with contents := [] } else b

/-- `setNode` and `setNodeNoCheck`. -/
def setNode (i : Fin nodecount) (n : MapNode) : ActiveBlock :=
  { b with toMapBlock := b.toMapBlock.setNodeNoCheck i n }.raiseModified modStateWriteNeeded
    modReasonSetNode

/-- A block that a voxel manipulator is written to. -/
def blit (nodes : Nodes) : ActiveBlock :=
  { b with toMapBlock := b.toMapBlock.copyFrom nodes }.raiseModified modStateWriteNeeded
    modReasonVmanip

end ActiveBlock

/-- The block objects by their addresses, the map, and `m_added_objects`. -/
structure Env where
  blocks : Nat → Option ActiveBlock
  map : V3s16 → Option Nat
  addedObjects : UInt32 := 0

/-- What a trigger, or anything else on the server, does. -/
inductive Deed
  | setNode (id : Nat) (i : Fin nodecount) (n : MapNode)
  | blit (id : Nat) (nodes : Nodes)
  | raiseModified (id : Nat) (mod : UInt16) (reason : UInt32)
  | setStaticObjects (id : Nat) (objects : StaticObjectList)
  /-- A block that was loaded or made. -/
  | insertBlock (id : Nat) (p : V3s16) (b : MapBlock)
  /-- `detachBlock`: the object is an orphan from then on. -/
  | removeBlock (p : V3s16)
  | addObject

namespace Env

def modifyBlock (env : Env) (id : Nat) (f : ActiveBlock → ActiveBlock) : Env :=
  { env with blocks := Function.update env.blocks id ((env.blocks id).map f) }

/-- `Map::getNode`. -/
def getNode (env : Env) (p : V3s16) : MapNode :=
  match (env.map (getNodeBlockPos p)).bind env.blocks with
  | none => { param0 := contentIgnore }
  | some b => b.toMapBlock.get (nodeIndex p)

def act (env : Env) : Deed → Env
  | .setNode id i n => env.modifyBlock id fun b => b.setNode i n
  | .blit id nodes => env.modifyBlock id fun b => b.blit nodes
  | .raiseModified id mod reason => env.modifyBlock id fun b => b.raiseModified mod reason
  | .setStaticObjects id objects => env.modifyBlock id fun b => { b with staticObjects := objects }
  | .insertBlock id p b =>
    if (env.blocks id).isNone && (env.map p).isNone then
      { env with
        blocks := Function.update env.blocks id (some { toMapBlock := b, pos := p })
        map := Function.update env.map p (some id) }
    else env
  | .removeBlock p =>
    match env.map p with
    | none => env
    | some id =>
      { env.modifyBlock id (fun b => { b with isOrphan := true }) with
        map := Function.update env.map p none }
  | .addObject => { env with addedObjects := env.addedObjects + 1 }

end Env

/-! ## Modifiers -/

/-- `abm` stands for the modifier itself; `chance` is an `int` that a `u32` is divided by. -/
structure ActiveABM where
  abm : Nat
  requiredNeighbors : List UInt16 := []
  withoutNeighbors : List UInt16 := []
  chance : UInt32 := 1
  minY : Int16
  maxY : Int16

/-- `m_aabms`: the modifiers by content, null where there are none. -/
structure ABMHandler where
  aabms : List (Option (List ActiveABM))

/-- A call of one of the two `trigger` functions; the second has the two counts of objects. -/
structure Call where
  abm : Nat
  p : V3s16
  n : MapNode
  counts : Option (UInt32 × UInt32)

/-- The numbers that `myrand` gives, and what the last of some calls of triggers does. -/
structure Fate where
  rand : Nat → UInt32
  deeds : List Call → List Deed

/-- The variables of `apply`; `calls` has the last call of a trigger first. -/
structure Scan where
  env : Env
  wantContentsCached : Bool
  activeObjectCount : UInt32 × UInt32
  draws : Nat := 0
  calls : List Call := []
  abmsRun : Nat := 0

namespace ABMHandler

/-- `c < m_aabms.size() && m_aabms[c]`. -/
def at? (h : ABMHandler) (c : UInt16) : Option (List ActiveABM) :=
  h.aabms[c.toNat]?.join

def registered (h : ABMHandler) (c : UInt16) : Bool :=
  (h.at? c).isSome

end ABMHandler

/-! ## Neighbors -/

/-- The offsets from -1 to 1, with the last coordinate running fastest. -/
def cube : List V3s16 :=
  [-1, 0, 1].flatMap fun x => [-1, 0, 1].flatMap fun y => [-1, 0, 1].map fun z => ⟨x, y, z⟩

/-- `countObjects`: the active objects of the block, and those in the blocks around it. -/
def countObjects (env : Env) (b : ActiveBlock) : UInt32 × UInt32 :=
  let around := cube.map fun d => (env.map (b.pos + d)).bind env.blocks
  let size (b : ActiveBlock) := UInt32.ofNat b.staticObjects.all.length
  let wider := ((around.filterMap id).map size).sum
  let unknown := UInt32.ofNat (around.countP Option.isNone)
  -- "Extrapolate"
  (UInt32.ofNat b.staticObjects.active.length, wider + unknown * wider / (27 - unknown))

def isValidPosition (p : V3s16) : Bool :=
  decide (0 ≤ p.x ∧ p.x < 16 ∧ 0 ≤ p.y ∧ p.y < 16 ∧ 0 ≤ p.z ∧ p.z < 16)

def indexOf (p : V3s16) : Fin nodecount :=
  ⟨(blockIndex p).toNat % nodecount, Nat.mod_lt _ MapBlock.nodecount_pos⟩

/-- The content of a node, from the block itself where it is in there. -/
def contentAt (env : Env) (b : ActiveBlock) (p1 : V3s16) : UInt16 :=
  if isValidPosition p1 then b.getContent (indexOf p1)
  else (env.getNode (p1 + b.getPosRelative)).getContent

/-- The contents of the 26 nodes around `p0`. -/
def neighbors (env : Env) (b : ActiveBlock) (p0 : V3s16) : List UInt16 :=
  ((cube.map fun d => p0 + d).filter fun p1 => p1 ≠ p0).map (contentAt env b)

/-- The loop over the neighbors; `true` is `neighbor_found`. -/
def ActiveABM.checkNeighbors (aabm : ActiveABM) : Bool → List UInt16 → Bool
  | haveRequired, [] => haveRequired || aabm.requiredNeighbors.isEmpty
  | haveRequired, c :: rest =>
    if !haveRequired && aabm.requiredNeighbors.contains c then
      if aabm.withoutNeighbors.isEmpty then true
      else if aabm.withoutNeighbors.contains c then false
      else aabm.checkNeighbors true rest
    else if aabm.withoutNeighbors.contains c then false
    else aabm.checkNeighbors haveRequired rest

/-! ## The scan -/

/-- The object at an address that `apply` holds. -/
def Env.block (env : Env) (id : Nat) : ActiveBlock :=
  (env.blocks id).getD { pos := ⟨0, 0, 0⟩ }

namespace Scan

def trigger (fate : Fate) (call : Call) (s : Scan) : Scan :=
  { s with
    env := (fate.deeds (call :: s.calls)).foldl Env.act s.env
    calls := call :: s.calls }

/-- "Count surrounding objects again if the abms added any". -/
def recount (id : Nat) (s : Scan) : Scan :=
  if 0 < s.env.addedObjects then
    { s with
      env := { s.env with addedObjects := 0 }
      activeObjectCount := countObjects s.env (s.env.block id) }
  else s

/-- "Call all the trigger variations". -/
def fire (fate : Fate) (abm : Nat) (p : V3s16) (n : MapNode) (s : Scan) : Scan :=
  let s := { s with abmsRun := s.abmsRun + 1 }
  let s := s.trigger fate ⟨abm, p, n, none⟩
  s.trigger fate ⟨abm, p, n, some s.activeObjectCount⟩

/-- Whether a modifier acts on the node at `p0` if the dice allow it. -/
def suits (aabm : ActiveABM) (id : Nat) (p0 : V3s16) (s : Scan) : Bool :=
  (aabm.requiredNeighbors.isEmpty && aabm.withoutNeighbors.isEmpty) ||
    aabm.checkNeighbors false (neighbors s.env (s.env.block id) p0)

/-- The loop over the modifiers of the content `c`; an error is the `return` of `apply`. -/
def runAbms (fate : Fate) (id : Nat) (i : Fin nodecount) (p0 p : V3s16) (c : UInt16) :
    List ActiveABM → MapNode → Scan → Except Scan Scan
  | [], _, s => .ok s
  | aabm :: rest, n, s =>
    if p.y < aabm.minY ∨ aabm.maxY < p.y then runAbms fate id i p0 p c rest n s
    else
      let draw := fate.rand s.draws
      let s := { s with draws := s.draws + 1 }
      if draw % aabm.chance ≠ 0 then runAbms fate id i p0 p c rest n s
      else if !s.suits aabm id p0 then runAbms fate id i p0 p c rest n s
      else
        let s := s.fire fate aabm.abm p n
        if (s.env.block id).isOrphan then .error s
        else
          let s := s.recount id
          let n := (s.env.block id).toMapBlock.get i
          if n.getContent ≠ c then .ok s
          else runAbms fate id i p0 p c rest n s

/-- "Cache content types as we go". -/
def cacheContent (id : Nat) (c : UInt16) (s : Scan) : Scan :=
  if s.wantContentsCached && !(s.env.block id).contents.contains c then
    if contentTypeCacheMax ≤ (s.env.block id).contents.length then
      -- "Too many different nodes... don't try to cache"
      { s with
        wantContentsCached := false
        env := s.env.modifyBlock id fun b => { b with doNotCacheContents := true, contents := [] } }
    else { s with env := s.env.modifyBlock id fun b => { b with contents := b.contents ++ [c] } }
  else s

/-- One round of the loop over the nodes. -/
def scanNode (h : ABMHandler) (fate : Fate) (id : Nat) (s : Scan) (i : Fin nodecount) :
    Except Scan Scan :=
  let n := (s.env.block id).toMapBlock.get i
  let s := s.cacheContent id n.getContent
  match h.at? n.getContent with
  | none => .ok s
  | some aabms =>
    let p0 := ofBlockIndex (UInt16.ofNat i)
    runAbms fate id i p0 (p0 + (s.env.block id).getPosRelative) n.getContent aabms n s

/-- The scan as it begins. -/
def start (env : Env) (id : Nat) : Scan :=
  { env := { env with addedObjects := 0 }
    wantContentsCached :=
      (env.block id).contents.isEmpty && !(env.block id).doNotCacheContents
    activeObjectCount := countObjects env (env.block id) }

/-- The state behind the last round, or behind the `return`. -/
def ends : Except Scan Scan → Scan
  | .ok s => s
  | .error s => s

end Scan

/-- `blocks_scanned`, `abms_run` and `blocks_cached`, as far as one call adds to them. -/
structure Tally where
  blocksScanned : Nat := 0
  abmsRun : Nat := 0
  blocksCached : Nat := 0
  deriving DecidableEq

namespace ABMHandler

/-- Whether the modifiers are not run on a block at all. -/
def skips (h : ABMHandler) (b : ActiveBlock) : Bool :=
  h.aabms.isEmpty || (!b.contents.isEmpty && !b.contents.any h.registered)

def apply (h : ABMHandler) (fate : Fate) (env : Env) (id : Nat) : Env × Tally :=
  if h.aabms.isEmpty then (env, {})
  else
    let cached := if (env.block id).contents.isEmpty then 0 else 1
    if h.skips (env.block id) then (env, { blocksCached := cached })
    else
      let s := Scan.ends ((List.finRange nodecount).foldlM (Scan.scanNode h fate id)
        (Scan.start env id))
      (s.env, { blocksScanned := 1, abmsRun := s.abmsRun, blocksCached := cached })

end ABMHandler

/-! ## Runs -/

/-- A call of `apply` for the block at a position of the map, or anything else. -/
inductive Event
  | apply (h : ABMHandler) (fate : Fate) (p : V3s16)
  | act (d : Deed)

def Env.step (env : Env) : Event → Env
  | .apply h fate p =>
    match env.map p with
    | none => env
    | some id => (h.apply fate env id).1
  | .act d => env.act d

end Abm
end AxisEngine
