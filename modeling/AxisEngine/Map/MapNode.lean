import AxisEngine.Util.V3s16
import Mathlib.Data.List.GetD

/-!
# MapNode — nodes, and all the nodes of a block in a row

A node has a content number and two parameters.  `mapnode.cpp` writes the nodes of a block in bulk:
all the contents, then all the first parameters, then all the second ones.

* `MapNode`, `Nodes` — a node, and the 4096 nodes of a block;
* `serializeBulk`, `deSerializeBulk` — the format;
* `reads_bulk` — it is read back.
-/

namespace AxisEngine
namespace Map

open Lib

structure MapNode where
  param0 : UInt16
  param1 : UInt8 := 0
  param2 : UInt8 := 0
deriving DecidableEq, Inhabited

namespace MapNode

def getContent (n : MapNode) : UInt16 := n.param0

def setContent (n : MapNode) (c : UInt16) : MapNode := { n with param0 := c }

end MapNode

/-- `MAP_BLOCKSIZE` to the third power. -/
@[irreducible] def nodecount : Nat := 4096

theorem nodecount_eq : nodecount = 4096 := by rw [nodecount]

/-- The array of a block that is stored in full. -/
@[ext] structure Nodes where
  list : List MapNode
  length_eq : list.length = nodecount

namespace Nodes

def fill (n : MapNode) : Nodes := ⟨List.replicate nodecount n, List.length_replicate⟩

def get (nodes : Nodes) (i : Fin nodecount) : MapNode :=
  nodes.list.get (i.cast nodes.length_eq.symm)

def set (nodes : Nodes) (i : Fin nodecount) (n : MapNode) : Nodes :=
  ⟨nodes.list.set i n, (List.length_set ..).trans nodes.length_eq⟩

@[simp] theorem get_fill (n : MapNode) (i : Fin nodecount) : (fill n).get i = n :=
  List.eq_of_mem_replicate (List.get_mem _ _)

@[simp] theorem get_set (nodes : Nodes) (i j : Fin nodecount) (n : MapNode) :
    (nodes.set i n).get j = if i = j then n else nodes.get j := by
  rw [get, get, set, List.get_eq_getElem, List.get_eq_getElem, List.getElem_set]
  simp only [Fin.val_cast, Fin.ext_iff]

theorem exists_get {nodes : Nodes} {n : MapNode} (h : n ∈ nodes.list) : ∃ i, nodes.get i = n := by
  rcases List.mem_iff_get.1 h with ⟨i, hi⟩
  exact ⟨i.cast nodes.length_eq, hi⟩

theorem get_mem (nodes : Nodes) (i : Fin nodecount) : nodes.get i ∈ nodes.list :=
  List.get_mem _ _

end Nodes

/-! ## Bulk data -/

/-- Of a block of a single node only that node is given, and it is written for each position. -/
def serializeBulk (nodes : List MapNode) (isMonoBlock : Bool) : Bytes :=
  let nodes := if isMonoBlock then List.replicate nodecount (nodes.headD default) else nodes
  nodes.flatMap (fun n => writeU16 n.param0) ++ (nodes.map MapNode.param1 ++ nodes.map MapNode.param2)

/-- Node `i` out of the data of `count` nodes.  In the old format the content has one byte, and four
more bits in the second parameter when it is above 127. -/
def decodeNode (databuf : Bytes) (contentWidth count i : Nat) : MapNode :=
  let param1 := readU8 databuf (contentWidth * count + i)
  let param2 := readU8 databuf ((contentWidth + 1) * count + i)
  if contentWidth = 1 then
    let param0 := readU8 databuf i
    if param0 > 0x7f then
      { param0 := param0.toUInt16 * 16 + (param2 &&& 0xf0).toUInt16 / 16
        param1 := param1
        param2 := param2 &&& 0x0f }
    else { param0 := param0.toUInt16, param1 := param1, param2 := param2 }
  else { param0 := readU16 databuf (i * 2), param1 := param1, param2 := param2 }

def decodeNodes (databuf : Bytes) (contentWidth : Nat) : Nodes :=
  ⟨(List.range nodecount).map (decodeNode databuf contentWidth nodecount),
    (List.length_map ..).trans List.length_range⟩

/-- Missing data are no error. -/
def deSerializeBulk (contentWidth paramsWidth : UInt8) : Reader Nodes := do
  if (contentWidth ≠ 1 ∧ contentWidth ≠ 2) ∨ paramsWidth ≠ 2 then
    throw "Deserialize bulk node data error"
  else
    let databuf ← Reader.readPadded (nodecount * (contentWidth.toNat + paramsWidth.toNat))
    return decodeNodes databuf contentWidth.toNat

section

variable {nodes : List MapNode} {i : Nat}

theorem length_flatMap_writeU16 (nodes : List MapNode) :
    (nodes.flatMap fun n => writeU16 n.param0).length = 2 * nodes.length := by
  induction nodes with
  | nil => rfl
  | cons n nodes ih =>
    rw [List.flatMap_cons, List.length_append, ih, length_writeU16, List.length_cons]
    omega

theorem readU16_flatMap (rest : Bytes) (hi : i < nodes.length) :
    readU16 (nodes.flatMap (fun n => writeU16 n.param0) ++ rest) (i * 2) = nodes[i].param0 := by
  induction nodes generalizing i with
  | nil => cases hi
  | cons n nodes ih =>
    rw [List.flatMap_cons, List.append_assoc]
    cases i with
    | zero => exact readU16_writeU16 _ _
    | succ i =>
      rw [readU16_append_right _ _ _ (by rw [length_writeU16]; omega), length_writeU16]
      have hindex : (i + 1) * 2 - 2 = i * 2 := by omega
      rw [hindex]
      exact ih (Nat.lt_of_succ_lt_succ hi)

theorem readU8_map {f : MapNode → UInt8} (rest : Bytes) (hi : i < nodes.length) :
    readU8 (nodes.map f ++ rest) i = f nodes[i] := by
  rw [readU8_append_left _ _ _ (by rw [List.length_map]; exact hi), readU8,
    List.getD_eq_getElem _ _ (by rw [List.length_map]; exact hi), List.getElem_map]

theorem decodeNode_serializeBulk (hi : i < nodes.length) :
    decodeNode (serializeBulk nodes false) 2 nodes.length i = nodes[i] := by
  have hfirst : readU8 (serializeBulk nodes false) (2 * nodes.length + i) = nodes[i].param1 := by
    rw [serializeBulk, if_neg Bool.false_ne_true, readU8_append_right _ _ _ (by
      rw [length_flatMap_writeU16]
      exact Nat.le_add_right _ _), length_flatMap_writeU16, Nat.add_sub_cancel_left]
    exact readU8_map _ hi
  have hsecond : readU8 (serializeBulk nodes false) ((2 + 1) * nodes.length + i) =
      nodes[i].param2 := by
    have hindex : (2 + 1) * nodes.length + i - 2 * nodes.length - nodes.length = i := by omega
    rw [serializeBulk, if_neg Bool.false_ne_true, readU8_append_right _ _ _ (by
      rw [length_flatMap_writeU16]
      omega), length_flatMap_writeU16, readU8_append_right _ _ _ (by
      rw [List.length_map]
      omega), List.length_map, hindex]
    have h := readU8_map (f := MapNode.param2) [] hi
    rw [List.append_nil] at h
    exact h
  have hcontent : readU16 (serializeBulk nodes false) (i * 2) = nodes[i].param0 :=
    readU16_flatMap _ hi
  rw [decodeNode]
  rw [if_neg (by decide), hfirst, hsecond, hcontent]

theorem length_serializeBulk (nodes : List MapNode) :
    (serializeBulk nodes false).length = nodes.length * 4 := by
  rw [serializeBulk, if_neg Bool.false_ne_true, List.length_append, length_flatMap_writeU16,
    List.length_append, List.length_map, List.length_map]
  omega

theorem reads_bulk (nodes : Nodes) :
    Reader.Reads (deSerializeBulk 2 2) (serializeBulk nodes.list false) nodes := by
  have hlength : (serializeBulk nodes.list false).length =
      nodecount * ((2 : UInt8).toNat + (2 : UInt8).toNat) := by
    rw [length_serializeBulk, nodes.length_eq]
    rfl
  have hdecode : decodeNodes (serializeBulk nodes.list false) (2 : UInt8).toNat = nodes := by
    refine Nodes.ext (List.ext_getElem ?_ fun i hi hi' => ?_)
    · exact (List.length_map ..).trans (List.length_range.trans nodes.length_eq.symm)
    · have hnode := decodeNode_serializeBulk hi'
      rw [nodes.length_eq] at hnode
      simp only [decodeNodes, List.getElem_map, List.getElem_range]
      exact hnode
  have h := (Reader.reads_readPadded hlength).map (g := fun buf => decodeNodes buf (2 : UInt8).toNat)
  rw [hdecode] at h
  exact h

/-- A block of a single node is written like the block of all its nodes. -/
theorem serializeBulk_mono (n : MapNode) :
    serializeBulk [n] true = serializeBulk (Nodes.fill n).list false := rfl

end

end Map
end AxisEngine
