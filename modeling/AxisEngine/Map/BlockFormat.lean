import AxisEngine.Map.MapBlock
import AxisEngine.Map.BlockNodeIds

/-!
# BlockFormat — a block in bytes

`MapBlock::serialize` and `MapBlock::deSerialize` in the current format, 29: the whole block is
compressed as one.  The form for the disk has the timestamp, the names of the contents, the objects
and the timers; the form for clients has the contents as they are numbered.

* `NameIdMapping.serialize`, `NameIdMapping.deSerialize` — the table of names;
* `Format` — what the format depends on besides the block;
* `MapBlock.serialize`, `MapBlock.deSerialize`.
-/

namespace AxisEngine
namespace Map

open Lib Util Inventory

/-- The order in which the table of names is gone through. -/
structure IdOrder where
  list : (Finmap fun _ : UInt16 => Bytes) → List (Sigma fun _ : UInt16 => Bytes)
  list_eq : ∀ m, (list m : Multiset (Sigma fun _ : UInt16 => Bytes)) = m.entries

/-- What `compress` makes, `decompress` undoes. -/
structure Codec where
  compress : Bytes → Bytes
  decompress : Bytes → Except String Bytes
  lossless : ∀ raw, decompress (compress raw) = .ok raw

/-- The orders of the tables, the compression, and how item text is read. -/
structure Format where
  itemOrder : MapOrder
  idOrder : IdOrder
  codec : Codec
  reader : Inventory.Reader

namespace NameIdMapping

def serializeEntry (e : Sigma fun _ : UInt16 => Bytes) : Except String Bytes := do
  let name ← serializeString16 e.2
  return writeU16 e.1 ++ name

def serialize (order : IdOrder) (m : NameIdMapping) : Except String Bytes := do
  let entries ← concatM serializeEntry (order.list m.idToName)
  return 0 :: (writeU16 m.size ++ entries)

def readEntry : Lib.Reader (Sigma fun _ : UInt16 => Bytes) := do
  let id ← Reader.readU16
  let name ← deSerializeString16
  return ⟨id, name⟩

def insertAll (entries : List (Sigma fun _ : UInt16 => Bytes)) : NameIdMapping :=
  entries.foldl (fun m e => m.insert e.1 e.2) {}

def deSerialize : Lib.Reader NameIdMapping := do
  let version ← Reader.readU8
  if version ≠ 0 then throw "unsupported NameIdMapping version"
  else
    let count ← Reader.readU16
    let entries ← Reader.readMany count.toNat readEntry
    return insertAll entries

end NameIdMapping

namespace MapBlock

/-- The second flag says that the block is not air. -/
def flags (b : MapBlock) (isAir : Bool) : UInt8 :=
  (if b.isUnderground then 0x01 else 0) ||| ((if isAir then 0 else 0x02) |||
    (if b.generated then 0 else 0x08))

def head (b : MapBlock) (isAir : Bool) : Bytes :=
  b.flags isAir :: writeU16 b.lightingComplete

/-- The widths of contents and parameters, and the nodes. -/
def bulk (nodes : List MapNode) (isMono : Bool) : Bytes :=
  2 :: 2 :: serializeBulk nodes isMono

/-- The bytes, and the block with its cache filled and without the objects that do not fit. -/
def serialize (f : Format) (nodedef : NodeDefManager) (b : MapBlock) (disk : Bool) :
    Except String (Bytes × MapBlock) := do
  let isAir := b.isAir.1
  let b := b.isAir.2
  if disk then
    let ids ← getBlockNodeIdMapping nodedef b.data.stored
    let nimap ← ids.1.serialize f.idOrder
    let metadata ← b.nodeMetadata.serialize f.itemOrder 29 true false false
    let objects ← b.staticObjects.serialize
    let raw := b.head isAir ++ (writeU32 b.timestamp ++ (nimap ++ (bulk ids.2 b.data.isMono ++
      (metadata ++ (objects.1 ++ b.nodeTimers.serialize)))))
    return (f.codec.compress raw, { b with staticObjects := objects.2 })
  else
    let metadata ← b.nodeMetadata.serialize f.itemOrder 29 false false false
    let raw := b.head isAir ++ (bulk b.data.stored b.data.isMono ++ metadata)
    return (f.codec.compress raw, b)

/-- The nodes with their registered contents; there are as many of them as before. -/
def correctNodes (nimap : NameIdMapping) (nodes : Nodes) (nodedef : NodeDefManager) :
    Except String (NodeDefManager × Nodes) :=
  match h : correctBlockNodeIds nimap nodes.list nodedef with
  | .error e => .error e
  | .ok rest => .ok (rest.1, ⟨rest.2, (length_correctIds h).trans nodes.length_eq⟩)

/-- A block that has a single name in its table is shrunk, and is air when that is the name. -/
def finishRead (b : MapBlock) (nimap : NameIdMapping) : MapBlock :=
  if nimap.size = 1 then
    { b.tryShrinkNodes with
      mIsAir := (nimap.getId (ascii "air")).isSome
      mIsAirExpired := false }
  else b

/-- The flags; the second one is not read. -/
def readHead (b : MapBlock) : Lib.Reader MapBlock := do
  let flags ← Reader.readU8
  let lightingComplete ← Reader.readU16
  return { b with
    isUnderground := flags &&& 0x01 != 0
    lightingComplete := lightingComplete
    generated := flags &&& 0x08 == 0 }

def readBulk : Lib.Reader Nodes := do
  let contentWidth ← Reader.readU8
  let paramsWidth ← Reader.readU8
  if contentWidth ≠ 1 ∧ contentWidth ≠ 2 then
    throw "MapBlock::deSerialize(): invalid content_width"
  else if paramsWidth ≠ 2 then throw "MapBlock::deSerialize(): invalid params_width"
  else deSerializeBulk contentWidth paramsWidth

variable (f : Format) (itemdef : ItemDefManager)

def readDisk (nodedef : NodeDefManager) (b : MapBlock) :
    Lib.Reader (MapBlock × NodeDefManager) := do
  let b ← b.readHead
  let timestamp ← Reader.readU32
  let nimap ← NameIdMapping.deSerialize
  let nodes ← readBulk
  let metadata ← NodeMetadataList.deSerialize f.reader itemdef false
  let staticObjects ← b.staticObjects.deSerialize
  let ids ← correctNodes nimap nodes nodedef
  let nodeTimers ← NodeTimerList.deSerialize
  let b : MapBlock := { b with
    timestamp := timestamp
    diskTimestamp := timestamp
    data := .full ids.2
    nodeMetadata := metadata
    staticObjects := staticObjects
    nodeTimers := nodeTimers }
  return (b.finishRead nimap, ids.1)

def readNetwork (b : MapBlock) : Lib.Reader MapBlock := do
  let b ← b.readHead
  let nodes ← readBulk
  let metadata ← NodeMetadataList.deSerialize f.reader itemdef false
  return { b with data := .full nodes, nodeMetadata := metadata }

/-- The block that is read into keeps its active objects and its references. -/
def deSerialize (nodedef : NodeDefManager) (b : MapBlock)
    (bytes : Bytes) (disk : Bool) : Except String (MapBlock × NodeDefManager) := do
  let b := { b with mIsAirExpired := true, data := .full b.data.expand }
  let raw ← f.codec.decompress bytes
  if disk then
    let read ← (readDisk f itemdef nodedef b) { rest := raw }
    return read.1
  else
    let read ← (readNetwork f itemdef b) { rest := raw }
    return (read.1, nodedef)

end MapBlock

end Map
end AxisEngine
