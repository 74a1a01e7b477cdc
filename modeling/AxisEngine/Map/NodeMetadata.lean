import AxisEngine.Util.StringFields
import AxisEngine.Map.BlockPos
import AxisEngine.Lib.SortedByKey
import AxisEngine.Inventory.InventoryText
import Mathlib.Data.List.AList
import Mathlib.Data.Finset.Insert
import Mathlib.Data.Prod.Lex

/-!
# NodeMetadata — what is stored with a node

`nodemetadata.cpp`: the variables of a node, some of them private, and its inventory; and the list of
all the metadata in a block.  One writer makes the form for the disk and the form for clients, which
does not have the private variables.

* `NodeMetadata` — the variables in the order in which they are gone through;
* `NodeMetadataList` — the map, with its order as a field;
* `serialize`, `deSerialize` — the format.
-/

namespace AxisEngine
namespace Map

open Lib Util Inventory

structure NodeMetadata where
  stringvars : AList fun _ : Bytes => Bytes
  privatevars : Finset Bytes
  inventory : Inventory

namespace NodeMetadata

/-- A new object. -/
def create (itemdef : ItemDefManager) : NodeMetadata where
  stringvars := ∅
  privatevars := ∅
  inventory := { itemdef := itemdef }

variable (m : NodeMetadata)

def clear : NodeMetadata :=
  create m.inventory.itemdef

def isPrivate (name : Bytes) : Bool :=
  decide (name ∈ m.privatevars)

def empty : Bool :=
  m.stringvars.entries.isEmpty && m.inventory.lists.isEmpty

/-- The names in `m_privatevars` need not be there. -/
def countNonPrivate : Nat :=
  m.stringvars.entries.countP fun e => !m.isPrivate e.1

/-- The variables that `serialize` does not pass over. -/
def writtenVars (disk : Bool) : List (Sigma fun _ : Bytes => Bytes) :=
  m.stringvars.entries.filter fun e => !(!disk && m.isPrivate e.1)

def serializeVar (version : UInt8) (e : Sigma fun _ : Bytes => Bytes) : Except String Bytes := do
  let name ← serializeString16 e.1
  let value ← serializeString32 e.2
  return name ++ (value ++ if version ≥ 2 then [if m.isPrivate e.1 then 1 else 0] else [])

/-- `order` is how the strings of an item are gone through. -/
def serialize (order : MapOrder) (m : NodeMetadata) (version : UInt8) (disk : Bool) :
    Except String Bytes := do
  let numVars := if disk then m.stringvars.entries.length else m.countNonPrivate
  let vars ← concatM (m.serializeVar version) (m.writtenVars disk)
  return writeU32 (UInt32.ofNat numVars) ++ (vars ++ m.inventory.serialize order false)

/-- A name, its value, and whether it is marked. -/
structure Var where
  name : Bytes
  value : Bytes
  priv : Bool

def readMark (version : UInt8) : Lib.Reader Bool := do
  if version ≥ 2 then
    let mark ← Reader.readU8
    return mark == 1
  else return false

def readVar (version : UInt8) : Lib.Reader Var := do
  let name ← deSerializeString16
  let value ← deSerializeString32
  let priv ← readMark version
  return ⟨name, value, priv⟩

def addVar (v : Var) : NodeMetadata :=
  { m with
    stringvars := m.stringvars.insert v.name v.value
    privatevars := if v.priv then insert v.name m.privatevars else m.privatevars }

/-- The text of an exception from the inventory's reader. -/
def what : Exception → String
  | .serializationError text => textOf text
  | .jsonError => "invalid JSON"

def readInventory (r : Inventory.Reader) (inv : Inventory) : Lib.Reader Inventory := fun s =>
  (inv.deSerialize r s).mapError what

def deSerialize (r : Inventory.Reader) (m : NodeMetadata) (version : UInt8) :
    Lib.Reader NodeMetadata := do
  let m := m.clear
  let numVars ← Reader.readU32
  let vars ← Reader.readMany numVars.toNat (readVar version)
  let m := vars.foldl addVar m
  let inventory ← readInventory r m.inventory
  return { m with inventory := inventory }

end NodeMetadata

/-! ## The list of a block -/

/-- `operator<`: X first, then Y, then Z. -/
def posKey (p : V3s16) : ℤ ×ₗ (ℤ ×ₗ ℤ) :=
  toLex (p.x.toInt, toLex (p.y.toInt, p.z.toInt))

def metaKey (e : V3s16 × NodeMetadata) : ℤ ×ₗ (ℤ ×ₗ ℤ) :=
  posKey e.1

/-- Two positions that the map does not tell apart are one. -/
theorem posKey_injective : Function.Injective posKey := by
  rintro ⟨x, y, z⟩ ⟨x', y', z'⟩ h
  have hx : x.toInt = x'.toInt := congrArg (fun k => (ofLex k).1) h
  have hy : y.toInt = y'.toInt := congrArg (fun k => (ofLex (ofLex k).2).1) h
  have hz : z.toInt = z'.toInt := congrArg (fun k => (ofLex (ofLex k).2).2) h
  rw [Int16.toInt_inj.1 hx, Int16.toInt_inj.1 hy, Int16.toInt_inj.1 hz]

structure NodeMetadataList where
  data : List (V3s16 × NodeMetadata)
  sorted : StrictSorted metaKey data

namespace NodeMetadataList

def empty : NodeMetadataList := ⟨[], .nil⟩

variable (l : NodeMetadataList)

def positions : List V3s16 := l.data.map Prod.fst

def remove (p : V3s16) : NodeMetadataList :=
  ⟨l.data.filter fun e => e.1 ≠ p, l.sorted.sublist List.filter_sublist⟩

def countNonEmpty : Nat :=
  l.data.countP fun e => !e.2.empty

def writePos (absolutePos : Bool) (p : V3s16) : Bytes :=
  if absolutePos then writeS16 p.x ++ (writeS16 p.y ++ writeS16 p.z)
  else writeU16 (blockIndex p)

def readPos (absolutePos : Bool) : Lib.Reader V3s16 := do
  if absolutePos then
    let x ← readS16
    let y ← readS16
    let z ← readS16
    return ⟨x, y, z⟩
  else
    let p16 ← Reader.readU16
    return ofBlockIndex p16

/-- The entries that `serialize` does not pass over. -/
def written (includeEmpty : Bool) : List (V3s16 × NodeMetadata) :=
  l.data.filter fun e => !(!includeEmpty && e.2.empty)

def formatVersion (blockver : UInt8) : UInt8 :=
  if blockver > 27 then 2 else 1

def serializeEntry (order : MapOrder) (version : UInt8) (disk absolutePos : Bool)
    (e : V3s16 × NodeMetadata) : Except String Bytes := do
  let data ← e.2.serialize order version disk
  return writePos absolutePos e.1 ++ data

def serialize (order : MapOrder) (l : NodeMetadataList) (blockver : UInt8)
    (disk absolutePos includeEmpty : Bool) : Except String Bytes := do
  let count := UInt16.ofNat (if includeEmpty then l.data.length else l.countNonEmpty)
  if count = 0 then
    -- "Version 0 is a placeholder for "nothing to see here; go away.""
    return [0]
  else
    let entries ← concatM (serializeEntry order (formatVersion blockver) disk absolutePos)
      (l.written includeEmpty)
    return formatVersion blockver :: (writeU16 count ++ entries)

theorem metaKey_ne {l : NodeMetadataList} {p : V3s16} {data : NodeMetadata}
    (h : p ∉ l.positions) {e : V3s16 × NodeMetadata} (he : e ∈ l.data) :
    metaKey e ≠ metaKey (p, data) := by
  intro heq
  have hpos : e.1 = p := posKey_injective heq
  exact h (hpos ▸ List.mem_map_of_mem he)

/-- `m_data[p] = data` for a position that is not there yet. -/
def add (p : V3s16) (data : NodeMetadata) (h : p ∉ l.positions) : NodeMetadataList :=
  ⟨insertAt metaKey (p, data) l.data, l.sorted.insertAt fun _ he => metaKey_ne h he⟩

/-- The loop of `deSerialize`; of a position that is already set nothing more is read. -/
def readEntries (r : Inventory.Reader) (itemdef : ItemDefManager) (version : UInt8)
    (absolutePos : Bool) : Nat → NodeMetadataList → Lib.Reader NodeMetadataList
  | 0, l => pure l
  | n + 1, l => do
      let p ← readPos absolutePos
      if h : p ∈ l.positions then readEntries r itemdef version absolutePos n l
      else
        let data ← (NodeMetadata.create itemdef).deSerialize r version
        readEntries r itemdef version absolutePos n (l.add p data h)

def deSerialize (r : Inventory.Reader) (itemdef : ItemDefManager) (absolutePos : Bool) :
    Lib.Reader NodeMetadataList := do
  let version ← Reader.readU8
  if version = 0 then return empty
  else if version > 2 then
    throw ("deSerialize: version " ++ toString version.toNat ++ " not supported")
  else
    let count ← Reader.readU16
    readEntries r itemdef version absolutePos count.toNat empty

end NodeMetadataList

end Map
end AxisEngine
