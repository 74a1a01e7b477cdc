import AxisEngine.Inventory.InventoryList
import AxisEngine.Inventory.ItemText

/-!
# Inventory — named lists, and their text

`Inventory` and the text of its lists (`inventory.cpp`, `inventory.h`).  A pointer to a list is its
index here.  Reading throws away what a failed reading has changed.

* `Inventory.addList`, `Inventory.deleteList` — the operations on the lists;
* `InventoryList.serialize`, `InventoryList.deSerialize` — the text of one list, line by line;
* `Inventory.serialize`, `Inventory.deSerialize` — the text of all lists; an incremental one leaves
  out the lists that are not flagged.
-/

namespace AxisEngine
namespace Inventory

open Lib Util

/-! ## One list -/

namespace InventoryList

def serializeItem (order : MapOrder) (s : ItemStack) : Bytes :=
  (if s.isEmpty then ascii "Empty" else ascii "Item " ++ s.serialize order) ++ [10]

def serialize (order : MapOrder) (l : InventoryList) : Bytes :=
  ascii "Width " ++ decimal l.width.toNat ++ 10 ::
    (l.items.flatMap (serializeItem order) ++ ascii "EndInventoryList\n")

/-- A line ends the list, or leads to the next line; with the list and the next item's index. -/
inductive Line
  | stop (l : InventoryList)
  | next (l : InventoryList) (i : Nat)

/-- "Clear leftover items". -/
def clearFrom (l : InventoryList) (i : Nat) : InventoryList :=
  { l with
    items := l.items.take i ++ (l.items.drop i).map fun _ => .cleared
    length_lt := by
      rw [List.length_append, List.length_map, ← List.length_append, List.take_append_drop]
      exact l.length_lt }

def tooManyItems : Exception :=
  .serializationError (ascii "too many items")

/-- One round of the loop of `deSerialize`. -/
def readLine (r : Reader) (itemdef : Option ItemDefManager) (line : Bytes) (l : InventoryList)
    (i : Nat) : Except Exception Line :=
  let (name, iss) := ({ rest := line } : IStream).getline 32
  if name = ascii "EndInventoryList" ∨ name = ascii "end" then .ok (.stop (l.clearFrom i))
  else if name = ascii "Width" then
    let (width, iss) := iss.extract 4294967295
    if iss.fail then .error (.serializationError (ascii "incorrect width property"))
    else .ok (.next { l with width := UInt32.ofNat (width.getD 0) } i)
  else if name = ascii "Item" then
    if l.getSize.toNat ≤ i then .error tooManyItems
    else do
      let item ← ItemStack.deSerialize r itemdef iss
      .ok (.next (l.setItem i item) (i + 1))
  else if name = ascii "Empty" then
    if l.getSize.toNat ≤ i then .error tooManyItems
    else .ok (.next (l.setItem i .cleared) (i + 1))
  else if name = ascii "Keep" then .ok (.next l (i + 1))
  else .ok (.next l i)

/-- "Contents given to deSerialize() were not terminated properly". -/
def malformatted (l : InventoryList) (i : Nat) : Exception :=
  .serializationError (ascii "Malformatted inventory list. list=" ++ l.name ++ ascii ", read " ++
    decimal i ++ ascii " of " ++ decimal l.getSize.toNat ++ ascii " ItemStacks.\n")

/-- The loop of `deSerialize`; every round takes something out of the stream. -/
def readLines (r : Reader) (itemdef : Option ItemDefManager) :
    Nat → IStream → InventoryList → Nat → Except Exception (InventoryList × IStream)
  | 0, _, l, i => .error (l.malformatted i)
  | fuel + 1, is, l, i =>
    if !is.good then .error (l.malformatted i)
    else do
      let (line, is) := is.getline 10
      match ← readLine r itemdef line l i with
      | .stop l => .ok (l, is)
      | .next l i => readLines r itemdef fuel is l i

def deSerialize (r : Reader) (itemdef : Option ItemDefManager) (is : IStream)
    (l : InventoryList) : Except Exception (InventoryList × IStream) :=
  readLines r itemdef (is.rest.length + 2) is { l with width := 0, dirty := true } 0

end InventoryList

/-! ## All lists -/

end Inventory

/-- `m_lists` and `m_dirty`. -/
structure Inventory where
  itemdef : Inventory.ItemDefManager
  lists : List Inventory.InventoryList := []
  dirty : Bool := true

namespace Inventory

open Lib Util

variable (inv : Inventory)

def getListIndex (name : Bytes) : Option Nat :=
  inv.lists.findIdx? fun l => l.name = name

def getList (name : Bytes) : Option InventoryList :=
  inv.lists.find? fun l => l.name = name

def setModified (dirty : Bool) : Inventory :=
  { inv with
    dirty := dirty
    -- "Set all as handled"
    lists := if dirty then inv.lists else inv.lists.map fun l => l.setModified false }

def checkModified : Bool :=
  inv.dirty || inv.lists.any fun l => l.dirty

/-- Replace the list at an index. -/
def setListAt (i : Nat) (l : InventoryList) : Inventory :=
  { inv with lists := inv.lists.set i l }

/-- `addList`: an existing list is emptied, and a new list must not have a blank in its name. -/
def addList (name : Bytes) (size : UInt32) : Inventory :=
  let inv := inv.setModified true
  match inv.getListIndex name with
  | some i =>
    match inv.lists[i]? with
    | some l => inv.setListAt i (l.setSize size).clearItems
    | none => inv
  | none =>
    -- "don't create list with invalid name"
    if 32 ∈ name then inv
    else { inv with lists := inv.lists ++ [InventoryList.create name size] }

def deleteList (name : Bytes) : Inventory :=
  match inv.getListIndex name with
  | none => inv
  | some i =>
    let inv := inv.setModified true
    { inv with lists := inv.lists.eraseIdx i }

/-- A list in the text, or a line that says to keep it. -/
def serializeList (order : MapOrder) (incremental : Bool) (l : InventoryList) : Bytes :=
  if !incremental || l.dirty then
    ascii "List " ++ l.name ++ 32 :: (decimal l.getSize.toNat ++ 10 :: l.serialize order)
  else ascii "KeepList " ++ l.name ++ [10]

def serialize (order : MapOrder) (incremental : Bool) (inv : Inventory) : Bytes :=
  inv.lists.flatMap (serializeList order incremental) ++ ascii "EndInventory\n"

/-- "Remove all lists that were not sent". -/
def removeOthers (newLists : List Nat) : Inventory :=
  let kept := inv.lists.zipIdx.filter fun e => e.2 ∈ newLists
  { inv with
    lists := kept.map Prod.fst
    dirty := inv.dirty || decide (kept.length < inv.lists.length) }

/-- A `List` line: the list with its name is created or resized, and then read. -/
def readList (r : Reader) (iss is : IStream) (inv : Inventory) (newLists : List Nat) :
    Except Exception (Inventory × List Nat × IStream) := do
  let (listname, iss) := iss.getline 32
  let (listsize, _) := iss.extract 4294967295
  let listsize := UInt32.ofNat (listsize.getD r.uninitialized.toNat)
  match inv.getListIndex listname with
  | none =>
    let (l, is) ← (InventoryList.create listname listsize).deSerialize r inv.itemdef is
    .ok ({ inv with lists := inv.lists ++ [l] }, newLists ++ [inv.lists.length], is)
  | some i =>
    let l := (inv.lists[i]?.getD (InventoryList.create listname listsize)).setSize listsize
    let (l, is) ← l.deSerialize r inv.itemdef is
    .ok (inv.setListAt i l, newLists ++ [i], is)

def malformatted : Exception :=
  .serializationError (ascii "Malformatted inventory (damaged?). " ++ decimal inv.lists.length ++
    ascii " lists read.\n")

/-- The loop of `deSerialize`; `newLists` are the lists that were sent. -/
def readLists (r : Reader) :
    Nat → IStream → Inventory → List Nat → Except Exception (Inventory × IStream)
  | 0, _, inv, _ => .error inv.malformatted
  | fuel + 1, is, inv, newLists =>
    if !is.good then .error inv.malformatted
    else
      let (line, is) := is.getline 10
      let (name, iss) := ({ rest := line } : IStream).getline 32
      if name = ascii "EndInventory" ∨ name = ascii "end" then
        .ok (inv.removeOthers newLists, is)
      else if name = ascii "List" then do
        let (inv, newLists, is) ← readList r iss is inv newLists
        readLists r fuel is inv newLists
      else if name = ascii "KeepList" then
        let (listname, _) := iss.getline 32
        match inv.getListIndex listname with
        | some i => readLists r fuel is inv (newLists ++ [i])
        | none => readLists r fuel is inv newLists
      else readLists r fuel is inv newLists

def deSerialize (r : Reader) (is : IStream) (inv : Inventory) :
    Except Exception (Inventory × IStream) :=
  readLists r (is.rest.length + 2) is inv []

/-- What `operator ==` compares. -/
def contents : List (UInt32 × Bytes × List ItemStack) :=
  inv.lists.map InventoryList.contents

end Inventory
end AxisEngine
