import AxisEngine.Inventory.MoveAction
import AxisEngine.Util.Strings
import AxisEngine.Util.V3s16
import Mathlib.Logic.Function.Basic

/-!
# RollbackManager — the log of who changed what

Actions wait in memory, go to the database as rows, and come back as actions.  The database keeps the rows as
they are; an `int` of the source is an integer here, and what is narrower is cut where the source cuts it.

* `RollbackAction`, `ActionRow`, `DbRow` — an action, its row in memory and in the database;
* `NameTable` — the numbers of actors, and those of nodes and items;
* `registerRow`, `actionRow` — a row is bound to the statement, and read from a selected row;
* `addAction`, `flush`, `getRevertActions`.
-/

namespace AxisEngine
namespace Rollback

open Lib Util Inventory

/-! ## Actions -/

structure RollbackNode where
  name : Bytes
  param1 : ℤ
  param2 : ℤ
  metadata : Bytes
  deriving DecidableEq

inductive ActionType
  | nothing
  | setNode
  | modifyInventoryStack
  deriving DecidableEq

def ActionType.toInt : ActionType → ℤ
  | .nothing => 0
  | .setNode => 1
  | .modifyInventoryStack => 2

structure RollbackAction where
  unixTime : ℤ
  actor : Bytes
  actorIsGuess : Bool
  type : ActionType
  p : V3s16
  nOld : RollbackNode
  nNew : RollbackNode
  inventoryLocation : Bytes
  inventoryList : Bytes
  inventoryIndex : UInt32
  inventoryAdd : Bool
  inventoryStack : ItemStack
  deriving DecidableEq

/-- `RollbackAction()`; the source leaves the index and the direction open. -/
def RollbackAction.empty : RollbackAction where
  unixTime := 0
  actor := []
  actorIsGuess := false
  type := .nothing
  p := ⟨0, 0, 0⟩
  nOld := ⟨[], 0, 0, []⟩
  nNew := ⟨[], 0, 0, []⟩
  inventoryLocation := []
  inventoryList := []
  inventoryIndex := 0
  inventoryAdd := false
  inventoryStack := .cleared

/-- `InventoryLocation::serialize` -/
def serialize : InventoryLocation → Bytes
  | .undefined => ascii "undefined"
  | .currentPlayer => ascii "current_player"
  | .player name => ascii "player:" ++ name
  | .nodemeta x y z =>
    ascii "nodemeta:" ++ itos x.toInt32 ++ ascii "," ++ itos y.toInt32 ++ ascii "," ++ itos z.toInt32
  | .detached name => ascii "detached:" ++ name

/-! ## Rows -/

/-- `ActionRow`; `stackId` is the `id` of its `ItemStackRow`. -/
structure ActionRow where
  id : ℤ := 0
  actor : ℤ
  timestamp : ℤ
  type : ℤ
  location : Bytes := []
  list : Bytes := []
  index : ℤ := 0
  add : ℤ := 0
  stack : ItemStack := .cleared
  stackId : ℤ := 0
  nodeMeta : ℤ := 0
  x : ℤ := 0
  y : ℤ := 0
  z : ℤ := 0
  oldNode : ℤ := 0
  oldParam1 : ℤ := 0
  oldParam2 : ℤ := 0
  oldMeta : Bytes := []
  newNode : ℤ := 0
  newParam1 : ℤ := 0
  newParam2 : ℤ := 0
  newMeta : Bytes := []
  guessed : ℤ := 0

inductive Value
  | null
  | int (v : ℤ)
  | text (t : Bytes)
  deriving DecidableEq

/-- `sqlite3_column_int` of a number or of nothing -/
def Value.toInt : Value → ℤ
  | .int v => v
  | _ => 0

/-- `sqlite3_column_text` and `sqlite3_column_bytes` of a text or of nothing -/
def Value.toText : Value → Bytes
  | .text t => t
  | _ => []

/-- The parameters of a prepared statement.  They stay bound until they are bound again. -/
abbrev Bindings := ℕ → Value

def Bindings.bind (b : Bindings) (values : List (ℕ × Value)) : Bindings :=
  values.foldl (fun b (k, v) => Function.update b k v) b

/-- A row of the table `action`: column `k` got the parameter `k` of the statement. -/
structure DbRow where
  id : ℤ
  columns : Bindings

/-- `s.find(c, pos)` -/
def find (s : Bytes) (c : UInt8) (pos : ℕ) : Option ℕ :=
  ((s.drop pos).findIdx? (· = c)).map (pos + ·)

/-- One behind a position; behind `npos` it starts over. -/
def behind : Option ℕ → ℕ
  | some p => p + 1
  | none => 0

/-- `s.substr(p1, p2 - p1)` -/
def slice (s : Bytes) (p1 : ℕ) : Option ℕ → Bytes
  | some p2 => (s.drop p1).take (p2 - p1)
  | none => s.drop p1

/-- The three numbers behind `nodemeta:` -/
def coordinates (loc : Bytes) : Int32 × Int32 × Int32 :=
  let p1 := behind (find loc 58 0)
  let p2 := find loc 44 0
  let x := slice loc p1 p2
  let p1 := behind p2
  let p2 := find loc 44 p1
  let y := slice loc p1 p2
  let z := loc.drop (behind p2)
  (atoi x, atoi y, atoi z)

def isNodeMeta (loc : Bytes) : Bool := loc.take 9 = ascii "nodemeta:"

/-- The bindings of `registerRow`, in its order -/
def bindRow (b : Bindings) (row : ActionRow) : Bindings :=
  let b := b.bind [(1, .int row.actor), (2, .int row.timestamp), (3, .int row.type)]
  let inventory := row.type = ActionType.modifyInventoryStack.toInt
  let nodeMeta := inventory ∧ isNodeMeta row.location
  let b :=
    if inventory then
      let b := b.bind [(4, .text row.list), (5, .int row.index), (6, .int row.add), (7, .int row.stackId),
        (8, .int row.stack.count.toNat), (9, .int (if nodeMeta then 1 else 0))]
      if nodeMeta then
        let (x, y, z) := coordinates row.location
        b.bind [(10, .int x.toInt), (11, .int y.toInt), (12, .int z.toInt)]
      else b
    else b.bind [(4, .null), (5, .null), (6, .null), (7, .null), (8, .null), (9, .null)]
  if row.type = ActionType.setNode.toInt then
    b.bind [(10, .int row.x), (11, .int row.y), (12, .int row.z),
      (13, .int row.oldNode), (14, .int row.oldParam1), (15, .int row.oldParam2), (16, .text row.oldMeta),
      (17, .int row.newNode), (18, .int row.newParam1), (19, .int row.newParam2), (20, .text row.newMeta),
      (21, .int (if row.guessed ≠ 0 then 1 else 0))]
  else
    let b := if nodeMeta then b else b.bind [(10, .null), (11, .null), (12, .null)]
    b.bind [(13, .null), (14, .null), (15, .null), (16, .null), (17, .null), (18, .null), (19, .null),
      (20, .null), (21, .null)]

/-! ## Names -/

structure Entity where
  id : ℤ
  name : Bytes
  deriving DecidableEq

/-- A table of names with its copy in memory; `last` is the last row id it gave out. -/
structure NameTable where
  known : List Entity
  last : ℤ

def NameTable.getId (t : NameTable) (name : Bytes) : NameTable × ℤ :=
  match t.known.find? fun e => e.name = name with
  | some e => (t, e.id)
  | none =>
    let id := t.last + 1
    ({ known := t.known ++ [⟨id, name⟩], last := id }, id)

/-- What a C string shows of a name -/
def cStr (name : Bytes) : Bytes := name.takeWhile (· ≠ 0)

def NameTable.getName (t : NameTable) (id : ℤ) : Bytes :=
  match t.known.find? fun e => e.id = id with
  | some e => cStr e.name
  | none => []

/-! ## The manager -/

structure RollbackManager where
  actionTodiskBuffer : List RollbackAction
  actionLatestBuffer : List RollbackAction
  stmtInsert : Bindings
  stmtReplace : Bindings
  actors : NameTable
  nodes : NameTable
  actions : List DbRow
  lastAction : ℤ

/-- A manager with a new database -/
def RollbackManager.new : RollbackManager where
  actionTodiskBuffer := []
  actionLatestBuffer := []
  stmtInsert := fun _ => .null
  stmtReplace := fun _ => .null
  actors := ⟨[], 0⟩
  nodes := ⟨[], 0⟩
  actions := []
  lastAction := 0

namespace RollbackManager

variable (s : RollbackManager)

def getActorId (name : Bytes) : RollbackManager × ℤ :=
  let (actors, id) := s.actors.getId name
  ({ s with actors }, id)

def getNodeId (name : Bytes) : RollbackManager × ℤ :=
  let (nodes, id) := s.nodes.getId name
  ({ s with nodes }, id)

def getActorName (id : ℤ) : Bytes := s.actors.getName id

def getNodeName (id : ℤ) : Bytes := s.nodes.getName id

/-- A row with an id replaces the row of that id. -/
def registerRow (row : ActionRow) : RollbackManager :=
  if row.id ≠ 0 then
    let b := (bindRow s.stmtReplace row).bind [(22, .int row.id)]
    { s with
      stmtReplace := b
      actions := s.actions.filter (·.id ≠ row.id) ++ [⟨row.id, b⟩]
      lastAction := max s.lastAction row.id }
  else
    let b := bindRow s.stmtInsert row
    let id := s.lastAction + 1
    { s with stmtInsert := b, actions := s.actions ++ [⟨id, b⟩], lastAction := id }

/-- One turn of `actionRowsFromSelect`: column `k` of the selection is column `k + 1` of the row. -/
def actionRow (row : DbRow) : ActionRow :=
  let column := fun k => row.columns (k + 1)
  let actor := (column 0).toInt
  let type := (column 2).toInt
  let inventory := type = ActionType.modifyInventoryStack.toInt
  let node := type = ActionType.setNode.toInt
  let nodeMeta := if inventory then (column 8).toInt else 0
  let placed := node ∨ nodeMeta ≠ 0
  let x := if placed then (column 9).toInt else 0
  let y := if placed then (column 10).toInt else 0
  let z := if placed then (column 11).toInt else 0
  let location :=
    if nodeMeta ≠ 0 then
      ascii "nodemeta:" ++ itos (.ofInt x) ++ ascii "," ++ itos (.ofInt y) ++ ascii "," ++ itos (.ofInt z)
    else s.getActorName actor
  let read : ActionRow := { actor, timestamp := (column 1).toInt, type, nodeMeta, x, y, z, location }
  if inventory then
    { read with
      list := (column 3).toText
      index := (column 4).toInt
      add := (column 5).toInt
      stackId := (column 6).toInt
      stack := { ItemStack.cleared with count := UInt16.ofNat (column 7).toInt.toNat } }
  else if node then
    { read with
      oldNode := (column 12).toInt
      oldParam1 := (column 13).toInt
      oldParam2 := (column 14).toInt
      oldMeta := (column 15).toText
      newNode := (column 16).toInt
      newParam1 := (column 17).toInt
      newParam2 := (column 18).toInt
      newMeta := (column 19).toText
      guessed := (column 20).toInt }
  else read

def actionRowFromRollbackAction (action : RollbackAction) : RollbackManager × ActionRow :=
  let (s, actor) := s.getActorId action.actor
  if action.type = .modifyInventoryStack then
    let (s, stackId) := s.getNodeId action.inventoryStack.name
    (s, {
      actor
      timestamp := action.unixTime
      type := action.type.toInt
      location := action.inventoryLocation
      list := action.inventoryList
      index := action.inventoryIndex.toInt32.toInt
      add := if action.inventoryAdd then 1 else 0
      stack := action.inventoryStack
      stackId })
  else
    let (s, oldNode) := s.getNodeId action.nOld.name
    let (s, newNode) := s.getNodeId action.nNew.name
    (s, {
      actor
      timestamp := action.unixTime
      type := action.type.toInt
      x := action.p.x.toInt
      y := action.p.y.toInt
      z := action.p.z.toInt
      oldNode
      oldParam1 := action.nOld.param1
      oldParam2 := action.nOld.param2
      oldMeta := action.nOld.metadata
      newNode
      newParam1 := action.nNew.param1
      newParam2 := action.nNew.param2
      newMeta := action.nNew.metadata
      guessed := if action.actorIsGuess then 1 else 0 })

/-- One turn of `rollbackActionsFromActionRows`; another type of action fails an assertion. -/
def rollbackAction (row : ActionRow) : Option RollbackAction :=
  let action : RollbackAction :=
    { RollbackAction.empty with
      actor := if row.actor ≠ 0 then s.getActorName row.actor else []
      unixTime := row.timestamp }
  if row.type = ActionType.modifyInventoryStack.toInt then
    let stack := if row.stack.name = [] then { row.stack with name := s.getNodeName row.stackId } else row.stack
    some { action with
      type := .modifyInventoryStack
      inventoryLocation := row.location
      inventoryList := row.list
      inventoryIndex := (Int32.ofInt row.index).toUInt32
      inventoryAdd := row.add ≠ 0
      inventoryStack := stack }
  else if row.type = ActionType.setNode.toInt then
    some { action with
      type := .setNode
      p := ⟨.ofInt row.x, .ofInt row.y, .ofInt row.z⟩
      nOld := ⟨s.getNodeName row.oldNode, row.oldParam1, row.oldParam2, row.oldMeta⟩
      nNew := ⟨s.getNodeName row.newNode, row.newParam1, row.newParam2, row.newMeta⟩ }
  else none

def rollbackActionsFromActionRows (rows : List ActionRow) : Option (List RollbackAction) :=
  rows.mapM s.rollbackAction

/-- `timestamp DESC, id DESC` -/
def later (a b : DbRow) : Bool :=
  let s := (a.columns 2).toInt
  let t := (b.columns 2).toInt
  t < s || (s = t && b.id ≤ a.id)

def getRowsSince (firstTime : ℤ) (actor : Bytes) : RollbackManager × List ActionRow :=
  let since := s.actions.filter fun row => firstTime ≤ (row.columns 2).toInt
  if actor = [] then (s, (since.mergeSort later).map s.actionRow)
  else
    let (s, id) := s.getActorId actor
    (s, ((since.filter fun row => (row.columns 1).toInt = id).mergeSort later).map s.actionRow)

def getActionsSince (startTime : ℤ) (actor : Bytes) :
    RollbackManager × Option (List RollbackAction) :=
  let (s, rows) := s.getRowsSince startTime actor
  (s, s.rollbackActionsFromActionRows rows)

/-- One turn of `flush` -/
def write (action : RollbackAction) : RollbackManager :=
  if action.actor = [] then s
  else
    let (s, row) := s.actionRowFromRollbackAction action
    s.registerRow row

def flush : RollbackManager :=
  { s.actionTodiskBuffer.foldl write s with actionTodiskBuffer := [] }

def addAction (action : RollbackAction) : RollbackManager :=
  let s := { s with
    actionTodiskBuffer := s.actionTodiskBuffer ++ [action]
    actionLatestBuffer := s.actionLatestBuffer ++ [action] }
  let s := if 500 ≤ s.actionTodiskBuffer.length then s.flush else s
  { s with actionLatestBuffer := s.actionLatestBuffer.drop (s.actionLatestBuffer.length - 499) }

def getRevertActions (curTime : ℤ) (actorFilter : Bytes) (seconds : ℤ) :
    RollbackManager × Option (List RollbackAction) :=
  s.flush.getActionsSince (curTime - seconds) actorFilter

end RollbackManager

end Rollback
end AxisEngine
