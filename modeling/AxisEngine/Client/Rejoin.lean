import AxisEngine.Map.MapBlock

/-!
# Rejoin — the client takes its world over into a new session

When the link is lost the client keeps its world and logs in again.  The definitions of the new
session are held back until all of it has arrived; then they replace the old ones, and the contents
of the map are renumbered by name, if most of the old names are still there.

* `NodeDefs`, `Definitions` — definitions as they are sent, and as the client has them;
* `remapContentIds` — a block under other numbers;
* `Client` — the link, the definitions, the map;
* `beginRejoin`, `handleCommandNodeDef`, `applyPendingContent` — the way into a new session;
* `Event`, `Step` — what may happen next.
-/

namespace AxisEngine
namespace Rejoin

open Lib Map

/-- What a server sends: the name of each number, once. -/
structure NodeDefs where
  entries : List (UInt16 × Bytes)
  nodup : (entries.map Prod.fst).Nodup

/-- The three types of the engine are not sent. -/
def isBuiltin (i : UInt16) : Bool :=
  i = contentIgnore || i = contentAir || i = contentUnknown

/-- The definitions of the client, and the size of `m_content_features`. -/
structure Definitions where
  manager : NodeDefManager
  size : Nat

namespace Definitions

variable (d : Definitions)

def get (c : UInt16) : Bytes := d.manager.get c

def getId (name : Bytes) : Option UInt16 := d.manager.getId name

/-- `clear`. -/
def builtin : Definitions where
  manager := .builtin
  size := 128

def add (i : UInt16) (name : Bytes) : Definitions where
  manager := (d.manager.setName i name).addNameIdMapping i name
  size := max d.size (i.toNat + 1)

/-- One round of the loop of `deSerialize`. -/
def receive (entry : UInt16 × Bytes) : Definitions :=
  if isBuiltin entry.1 then d
  else if entry.2 = [] then d
  else
    match d.manager.nameIdMapping.getId entry.2 with
    | some existing => if entry.1 ≠ existing then d else d.add entry.1 entry.2
    | none => d.add entry.1 entry.2

def deSerialize (defs : NodeDefs) : Definitions :=
  defs.entries.foldl receive builtin

/-- The items with the name that each one stands for.  Only the names of nodes count, and the first
pair of a name. -/
def updateAliases (items : List (Bytes × Bytes)) : Definitions where
  manager := { d.manager with
    nameIdMappingWithAliases := items.foldl (fun aliases item =>
      match d.manager.nameIdMapping.getId item.2 with
      | some id => if item.1 ∈ aliases then aliases else aliases.insert item.1 id
      | none => aliases) ∅ }
  size := d.size

/-- `rememberNodeIds`.  The counter has 16 bits: `none` is a loop that does not end. -/
def nodeNames : Option (List Bytes) :=
  if 65535 < d.size then none
  else some ((List.range d.size).map fun i => d.get (UInt16.ofNat i))

end Definitions

def remapNode (mapping : List UInt16) (n : MapNode) : MapNode :=
  n.setContent (mapping.getD n.getContent.toNat contentUnknown)

/-- A block of a single node only stores that one. -/
def remapContentIds (mapping : List UInt16) (b : MapBlock) : MapBlock :=
  match b.data with
  | .mono n => { b with data := .mono (remapNode mapping n) }
  | .full nodes =>
    let nodes : Nodes :=
      ⟨nodes.list.map (remapNode mapping), (List.length_map _).trans nodes.length_eq⟩
    { b with data := .full nodes }

inductive LinkState
  | live | lost | rejoining
deriving DecidableEq

/-- `meshRunning`: the mesh update threads run. -/
structure Client where
  linkState : LinkState := .live
  worldOfPreviousSession : Bool := false
  mapSurvivedSession : Bool := false
  previousNodeNames : List Bytes := []
  pendingNodedef : Option NodeDefs := none
  nodedefReceived : Bool := false
  meshRunning : Bool := false
  nodedef : Definitions := .builtin
  blocks : V3s16 → Option MapBlock := fun _ => none

namespace Client

def loseLink (c : Client) : Client :=
  if c.linkState = .lost then c
  else { c with linkState := .lost, worldOfPreviousSession := true }

def beginRejoin (c : Client) : Client :=
  { c with
    linkState := .rejoining
    mapSurvivedSession := false
    pendingNodedef := none
    nodedefReceived := false
    meshRunning := false }

/-- `none`: the check of the mesh threads fails, the definitions cannot be read (there are none), or
a loop does not end. -/
def handleCommandNodeDef (c : Client) (defs : Option NodeDefs) : Option Client :=
  c.nodedef.nodeNames.bind fun names =>
    let c := { c with previousNodeNames := names }
    if c.meshRunning then none
    -- held back, for the world still lives by the old ones
    else if c.linkState = .rejoining then
      some { c with pendingNodedef := defs, nodedefReceived := true }
    else
      defs.map fun defs => { c with nodedef := .deSerialize defs, nodedefReceived := true }

/-- Most of the old names are still there. -/
def survives (names : List Bytes) (d : Definitions) : Bool :=
  let lost := names.countP fun name => d.getId name = none
  let known := names.length - lost
  names ≠ [] && names.length ≤ known * 2

def takeOverWorldOfPreviousSession (c : Client) : Client :=
  if c.worldOfPreviousSession then
    let mapping := c.previousNodeNames.map fun name => (c.nodedef.getId name).getD contentUnknown
    let survived := survives c.previousNodeNames c.nodedef
    { c with
      worldOfPreviousSession := false
      mapSurvivedSession := survived
      blocks := fun p => if survived then (c.blocks p).map (remapContentIds mapping) else none }
  else c

def applyPendingContent (c : Client) : Option Client :=
  match c.pendingNodedef with
  | none => some c
  | some defs =>
    c.nodedef.nodeNames.map fun names =>
      takeOverWorldOfPreviousSession { c with
        previousNodeNames := names
        nodedef := .deSerialize defs
        pendingNodedef := none }

def linkRestored (c : Client) : Client :=
  { c with linkState := .live, worldOfPreviousSession := false }

end Client

/-! ## Runs -/

inductive Event
  | loseLink
  | beginRejoin
  | nodeDef (defs : Option NodeDefs)
  | applyPendingContent
  | linkRestored
  | afterContentReceived (items : List (Bytes × Bytes))
  /-- Blocks come and go, nodes change. -/
  | mapChanged (blocks : V3s16 → Option MapBlock)

namespace Client

/-- A new login starts when the link is lost, and takes effect when all of it has arrived.
Definitions come before that; no packet is read on the way from there to the restored link. -/
def Possible (c : Client) : Event → Prop
  | .beginRejoin => c.linkState = .lost
  | .nodeDef _ => c.linkState = .rejoining ∧ c.worldOfPreviousSession = true ∨
      c.linkState = .live ∧ c.nodedefReceived = false
  | .applyPendingContent => c.linkState = .rejoining ∧ c.nodedefReceived = true
  | .linkRestored =>
    c.linkState = .rejoining ∧ c.nodedefReceived = true ∧ c.pendingNodedef.isNone = true
  | _ => True

/-- `none`: the client ends or does not go on. -/
def apply (c : Client) : Event → Option Client
  | .loseLink => some c.loseLink
  | .beginRejoin => some c.beginRejoin
  | .nodeDef defs => c.handleCommandNodeDef defs
  | .applyPendingContent => c.applyPendingContent
  | .linkRestored => some c.linkRestored
  | .afterContentReceived items =>
    some { c with nodedef := c.nodedef.updateAliases items, meshRunning := true }
  | .mapChanged blocks => some { c with blocks := blocks }

inductive Step : Client → Event → Client → Prop
  | apply {c d : Client} {e : Event} (hpossible : c.Possible e) (h : c.apply e = some d) : Step c e d

end Client

end Rejoin
end AxisEngine
