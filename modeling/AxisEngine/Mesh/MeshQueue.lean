import AxisEngine.Util.V3s16
import Mathlib.Data.Finset.Basic
import Mathlib.Data.Multiset.AddSub
import Mathlib.Algebra.Group.Prod
import Mathlib.Algebra.Order.Group.Multiset
import Mathlib.Algebra.BigOperators.Group.List.Basic

/-!
# MeshQueue — updates of meshes, from the map to the client

`client/mesh_generator_thread.cpp`.  The main thread queues updates with references on the blocks they
need, worker threads take them out, copy the data of the blocks and make the meshes, and the main thread
fetches the results.

A step is one section under the lock of a queue, or the copying of the data in `pop`.  The main thread
works off the sections of one call after the other; what it has still to do is in `todo`.

* `QueuedMeshUpdate`, `MeshUpdateResult` — what goes through the queues;
* `State` — the queues, the threads, and a record of what happened;
* `State.step` — the steps.
-/

namespace AxisEngine
namespace Mesh

/-! ## The grid of meshes -/

structure MeshGrid where
  cellSize : UInt16

namespace MeshGrid

def getCellPos (g : MeshGrid) (p : Int16) : Int16 :=
  let low : Int := if p.toInt < 0 then (g.cellSize.toNat : Int) - 1 else 0
  Int16.ofInt ((p.toInt - low).tdiv g.cellSize.toNat)

/-- "returns closest step of the grid smaller than p". -/
def getMeshPos (g : MeshGrid) (p : V3s16) : V3s16 :=
  let corner (c : Int16) := g.getCellPos c * Int16.ofInt g.cellSize.toNat
  ⟨corner p.x, corner p.y, corner p.z⟩

/-- The positions of the blocks of a mesh, "note the extra margin". -/
def positions (g : MeshGrid) (p : V3s16) : List V3s16 :=
  let range (c : Int16) := (List.range (g.cellSize.toNat + 2)).map fun k => c - 1 + Int16.ofInt k
  (range p.x).flatMap fun x => (range p.z).flatMap fun z => (range p.y).map fun y => ⟨x, y, z⟩

end MeshGrid

/-- `<` of positions goes by x, then by y, then by z. -/
def before (p q : V3s16) : Bool :=
  decide (p.x < q.x ∨ (p.x = q.x ∧ p.y < q.y) ∨ (p.x = q.x ∧ p.y = q.y ∧ p.z < q.z))

/-! ## Updates and results -/

/-- One `refGrab` on a block; `grab` tells it from all others. -/
structure Ref where
  block : Nat
  grab : Nat
  deriving DecidableEq

structure QueuedMeshUpdate where
  p : V3s16
  ackList : List V3s16 := []
  crackLevel : Int := -1
  crackPos : V3s16
  mapBlocks : List (Option Ref) := []
  urgent : Bool := false

/-- The data that `pop` copies from the blocks; `snapshot` counts these copies. -/
structure MeshMakeData where
  snapshot : Nat
  crackLevel : Int
  crackPos : V3s16
  deriving DecidableEq

/-- `mesh` is what the mesh is made from. -/
structure MeshUpdateResult where
  p : V3s16
  mesh : MeshMakeData
  ackList : List V3s16
  urgent : Bool
  mapBlocks : List (Option Ref)

/-- What the main thread sees: the blocks of the map, the block objects, and the crack. -/
structure Client where
  map : V3s16 → Option Nat
  blockPos : Nat → V3s16
  isAir : Nat → Bool
  crackLevel : Int := -1
  crackPos : V3s16 := ⟨0, 0, 0⟩

/-- The acknowledgements, references and snapshots that something carries. -/
abbrev Cargo := Multiset V3s16 × Multiset Ref × Multiset Nat

/-- The references among the slots of an update. -/
def refs (mapBlocks : List (Option Ref)) : Multiset Ref :=
  ↑(mapBlocks.filterMap id)

def QueuedMeshUpdate.cargo (q : QueuedMeshUpdate) : Cargo :=
  (↑q.ackList, refs q.mapBlocks, 0)

def MeshUpdateResult.cargo (r : MeshUpdateResult) : Cargo :=
  (↑r.ackList, refs r.mapBlocks, {r.mesh.snapshot})

/-- The loop of `retrieveBlocks`, with the references it has grabbed; `n` numbers the next one. -/
def grabMissing (client : Client) : Nat → List (Option Ref) → List V3s16 → List (Option Ref) × List Ref
  | n, none :: slots, pos :: rest =>
    match client.map pos with
    | some block =>
      let (slots, grabbed) := grabMissing client (n + 1) slots rest
      (some ⟨block, n⟩ :: slots, ⟨block, n⟩ :: grabbed)
    | none =>
      let (slots, grabbed) := grabMissing client n slots rest
      (none :: slots, grabbed)
  | n, some ref :: slots, _ :: rest =>
    let (slots, grabbed) := grabMissing client n slots rest
    (some ref :: slots, grabbed)
  | _, slots, _ => (slots, [])

namespace QueuedMeshUpdate

/-- The update with its blocks, and the references that are new. -/
def retrieveBlocks (client : Client) (g : MeshGrid) (n : Nat) (q : QueuedMeshUpdate) :
    QueuedMeshUpdate × List Ref :=
  let positions := g.positions q.p
  let slots := if q.mapBlocks.isEmpty then List.replicate positions.length none else q.mapBlocks
  let (slots, grabbed) := grabMissing client n slots positions
  ({ q with mapBlocks := slots }, grabbed)

/-- "true = all air"; the blocks of the extra margin are not looked at. -/
def checkSkip (client : Client) (g : MeshGrid) (q : QueuedMeshUpdate) : Bool :=
  let side := Int16.ofInt g.cellSize.toNat
  let pMax : V3s16 := q.p + ⟨side, side, side⟩
  (q.mapBlocks.filterMap id).all fun ref =>
    if !before (client.blockPos ref.block) q.p && before (client.blockPos ref.block) pMax then
      client.isAir ref.block
    else true

/-- What `addBlock` does with an update, new or old, before its blocks are retrieved. -/
def request (client : Client) (acks : List V3s16) (urgent : Bool) (q : QueuedMeshUpdate) :
    QueuedMeshUpdate :=
  { q with
    ackList := q.ackList ++ acks
    crackLevel := client.crackLevel
    crackPos := client.crackPos
    urgent := q.urgent || urgent }

end QueuedMeshUpdate

/-! ## States -/

/-- A worker thread in `doUpdate`. -/
inductive Worker
  | idle
  /-- The update is out of the queue, and its data are not copied yet. -/
  | popped (q : QueuedMeshUpdate)
  | making (q : QueuedMeshUpdate) (data : MeshMakeData)
  /-- The result is put, and `done` is not called yet. -/
  | finished (p : V3s16)

def Worker.cargo : Worker → Cargo
  | idle => 0
  | popped q => q.cargo
  | making q data => q.cargo + (0, 0, {data.snapshot})
  | finished _ => 0

/-- The position that a worker is at. -/
def Worker.position : Worker → Option V3s16
  | idle => none
  | popped q => some q.p
  | making q _ => some q.p
  | finished p => some p

/-- What the main thread calls. -/
inductive Op
  | updateBlock (p : V3s16) (ackBlockToServer urgent updateNeighbors : Bool)
  | getNextResult
  | clearAllQueues (finish : Bool)
  deriving DecidableEq

/-- The sections of these calls, each under one lock. -/
inductive Section
  | updateBlock (p : V3s16) (ackBlockToServer urgent updateNeighbors : Bool)
  | neighbor (p : V3s16) (urgent : Bool)
  | urgentEmpty
  | popUrgent
  | outEmpty
  | popOut
  | clearQueue (finish : Bool)
  | clearUrgent (finish : Bool)
  | clearOut (finish : Bool)
  deriving DecidableEq

structure Config where
  grid : MeshGrid
  manyNeighbors : Bool := false

/-- The record: `grabbed` has the references by their numbers, `requested` the acknowledgements asked
for, `snapshots` the position of each copy of data, `handed` the results the client has got, and
`cleared` what was dropped. -/
structure State where
  client : Client
  queue : List QueuedMeshUpdate := []
  urgents : Finset V3s16 := ∅
  inflight : Finset V3s16 := ∅
  outUrgent : List MeshUpdateResult := []
  out : List MeshUpdateResult := []
  workers : List Worker
  todo : List Section := []
  grabbed : List Ref := []
  requested : List V3s16 := []
  snapshots : List V3s16 := []
  handed : List MeshUpdateResult := []
  cleared : Cargo := 0

def State.initial (client : Client) (workers : Nat) : State :=
  { client := client, workers := List.replicate workers .idle }

inductive Label
  /-- Blocks are loaded, unloaded or changed, or the crack moves. -/
  | world (client : Client)
  | call (op : Op)
  /-- The next section of the main thread. -/
  | main
  | pop (w : Nat)
  | snapshot (w : Nat)
  | putResult (w : Nat)
  | done (w : Nat)

/-! ## Steps -/

/-- Asks the first queued update at a mesh position for one more block; `none` when there is none. -/
def requestQueued (client : Client) (g : MeshGrid) (n : Nat) (meshPosition : V3s16)
    (acks : List V3s16) (urgent : Bool) :
    List QueuedMeshUpdate → Option (List QueuedMeshUpdate × List Ref)
  | [] => none
  | q :: rest =>
    if q.p = meshPosition then
      let (q, grabbed) := (q.request client acks urgent).retrieveBlocks client g n
      some (q :: rest, grabbed)
    else
      (requestQueued client g n meshPosition acks urgent rest).map fun r => (q :: r.1, r.2)

/-- The first update that may be taken, and the others. -/
def popFirst (urgents inflight : Finset V3s16) :
    List QueuedMeshUpdate → Option (QueuedMeshUpdate × List QueuedMeshUpdate)
  | [] => none
  | q :: rest =>
    if (urgents ≠ ∅ ∧ q.p ∉ urgents) ∨ q.p ∈ inflight then
      (popFirst urgents inflight rest).map fun r => (r.1, q :: r.2)
    else some (q, rest)

def dirs6 : List V3s16 :=
  [⟨0, 0, 1⟩, ⟨0, 1, 0⟩, ⟨1, 0, 0⟩, ⟨0, 0, -1⟩, ⟨0, -1, 0⟩, ⟨-1, 0, 0⟩]

def dirs26 : List V3s16 :=
  dirs6 ++
  [⟨-1, 1, 0⟩, ⟨1, 1, 0⟩, ⟨0, 1, 1⟩, ⟨0, 1, -1⟩, ⟨-1, 0, 1⟩, ⟨1, 0, 1⟩, ⟨-1, 0, -1⟩, ⟨1, 0, -1⟩,
    ⟨-1, -1, 0⟩, ⟨1, -1, 0⟩, ⟨0, -1, 1⟩, ⟨0, -1, -1⟩, ⟨-1, 1, 1⟩, ⟨1, 1, 1⟩, ⟨-1, 1, -1⟩,
    ⟨1, 1, -1⟩, ⟨-1, -1, 1⟩, ⟨1, -1, 1⟩, ⟨-1, -1, -1⟩, ⟨1, -1, -1⟩]

namespace State

/-- Queues a new update, or drops it: "Air blocks won't suddenly become visible due to a neighbor
update". -/
def place (g : MeshGrid) (s : State) (acks : List V3s16) (fromNeighbor : Bool)
    (r : QueuedMeshUpdate × List Ref) : State :=
  let s := { s with grabbed := s.grabbed ++ r.2, requested := s.requested ++ acks }
  if fromNeighbor && r.1.checkSkip s.client g then
    { s with
      urgents := s.urgents.erase r.1.p
      cleared := s.cleared + r.1.cargo }
  else { s with queue := s.queue ++ [r.1] }

/-- What is returned, and the new state. -/
def addBlock (g : MeshGrid) (s : State) (p : V3s16) (ackBlockToServer urgent fromNeighbor : Bool) :
    Bool × State :=
  if (s.client.map p).isNone then (false, s)
  else
    let meshPosition := g.getMeshPos p
    let acks := if ackBlockToServer then [p] else []
    let s := { s with urgents := if urgent then insert meshPosition s.urgents else s.urgents }
    let n := s.grabbed.length
    match requestQueued s.client g n meshPosition acks urgent s.queue with
    | some (queue, grabbed) =>
      (true, { s with
        queue := queue
        grabbed := s.grabbed ++ grabbed
        requested := s.requested ++ acks })
    | none =>
      let blank : QueuedMeshUpdate := { p := meshPosition, crackPos := ⟨0, 0, 0⟩ }
      (true, s.place g acks fromNeighbor
        ((blank.request s.client acks urgent).retrieveBlocks s.client g n))

/-- Whether `clear` and `clearAllQueues` drop something with these acknowledgements. -/
def drops (finish : Bool) (ackList : List V3s16) : Bool :=
  ackList.isEmpty || finish

/-- `MeshUpdateQueue::clear`. -/
def clear (finish : Bool) (s : State) : State :=
  let gone := s.queue.filter fun q => drops finish q.ackList
  { s with
    queue := s.queue.filter fun q => !drops finish q.ackList
    urgents := s.urgents \ (gone.map QueuedMeshUpdate.p).toFinset
    inflight := s.inflight \ (gone.map QueuedMeshUpdate.p).toFinset
    cleared := s.cleared + (gone.map QueuedMeshUpdate.cargo).sum }

/-- The results that stay, and what the others carry. -/
def clearResults (finish : Bool) (results : List MeshUpdateResult) : List MeshUpdateResult × Cargo :=
  (results.filter fun r => !drops finish r.ackList,
    ((results.filter fun r => drops finish r.ackList).map MeshUpdateResult.cargo).sum)

/-- A section of the main thread, when `todo` has what comes after it; `none` where it would wait. -/
def runSection (cfg : Config) (s : State) : Section → Option State
  | .updateBlock p ackBlockToServer urgent updateNeighbors =>
    let (found, s) := s.addBlock cfg.grid p ackBlockToServer urgent false
    let dirs := if cfg.manyNeighbors then dirs26 else dirs6
    if found && updateNeighbors then
      some { s with todo := dirs.map (fun dp => .neighbor (p + dp) urgent) ++ s.todo }
    else some s
  | .neighbor p urgent => some (s.addBlock cfg.grid p false urgent true).2
  | .urgentEmpty =>
    some { s with todo := (if s.outUrgent.isEmpty then .outEmpty else .popUrgent) :: s.todo }
  | .outEmpty =>
    some (if s.out.isEmpty then s else { s with todo := .popOut :: s.todo })
  | .popUrgent =>
    match s.outUrgent with
    | [] => none
    | r :: rest => some { s with outUrgent := rest, handed := s.handed ++ [r] }
  | .popOut =>
    match s.out with
    | [] => none
    | r :: rest => some { s with out := rest, handed := s.handed ++ [r] }
  | .clearQueue finish => some (s.clear finish)
  | .clearUrgent finish =>
    let (kept, gone) := clearResults finish s.outUrgent
    some { s with outUrgent := kept, cleared := s.cleared + gone }
  | .clearOut finish =>
    let (kept, gone) := clearResults finish s.out
    some { s with out := kept, cleared := s.cleared + gone }

/-- `MeshUpdateManager::putResult`. -/
def putResult (s : State) (r : MeshUpdateResult) : State :=
  if r.urgent then { s with outUrgent := s.outUrgent ++ [r] } else { s with out := s.out ++ [r] }

def setWorker (s : State) (w : Nat) (worker : Worker) : State :=
  { s with workers := s.workers.set w worker }

/-- The first section of `pop`. -/
def pop (s : State) (w : Nat) : State :=
  match popFirst s.urgents s.inflight s.queue with
  | none => s
  | some (q, rest) =>
    { s with
      queue := rest
      urgents := s.urgents.erase q.p
      inflight := insert q.p s.inflight }.setWorker w (.popped q)

/-- `fillDataFromMapBlocks`. -/
def snapshot (s : State) (w : Nat) (q : QueuedMeshUpdate) : State :=
  { s with snapshots := s.snapshots ++ [q.p] }.setWorker w
    (.making q ⟨s.snapshots.length, q.crackLevel, q.crackPos⟩)

/-- The sections of a call. -/
def sections : Op → List Section
  | .updateBlock p ackBlockToServer urgent updateNeighbors =>
    [.updateBlock p ackBlockToServer urgent updateNeighbors]
  | .getNextResult => [.urgentEmpty]
  | .clearAllQueues finish => [.clearQueue finish, .clearUrgent finish, .clearOut finish]

/-- `none`: the step is not possible. -/
def step (cfg : Config) (s : State) : Label → Option State
  | .world client => if s.todo = [] then some { s with client := client } else none
  | .call op => if s.todo = [] then some { s with todo := sections op } else none
  | .main =>
    match s.todo with
    | [] => none
    | sec :: rest => { s with todo := rest }.runSection cfg sec
  | .pop w =>
    match s.workers[w]? with
    | some .idle => some (s.pop w)
    | _ => none
  | .snapshot w =>
    match s.workers[w]? with
    | some (.popped q) => some (s.snapshot w q)
    | _ => none
  | .putResult w =>
    match s.workers[w]? with
    | some (.making q data) =>
      some ((s.putResult ⟨q.p, data, q.ackList, q.urgent, q.mapBlocks⟩).setWorker w (.finished q.p))
    | _ => none
  | .done w =>
    match s.workers[w]? with
    | some (.finished p) => some ({ s with inflight := s.inflight.erase p }.setWorker w .idle)
    | _ => none

end State

def Step (cfg : Config) (s : State) (a : Label) (t : State) : Prop :=
  s.step cfg a = some t

end Mesh
end AxisEngine
