import AxisEngine.Lib.Transition
import AxisEngine.Util.V3s16
import Mathlib.Data.List.AList

/-!
# EmergeManager — requests for blocks, and the threads that answer them

A request names a block and may bring a callback.  Requests for one block are merged into one entry
of `m_blocks_enqueued`, and the block is put into the queue of one emerge thread.  The thread takes
the entry off both, loads or generates the block, and then runs the callbacks.  The entries of each
peer are counted, and the counts limit what the peer may ask for.

* `EmergeManager` — the entries, the counts and the threads;
* `pushBlockEmergeData`, `popBlockEmergeData`, `enqueueBlockEmergeEx` — under the queue's lock;
* `Phase` — how far a thread is in its loop;
* `Event`, `Step` — what may happen next.

A thread carries two logs that the code does not have: the callbacks accepted for its queue, and
those it has called.
-/

namespace AxisEngine
namespace Emerge

open Lib

/-- What became of the block. -/
inductive EmergeAction
  | cancelled | errored | fromMemory | fromDisk | generated
deriving DecidableEq

def peerIdInexistent : UInt16 := 0

def blockEmergeAllowGen : UInt16 := 1

def blockEmergeForceQueue : UInt16 := 2

/-- A `Callback` is the function together with its parameter. -/
structure BlockEmergeData (Callback : Type) where
  peerRequested : UInt16
  flags : UInt16
  callbacks : List Callback

/-- How far a thread is. -/
inductive Phase (Callback : Type)
  | notStarted
  /-- At the head of the loop. -/
  | looping
  /-- The block is off the queue. -/
  | popped (pos : V3s16) (bedata : BlockEmergeData Callback)
  /-- In `runCompletionCallbacks`, with the callbacks that are left. -/
  | completing (pos : V3s16) (action : EmergeAction) (callbacks : List Callback)
  /-- Behind the loop. -/
  | leaving
  | stopped

structure EmergeThread (Callback : Type) where
  blockQueue : List V3s16 := []
  stopRequested : Bool := false
  phase : Phase Callback := .notStarted
  accepted : List (V3s16 × Callback) := []
  called : List (V3s16 × EmergeAction × Callback) := []

/-- The counts are `u32` and count entries of a map. -/
structure EmergeManager (Callback : Type) where
  qlimitTotal : Nat
  qlimitDiskonly : Nat
  qlimitGenerate : Nat
  blocksEnqueued : AList fun _ : V3s16 => BlockEmergeData Callback
  peerQueueCount : UInt16 → Option Nat
  threads : List (EmergeThread Callback)

/-- A request as `enqueueBlockEmergeEx` gets it. -/
structure Request (Callback : Type) where
  blockpos : V3s16
  peerId : UInt16
  flags : UInt16
  callback : Option Callback

/-- What `popBlockEmergeData` gives. -/
inductive PopResult (Callback : Type)
  | ok (bedata : BlockEmergeData Callback) (m : EmergeManager Callback)
  | notFound
  /-- `assert(count_peer != 0)`. -/
  | aborted

namespace EmergeManager

variable {Callback : Type} (m : EmergeManager Callback)

def countPeer (peer : UInt16) : Nat :=
  (m.peerQueueCount peer).getD 0

def setCount (peer : UInt16) (n : Nat) : EmergeManager Callback :=
  { m with peerQueueCount := fun p => if p = peer then some n else m.peerQueueCount p }

def isForced (flags : UInt16) : Bool :=
  flags &&& blockEmergeForceQueue ≠ 0

/-- The limit of a peer. -/
def qlimitPeer (flags : UInt16) : Nat :=
  if flags &&& blockEmergeAllowGen ≠ 0 then m.qlimitGenerate else m.qlimitDiskonly

/-- The total and the peer are below their limits. -/
def belowLimits (peer flags : UInt16) : Bool :=
  decide (m.blocksEnqueued.entries.length < m.qlimitTotal) &&
    if peer ≠ peerIdInexistent then decide (m.countPeer peer < m.qlimitPeer flags)
    -- requests for active blocks get half of the total
    else decide (m.countPeer peer * 2 < m.qlimitTotal)

/-- `none` is a refusal; otherwise, whether there was an entry already.  The counter of the peer
exists from then on in any case. -/
def pushBlockEmergeData (r : Request Callback) : EmergeManager Callback × Option Bool :=
  let m := m.setCount r.peerId (m.countPeer r.peerId)
  if !isForced r.flags && !m.belowLimits r.peerId r.flags then (m, none)
  else
    match m.blocksEnqueued.lookup r.blockpos with
    | some bedata =>
      let bedata := { bedata with
        flags := bedata.flags ||| r.flags
        callbacks := bedata.callbacks ++ r.callback.toList }
      ({ m with blocksEnqueued := m.blocksEnqueued.insert r.blockpos bedata }, some true)
    | none =>
      let bedata : BlockEmergeData Callback :=
        { peerRequested := r.peerId, flags := r.flags, callbacks := r.callback.toList }
      ({ m with blocksEnqueued := m.blocksEnqueued.insert r.blockpos bedata }.setCount
        r.peerId (m.countPeer r.peerId + 1), some false)

def popBlockEmergeData (pos : V3s16) : PopResult Callback :=
  match m.blocksEnqueued.lookup pos with
  | none => .notFound
  | some bedata =>
    match m.peerQueueCount bedata.peerRequested with
    | none => .notFound
    | some countPeer =>
      if countPeer = 0 then .aborted
      else .ok bedata ({ m with blocksEnqueued := m.blocksEnqueued.erase pos }.setCount
        bedata.peerRequested (countPeer - 1))

/-- The first thread with the shortest queue, among those from `i` on. -/
def optimalLoop (index lowest : Nat) : Nat → List (EmergeThread Callback) → Nat
  | _, [] => index
  | i, t :: rest =>
    if t.blockQueue.length < lowest then optimalLoop i t.blockQueue.length (i + 1) rest
    else optimalLoop index lowest (i + 1) rest

/-- `getOptimalThread`; `none` is the fatal error of having no threads. -/
def getOptimalThread : Option Nat :=
  match m.threads with
  | [] => none
  | t :: rest => some (optimalLoop 0 t.blockQueue.length 1 rest)

def changeThread (i : Nat)
    (f : EmergeThread Callback → EmergeThread Callback) : EmergeManager Callback :=
  { m with threads := m.threads.modify i f }

/-- `EmergeThread::pushBlock`. -/
def pushBlock (i : Nat) (pos : V3s16) : EmergeManager Callback :=
  m.changeThread i fun t => { t with blockQueue := t.blockQueue ++ [pos] }

/-- The log of the thread that has the block in its queue. -/
def noteAccepted (r : Request Callback) : EmergeManager Callback :=
  { m with threads := m.threads.map fun t =>
      if r.blockpos ∈ t.blockQueue then
        { t with accepted := t.accepted ++ r.callback.toList.map fun c => (r.blockpos, c) }
      else t }

/-- What is returned, and the manager then. -/
def enqueueBlockEmergeEx (r : Request Callback) : Option (EmergeManager Callback × Bool) :=
  match m.pushBlockEmergeData r with
  | (m, none) => some (m, false)
  | (m, some true) => some (m.noteAccepted r, true)
  | (m, some false) =>
    m.getOptimalThread.map fun i => ((m.pushBlock i r.blockpos).noteAccepted r, true)

/-- `EmergeThread::popBlockEmerge`: the front of the queue of thread `i` and its entry. -/
def popBlockEmerge (i : Nat) (t : EmergeThread Callback) :
    Option (V3s16 × BlockEmergeData Callback × EmergeManager Callback) :=
  match t.blockQueue with
  | [] => none
  | pos :: rest =>
    match m.popBlockEmergeData pos with
    | .ok bedata m => some (pos, bedata, m.changeThread i fun t => { t with blockQueue := rest })
    | _ => none

def setPhase (i : Nat) (phase : Phase Callback) : EmergeManager Callback :=
  m.changeThread i fun t => { t with phase := phase }

/-- The call of callbacks. -/
def call (i : Nat) (pos : V3s16) (action : EmergeAction)
    (callbacks : List Callback) : EmergeManager Callback :=
  m.changeThread i fun t =>
    { t with called := t.called ++ callbacks.map fun c => (pos, action, c) }

end EmergeManager

/-! ## The threads -/

/-- `MAX_MAP_GENERATION_LIMIT / MAP_BLOCKSIZE`. -/
def maxLimitBp : Int := 31007 / 16

def blockposOverMaxLimit (p : V3s16) : Bool :=
  decide (p.x.toInt < -maxLimitBp ∨ maxLimitBp < p.x.toInt ∨ p.y.toInt < -maxLimitBp ∨
    maxLimitBp < p.y.toInt ∨ p.z.toInt < -maxLimitBp ∨ maxLimitBp < p.z.toInt)

inductive Event (Callback : Type)
  /-- A request, and what it was answered. -/
  | enqueue (r : Request Callback) (accepted : Bool)
  | start (i : Nat)
  /-- `stopThreads`, or a script that does not load. -/
  | requestStop (i : Nat)
  | pop (i : Nat)
  /-- The block is outside the world. -/
  | skip (i : Nat)
  /-- Loading and generating have ended, in any way. -/
  | processed (i : Nat) (action : EmergeAction)
  /-- A `VersionMismatchException` or a `SerializationError` leaves the loop. -/
  | throw (i : Nat)
  | call (i : Nat)
  /-- All callbacks have been called. -/
  | next (i : Nat)
  | leave (i : Nat)
  /-- One entry of `cancelPendingItems`. -/
  | cancel (i : Nat)
  | stopped (i : Nat)

variable {Callback : Type}

/-- `cancelPendingItems` holds the queue's lock for its whole loop; here others may come in between
two entries, which only adds runs. -/
inductive Step : EmergeManager Callback → Event Callback → EmergeManager Callback → Prop
  | enqueue {m m' : EmergeManager Callback} {r : Request Callback} {accepted : Bool} :
      m.enqueueBlockEmergeEx r = some (m', accepted) → Step m (.enqueue r accepted) m'
  | start {m : EmergeManager Callback} {i : Nat} {t : EmergeThread Callback} :
      m.threads[i]? = some t → t.phase = .notStarted ∨ t.phase = .stopped →
      Step m (.start i)
        (m.changeThread i fun t => { t with stopRequested := false, phase := .looping })
  | requestStop {m : EmergeManager Callback} {i : Nat} {t : EmergeThread Callback} :
      m.threads[i]? = some t →
      Step m (.requestStop i) (m.changeThread i fun t => { t with stopRequested := true })
  | pop {m m' : EmergeManager Callback} {i : Nat} {t : EmergeThread Callback} {pos : V3s16}
      {bedata : BlockEmergeData Callback} :
      m.threads[i]? = some t → t.phase = .looping → t.stopRequested = false →
      m.popBlockEmerge i t = some (pos, bedata, m') →
      Step m (.pop i) (m'.setPhase i (.popped pos bedata))
  | skip {m : EmergeManager Callback} {i : Nat} {t : EmergeThread Callback} {pos : V3s16}
      {bedata : BlockEmergeData Callback} :
      m.threads[i]? = some t → t.phase = .popped pos bedata → blockposOverMaxLimit pos = true →
      Step m (.skip i) (m.setPhase i .looping)
  | processed {m : EmergeManager Callback} {i : Nat} {t : EmergeThread Callback} {pos : V3s16}
      {bedata : BlockEmergeData Callback} {action : EmergeAction} :
      m.threads[i]? = some t → t.phase = .popped pos bedata → blockposOverMaxLimit pos = false →
      Step m (.processed i action) (m.setPhase i (.completing pos action bedata.callbacks))
  | throw {m : EmergeManager Callback} {i : Nat} {t : EmergeThread Callback} {pos : V3s16}
      {bedata : BlockEmergeData Callback} :
      m.threads[i]? = some t → t.phase = .popped pos bedata → blockposOverMaxLimit pos = false →
      Step m (.throw i) (m.setPhase i .leaving)
  | call {m : EmergeManager Callback} {i : Nat} {t : EmergeThread Callback} {pos : V3s16}
      {action : EmergeAction} {c : Callback} {callbacks : List Callback} :
      m.threads[i]? = some t → t.phase = .completing pos action (c :: callbacks) →
      Step m (.call i) ((m.call i pos action [c]).setPhase i (.completing pos action callbacks))
  | next {m : EmergeManager Callback} {i : Nat} {t : EmergeThread Callback} {pos : V3s16}
      {action : EmergeAction} :
      m.threads[i]? = some t → t.phase = .completing pos action [] →
      Step m (.next i) (m.setPhase i .looping)
  | leave {m : EmergeManager Callback} {i : Nat} {t : EmergeThread Callback} :
      m.threads[i]? = some t → t.phase = .looping → t.stopRequested = true →
      Step m (.leave i) (m.setPhase i .leaving)
  | cancel {m m' : EmergeManager Callback} {i : Nat} {t : EmergeThread Callback} {pos : V3s16}
      {bedata : BlockEmergeData Callback} :
      m.threads[i]? = some t → t.phase = .leaving →
      m.popBlockEmerge i t = some (pos, bedata, m') →
      Step m (.cancel i) (m'.call i pos .cancelled bedata.callbacks)
  | stopped {m : EmergeManager Callback} {i : Nat} {t : EmergeThread Callback} :
      m.threads[i]? = some t → t.phase = .leaving → t.blockQueue = [] →
      Step m (.stopped i) (m.setPhase i .stopped)

end Emerge
end AxisEngine
