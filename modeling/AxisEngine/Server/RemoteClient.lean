import AxisEngine.Util.V3s16
import Mathlib.Data.Finset.Card

/-!
# RemoteClient — which blocks a client has been sent

The server remembers of each client the blocks under way to it (`m_blocks_sending`) and the blocks
it has acknowledged (`m_blocks_sent`).  `GetNextBlocks` selects the blocks to send next and passes
over both.

* `RemoteClient` — what is remembered;
* `gotBlock`, `sentBlock`, `setBlockNotSent`, `resendBlockIfOnWire` — how it changes;
* `getNextBlocks` — the selection; its loop takes one position at a time (`visit`);
* `Records` — the sets a call leaves: none adds to them except `sentBlock`.
-/

namespace AxisEngine
namespace Server

/-- The timers count milliseconds. -/
structure RemoteClient where
  blocksSent : Finset V3s16 := ∅
  blocksSending : Finset V3s16 := ∅
  blocksOcc : Finset V3s16 := ∅
  nearestUnsentD : Int := 0
  lastCenter : V3s16 := ⟨0, 0, 0⟩
  excessGotblocks : Nat := 0
  nothingToSendPauseTimer : Int := 0
  mapSendCompletionTimer : Int := 0
  maxSimulSends : Nat
  blockCullOptimizeDistance : Int
  occCull : Bool

namespace RemoteClient

variable (c : RemoteClient) (p : V3s16)

def isBlockSent : Bool :=
  decide (p ∈ c.blocksSent)

def gotBlock : RemoteClient :=
  if p ∈ c.blocksSending then
    -- only what was sending: it might have been modified since
    { c with blocksSending := c.blocksSending.erase p, blocksSent := insert p c.blocksSent }
  else
    { c with excessGotblocks := c.excessGotblocks + 1 }

def sentBlock : RemoteClient :=
  { c with blocksSending := insert p c.blocksSending }

/-- `lowPriority` leaves the scan where it is, unless the block is close. -/
def setBlockNotSent (lowPriority : Bool) : RemoteClient :=
  let c' := { c with
    nothingToSendPauseTimer := 0
    blocksSending := c.blocksSending.erase p
    blocksSent := c.blocksSent.erase p }
  if p ∈ c.blocksSending ∨ p ∈ c.blocksSent then
    -- the distance is an `s16`
    let thisD := (Int16.ofNat (p - c.lastCenter).cubeRadius).toInt
    if !lowPriority || thisD < c.blockCullOptimizeDistance then
      { c' with nearestUnsentD := min c.nearestUnsentD thisD }
    else c'
  else c'

def resendBlockIfOnWire : RemoteClient :=
  if p ∈ c.blocksSending then c.setBlockNotSent p false else c

end RemoteClient

/-! ## The selection -/

/-- What `GetNextBlocks` asks a block. -/
structure BlockState where
  isGenerated : Bool
  isAir : Bool

/-- What `GetNextBlocks` is told by the player, the map and the emerge manager. -/
structure View where
  dtime : Int
  unloadTimeout : Int
  /-- The player and its object are there. -/
  hasPlayer : Bool
  center : V3s16
  /-- The camera has turned by more than a tenth of the field of view. -/
  cameraTurned : Bool
  /-- What is left of `m_max_simul_sends` while the player builds. -/
  maxSimulSendsUsually : Nat
  fullDMax : Int
  dOpt : Int
  dCullOpt : Int
  dMaxGen : Int
  facePositions : Int → List V3s16
  blockposOverMaxLimit : V3s16 → Bool
  isBlockInSight : V3s16 → Bool
  block : V3s16 → Option BlockState
  isBlockInQueue : V3s16 → Bool
  isBlockOccluded : V3s16 → Bool → Bool
  enqueueBlockEmerge : V3s16 → Bool → Bool

/-- `BLOCK_ALWAYS_SEND_MAX_D`. -/
def blockAlwaysSendMaxD : Int := 1

/-- The variables of the loop, and whether it was left for `queue_full_break`. -/
structure Scan where
  dest : List V3s16 := []
  numBlocksSelected : Nat
  nearestEmergedD : Int := -1
  nearestSentD : Int := -1
  blocksOcc : Finset V3s16
  queueFull : Bool := false

namespace View

def maxSimulDynamic (v : View) (c : RemoteClient) (d : Int) : Nat :=
  if d ≤ blockAlwaysSendMaxD then c.maxSimulSends else v.maxSimulSendsUsually

/-- What the loop asks of a position before it looks at the sets of the client. -/
def inScope (v : View) (p : V3s16) : Bool :=
  !v.blockposOverMaxLimit p && v.isBlockInSight p

/-- A loaded block that is not generated, or a distant one that is air. -/
def unwanted (v : View) (d : Int) (b : BlockState) : Bool :=
  (!b.isGenerated && !decide (d ≤ v.dMaxGen)) || (decide (v.dOpt ≤ d) && b.isAir)

def wantEmerge (v : View) (p : V3s16) : Bool :=
  (v.block p).all fun b => !b.isGenerated

/-- A position that the client has not been sent: occlusion, and then the emerge queue or the
send queue. -/
def offer (v : View) (c : RemoteClient) (d : Int) (p : V3s16) (s : Scan) : Scan :=
  let looked := !v.wantEmerge p || !v.isBlockInQueue p
  if looked && decide (p ∈ s.blocksOcc) then s
  else if looked && c.occCull && v.isBlockOccluded p (decide (v.dCullOpt ≤ d)) then
    { s with blocksOcc := insert p s.blocksOcc }
  else if v.wantEmerge p then
    { s with
      nearestEmergedD := if s.nearestEmergedD = -1 then d else s.nearestEmergedD
      queueFull := !v.enqueueBlockEmerge p (decide (d ≤ v.dMaxGen)) }
  else
    { s with
      nearestSentD := if s.nearestSentD = -1 then d else s.nearestSentD
      dest := s.dest ++ [p]
      numBlocksSelected := s.numBlocksSelected + 1 }

/-- One position of the loop. -/
def visit (v : View) (c : RemoteClient) (d : Int) (p : V3s16) (s : Scan) : Scan :=
  if !v.inScope p then s
  else if v.maxSimulDynamic c d ≤ s.numBlocksSelected then { s with queueFull := true }
  -- don't send blocks that are being transferred, nor those already sent
  else if p ∈ c.blocksSending then s
  else if p ∈ c.blocksSent then s
  else if (v.block p).any (v.unwanted d) then s
  else v.offer c d p s

/-- The loop over the positions, with the distance it has come to. -/
def scan (v : View) (c : RemoteClient) (dEnd : Int) : List (Int × V3s16) → Scan → Int × Scan
  | [], s => (dEnd, s)
  | (d, p) :: rest, s =>
    let s := v.visit c d p s
    if s.queueFull then (d, s) else v.scan c dEnd rest s

/-- The positions at the distances from `dStart` to `dMax`, in the order of the loop. -/
def positions (v : View) (dStart dMax : Int) : List (Int × V3s16) :=
  ((List.range (dMax + 1 - dStart).toNat).map fun i => dStart + (i : Int)).flatMap fun d =>
    (v.facePositions d).map fun p => (d, p + v.center)

end View

namespace RemoteClient

variable (c : RemoteClient) (v : View)

/-- The start of `GetNextBlocks`: the timers, and when it has nothing to do. -/
def tick : RemoteClient :=
  let c := { c with
    nothingToSendPauseTimer := c.nothingToSendPauseTimer - v.dtime
    mapSendCompletionTimer := c.mapSendCompletionTimer + v.dtime }
  if c.mapSendCompletionTimer > v.unloadTimeout * 4 / 5 then
    { c with mapSendCompletionTimer := 0, nearestUnsentD := 0 }
  else c

def isPaused : Bool :=
  decide (0 ≤ c.nothingToSendPauseTimer) || !v.hasPlayer ||
    decide (c.maxSimulSends ≤ c.blocksSending.card)

/-- A new center or a turned camera starts the scan again. -/
def recenter : RemoteClient :=
  let c := if c.lastCenter ≠ v.center then
      { c with nearestUnsentD := 0, lastCenter := v.center, mapSendCompletionTimer := 0 }
    else c
  if v.cameraTurned then { c with nearestUnsentD := 0, mapSendCompletionTimer := 0 } else c

/-- What follows the loop: where the next scan begins. -/
def continueFrom (d : Int) (s : Scan) : RemoteClient :=
  let c := { c with blocksOcc := s.blocksOcc }
  let full := s.nearestEmergedD = -1 ∧ v.fullDMax < d
  let newNearestUnsentD :=
    if s.nearestEmergedD ≠ -1 then s.nearestEmergedD
    else if v.fullDMax < d then 0
    else if s.nearestSentD ≠ -1 then s.nearestSentD
    else d
  let c := if full then
      { c with nothingToSendPauseTimer := 2000, mapSendCompletionTimer := 0 }
    else c
  if newNearestUnsentD ≠ -1 ∧ c.nearestUnsentD ≠ newNearestUnsentD then
    { c with nearestUnsentD := newNearestUnsentD, blocksOcc := ∅ }
  else c

/-- How far the loop goes at a time. -/
def scanEnd : Int :=
  min v.fullDMax (c.nearestUnsentD + if c.nearestUnsentD < v.dCullOpt * 2 then 2 else 1)

/-- The client afterwards, and the blocks it is to be sent. -/
def getNextBlocks : RemoteClient × List V3s16 :=
  let c := c.tick v
  if c.isPaused v then (c, [])
  else
    let c := c.recenter v
    let dMax := c.scanEnd v
    let (d, s) := v.scan c (max c.nearestUnsentD (dMax + 1)) (v.positions c.nearestUnsentD dMax)
      { numBlocksSelected := c.blocksSending.card, blocksOcc := c.blocksOcc }
    (c.continueFrom v d s, s.dest)

/-! ## What the calls do to the two sets -/

/-- The block is under way or acknowledged. -/
def Recorded (c : RemoteClient) (p : V3s16) : Prop :=
  p ∈ c.blocksSending ∨ p ∈ c.blocksSent

/-- `c'` records nothing that `c` does not, and keeps the two sets apart. -/
structure Within (c c' : RemoteClient) : Prop where
  recorded : ∀ p, c'.Recorded p → c.Recorded p
  disjoint : Disjoint c.blocksSending c.blocksSent → Disjoint c'.blocksSending c'.blocksSent

variable (c : RemoteClient) (p : V3s16) (lowPriority : Bool)

theorem within_gotBlock : Within c (c.gotBlock p) := by
  rw [gotBlock]
  split
  · rename_i hsending
    refine ⟨fun q hq => ?_, fun hdisjoint => ?_⟩
    · rcases hq with hq | hq
      · exact .inl (Finset.mem_of_mem_erase hq)
      · rcases Finset.mem_insert.1 hq with rfl | hq
        · exact .inl hsending
        · exact .inr hq
    · refine Finset.disjoint_left.2 fun q hq hq' => ?_
      rcases Finset.mem_insert.1 hq' with rfl | hq'
      · exact Finset.notMem_erase _ _ hq
      · exact Finset.disjoint_left.1 hdisjoint (Finset.mem_of_mem_erase hq) hq'
  · exact ⟨fun q hq => hq, id⟩

theorem blocksSending_setBlockNotSent :
    (c.setBlockNotSent p lowPriority).blocksSending = c.blocksSending.erase p := by
  rw [setBlockNotSent]
  dsimp only
  split
  · split <;> rfl
  · rfl

theorem blocksSent_setBlockNotSent :
    (c.setBlockNotSent p lowPriority).blocksSent = c.blocksSent.erase p := by
  rw [setBlockNotSent]
  dsimp only
  split
  · split <;> rfl
  · rfl

theorem recorded_setBlockNotSent {c : RemoteClient} {p q : V3s16} {lowPriority : Bool} :
    (c.setBlockNotSent p lowPriority).Recorded q ↔ q ≠ p ∧ c.Recorded q := by
  rw [Recorded, Recorded, blocksSending_setBlockNotSent, blocksSent_setBlockNotSent,
    Finset.mem_erase, Finset.mem_erase, and_or_left]

theorem within_setBlockNotSent : Within c (c.setBlockNotSent p lowPriority) := by
  refine ⟨fun q hq => (recorded_setBlockNotSent.1 hq).2, fun hdisjoint => ?_⟩
  rw [blocksSending_setBlockNotSent, blocksSent_setBlockNotSent]
  exact hdisjoint.mono (Finset.erase_subset _ _) (Finset.erase_subset _ _)

theorem within_resendBlockIfOnWire : Within c (c.resendBlockIfOnWire p) := by
  rw [resendBlockIfOnWire]
  split
  · exact within_setBlockNotSent c p false
  · exact ⟨fun q hq => hq, id⟩

/-! ## The selection passes over the recorded blocks, and only over them -/

/-- The selection treats the block as one that the client has never been sent. -/
def Eligible (c : RemoteClient) (p : V3s16) : Prop :=
  ∀ (v : View) (d : Int) (s : Scan),
    v.visit c d p s = v.visit { c with blocksSent := ∅, blocksSending := ∅ } d p s

theorem eligible_of_not_recorded {c : RemoteClient} {p : V3s16} (h : ¬ c.Recorded p) :
    c.Eligible p := by
  intro v d s
  have hsending : p ∉ c.blocksSending := fun hp => h (.inl hp)
  have hsent : p ∉ c.blocksSent := fun hp => h (.inr hp)
  rw [View.visit, View.visit, if_neg hsending, if_neg hsent]
  rfl

end RemoteClient

namespace View

variable {v : View} {c : RemoteClient}

theorem mem_dest_offer {d : Int} {p q : V3s16} {s : Scan} (h : q ∈ (v.offer c d p s).dest) :
    q ∈ s.dest ∨ q = p := by
  rw [offer] at h
  split at h
  · exact .inl h
  · split at h
    · exact .inl h
    · split at h
      · exact .inl h
      · exact (List.mem_append.1 h).imp_right List.mem_singleton.1

theorem mem_dest_visit {d : Int} {p q : V3s16} {s : Scan} (h : q ∈ (v.visit c d p s).dest) :
    q ∈ s.dest ∨ ¬ c.Recorded q := by
  rw [visit] at h
  split at h
  · exact .inl h
  · split at h
    · exact .inl h
    · split at h
      · exact .inl h
      · rename_i hsending
        split at h
        · exact .inl h
        · rename_i hsent
          split at h
          · exact .inl h
          · rcases mem_dest_offer h with h | rfl
            · exact .inl h
            · exact .inr fun hrec => hrec.elim hsending hsent

theorem mem_dest_scan {dEnd : Int} {ps : List (Int × V3s16)} {q : V3s16} {s : Scan}
    (h : q ∈ (v.scan c dEnd ps s).2.dest) : q ∈ s.dest ∨ ¬ c.Recorded q := by
  induction ps generalizing s with
  | nil => exact .inl h
  | cons entry ps ih =>
    rw [scan] at h
    split at h
    · exact mem_dest_visit h
    · rcases ih h with h | h
      · exact mem_dest_visit h
      · exact .inr h

end View

namespace RemoteClient

/-- The two clients record the same. -/
structure SameRecord (c c' : RemoteClient) : Prop where
  sending : c'.blocksSending = c.blocksSending
  sent : c'.blocksSent = c.blocksSent

theorem SameRecord.recorded {c c' : RemoteClient} (h : SameRecord c c') (p : V3s16) :
    c'.Recorded p ↔ c.Recorded p := by
  rw [Recorded, Recorded, h.sending, h.sent]

variable (c : RemoteClient) (v : View)

theorem sameRecord_tick : SameRecord c (c.tick v) := by
  rw [tick]
  split <;> exact ⟨rfl, rfl⟩

theorem sameRecord_recenter : SameRecord c (c.recenter v) := by
  rw [recenter]
  split <;> split <;> exact ⟨rfl, rfl⟩

theorem sameRecord_continueFrom (d : Int) (s : Scan) : SameRecord c (c.continueFrom v d s) := by
  have hlast : ∀ (c' : RemoteClient) (n : Int), SameRecord c c' →
      SameRecord c (if n ≠ -1 ∧ c'.nearestUnsentD ≠ n then
        { c' with nearestUnsentD := n, blocksOcc := ∅ } else c') := by
    intro c' n hc'
    split
    · exact ⟨hc'.sending, hc'.sent⟩
    · exact hc'
  refine hlast _ _ ?_
  split <;> exact ⟨rfl, rfl⟩

theorem SameRecord.trans {c c' c'' : RemoteClient} (h : SameRecord c c')
    (h' : SameRecord c' c'') : SameRecord c c'' :=
  ⟨h'.sending.trans h.sending, h'.sent.trans h.sent⟩

/-- Selecting blocks records nothing, and selects nothing that is recorded. -/
theorem getNextBlocks_spec :
    SameRecord c (c.getNextBlocks v).1 ∧ ∀ p ∈ (c.getNextBlocks v).2, ¬ c.Recorded p := by
  have htick := sameRecord_tick c v
  rw [getNextBlocks]
  dsimp only
  split
  · exact ⟨htick, fun p hp => absurd hp List.not_mem_nil⟩
  · have hcenter := htick.trans (sameRecord_recenter (c.tick v) v)
    refine ⟨hcenter.trans (sameRecord_continueFrom _ v _ _), fun p hp hrec => ?_⟩
    rcases View.mem_dest_scan hp with hp | hp
    · exact absurd hp List.not_mem_nil
    · exact hp ((hcenter.recorded p).2 hrec)

end RemoteClient
end Server
end AxisEngine
