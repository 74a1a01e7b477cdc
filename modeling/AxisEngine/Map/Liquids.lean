import AxisEngine.Map.ServerMap

/-!
# Liquids — the rule of a node, and the queue

`ServerMap::transformLiquidsLocal`.  A queued position looks at its six neighbours and decides what it
becomes; when that is a change, some of the neighbours are queued.

* `collect` — what a neighbour adds to the surroundings;
* `Decision`, `liquidRule` — what a position becomes;
* `liquidStep`, `transformLiquidsLocal` — the queue.
-/

namespace AxisEngine
namespace Map

namespace MapNode

/-- `LIQUID_LEVEL_MASK`. -/
def liquidLevel (n : MapNode) : ℤ := ((n.param2 &&& 0x07).toNat : ℤ)

/-- `LIQUID_FLOW_DOWN_MASK`. -/
def flowsDown (n : MapNode) : Bool := n.param2 &&& 0x08 == 0x08

end MapNode

/-- `LIQUID_LEVEL_MAX`. -/
def liquidLevelMax : ℤ := 7

/-- `LIQUID_LEVEL_SOURCE`. -/
def liquidLevelSource : ℤ := 8

/-- `WATER_DROP_BOOST`. -/
def waterDropBoost : ℤ := 4

inductive NeighborType where
  | upper
  | sameLevel
  | lower
deriving DecidableEq

structure NodeNeighbor where
  n : MapNode
  t : NeighborType
  p : V3s16

/-- `liquid_6dirs`: "order: upper before same level before lower". -/
def liquid6dirs : List (V3s16 × NeighborType) :=
  [(⟨0, 1, 0⟩, .upper), (⟨0, 0, 1⟩, .sameLevel), (⟨1, 0, 0⟩, .sameLevel), (⟨0, 0, -1⟩, .sameLevel),
    (⟨-1, 0, 0⟩, .sameLevel), (⟨0, -1, 0⟩, .lower)]

def getMaxLiquidLevel (nb : NodeNeighbor) (current : ℤ) : ℤ :=
  let level := nb.n.liquidLevel
  match nb.t with
  | .upper =>
    if level + waterDropBoost > current then
      if level + waterDropBoost < liquidLevelMax then level + waterDropBoost else liquidLevelMax
    else if level > current then level
    else current
  | .lower => current
  | .sameLevel => if !nb.n.flowsDown ∧ level > 0 ∧ level - 1 > current then level - 1 else current

/-! ## The surroundings of a node -/

/-- What the loop over the neighbours collects. -/
structure Surroundings where
  liquidKind : UInt16
  sources : List NodeNeighbor := []
  flows : List NodeNeighbor := []
  airs : List NodeNeighbor := []
  flowingDown : Bool := false
  ignoredSources : Bool := false
  floatingNodeAbove : Bool := false

namespace Surroundings

/-- A liquid neighbour decides the kind of a node that is not a liquid yet. -/
def chooseKind (s : Surroundings) (condition : Bool) (kind : UInt16) : Surroundings :=
  if s.liquidKind = contentAir ∧ condition then { s with liquidKind := kind } else s

/-- A falling neighbour on the same level cannot flow here. -/
def canFlowHere (f : Features) (nb : NodeNeighbor) : Bool :=
  (nb.t != NeighborType.sameLevel || !nb.n.flowsDown) &&
    decide (getMaxLiquidLevel nb (-1) ≥ liquidLevelMax + 1 -
      ((f (f nb.n.getContent).liquidAlternativeFlowingId).liquidRange.toNat : ℤ))

variable (f : Features) (s : Surroundings) (nb : NodeNeighbor)

def addNone : Surroundings :=
  if (f nb.n.getContent).floodable then
    { s with
      airs := s.airs ++ [nb]
      -- "if the current node happens to be a flowing node, it will start to flow down here."
      flowingDown := s.flowingDown || nb.t == NeighborType.lower }
  else if nb.n.getContent = contentIgnore then
    if nb.t = .lower then { s with flowingDown := true } else { s with ignoredSources := true }
  else s

def addSource : Surroundings :=
  let kind := (f nb.n.getContent).liquidAlternativeFlowingId
  let s := s.chooseKind true kind
  -- "Do not count bottom source, it will screw things up"
  if kind = s.liquidKind ∧ nb.t ≠ .lower then { s with sources := s.sources ++ [nb] } else s

def addFlowing : Surroundings :=
  let kind := (f nb.n.getContent).liquidAlternativeFlowingId
  let s := s.chooseKind (canFlowHere f nb) kind
  if kind = s.liquidKind then
    { s with
      flows := s.flows ++ [nb]
      flowingDown := s.flowingDown || nb.t == NeighborType.lower }
  else s

/-- One neighbour.  What stays out of the three lists is neutral. -/
def collect : Surroundings :=
  let s := { s with
    floatingNodeAbove := s.floatingNodeAbove || (nb.t == NeighborType.upper && (f nb.n.getContent).floats) }
  match (f nb.n.getContent).liquidType with
  | .none => s.addNone f nb
  | .source => s.addSource f nb
  | .flowing => s.addFlowing f nb

end Surroundings

/-- The six neighbours of a position. -/
def neighbors (getNode : V3s16 → MapNode) (p0 : V3s16) : List NodeNeighbor :=
  liquid6dirs.map fun d => ⟨getNode (p0 + d.1), d.2, p0 + d.1⟩

/-! ## The rule of a node -/

variable (f : Features)

/-- The kind that a node starts with. -/
def startKind (n0 : MapNode) : UInt16 :=
  match (f n0.getContent).liquidType with
  | .source => (f n0.getContent).liquidAlternativeFlowingId
  | .flowing => n0.getContent
  | .none => contentAir

def startLevel (n0 : MapNode) : ℤ :=
  match (f n0.getContent).liquidType with
  | .source => liquidLevelSource
  | .flowing => n0.liquidLevel
  | .none => -1

/-- The node that is placed where liquid cannot flow. -/
def floodableNode (n0 : MapNode) : UInt16 :=
  match (f n0.getContent).liquidType with
  | .none => n0.getContent
  | _ => contentAir

/-- A node that is neither a liquid nor floodable is passed over. -/
def isPassedOver (n0 : MapNode) : Bool :=
  (f n0.getContent).liquidType = .none && !(f n0.getContent).floodable

def surroundings (getNode : V3s16 → MapNode) (p0 : V3s16) : Surroundings :=
  (neighbors getNode p0).foldl (Surroundings.collect f)
    { liquidKind := startKind f (getNode p0) }

/-- `new_node_content`, `new_node_level`, and whether the node has to be looked at again because its
viscosity kept it from its level. -/
structure Decision where
  content : UInt16
  level : ℤ
  mustReflow : Bool
deriving DecidableEq

/-- The range of a liquid is at most 8. -/
def liquidRange (kind : UInt16) : ℤ :=
  min ((f kind).liquidRange.toNat : ℤ) (liquidLevelMax + 1)

/-- The level with a viscosity above 1. -/
def viscousLevel (viscosity level maxLevel : ℤ) : ℤ :=
  let inc := maxLevel - level
  if inc < -viscosity ∨ inc > viscosity then level + inc.tdiv viscosity
  else if inc < 0 then level - 1
  else if inc > 0 then level + 1
  else -1

def decideNode (n0 : MapNode) (s : Surroundings) : Decision :=
  let range := liquidRange f s.liquidKind
  if (s.sources.length ≥ 2 ∧ (f s.liquidKind).liquidRenewable) ∨
      (f n0.getContent).liquidType = .source then
    ⟨(f s.liquidKind).liquidAlternativeSourceId, -1, false⟩
  else if s.sources.length ≥ 1 then
    ⟨if liquidLevelMax ≥ liquidLevelMax + 1 - range then s.liquidKind else floodableNode f n0,
      liquidLevelMax, false⟩
  else if s.ignoredSources ∧ startLevel f n0 ≥ 0 then
    -- "Maybe there are neighboring sources that aren't loaded yet"
    ⟨s.liquidKind, startLevel f n0, false⟩
  else
    let maxLevel := s.flows.foldl (fun level nb => getMaxLiquidLevel nb level) (-1)
    let viscosity : ℤ := ((f s.liquidKind).liquidViscosity.toNat : ℤ)
    let content := if maxLevel ≥ liquidLevelMax + 1 - range then s.liquidKind else floodableNode f n0
    if viscosity > 1 ∧ maxLevel ≠ startLevel f n0 then
      let level := viscousLevel viscosity (startLevel f n0) maxLevel
      ⟨content, level, level ≠ maxLevel⟩
    else ⟨content, maxLevel, false⟩

/-- "check if anything has changed. if not, just continue with the next node." -/
def isUnchanged (n0 : MapNode) (s : Surroundings) (d : Decision) : Bool :=
  decide (d.content = n0.getContent ∧ ((f n0.getContent).liquidType ≠ .flowing ∨
    ((n0.param2 &&& 0x07).toNat = (d.level % 256).toNat ∧ n0.flowsDown = s.flowingDown)))

/-- The changed node, before its light is cleared. -/
def changedNode (n0 : MapNode) (s : Surroundings) (d : Decision) : MapNode :=
  let param2 := if (f d.content).liquidType = .flowing then
    (if s.flowingDown then 0x08 else 0) ||| UInt8.ofNat (d.level % 8).toNat
    else n0.param2 &&& 0xf0
  { n0 with param0 := d.content, param2 := param2 }

/-- The rule: `none` when the node stays as it is. -/
def liquidRule (getNode : V3s16 → MapNode) (p0 : V3s16) : Option MapNode :=
  let n0 := getNode p0
  let s := surroundings f getNode p0
  let d := decideNode f n0 s
  if isPassedOver f n0 || isUnchanged f n0 s d then none else some (changedNode f n0 s d)

/-! ## The queue -/

/-- Floodable neighbours of a liquid are queued whether it changes or not. -/
def enqueuedAlways (n0 : MapNode) (s : Surroundings) : List V3s16 :=
  if (f n0.getContent).liquidType ≠ .none then
    (s.airs.filter fun nb => nb.t ≠ .upper).map NodeNeighbor.p
  else []

/-- "enqueue neighbors for update if necessary". -/
def enqueuedAfter (content : UInt16) (s : Surroundings) : List V3s16 :=
  match (f content).liquidType with
  | .none => s.flows.map NodeNeighbor.p
  | _ => ((s.flows ++ s.airs).filter fun nb => nb.t ≠ .upper).map NodeNeighbor.p

structure LiquidState where
  map : ServerMap
  queue : List V3s16
  mustReflow : List V3s16 := []
  changedNodes : List (V3s16 × MapNode) := []
  checkForFalling : List V3s16 := []
  modifiedBlocks : List V3s16 := []

/-- `node_on_flood`: whether the callback refuses the change of the node at a position. -/
abbrev OnFlood := V3s16 → MapNode → MapNode → Bool

/-- One position of the queue.  `none`: `InvalidPositionException`. -/
def liquidStep (onFlood : OnFlood) (l : LiquidState) (p0 : V3s16) : Option LiquidState :=
  let n0 := l.map.getNode p0
  if isPassedOver f n0 then some l
  else
    let s := surroundings f l.map.getNode p0
    let d := decideNode f n0 s
    let l := { l with
      queue := pushAll l.queue (enqueuedAlways f n0 s)
      mustReflow := if d.mustReflow then l.mustReflow ++ [p0] else l.mustReflow }
    if isUnchanged f n0 s d then some l
    else
      let l := { l with checkForFalling :=
        if s.floatingNodeAbove ∧ d.content = contentAir then l.checkForFalling ++ [p0]
        else l.checkForFalling }
      let n := changedNode f n0 s d
      if floodableNode f n0 ≠ contentAir ∧ onFlood p0 n0 n then some l
      else
        match l.map.setNode p0 (n.clearLight (f n.getContent).lighting) with
        | none => none
        | some m =>
          some { l with
            map := m
            modifiedBlocks := l.modifiedBlocks ++ [getNodeBlockPos p0]
            changedNodes := l.changedNodes ++ [(p0, n0)]
            queue := pushAll l.queue (enqueuedAfter f n.getContent s) }

/-- The loop, for at most so many positions. -/
def liquidLoop (f : Features) (onFlood : OnFlood) : Nat → LiquidState → Option LiquidState
  | 0, l => some l
  | n + 1, l =>
    match l.queue with
    | [] => some l
    | p0 :: rest =>
      match liquidStep f onFlood { l with queue := rest } p0 with
      | none => none
      | some l => liquidLoop f onFlood n l

/-- The map after the light update, the queue, and the blocks that were modified by liquids. -/
def transformLiquidsLocal (onFlood : OnFlood) (writes : List (V3s16 × UInt8))
    (m : ServerMap) (queue : List V3s16) (liquidLoopMax : Nat) : Option LiquidState :=
  match liquidLoop f onFlood liquidLoopMax { map := m, queue := queue } with
  | none => none
  | some l => some { l with
      queue := pushAll l.queue l.mustReflow
      map := l.map.relight writes }

/-- `ServerMap::transformLiquids`: "process the whole queue at most once, to rate-limit".  A queue that
has been growing for too long loses its oldest positions. -/
def transformLiquids (onFlood : OnFlood) (writes : List (V3s16 × UInt8))
    (m : ServerMap) (liquidLoopMax : Nat) (growsTooLong : Bool) : Option ServerMap :=
  let loopMax := min m.transformingLiquid.length liquidLoopMax
  match transformLiquidsLocal f onFlood writes m m.transformingLiquid loopMax with
  | none => none
  | some l => some { l.map with
      transformingLiquid := if growsTooLong then l.queue.drop (l.queue.length - loopMax) else l.queue }

/-! ## A step writes at most one node -/

section

variable {f : Features} {onFlood : OnFlood} {writes : List (V3s16 × UInt8)} {l l' : LiquidState}
  {m : ServerMap} {queue : List V3s16} {p0 : V3s16} {n : Nat}

/-- The step left the map as it was. -/
structure Kept (f : Features) (onFlood : OnFlood) (l : LiquidState) (p0 : V3s16)
    (l' : LiquidState) : Prop where
  map : l'.map = l.map
  modified : l'.modifiedBlocks = l.modifiedBlocks
  queue : ∀ q ∈ l.queue, q ∈ l'.queue
  reason : liquidRule f l.map.getNode p0 = none ∨ ∃ n, onFlood p0 (l.map.getNode p0) n = true

/-- The step placed a node. -/
structure Placed (f : Features) (onFlood : OnFlood) (l : LiquidState) (p0 : V3s16)
    (l' : LiquidState) (n : MapNode) : Prop where
  rule : liquidRule f l.map.getNode p0 = some n
  accepted : ¬ (floodableNode f (l.map.getNode p0) ≠ contentAir ∧
    onFlood p0 (l.map.getNode p0) n = true)
  map : l.map.setNode p0 (n.clearLight (f n.getContent).lighting) = some l'.map
  modified : l'.modifiedBlocks = l.modifiedBlocks ++ [getNodeBlockPos p0]
  queue : ∀ q, q ∈ l'.queue ↔ (q ∈ l.queue ∨
    q ∈ enqueuedAlways f (l.map.getNode p0) (surroundings f l.map.getNode p0)) ∨
      q ∈ enqueuedAfter f n.getContent (surroundings f l.map.getNode p0)

theorem liquidStep_cases (h : liquidStep f onFlood l p0 = some l') :
    Kept f onFlood l p0 l' ∨ ∃ n, Placed f onFlood l p0 l' n := by
  rw [liquidStep] at h
  dsimp only at h
  split at h
  · rename_i hpassed
    left
    rw [← Option.some.inj h]
    refine ⟨rfl, rfl, fun q hq => hq, .inl ?_⟩
    rw [liquidRule]
    exact if_pos (Bool.or_eq_true_iff.2 (.inl hpassed))
  · rename_i hpassed
    split at h
    · rename_i hunchanged
      left
      rw [← Option.some.inj h]
      refine ⟨rfl, rfl, fun q hq => mem_pushAll.2 (.inl hq), .inl ?_⟩
      rw [liquidRule]
      exact if_pos (Bool.or_eq_true_iff.2 (.inr hunchanged))
    · rename_i hunchanged
      split at h
      · rename_i hrefused
        left
        rw [← Option.some.inj h]
        exact ⟨rfl, rfl, fun q hq => mem_pushAll.2 (.inl hq), .inr ⟨_, hrefused.2⟩⟩
      · rename_i haccepted
        split at h
        · cases h
        · rename_i m hset
          right
          refine ⟨changedNode f (l.map.getNode p0) (surroundings f l.map.getNode p0)
            (decideNode f (l.map.getNode p0) (surroundings f l.map.getNode p0)), ?_⟩
          rw [← Option.some.inj h]
          refine ⟨?_, haccepted, hset, rfl, fun q => ?_⟩
          · rw [liquidRule]
            rw [if_neg]
            rw [Bool.or_eq_true]
            exact fun h => h.elim hpassed hunchanged
          · rw [mem_pushAll, mem_pushAll]

theorem isPassedOver_ignore (f : Features) : isPassedOver f { param0 := contentIgnore } = true := by
  have hignore : f (MapNode.getContent { param0 := contentIgnore }) = {} := f.get_ignore
  rw [isPassedOver, hignore]
  rfl

/-- A node that is not passed over is loaded. -/
theorem loaded_of_not_passed_over (h : ¬ isPassedOver f (m.getNode p0) = true) : m.Loaded p0 := by
  cases hblock : m.blocks (getNodeBlockPos p0) with
  | some b =>
    rw [ServerMap.Loaded, hblock]
    rfl
  | none =>
    rw [ServerMap.getNode_of_not_loaded hblock] at h
    exact absurd (isPassedOver_ignore f) h

/-- The node that a step changes can be placed. -/
theorem liquidStep_ne_none (f : Features) (onFlood : OnFlood) (l : LiquidState) (p0 : V3s16) :
    liquidStep f onFlood l p0 ≠ none := by
  rw [liquidStep]
  dsimp only
  split
  · exact Option.some_ne_none _
  · rename_i hpassed
    split
    · exact Option.some_ne_none _
    · split
      · exact Option.some_ne_none _
      · split
        · rename_i hset
          exact absurd hset (ServerMap.setNode_ne_none (loaded_of_not_passed_over hpassed))
        · exact Option.some_ne_none _

theorem map_liquidLoop {P : ServerMap → Prop}
    (hstep : ∀ l l' p0, P l.map → liquidStep f onFlood l p0 = some l' → P l'.map)
    (h : liquidLoop f onFlood n l = some l') (hl : P l.map) : P l'.map := by
  induction n generalizing l with
  | zero =>
    rw [liquidLoop, Option.some.injEq] at h
    rw [← h]
    exact hl
  | succ n ih =>
    rw [liquidLoop] at h
    split at h
    · rw [← Option.some.inj h]
      exact hl
    · rename_i p0 rest hqueue
      split at h
      · cases h
      · rename_i next hnext
        exact ih h (hstep { l with queue := rest } next p0 hl hnext)

end

/-! ## What the rule looks at -/

section

variable {f : Features} {g g' : V3s16 → MapNode} {p0 : V3s16}

/-- The rule of a position looks at the position and its six neighbours. -/
theorem liquidRule_congr (hself : g' p0 = g p0)
    (hneighbors : ∀ d ∈ liquid6dirs, g' (p0 + d.1) = g (p0 + d.1)) :
    liquidRule f g' p0 = liquidRule f g p0 := by
  have hsame : neighbors g' p0 = neighbors g p0 :=
    List.map_congr_left fun d hd => by rw [hneighbors d hd]
  have hsurroundings : surroundings f g' p0 = surroundings f g p0 := by
    rw [surroundings, surroundings, hself, hsame]
  rw [liquidRule, liquidRule, hself, hsurroundings]

end

/-! ## Water -/

def waterSource : UInt16 := 2
def waterFlowing : UInt16 := 3

/-- Air and water; everything else is solid. -/
def withWater : Features where
  get c :=
    if c = contentAir then { floodable := true }
    else if c = waterSource then
      { liquidType := .source
        liquidAlternativeFlowingId := waterFlowing
        liquidAlternativeSourceId := waterSource
        liquidViscosity := 1 }
    else if c = waterFlowing then
      { liquidType := .flowing
        liquidAlternativeFlowingId := waterFlowing
        liquidAlternativeSourceId := waterSource
        liquidViscosity := 1 }
    else {}
  get_ignore := rfl

/-- Water flows into the air beside its source. -/
example : liquidRule withWater
    (fun q => if q = ⟨16, 5, 5⟩ then { param0 := waterSource } else { param0 := contentAir })
    ⟨15, 5, 5⟩ = some { param0 := waterFlowing, param2 := 0x0f } := by decide

end Map
end AxisEngine
