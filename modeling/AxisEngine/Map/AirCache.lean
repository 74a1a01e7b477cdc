import AxisEngine.Lib.Transition
import AxisEngine.Map.BlockMake
import AxisEngine.Map.DiskBlock

/-!
# AirCache — whether a block is air, from the cache

`RemoteClient::GetNextBlocks` and `ReflowScan` ask a block whether it is air, and the block answers from
its cache.  Whoever writes nodes has to say that the cache is out of date.  `addNodeAndUpdate`,
`blitBackAll` and `finishBlockMake` do; `transformLiquids` does not.

* `MapEvent`, `mapStep` — the operations on the map;
* `ServerMap.AirRight` — every cache is out of date or right;
* `KeepsAir` — a position where a liquid does not fill the first node of an air block, or empty the
  last one that was not air;
* `CacheSafe` — the steps that keep the caches right;
* `isAir_of_run` — then every block that is asked answers what its nodes are.
-/

namespace AxisEngine
namespace Map

open Lib Util

/-- The blocks of the database, each with the registered types at the time it is loaded. -/
structure Database where
  nodedef : V3s16 → NodeDefManager
  blocks : V3s16 → Option DiskBlock
  reflows : V3s16 → List V3s16
  relights : V3s16 → List (V3s16 × UInt8)

namespace Database

def stored (db : Database) (p : V3s16) : Stored :=
  match db.blocks p with
  | none => .missing
  | some d =>
    match d.read (db.nodedef p) with
    | .error _ => .broken
    | .ok read => .data read.1

def outside (db : Database) : Outside := ⟨db.stored, db.reflows, db.relights⟩

/-- No block has a single content that is an alias of `air`. -/
def NoAirAlias (db : Database) : Prop :=
  ∀ p d, db.blocks p = some d → d.NoAirAlias (db.nodedef p)

end Database

inductive MapEvent where
  | addNodeAndUpdate (p : V3s16) (n : MapNode) (removeMetadata : Bool)
      (writes : List (V3s16 × UInt8))
  | transformLiquids (onFlood : OnFlood) (writes : List (V3s16 × UInt8)) (liquidLoopMax : Nat)
      (growsTooLong : Bool)
  | blitBackAll (db : Database) (overwriteGenerated : Bool) (written : List (V3s16 × Nodes))
  | initBlockMake (blockpos : V3s16) (db : Database) (isUnderground : V3s16 → Bool)
  | finishBlockMake (chunk : V3s16) (db : Database) (g : ServerMap.Generated)
  | cancelBlockMake (chunk : V3s16)
  | loadBlock (p : V3s16) (db : Database)
  | emergeBlock (p : V3s16) (db : Database) (createBlank : Bool)
  | createBlock (p : V3s16)
  | saveBlock (p : V3s16) (format : Format) (nodedef : NodeDefManager)
  | unloadBlock (p : V3s16)
  | deleteBlock (p : V3s16) (deleted : Bool)
  | isAir (p : V3s16)

/-- What serializing does to the block itself. -/
def MapBlock.saved (b : MapBlock) (format : Format) (nodedef : NodeDefManager) : MapBlock :=
  match b.serialize format nodedef true with
  | .error _ => b.isAir.2
  | .ok written => written.2

/-- `none` is a failed assertion or an exception. -/
def mapStep (f : Features) (params : MapgenParams) (m : ServerMap) : MapEvent → Option ServerMap
  | .addNodeAndUpdate p n removeMetadata writes => m.addNodeAndUpdate f writes p n removeMetadata
  | .transformLiquids onFlood writes liquidLoopMax growsTooLong =>
    transformLiquids f onFlood writes m liquidLoopMax growsTooLong
  | .blitBackAll db overwriteGenerated written =>
    some (m.blitBackAll db.outside overwriteGenerated written).1
  | .initBlockMake blockpos db isUnderground =>
    (m.initBlockMake params db.outside isUnderground blockpos).map Prod.fst
  | .finishBlockMake chunk db g => (m.finishBlockMake f params db.outside g chunk).map Prod.fst
  | .cancelBlockMake chunk => m.cancelBlockMake params chunk
  | .loadBlock p db => some (m.loadBlock db.outside p).1
  | .emergeBlock p db createBlank => some (m.emergeBlock db.outside p createBlank).1
  | .createBlock p => some (m.createBlock p).1
  | .saveBlock p format nodedef => some (m.modifyBlock p fun b => b.saved format nodedef)
  | .unloadBlock p => some (m.unloadBlock p)
  | .deleteBlock p deleted => some (m.deleteBlock p deleted).1
  | .isAir p => some (m.modifyBlock p fun b => b.isAir.2)

/-! ## The cache of a block -/

namespace MapBlock

variable {b b' : MapBlock} {n : MapNode} {i : Fin nodecount} {f : Features} {p : V3s16}

/-- Same contents, same answer. -/
theorem onlyAir_congr (h : ∀ i, (b'.get i).getContent = (b.get i).getContent) :
    b'.data.onlyAir = b.data.onlyAir := by
  refine Bool.eq_iff_iff.2 ?_
  rw [onlyAir_iff, onlyAir_iff]
  refine forall_congr' fun i => ?_
  change (b'.get i).getContent = _ ↔ (b.get i).getContent = _
  rw [h i]

/-- The cache is kept, and so is the answer. -/
theorem AirRight.of_same (h : b.AirRight) (hair : b'.mIsAir = b.mIsAir)
    (hexpired : b'.mIsAirExpired = b.mIsAirExpired) (hdata : b'.data.onlyAir = b.data.onlyAir) :
    b'.AirRight := by
  rw [AirRight, hair, hexpired, hdata]
  exact h

theorem airRight_expire (b : MapBlock) : b.expireIsAirCache.AirRight := .inl rfl

theorem AirRight.isAir (h : b.AirRight) : b.isAir.2.AirRight := by
  rw [MapBlock.isAir]
  split
  · exact .inr rfl
  · exact h

theorem AirRight.isAir_iff (h : b.AirRight) :
    b.isAir.1 = true ↔ ∀ i, (b.get i).getContent = contentAir := by
  rw [isAir_eq h]
  exact onlyAir_iff

/-- A node is written that is air when the old one was. -/
theorem AirRight.setNodeNoCheck (h : b.AirRight)
    (hsame : n.getContent = (b.get i).getContent ∨
      (n.getContent ≠ contentAir ∧ (b.get i).getContent ≠ contentAir)) :
    (b.setNodeNoCheck i n).AirRight := by
  refine h.of_same rfl rfl ?_
  rcases hsame with hsame | ⟨hnew, hold⟩
  · refine onlyAir_congr fun j => ?_
    rw [get_setNodeNoCheck]
    split
    · rename_i hij
      rw [← hij]
      exact hsame
    · rfl
  · have hnew' : (b.setNodeNoCheck i n).data.onlyAir ≠ true := by
      intro hall
      have hi := onlyAir_iff.1 hall i
      change ((b.setNodeNoCheck i n).get i).getContent = contentAir at hi
      rw [get_setNodeNoCheck, if_pos rfl] at hi
      exact hnew hi
    have hold' : b.data.onlyAir ≠ true := fun hall => hold (onlyAir_iff.1 hall i)
    rw [Bool.eq_false_iff.2 hnew', Bool.eq_false_iff.2 hold']

/-- Serializing for the disk asks for the cache and drops objects. -/
theorem serialize_disk {format : Format} {nodedef : NodeDefManager} {written : Bytes × MapBlock}
    (h : b.serialize format nodedef true = .ok written) :
    ∃ objects, written.2 = { b.isAir.2 with staticObjects := objects } := by
  rw [serialize] at h
  dsimp only at h
  rw [if_pos rfl] at h
  rcases bind_eq_ok.1 h with ⟨ids, -, h⟩
  rcases bind_eq_ok.1 h with ⟨nimap, -, h⟩
  rcases bind_eq_ok.1 h with ⟨metadata, -, h⟩
  rcases bind_eq_ok.1 h with ⟨objects, -, h⟩
  exact ⟨objects.2, congrArg Prod.snd (Except.ok.inj h).symm⟩

theorem AirRight.saved (h : b.AirRight) (format : Format) (nodedef : NodeDefManager) :
    (b.saved format nodedef).AirRight := by
  rw [MapBlock.saved]
  split
  · exact h.isAir
  · rename_i written hwritten
    rcases serialize_disk hwritten with ⟨objects, hsaved⟩
    rw [hsaved]
    exact h.isAir.of_same rfl rfl rfl

theorem param0_placedLight (f : Features) (n oldnode : MapNode) :
    (ServerMap.placedLight f n oldnode).getContent = n.getContent := by
  rw [ServerMap.placedLight]
  split
  · rw [MapNode.getContent, MapNode.param0_setLight, MapNode.param0_setLight]
    rfl
  · rw [MapNode.getContent, MapNode.clearLight, MapNode.param0_setLight, MapNode.param0_setLight]
    rfl

/-- Air does not come or go without the cache being out of date. -/
theorem AirRight.addNode (h : b.AirRight) (removeMetadata : Bool) :
    (ServerMap.addNodeToBlock f b p n removeMetadata).AirRight := by
  have hget : ∀ i, (if removeMetadata then ServerMap.removeNodeMetadata b (relPos p) else b).get i =
      b.get i := by
    intro i
    split <;> rfl
  have hcleared : (if removeMetadata then ServerMap.removeNodeMetadata b (relPos p)
      else b).AirRight := by
    split
    · exact h.of_same rfl rfl rfl
    · exact h
  rw [ServerMap.addNodeToBlock]
  split
  · exact airRight_expire _
  · rename_i hsame
    rw [ServerMap.setNodeInBlock]
    split
    · exact hcleared
    · refine hcleared.setNodeNoCheck ?_
      rw [param0_placedLight, hget]
      by_cases hcontent : n.getContent = (b.get (nodeIndex p)).getContent
      · exact .inl hcontent
      · right
        rw [← not_or, or_comm]
        exact fun hair => hsame ⟨hcontent, hair⟩

end MapBlock

/-! ## The caches of a map -/

namespace ServerMap

/-- Every cache is out of date or right. -/
def AirRight (m : ServerMap) : Prop := ∀ p b, m.blocks p = some b → b.AirRight

/-- Apart from the blocks that liquids have modified, the caches are right. -/
def AirRightBut (m : ServerMap) (modified : List V3s16) : Prop :=
  ∀ p b, m.blocks p = some b → b.AirRight ∨ p ∈ modified

section

variable {m m' : ServerMap} {p q : V3s16} {b : MapBlock} {n : MapNode} {db : Database}
  {f : Features} {params : MapgenParams}

theorem setBlock_setBlock (m : ServerMap) (p : V3s16) (b b' : Option MapBlock) :
    (m.setBlock p b).setBlock p b' = m.setBlock p b' := by
  rw [ServerMap.setBlock, ServerMap.setBlock, ServerMap.setBlock, Function.update_idem]

theorem airRight_empty : AirRight {} := fun _ _ h => by cases h

theorem AirRight.setBlock (h : m.AirRight) (hb : b.AirRight) :
    (m.setBlock p (some b)).AirRight := by
  intro q b' hb'
  rw [blocks_setBlock] at hb'
  by_cases hq : q = p
  · subst hq
    rw [Function.update_self] at hb'
    cases hb'
    exact hb
  · rw [Function.update_of_ne hq] at hb'
    exact h q b' hb'

theorem AirRight.removed (h : m.AirRight) (p : V3s16) : (m.setBlock p none).AirRight := by
  intro q b' hb'
  rw [blocks_setBlock] at hb'
  by_cases hq : q = p
  · subst hq
    rw [Function.update_self] at hb'
    cases hb'
  · rw [Function.update_of_ne hq] at hb'
    exact h q b' hb'

theorem AirRight.modifyBlock (h : m.AirRight) (p : V3s16) {change : MapBlock → MapBlock}
    (hchange : ∀ b, b.AirRight → (change b).AirRight) : (m.modifyBlock p change).AirRight := by
  rw [ServerMap.modifyBlock]
  split
  · exact h
  · rename_i b hb
    exact h.setBlock (hchange b (h p b hb))

theorem AirRight.reflow (h : m.AirRight) (queued : List V3s16) : (m.reflow queued).AirRight := h

/-- Light is not content. -/
theorem AirRightBut.relight {modified : List V3s16} (h : m.AirRightBut modified)
    (writes : List (V3s16 × UInt8)) : (m.relight writes).AirRightBut modified := by
  rw [ServerMap.relight]
  induction writes generalizing m with
  | nil => exact h
  | cons w writes ih =>
    have hwritten : (m.setParam1 w.1 w.2).AirRightBut modified := by
      rw [setParam1]
      split
      · exact h
      · rename_i b hb
        intro q b' hb'
        rw [blocks_setBlock] at hb'
        by_cases hq : q = getNodeBlockPos w.1
        · subst hq
          rw [Function.update_self] at hb'
          cases hb'
          exact (h _ b hb).imp (fun hb => hb.setNodeNoCheck (.inl rfl)) id
        · rw [Function.update_of_ne hq] at hb'
          exact h q b' hb'
    exact ih hwritten

theorem AirRight.relight (h : m.AirRight) (writes : List (V3s16 × UInt8)) :
    (m.relight writes).AirRight := by
  have hbut : m.AirRightBut [] := fun p b hb => .inl (h p b hb)
  exact fun p b hb => (hbut.relight writes p b hb).resolve_right List.not_mem_nil

theorem AirRight.addNodeAndUpdate {writes : List (V3s16 × UInt8)} {removeMetadata : Bool}
    (h : m.AirRight) (hstep : m.addNodeAndUpdate f writes p n removeMetadata = some m') :
    m'.AirRight := by
  rw [ServerMap.addNodeAndUpdate] at hstep
  split at hstep
  · cases hstep
  · rename_i b hb
    have hplaced : (m.setBlock (getNodeBlockPos p)
        (some (addNodeToBlock f b p n removeMetadata))).AirRight :=
      h.setBlock ((h _ b hb).addNode removeMetadata)
    rw [← Option.some.inj hstep]
    change ServerMap.AirRight (if _ then _ else _)
    split
    · exact hplaced
    · exact hplaced.relight writes

/-! ## Loading and creating -/

theorem airRight_stored (hdb : db.NoAirAlias) {read : MapBlock}
    (h : db.outside.stored p = .data read) : read.AirRight := by
  change db.stored p = .data read at h
  rw [Database.stored] at h
  split at h
  · cases h
  · rename_i d hd
    split at h
    · cases h
    · rename_i result hresult
      cases h
      exact DiskBlock.airRight_read (hdb p d hd) hresult

theorem airRight_new : MapBlock.AirRight {} := .inl rfl

theorem AirRight.createBlank (h : m.AirRight) (p : V3s16) : (m.createBlank p).1.AirRight := by
  rw [ServerMap.createBlank]
  split
  · exact h
  · exact h.setBlock airRight_new

theorem AirRight.createBlock (h : m.AirRight) (p : V3s16) : (m.createBlock p).1.AirRight := by
  rw [ServerMap.createBlock]
  split
  · exact h
  · exact h.createBlank p

variable {ps : List V3s16} {isUnderground : V3s16 → Bool} {onFlood : OnFlood} {l l' : LiquidState}

section

variable (h : m.AirRight) (hdb : db.NoAirAlias)

include h hdb

theorem AirRight.loadBlock (p : V3s16) : (m.loadBlock db.outside p).1.AirRight := by
  rw [ServerMap.loadBlock]
  split
  · exact h
  · exact h
  · exact h
  · rename_i read b hread _
    exact h.setBlock ((airRight_stored hdb hread).of_same rfl rfl rfl)
  · rename_i read hread _
    split
    · exact h
    · have hnew : (read.readInto {}).AirRight := (airRight_stored hdb hread).of_same rfl rfl rfl
      exact ((h.setBlock hnew).reflow _).relight _

theorem AirRight.emergeBlock (p : V3s16) (createBlank : Bool) :
    (m.emergeBlock db.outside p createBlank).1.AirRight := by
  rw [ServerMap.emergeBlock]
  split
  · exact h
  · dsimp only
    split
    · exact (h.loadBlock hdb p).createBlank p
    · exact h.loadBlock hdb p

theorem AirRight.blitBlock (overwriteGenerated : Bool) (p : V3s16) (nodes : Nodes) :
    (m.blitBlock db.outside overwriteGenerated p nodes).1.AirRight := by
  have htarget : (m.blitTarget db.outside p).1.AirRight := by
    rw [blitTarget]
    split
    · exact h
    · exact h.emergeBlock hdb p true
  rw [ServerMap.blitBlock]
  split
  · exact htarget
  · exact htarget
  · split
    · exact htarget
    · exact htarget.setBlock (MapBlock.airRight_expire _)

theorem AirRight.blitBackAll (overwriteGenerated : Bool) (written : List (V3s16 × Nodes)) :
    (m.blitBackAll db.outside overwriteGenerated written).1.AirRight := by
  induction written generalizing m with
  | nil => exact h
  | cons block rest ih =>
    have hblock := h.blitBlock hdb overwriteGenerated block.1 block.2
    rw [ServerMap.blitBackAll]
    dsimp only
    split
    · exact ih hblock
    · exact hblock

end

/-! ## Generating chunks -/

theorem AirRight.blockForMake (h : m.AirRight) (hdb : db.NoAirAlias)
    (isUnderground : V3s16 → Bool) (p : V3s16) :
    (m.blockForMake db.outside isUnderground p).1.AirRight := by
  have hemerged := h.emergeBlock hdb p false
  rw [ServerMap.blockForMake]
  dsimp only
  split
  · exact (hemerged.createBlock p).modifyBlock p fun b hb => hb.of_same rfl rfl rfl
  · exact hemerged

theorem AirRight.refGrab (h : m.AirRight) (hgrab : m.refGrab p = some m') : m'.AirRight := by
  rw [ServerMap.refGrab] at hgrab
  split at hgrab
  · cases hgrab
  · rename_i b hb
    rcases Option.map_eq_some_iff.1 hgrab with ⟨b', hb', rfl⟩
    rw [MapBlock.refGrab] at hb'
    split at hb'
    · cases hb'
      exact h.setBlock ((h p b hb).of_same rfl rfl rfl)
    · cases hb'

theorem AirRight.grabAll {complete : Bool} (h : m.AirRight) (hdb : db.NoAirAlias)
    (hgrab : grabAll db.outside isUnderground ps m = some (m', complete)) : m'.AirRight := by
  induction ps generalizing m with
  | nil =>
    cases hgrab
    exact h
  | cons p ps ih =>
    have hblock := h.blockForMake hdb isUnderground p
    rw [ServerMap.grabAll] at hgrab
    split at hgrab
    · cases hgrab
      exact hblock
    · split at hgrab
      · cases hgrab
      · rename_i m₁ hm₁
        exact ih (hblock.refGrab hm₁) hgrab

theorem AirRight.initBlockMake {blockpos : V3s16} {result : ServerMap × Made} (h : m.AirRight)
    (hdb : db.NoAirAlias)
    (hstep : m.initBlockMake params db.outside isUnderground blockpos = some result) :
    result.1.AirRight := by
  rw [ServerMap.initBlockMake] at hstep
  dsimp only at hstep
  split at hstep
  · cases hstep
    exact h
  · split at hstep
    · cases hstep
      exact h
    · split at hstep
      · cases hstep
      · rename_i m₁ complete hgrab
        cases hstep
        refine AirRight.grabAll ?_ hdb hgrab
        exact h

theorem AirRight.dropAll {after : V3s16 → MapBlock → MapBlock}
    (hafter : ∀ p b, b.AirRight → (after p b).AirRight) (h : m.AirRight)
    (hdrop : dropAll after ps m = some m') : m'.AirRight := by
  induction ps generalizing m with
  | nil =>
    cases hdrop
    exact h
  | cons p ps ih =>
    rw [ServerMap.dropAll] at hdrop
    split at hdrop
    · exact ih h hdrop
    · rename_i b hb
      rw [MapBlock.refDrop] at hdrop
      split at hdrop
      · cases hdrop
      · rename_i b' hb'
        split at hb'
        · cases hb'
          have hdropped : ({ b with refcount := b.refcount - 1 } : MapBlock).AirRight :=
            (h p b hb).of_same rfl rfl rfl
          exact ih (h.setBlock (hafter p _ hdropped)) hdrop
        · cases hb'

/-! ## Liquids -/

theorem blocks_setNode (hset : m.setNode p n = some m') :
    ∃ b, m.blocks (getNodeBlockPos p) = some b ∧
      m' = m.setBlock (getNodeBlockPos p) (some (setNodeInBlock b (nodeIndex p) n)) := by
  rw [setNode] at hset
  split at hset
  · cases hset
  · rename_i b hb
    exact ⟨b, hb, (Option.some.inj hset).symm⟩

theorem airRightBut_liquidLoop {k : Nat} (h : l.map.AirRightBut l.modifiedBlocks)
    (hloop : liquidLoop f onFlood k l = some l') : l'.map.AirRightBut l'.modifiedBlocks := by
  induction k generalizing l with
  | zero =>
    cases hloop
    exact h
  | succ k ih =>
    rw [liquidLoop] at hloop
    split at hloop
    · cases hloop
      exact h
    · rename_i p0 rest hqueue
      split at hloop
      · cases hloop
      · rename_i next hnext
        refine ih ?_ hloop
        rcases liquidStep_cases hnext with hkept | ⟨n, hplaced⟩
        · rw [hkept.map, hkept.modified]
          exact h
        · rcases blocks_setNode hplaced.map with ⟨b, hb, hmap⟩
          intro q b' hb'
          rw [hmap, blocks_setBlock] at hb'
          rw [hplaced.modified, List.mem_append, List.mem_singleton]
          by_cases hq : q = getNodeBlockPos p0
          · exact .inr (.inr hq)
          · rw [Function.update_of_ne hq] at hb'
            exact (h q b' hb').imp id .inl

theorem AirRightBut.expireAll {modified ps : List V3s16} (h : m.AirRightBut modified)
    (hps : ∀ p ∈ modified, p ∈ ps) : (m.expireAll ps).AirRight := by
  induction ps generalizing m modified with
  | nil =>
    intro p b hb
    exact (h p b hb).resolve_right fun hp => by cases hps p hp
  | cons p ps ih =>
    have hrest : (m.modifyBlock p MapBlock.expireIsAirCache).AirRightBut
        (modified.filter fun q => q ≠ p) := by
      intro q b hb
      rw [ServerMap.modifyBlock] at hb
      by_cases hq : q = p
      · subst hq
        left
        split at hb
        · rename_i hnone
          rw [hnone] at hb
          cases hb
        · rw [blocks_setBlock, Function.update_self] at hb
          cases hb
          exact MapBlock.airRight_expire _
      · have hb : m.blocks q = some b := by
          split at hb
          · exact hb
          · rw [blocks_setBlock, Function.update_of_ne hq] at hb
            exact hb
        exact (h q b hb).imp id fun hmem => List.mem_filter.2 ⟨hmem, decide_eq_true hq⟩
    refine ih hrest fun q hq => ?_
    rcases List.mem_filter.1 hq with ⟨hq, hne⟩
    exact (List.mem_cons.1 (hps q hq)).resolve_left (of_decide_eq_true hne)

theorem AirRight.finishBlockMake {g : Generated} {chunk : V3s16} {result : ServerMap × Bool}
    (h : m.AirRight) (hdb : db.NoAirAlias)
    (hstep : m.finishBlockMake f params db.outside g chunk = some result) : result.1.AirRight := by
  have hblit := h.blitBackAll hdb true g.written
  rw [ServerMap.finishBlockMake] at hstep
  dsimp only at hstep
  split at hstep
  · cases hstep
    exact hblit
  · split at hstep
    · cases hstep
      exact hblit
    · rename_i l hl
      split at hstep
      · cases hstep
      · rename_i m₁ hdrop
        cases hstep
        have hfinished : ∀ p b, b.AirRight → (finished params g chunk p b).AirRight := by
          intro p b hb
          rw [finished]
          split
          · exact hb.of_same rfl rfl rfl
          · exact hb
        have hdropped : m₁.AirRight := by
          refine AirRight.dropAll hfinished ?_ hdrop
          rw [transformLiquidsLocal] at hl
          split at hl
          · cases hl
          · rename_i last hloop
            cases hl
            have hbut : last.map.AirRightBut last.modifiedBlocks :=
              airRightBut_liquidLoop (fun p b hb => .inl (hblit p b hb)) hloop
            have hlit := hbut.relight g.lightWrites
            exact AirRightBut.expireAll hlit
              fun p hp => List.mem_append_left _ (List.mem_append_right _ hp)
        exact hdropped

/-! ## Liquids outside of the generation -/

/-- A liquid does not come into a block of air whose cache says so, and does not leave a block that is
air apart from it. -/
def KeepsAir (f : Features) (onFlood : OnFlood) (m : ServerMap) (p0 : V3s16) : Prop :=
  ∀ b n, m.blocks (getNodeBlockPos p0) = some b → b.mIsAirExpired = false →
    liquidRule f m.getNode p0 = some n → n.getContent ≠ contentIgnore →
    ¬ (floodableNode f (m.getNode p0) ≠ contentAir ∧ onFlood p0 (m.getNode p0) n = true) →
    ¬ ((∀ i, (b.get i).getContent = contentAir) ∧ n.getContent ≠ contentAir) ∧
    ¬ ((∀ i, i ≠ nodeIndex p0 → (b.get i).getContent = contentAir) ∧
      (b.get (nodeIndex p0)).getContent ≠ contentAir ∧ n.getContent = contentAir)

theorem airRight_liquidStep {p0 : V3s16} (h : l.map.AirRight) (hkeeps : KeepsAir f onFlood l.map p0)
    (hstep : liquidStep f onFlood l p0 = some l') : l'.map.AirRight := by
  rcases liquidStep_cases hstep with hkept | ⟨n, hplaced⟩
  · rw [hkept.map]
    exact h
  · rcases blocks_setNode hplaced.map with ⟨b, hb, hmap⟩
    rw [hmap]
    refine h.setBlock ?_
    have hcontent : (n.clearLight (f n.getContent).lighting).getContent = n.getContent := by
      rw [MapNode.getContent, MapNode.clearLight, MapNode.param0_setLight, MapNode.param0_setLight]
      rfl
    rw [setNodeInBlock, hcontent]
    split
    · exact h _ b hb
    · rename_i hignore
      by_cases hexpired : b.mIsAirExpired = true
      · exact .inl hexpired
      · rcases hkeeps b n hb (Bool.eq_false_iff.2 hexpired) hplaced.rule hignore
          hplaced.accepted with ⟨hfills, hempties⟩
        refine (h _ b hb).of_same rfl rfl (Bool.eq_iff_iff.2 ?_)
        rw [MapBlock.onlyAir_iff, MapBlock.onlyAir_iff]
        constructor
        · intro hall i
          have hother : ∀ j, j ≠ nodeIndex p0 → (b.get j).getContent = contentAir := by
            intro j hj
            have hj' := hall j
            change MapNode.getContent ((b.setNodeNoCheck _ _).get j) = _ at hj'
            rw [MapBlock.get_setNodeNoCheck, if_neg (Ne.symm hj)] at hj'
            exact hj'
          have hnew := hall (nodeIndex p0)
          change MapNode.getContent ((b.setNodeNoCheck _ _).get _) = _ at hnew
          rw [MapBlock.get_setNodeNoCheck, if_pos rfl, hcontent] at hnew
          by_cases hi : i = nodeIndex p0
          · rw [hi]
            by_contra hold
            exact hempties ⟨hother, hold, hnew⟩
          · exact hother i hi
        · intro hall i
          change MapNode.getContent ((b.setNodeNoCheck _ _).get i) = _
          rw [MapBlock.get_setNodeNoCheck]
          split
          · rw [hcontent]
            by_contra hnew
            exact hfills ⟨hall, hnew⟩
          · exact hall i

/-- The loop, when every position it comes to keeps the air. -/
theorem airRight_liquidLoop {k : Nat} (h : l.map.AirRight)
    (hkeeps : ∀ j < k, ∀ l₁ p0 rest, liquidLoop f onFlood j l = some l₁ → l₁.queue = p0 :: rest →
      KeepsAir f onFlood l₁.map p0) (hloop : liquidLoop f onFlood k l = some l') : l'.map.AirRight := by
  induction k generalizing l with
  | zero =>
    cases hloop
    exact h
  | succ k ih =>
    rw [liquidLoop] at hloop
    split at hloop
    · cases hloop
      exact h
    · rename_i p0 rest hqueue
      split at hloop
      · cases hloop
      · rename_i next hnext
        have hfirst : KeepsAir f onFlood l.map p0 := hkeeps 0 k.succ_pos l p0 rest rfl hqueue
        refine ih ?_ (fun j hj l₁ q rest₁ hl₁ hq => ?_) hloop
        · exact airRight_liquidStep (l := { l with queue := rest }) h hfirst hnext
        · refine hkeeps (j + 1) (Nat.succ_lt_succ hj) l₁ q rest₁ ?_ hq
          rw [liquidLoop, hqueue]
          dsimp only
          rw [hnext]
          exact hl₁

end

end ServerMap

/-! ## Runs -/

section

variable {f : Features} {params : MapgenParams} {m m' : ServerMap} {e : MapEvent}
  {es : List MapEvent} {p : V3s16} {b : MapBlock}

/-- The registered types have no alias of `air` that is the only content of a block that is loaded, and
liquids outside of the generation keep the air. -/
def CacheSafe (f : Features) (m : ServerMap) : MapEvent → Prop
  | .transformLiquids onFlood _ liquidLoopMax _ =>
    ∀ j < min m.transformingLiquid.length liquidLoopMax, ∀ l p0 rest,
      liquidLoop f onFlood j { map := m, queue := m.transformingLiquid } = some l →
        l.queue = p0 :: rest → ServerMap.KeepsAir f onFlood l.map p0
  | .blitBackAll db .. => db.NoAirAlias
  | .initBlockMake _ db _ => db.NoAirAlias
  | .finishBlockMake _ db _ => db.NoAirAlias
  | .loadBlock _ db => db.NoAirAlias
  | .emergeBlock _ db _ => db.NoAirAlias
  | _ => True

theorem airRight_transformLiquids {onFlood : OnFlood} {writes : List (V3s16 × UInt8)} {k : Nat}
    {growsTooLong : Bool} (h : m.AirRight)
    (hsafe : CacheSafe f m (.transformLiquids onFlood writes k growsTooLong))
    (hstep : transformLiquids f onFlood writes m k growsTooLong = some m') : m'.AirRight := by
  rw [transformLiquids] at hstep
  dsimp only at hstep
  split at hstep
  · cases hstep
  · rename_i l hl
    rw [transformLiquidsLocal] at hl
    split at hl
    · cases hl
    · rename_i last hloop
      cases hl
      cases hstep
      exact (ServerMap.airRight_liquidLoop h hsafe hloop).relight writes

theorem airRight_mapStep (h : m.AirRight) (hsafe : CacheSafe f m e)
    (hstep : mapStep f params m e = some m') : m'.AirRight := by
  cases e with
  | addNodeAndUpdate p n removeMetadata writes => exact h.addNodeAndUpdate hstep
  | transformLiquids onFlood writes liquidLoopMax growsTooLong =>
    exact airRight_transformLiquids h hsafe hstep
  | blitBackAll db overwriteGenerated written =>
    cases hstep
    exact h.blitBackAll hsafe overwriteGenerated written
  | initBlockMake blockpos db isUnderground =>
    rcases Option.map_eq_some_iff.1 hstep with ⟨result, hresult, rfl⟩
    exact h.initBlockMake hsafe hresult
  | finishBlockMake chunk db g =>
    rcases Option.map_eq_some_iff.1 hstep with ⟨result, hresult, rfl⟩
    exact h.finishBlockMake hsafe hresult
  | cancelBlockMake chunk => exact h.dropAll (fun _ _ hb => hb) hstep
  | loadBlock p db =>
    cases hstep
    exact h.loadBlock hsafe p
  | emergeBlock p db createBlank =>
    cases hstep
    exact h.emergeBlock hsafe p createBlank
  | createBlock p =>
    cases hstep
    exact h.createBlock p
  | saveBlock p format nodedef =>
    cases hstep
    exact h.modifyBlock p fun b hb => hb.saved format nodedef
  | unloadBlock p =>
    cases hstep
    rw [ServerMap.unloadBlock]
    split
    · exact h
    · split
      · exact h.removed p
      · exact h
  | deleteBlock p deleted =>
    cases hstep
    rw [ServerMap.deleteBlock]
    split
    · exact h.removed p
    · exact h
  | isAir p =>
    cases hstep
    exact h.modifyBlock p fun b hb => hb.isAir

/-- Every block that is asked answers what its nodes are. -/
theorem isAir_of_run
    (h : Run.Guarded (CacheSafe f) (fun m e m' => mapStep f params m e = some m') {} es m)
    (hb : m.blocks p = some b) : b.isAir.1 = true ↔ ∀ i, (b.get i).getContent = contentAir := by
  have hright : m.AirRight :=
    Run.guarded_invariant (fun m e m' hm hsafe hstep => airRight_mapStep hm hsafe hstep) h
      ServerMap.airRight_empty
  exact (hright p b hb).isAir_iff

end

/-! ## Water beside a block of air -/

section

theorem MapBlock.copyFrom_fill (b : MapBlock) (n : MapNode) : b.copyFrom (.fill n) =
    { b with data := .mono n, mIsAir := n.getContent == contentAir, mIsAirExpired := false } := by
  have hne : nodecount ≠ 0 := MapBlock.nodecount_pos.ne'
  have hhead : (Nodes.fill n).list.headD default = n := by
    change (List.replicate nodecount n).headD default = n
    cases hcount : nodecount with
    | zero => exact absurd hcount hne
    | succ k => rfl
  rw [copyFrom, tryShrinkNodes]
  dsimp only
  rw [hhead, if_pos]
  exact List.all_eq_true.2 fun n' hn' => decide_eq_true (List.eq_of_mem_replicate hn')

def emptyDatabase : Database := ⟨fun _ => .builtin, fun _ => none, fun _ => [], fun _ => []⟩

theorem noAirAlias_empty : emptyDatabase.NoAirAlias := fun _ _ h => by cases h

variable {f : Features} {m : ServerMap}

/-- What a voxel manipulator writes where there was no block. -/
theorem ServerMap.blitBlock_new {p : V3s16} {n : MapNode} (hb : m.blocks p = none)
    (hlimit : blockposOverMaxLimit p = false) :
    (m.blitBlock emptyDatabase.outside true p (.fill n)) = ((m.setBlock p (some {})).setBlock p
      (some { data := .mono n, mIsAir := n.getContent == contentAir }), true, true) := by
  have hloaded : m.loadBlock emptyDatabase.outside p = (m, .notFound) := by
    rw [loadBlock, hb]
    rfl
  have htarget : m.blitTarget emptyDatabase.outside p = (m.setBlock p (some {}), .found) := by
    rw [blitTarget, if_neg (by rw [hlimit]; exact fun h => Bool.false_ne_true h.2), emergeBlock,
      if_neg (by rw [hb]; decide), hloaded]
    dsimp only
    rw [if_pos ⟨rfl, rfl, hlimit⟩, createBlank, if_neg (by rw [hlimit]; decide)]
  have hthere : (m.setBlock p (some {})).blocks p = some {} := by
    rw [blocks_setBlock, Function.update_self]
  rw [blitBlock, htarget]
  dsimp only
  rw [hthere]
  dsimp only
  rw [if_neg (by decide), MapBlock.copyFrom_fill]
  rfl

/-- A node that is lit as the old one needs no light update. -/
theorem ServerMap.addNodeAndUpdate_of_same {p : V3s16} {b : MapBlock} {n : MapNode}
    {writes : List (V3s16 × UInt8)} {removeMetadata : Bool} (hb : m.blocks (getNodeBlockPos p) = some b)
    (hsame : (f n.getContent).lighting = (f (b.get (nodeIndex p)).getContent).lighting) :
    m.addNodeAndUpdate f writes p n removeMetadata =
      some { m.setBlock (getNodeBlockPos p) (some (addNodeToBlock f b p n removeMetadata)) with
        transformingLiquid := pushAll m.transformingLiquid (queuedNear f
          (m.setBlock (getNodeBlockPos p) (some (addNodeToBlock f b p n removeMetadata))) p) } := by
  rw [addNodeAndUpdate, hb]
  dsimp only
  rw [if_pos hsame]
  rfl

theorem transformLiquids_one {onFlood : OnFlood} {p0 : V3s16} {rest : List V3s16} {l : LiquidState}
    (hqueue : m.transformingLiquid = p0 :: rest)
    (hstep : liquidStep f onFlood { map := m, queue := rest } p0 = some l) :
    transformLiquids f onFlood [] m 1 false =
      some { l.map with transformingLiquid := pushAll l.queue l.mustReflow } := by
  have hmin : min (p0 :: rest).length 1 = 1 := by
    rw [List.length_cons]
    exact min_eq_right (Nat.succ_pos _)
  have hloop : liquidLoop f onFlood 1 { map := m, queue := p0 :: rest } = some l := by
    rw [liquidLoop]
    dsimp only
    rw [hstep]
    rfl
  rw [transformLiquids, transformLiquidsLocal, hqueue, hmin, hloop]
  rfl

/-- A block of air that was asked, beside a block of stone. -/
def airBesideStone : ServerMap where
  blocks := Function.update (Function.update (fun _ => none) ⟨0, 0, 0⟩
    (some { data := .mono { param0 := contentAir }, mIsAir := true, mIsAirExpired := false }))
    ⟨1, 0, 0⟩ (some { data := .mono { param0 := 1 } })

/-- Both are written by a voxel manipulator, and then the first one is asked. -/
def airBesideStoneEvents : List MapEvent :=
  [.blitBackAll emptyDatabase true
      [(⟨0, 0, 0⟩, .fill { param0 := contentAir }), (⟨1, 0, 0⟩, .fill { param0 := 1 })],
    .isAir ⟨0, 0, 0⟩]

theorem airBesideStone_run :
    Run.Guarded (CacheSafe withWater) (fun m e m' => mapStep withWater {} m e = some m') {}
      airBesideStoneEvents airBesideStone := by
  have hne : (⟨0, 0, 0⟩ : V3s16) ≠ ⟨1, 0, 0⟩ := by decide
  have hblit : (ServerMap.blitBackAll emptyDatabase.outside true
      [(⟨0, 0, 0⟩, .fill { param0 := contentAir }), (⟨1, 0, 0⟩, .fill { param0 := 1 })] {}).1 =
      { blocks := Function.update (Function.update (fun _ => none) ⟨0, 0, 0⟩
          (some { data := .mono { param0 := contentAir }, mIsAir := true }))
          ⟨1, 0, 0⟩ (some { data := .mono { param0 := 1 } }) } := by
    have hfirst : ServerMap.blitBlock emptyDatabase.outside true {} ⟨0, 0, 0⟩
        (.fill { param0 := contentAir }) = (ServerMap.setBlock {} ⟨0, 0, 0⟩
          (some { data := .mono { param0 := contentAir }, mIsAir := true }), true, true) := by
      refine (ServerMap.blitBlock_new rfl (by decide)).trans ?_
      rw [ServerMap.setBlock_setBlock]
      rfl
    have hsecond := @ServerMap.blitBlock_new (ServerMap.setBlock {} ⟨0, 0, 0⟩
      (some { data := .mono { param0 := contentAir }, mIsAir := true })) ⟨1, 0, 0⟩ { param0 := 1 }
      (by rw [ServerMap.blocks_setBlock, Function.update_of_ne hne.symm]) (by decide)
    rw [ServerMap.setBlock_setBlock] at hsecond
    rw [ServerMap.blitBackAll]
    dsimp only
    rw [hfirst]
    dsimp only
    rw [if_pos rfl, ServerMap.blitBackAll]
    dsimp only
    rw [hsecond]
    rfl
  refine .cons ⟨noAirAlias_empty, congrArg some hblit⟩ (.cons ⟨trivial, ?_⟩ (.nil _))
  have hthere : Function.update (Function.update (fun _ : V3s16 => (none : Option MapBlock)) ⟨0, 0, 0⟩
      (some { data := .mono { param0 := contentAir }, mIsAir := true }))
      ⟨1, 0, 0⟩ (some { data := .mono { param0 := 1 } }) ⟨0, 0, 0⟩ =
        some { data := .mono { param0 := contentAir }, mIsAir := true } := by
    rw [Function.update_of_ne hne, Function.update_self]
  dsimp only [mapStep]
  rw [ServerMap.modifyBlock]
  dsimp only
  rw [hthere]
  dsimp only
  rw [ServerMap.setBlock, airBesideStone]
  dsimp only
  rw [Function.update_comm hne.symm, Function.update_idem]
  rfl

theorem blockPos_water : getNodeBlockPos ⟨16, 5, 5⟩ = ⟨1, 0, 0⟩ := by decide

theorem block_stone : airBesideStone.blocks (getNodeBlockPos ⟨16, 5, 5⟩) =
    some { data := .mono { param0 := 1 } } := by
  rw [blockPos_water]
  rfl

theorem isAir_airBesideStone :
    (MapBlock.isAir { data := .mono { param0 := 1 } }).1 = true ↔
      ∀ i, (MapBlock.get { data := .mono { param0 := 1 } } i).getContent = contentAir :=
  isAir_of_run airBesideStone_run block_stone

/-- A source of water is placed in the stone. -/
def waterBesideAir : ServerMap :=
  { airBesideStone.setBlock ⟨1, 0, 0⟩ (some (ServerMap.addNodeToBlock withWater
      { data := .mono { param0 := 1 } } ⟨16, 5, 5⟩ { param0 := waterSource } false)) with
    transformingLiquid := [⟨15, 5, 5⟩, ⟨16, 5, 5⟩] }

theorem addWater : ServerMap.addNodeToBlock withWater { data := .mono { param0 := 1 } } ⟨16, 5, 5⟩
    { param0 := waterSource } false = MapBlock.setNodeNoCheck { data := .mono { param0 := 1 } }
      (nodeIndex ⟨16, 5, 5⟩) { param0 := waterSource } := rfl

theorem getNode_waterBesideAir : waterBesideAir.getNode =
    Function.update airBesideStone.getNode ⟨16, 5, 5⟩ { param0 := waterSource } := by
  change (airBesideStone.setBlock ⟨1, 0, 0⟩ (some _)).getNode = _
  rw [addWater, ← blockPos_water]
  refine ServerMap.getNode_setBlock block_stone ?_ fun i hi => ?_
  · rw [MapBlock.get_setNodeNoCheck, if_pos rfl]
  · rw [MapBlock.get_setNodeNoCheck, if_neg (Ne.symm hi)]

theorem waterBesideAir_step : mapStep withWater {} airBesideStone
    (.addNodeAndUpdate ⟨16, 5, 5⟩ { param0 := waterSource } false []) = some waterBesideAir := by
  have hthere : ∀ q, (waterBesideAir.blocks q).isSome = (airBesideStone.blocks q).isSome := by
    intro q
    rw [waterBesideAir]
    change ((Function.update airBesideStone.blocks ⟨1, 0, 0⟩ (some _)) q).isSome = _
    by_cases hq : q = ⟨1, 0, 0⟩
    · rw [hq, Function.update_self]
      rfl
    · rw [Function.update_of_ne hq]
  have hqueue : ServerMap.queuedNear withWater waterBesideAir ⟨16, 5, 5⟩ =
      [⟨15, 5, 5⟩, ⟨16, 5, 5⟩] := by
    rw [ServerMap.queuedNear]
    simp only [hthere, getNode_waterBesideAir]
    decide
  have hplaced : ServerMap.queuedNear withWater (airBesideStone.setBlock ⟨1, 0, 0⟩
      (some (ServerMap.addNodeToBlock withWater { data := .mono { param0 := 1 } } ⟨16, 5, 5⟩
        { param0 := waterSource } false))) ⟨16, 5, 5⟩ = [⟨15, 5, 5⟩, ⟨16, 5, 5⟩] := hqueue
  refine (ServerMap.addNodeAndUpdate_of_same (f := withWater) (n := { param0 := waterSource })
    block_stone rfl).trans ?_
  rw [blockPos_water, hplaced]
  rfl

theorem liquidRule_waterBesideAir : liquidRule withWater waterBesideAir.getNode ⟨15, 5, 5⟩ =
    some { param0 := waterFlowing, param2 := 0x0f } := by
  rw [getNode_waterBesideAir]
  decide

/-- The water flows into the block of air, which still says that it is air. -/
theorem liquid_in_air_block :
    ¬ ∀ (f : Features) (params : MapgenParams) (es : List MapEvent) (m : ServerMap) (p : V3s16)
      (b : MapBlock), Run (fun m e m' => mapStep f params m e = some m') {} es m →
      m.blocks p = some b → (b.isAir.1 = true ↔ ∀ i, (b.get i).getContent = contentAir) := by
  intro hclaim
  have hpos : getNodeBlockPos ⟨15, 5, 5⟩ = ⟨0, 0, 0⟩ := by decide
  have hne := liquidStep_ne_none withWater (fun _ _ _ => false)
    { map := waterBesideAir, queue := [⟨16, 5, 5⟩] } ⟨15, 5, 5⟩
  rcases Option.ne_none_iff_exists'.1 hne with ⟨l, hl⟩
  have hflow : mapStep withWater {} waterBesideAir
      (.transformLiquids (fun _ _ _ => false) [] 1 false) =
        some { l.map with transformingLiquid := pushAll l.queue l.mustReflow } :=
    transformLiquids_one rfl hl
  have hrun := ((Run.of_guarded airBesideStone_run).snoc waterBesideAir_step).snoc hflow
  rcases liquidStep_cases hl with hkept | ⟨n, hplaced⟩
  · rcases hkept.reason with hnone | ⟨n, hrefused⟩
    · rw [liquidRule_waterBesideAir] at hnone
      cases hnone
    · cases hrefused
  · have hn := hplaced.rule
    rw [liquidRule_waterBesideAir, Option.some.injEq] at hn
    rcases ServerMap.blocks_setNode hplaced.map with ⟨b, hb, hmap⟩
    have hair : waterBesideAir.blocks (getNodeBlockPos ⟨15, 5, 5⟩) = some
        { data := .mono { param0 := contentAir }, mIsAir := true, mIsAirExpired := false } := by
      rw [hpos]
      rfl
    rw [hair, Option.some.injEq] at hb
    subst hn hb
    have hblock : l.map.blocks (getNodeBlockPos ⟨15, 5, 5⟩) = some (MapBlock.setNodeNoCheck
        { data := .mono { param0 := contentAir }, mIsAir := true, mIsAirExpired := false }
        (nodeIndex ⟨15, 5, 5⟩) { param0 := waterFlowing, param2 := 0x0f }) := by
      rw [hmap, ServerMap.blocks_setBlock, Function.update_self]
      rfl
    have hall := (hclaim _ _ _ _ _ _ hrun hblock).1 rfl (nodeIndex ⟨15, 5, 5⟩)
    rw [MapBlock.get_setNodeNoCheck, if_pos rfl] at hall
    exact absurd hall (by decide)

end

end Map
end AxisEngine
