import AxisEngine.Abm.LBMManager
import AxisEngine.Lib.CountP
import AxisEngine.Lib.MergeOnce
import AxisEngine.Map.MapBlock

/-!
# ApplyLBMs — the loading block modifiers of a block are run

`LBMManager::applyLBMs` (`server/blockmodifier.cpp`).  The nodes of the block are gone through once
for each time of introduction since the block was there last.  This makes a batch for each content:
its modifiers and its positions.  Then the modifiers of each batch are triggered, and what they do to
the block is looked at before the next one.

* `NodePos` — a position in the block;
* `LBMToRun`, `LBMScan.visit`, `collect` — the batches;
* `runBatch`, `applyLBMs` — the modifiers are triggered;
* `TriggerCall` — what a modifier was triggered with.
-/

namespace AxisEngine
namespace Abm

open Lib Util Map

/-! ## Positions -/

/-- A position relative to the block. -/
structure NodePos where
  x : Fin 16
  y : Fin 16
  z : Fin 16
deriving DecidableEq

namespace NodePos

theorem index_lt (p : NodePos) : p.z.val * 256 + p.y.val * 16 + p.x.val < nodecount := by
  have hx := p.x.isLt
  have hy := p.y.isLt
  have hz := p.z.isLt
  rw [nodecount_eq]
  omega

/-- `z * zstride + y * ystride + x`. -/
def index (p : NodePos) : Fin nodecount :=
  ⟨p.z.val * 256 + p.y.val * 16 + p.x.val, p.index_lt⟩

/-- The position of the first node. -/
def origin : NodePos := ⟨0, 0, 0⟩

/-- The three loops over Z, Y and X. -/
def all : List NodePos :=
  (List.finRange 16).flatMap fun z => (List.finRange 16).flatMap fun y =>
    (List.finRange 16).map fun x => ⟨x, y, z⟩

theorem mem_all (p : NodePos) : p ∈ all :=
  List.mem_flatMap.2 ⟨p.z, List.mem_finRange _, List.mem_flatMap.2 ⟨p.y, List.mem_finRange _,
    List.mem_map.2 ⟨p.x, List.mem_finRange _, rfl⟩⟩⟩

theorem nodup_all : all.Nodup := by
  refine nodup_flatMap_of_key NodePos.z (List.nodup_finRange 16) (fun z _ => ?_) fun z _ p hp => ?_
  · refine nodup_flatMap_of_key NodePos.y (List.nodup_finRange 16) (fun y _ => ?_)
      fun y _ p hp => ?_
    · exact (List.nodup_finRange 16).map fun x x' h => congrArg NodePos.x h
    · rcases List.mem_map.1 hp with ⟨x, -, rfl⟩
      rfl
  · rcases List.mem_flatMap.1 hp with ⟨y, -, hp⟩
    rcases List.mem_map.1 hp with ⟨x, -, rfl⟩
    rfl

theorem all_eq_cons : all = origin :: all.tail := by
  rfl

end NodePos

/-- `block->getNodeNoCheck(pos).getContent()`. -/
def nodeContent (block : MapBlock) (pos : NodePos) : UInt16 :=
  (block.get pos.index).getContent

/-! ## The batches -/

/-- `p`: node positions.  `l`: the modifiers in their order. -/
structure LBMToRun where
  p : List NodePos := []
  l : List LoadingBlockModifierDef := []

namespace LBMToRun

def insert (b : LBMToRun) (pos : NodePos) : LBMToRun :=
  { b with p := mergeOnce b.p [pos] }

def insertLBMs (b : LBMToRun) (container : List LoadingBlockModifierDef) : LBMToRun :=
  { b with l := mergeOnce b.l container }

end LBMToRun

abbrev ToRun := AList fun _ : UInt16 => LBMToRun

/-- `to_run[c]`, which puts an empty one down where there is none. -/
def ToRun.at (toRun : ToRun) (c : UInt16) : LBMToRun :=
  (toRun.lookup c).getD {}

/-- The modifiers of a content; nothing is kept for the others. -/
def LBMContentMapping.lookup (m : LBMContentMapping) (c : UInt16) :
    Option (List LoadingBlockModifierDef) :=
  if m.map c = [] then none else some (m.map c)

/-- The lookup of the node before is cached.  `batch` refers to the entry of a content. -/
structure LBMScan where
  toRun : ToRun
  previousC : UInt16 := contentIgnore
  lbmList : Option (List LoadingBlockModifierDef) := none
  batch : Option UInt16 := none

namespace LBMScan

def change (m : LBMContentMapping) (c : UInt16) (s : LBMScan) : LBMScan :=
  match m.lookup c with
  | none => { s with lbmList := none, previousC := c }
  | some lbmList =>
    { toRun := s.toRun.insert c (s.toRun.at c)
      previousC := c
      lbmList := some lbmList
      batch := some c }

/-- One node with the content `c`. -/
def visit (m : LBMContentMapping) (c : UInt16) (pos : NodePos) (s : LBMScan) : Except Fault LBMScan :=
  let cChanged := s.previousC ≠ c
  let s := if cChanged then s.change m c else s
  match s.lbmList, s.batch with
  | none, _ => return s
  | some _, none => throw .undefined
  | some lbmList, some key =>
    let b := (s.toRun.at key).insert pos
    if cChanged then return { s with toRun := s.toRun.insert key (b.insertLBMs lbmList) }
    -- we were here before, so the list must be filled
    else if b.l = [] then throw (.fatal (ascii "!batch->l.empty()"))
    else return { s with toRun := s.toRun.insert key b }

end LBMScan

/-- All nodes of the block, for one time of introduction. -/
def scanBlock (block : MapBlock) (toRun : ToRun) (m : LBMContentMapping) : Except Fault ToRun := do
  let s ← NodePos.all.foldlM (fun s pos => LBMScan.visit m (nodeContent block pos) pos s)
    { toRun := toRun }
  return s.toRun

namespace LBMManager

/-- From the lower bound on. -/
def getLBMsIntroducedAfter (m : LBMManager) (time : UInt32) : List (ℕ × LBMContentMapping) :=
  m.lbmLookup.entries.dropWhile fun it => it.1 < time.toNat

def collect (m : LBMManager) (block : MapBlock) (stamp : UInt32) : Except Fault ToRun :=
  ((m.getLBMsIntroducedAfter stamp).map Prod.snd).foldlM (scanBlock block) ∅

end LBMManager

/-! ## The run -/

/-- The environment with the block in it.  `order` is the order in which a hash table is gone
through. -/
structure LBMEnvironment (σ : Type) where
  block : σ → MapBlock
  isOrphan : σ → Bool
  order : List (Sigma fun _ : UInt16 => LBMToRun) → List (Sigma fun _ : UInt16 => LBMToRun)
  order_perm : ∀ entries, (order entries).Perm entries

section

variable {σ : Type} (E : LBMEnvironment σ)

def LBMEnvironment.content (s : σ) (pos : NodePos) : UInt16 :=
  nodeContent (E.block s) pos

/-- What `trigger` of a modifier does to the environment. -/
abbrev Trigger (σ : Type) := LoadingBlockModifierDef → List NodePos → σ → σ

/-- `before` is the environment at the moment of the call. -/
structure TriggerCall (σ : Type) where
  content : UInt16
  lbm : LoadingBlockModifierDef
  positions : List NodePos
  before : σ

/-- `calls`: what has been triggered so far.  `returned`: the block is gone. -/
structure Running (σ : Type) where
  state : σ
  first : Bool := true
  calls : List (TriggerCall σ) := []
  returned : Bool := false

variable (trigger : Trigger σ)

def Running.call (c : UInt16) (lbm : LoadingBlockModifierDef) (p : List NodePos) (r : Running σ) :
    Running σ where
  state := trigger lbm p r.state
  first := false
  calls := r.calls ++ [{ content := c, lbm := lbm, positions := p, before := r.state }]
  returned := E.isOrphan (trigger lbm p r.state)

/-- The positions that are still there.  Nothing has changed before the first call. -/
def recheck (c : UInt16) (p : List NodePos) (r : Running σ) : List NodePos :=
  if r.first then p else p.filter fun pos => E.content r.state pos = c

def runBatch (c : UInt16) : List LoadingBlockModifierDef → List NodePos → Running σ →
    Except Fault (Running σ)
  | [], _, r => return r
  | lbm :: rest, p, r =>
    let p := recheck E c p r
    if p = [] then
      if r.first then throw (.fatal (ascii "!batch.p.empty()")) else return r
    else
      let r := r.call E trigger c lbm p
      if r.returned then return r else runBatch c rest p r

def runEntry (r : Running σ) (entry : Sigma fun _ : UInt16 => LBMToRun) :
    Except Fault (Running σ) :=
  if r.returned then return r else runBatch E trigger entry.1 entry.2.l entry.2.p r

def LBMManager.applyLBMs (m : LBMManager) (stamp : UInt32) (s : σ) : Except Fault (Running σ) :=
  if !m.queryMode then throw (.fatal (ascii "attempted to query on non fully set up LBMManager"))
  else do
    let toRun ← m.collect (E.block s) stamp
    (E.order toRun.entries).foldlM (runEntry E trigger) { state := s }

end

end Abm
end AxisEngine
