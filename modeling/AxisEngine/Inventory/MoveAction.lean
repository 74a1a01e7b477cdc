import AxisEngine.Inventory.MoveItem

/-!
# MoveAction — the move action of the server and of the client

`IMoveAction::apply` and `IMoveAction::clientApply` (`inventorymanager.cpp`).  The callbacks of the
scripts are parameters; here they look at what they are given and change no inventory, so the lists
that a location leads to stay the same during an action.  Reports that come after the move
(rollback, `on_move`, `on_take`, `on_put`) are left out.

* `limits` — what the callbacks allow, and whether the stacks may be swapped;
* `applyLimit` — how a limit acts on `move_count`, with the conversions of the source;
* `applyMove` — the action for one pair of slots;
* `applySomewhere`, `clientApply`.
-/

namespace AxisEngine
namespace Inventory

open Lib

/-! ## Locations and lists -/

inductive InventoryLocation
  | undefined
  | currentPlayer
  | player (name : Bytes)
  | nodemeta (x y z : Int16)
  | detached (name : Bytes)
  deriving DecidableEq

namespace InventoryLocation

/-- `operator ==`; an undefined location equals nothing. -/
def same (a b : InventoryLocation) : Bool :=
  match a with
  | .undefined => false
  | _ => a = b

def isPlayer : InventoryLocation → Bool
  | .player _ => true
  | _ => false

def applyCurrentPlayer (name : Bytes) : InventoryLocation → InventoryLocation
  | .currentPlayer => .player name
  | location => location

end InventoryLocation

/-- Locations lead to inventories (`ν`), and the names in an inventory to lists (`ι`). -/
structure InventoryManager (ν ι : Type) where
  getInventory : InventoryLocation → Option ν
  getList : ν → Bytes → Option ι
  heap : Heap ι

/-- `get_borrow_checked_invlist`. -/
def InventoryManager.findList {ν ι : Type} (mgr : InventoryManager ν ι)
    (location : InventoryLocation) (listname : Bytes) : Option ι :=
  (mgr.getInventory location).bind fun inv => mgr.getList inv listname

/-! ## Actions -/

structure MoveAction where
  fromInv : InventoryLocation
  fromList : Bytes
  fromI : Int16
  toInv : InventoryLocation
  toList : Bytes
  toI : Int16

def MoveAction.swapDirections (ma : MoveAction) : MoveAction :=
  { fromInv := ma.toInv, fromList := ma.toList, fromI := ma.toI
    toInv := ma.fromInv, toList := ma.fromList, toI := ma.fromI }

structure IMoveAction extends MoveAction where
  /-- 0 means everything. -/
  count : UInt16
  moveSomewhere : Bool := false
  causedByMoveSomewhere : Bool := false
  moveCount : UInt32 := 0

/-- What the scripts answer; any integer. -/
structure Callbacks where
  allowPut : MoveAction → ItemStack → Int32
  allowTake : MoveAction → ItemStack → Int32
  allowMove : MoveAction → UInt16 → Int32

/-- A slot index, converted to `u32` as the list functions take it. -/
def slotIndex (i : Int16) : Nat :=
  (UInt32.ofInt i.toInt).toNat

/-! ## Limits -/

structure Limits where
  srcCanTakeCount : Int32
  dstCanPutCount : Int32
  allowSwap : Bool

/-- A callback lets `n` items through; -1 stands for an infinite stack. -/
def permits (limit : Int32) (n : UInt16) : Bool :=
  decide (limit = -1) || decide (limit.toInt ≥ n.toNat)

variable (cb : Callbacks) (ma : MoveAction) (srcItem dstItem : ItemStack) (swapExpected : Bool)

/-- "Move action within the same inventory". -/
def limitsWithin : Limits :=
  let srcCanTakeCount := cb.allowMove ma srcItem.count
  let allowSwap := swapExpected && permits srcCanTakeCount srcItem.count
  -- the other direction is asked for only when the first one allows the swap
  let dstCanPutCount :=
    if allowSwap then cb.allowMove ma.swapDirections dstItem.count else srcCanTakeCount
  let allowSwap := allowSwap && permits dstCanPutCount dstItem.count
  if swapExpected ≠ allowSwap then
    { srcCanTakeCount := 0, dstCanPutCount := 0, allowSwap := allowSwap }
  else
    { srcCanTakeCount := srcCanTakeCount
      dstCanPutCount := dstCanPutCount
      allowSwap := allowSwap }

/-- "Take from one inventory, put into another". -/
def limitsBetween : Limits :=
  let dstCanPutCount := cb.allowPut ma srcItem
  let srcCanTakeCount := cb.allowTake ma srcItem
  let allowSwap := swapExpected && permits srcCanTakeCount srcItem.count &&
    permits dstCanPutCount srcItem.count
  -- a swap runs the callbacks a second time, with swapped inventories
  let allowSwap := allowSwap && permits (cb.allowPut ma.swapDirections dstItem) dstItem.count &&
    permits (cb.allowTake ma.swapDirections dstItem) dstItem.count
  if swapExpected ≠ allowSwap then
    { srcCanTakeCount := 0, dstCanPutCount := 0, allowSwap := allowSwap }
  else
    { srcCanTakeCount := srcCanTakeCount
      dstCanPutCount := dstCanPutCount
      allowSwap := allowSwap }

def limits : Limits :=
  if ma.fromInv.same ma.toInv then limitsWithin cb ma srcItem dstItem swapExpected
  else limitsBetween cb ma srcItem dstItem swapExpected

/-- `move_count = (u32)std::min<s32>(limit, move_count)`, unless the limit is -1. -/
def applyLimit (limit : Int32) (moveCount : UInt32) : UInt32 :=
  if limit = -1 then moveCount
  else if limit.toInt ≤ moveCount.toInt32.toInt then limit.toUInt32
  else moveCount.toInt32.toUInt32

/-! ## The server -/

variable {ν ι : Type} [DecidableEq ι]

/-- The lists after an action, `move_count`, and whether the stacks were swapped. -/
structure Applied (ι : Type) where
  heap : Heap ι
  moveCount : UInt32
  didSwap : Bool := false

/-- "If source is infinite, reset its stack". -/
def resetSource (h : Heap ι) (src : ι) (fromI : Nat) (dst : ι) (caused didSwap : Bool)
    (moveCount : UInt32) (fromStackWas toStackWas : ItemStack) : Heap ι :=
  let h :=
    if !caused && decide (fromStackWas.name ≠ toStackWas.name) then
      -- the stack of the destination goes to the first empty slot
      match (h dst).items.findIdx? ItemStack.isEmpty with
      | some i => (h.call dst fun l => l.changeItem i toStackWas).2
      | none => h
    else h
  if moveCount > 0 ∨ didSwap then (h.call src fun l => l.changeItem fromI fromStackWas).2 else h

/-- "If destination is infinite, reset its stack and take count from source". -/
def resetDestination (h : Heap ι) (src : ι) (fromI : Nat) (dst : ι) (toI : Nat) (didSwap : Bool)
    (moveCount : UInt32) (fromStackWas toStackWas : ItemStack) : Heap ι :=
  let h := (h.call dst fun l => l.changeItem toI toStackWas).2
  if didSwap then
    let h := (h.call src fun l => l.changeItem fromI fromStackWas).2
    (h.call src fun l => l.takeItem fromI moveCount).2
  else h

/-- "Undo client prediction": the lists are sent again. -/
def undoPrediction (h : Heap ι) (ma : MoveAction) (src dst : ι) : Heap ι :=
  let h := if ma.fromInv.isPlayer then (h.call src fun l => ((), l.setModified true)).2 else h
  if ma.toInv.isPlayer then (h.call dst fun l => ((), l.setModified true)).2 else h

/-- The actual move and what follows, once `move_count` is known; `none` is a failed assertion. -/
def performMove (defs : ItemDefManager) (h : Heap ι) (src : ι) (fromI : Nat) (dst : ι) (toI : Nat)
    (caused : Bool) (limits : Limits) (moveCount : UInt32) : Option (Applied ι) := do
  let fromStackWas ← (h src).getItem fromI
  let toStackWas ← (h dst).getItem toI
  let moved ← moveItem defs h src fromI dst toI moveCount limits.allowSwap
  let moveCount := UInt32.ofNat moved.moved.count.toNat
  if limits.allowSwap ≠ moved.didSwap then none
  else
    let h := moved.heap
    let h :=
      if limits.srcCanTakeCount = -1 then
        resetSource h src fromI dst caused moved.didSwap moveCount fromStackWas toStackWas
      else h
    let h :=
      if limits.dstCanPutCount = -1 then
        resetDestination h src fromI dst toI moved.didSwap moveCount fromStackWas toStackWas
      else h
    some { heap := h, moveCount := moveCount, didSwap := moved.didSwap }

/-- `move_count` under both limits; the callbacks might have taken items away. -/
def limitedCount (limits : Limits) (moveCount : UInt32) (available : UInt16) : UInt32 :=
  let moveCount := applyLimit limits.srcCanTakeCount moveCount
  let moveCount := applyLimit limits.dstCanPutCount moveCount
  if moveCount.toNat > available.toNat then UInt32.ofNat available.toNat else moveCount

/-- The part of `apply` that asks the callbacks about `srcItem` and moves what they allow. -/
def applyAllowed (defs : ItemDefManager) (cb : Callbacks) (act : IMoveAction) (h : Heap ι)
    (src dst : ι) (stack srcItem : ItemStack) (swapExpected : Bool) : Option (Applied ι) := do
  let dstItem ← (h dst).getItem (slotIndex act.toI)
  let limits := limits cb act.toMoveAction srcItem dstItem swapExpected
  let moveCount := limitedCount limits (UInt32.ofNat srcItem.count.toNat) stack.count
  if moveCount = 0 then
    some { heap := undoPrediction h act.toMoveAction src dst, moveCount := 0 }
  else
    performMove defs h src (slotIndex act.fromI) dst (slotIndex act.toI)
      act.causedByMoveSomewhere limits moveCount

/-- `src_item`: the stack in the source slot, or as many of its items as are asked for. -/
def requested (stack : ItemStack) (count : UInt16) : ItemStack :=
  if count > 0 ∧ count < stack.count then { stack with count := count } else stack

variable (defs : ItemDefManager) (cb : Callbacks) (act : IMoveAction) (mgr : InventoryManager ν ι)

/-- `apply` for one pair of slots.  An early return leaves `move_count` as it was. -/
def applyMove : Option (Applied ι) :=
  let unchanged : Applied ι := { heap := mgr.heap, moveCount := act.moveCount }
  match mgr.findList act.fromInv act.fromList, mgr.findList act.toInv act.toList with
  | some src, some dst =>
    let h := mgr.heap
    if act.fromI.toInt < 0 ∨ (h src).getSize.toNat ≤ slotIndex act.fromI then some unchanged
    else if act.toI.toInt < 0 ∨ (h dst).getSize.toNat ≤ slotIndex act.toI then some unchanged
    else if src = dst ∧ act.fromI = act.toI then some unchanged
    else do
      let stack ← (h src).getItem (slotIndex act.fromI)
      let srcItem := requested stack act.count
      if srcItem.isEmpty then some unchanged
      else
        let (fits, restitem) := (h dst).itemFits defs (slotIndex act.toI) srcItem
        let swapExpected :=
          !fits && decide (restitem.count = srcItem.count) && !act.causedByMoveSomewhere
        let moveCount := srcItem.count - restitem.count
        -- shift-click: cannot fill this stack, proceed with the next slot
        if act.causedByMoveSomewhere && decide (moveCount = 0) then
          some { heap := h, moveCount := 0 }
        else
          -- a swap takes the entire stack
          let srcItem := if swapExpected then stack else { srcItem with count := moveCount }
          applyAllowed defs cb act h src dst stack srcItem swapExpected
  | _, _ => some unchanged

/-- `add_to`: one slot of the loops of `move_somewhere`; `none` is a failed assertion. -/
def addTo (defs : ItemDefManager) (cb : Callbacks) (mgr : InventoryManager ν ι)
    (act : IMoveAction) (destI : Nat) : Option (IMoveAction × InventoryManager ν ι) := do
  let act := { act with toI := Int16.ofNat destI }
  let applied ← applyMove defs cb act mgr
  -- `assert(move_count <= count)`
  if act.count.toNat < applied.moveCount.toNat then none
  else
    some ({ act with
        moveCount := applied.moveCount
        count := act.count - UInt16.ofNat applied.moveCount.toNat },
      { mgr with heap := applied.heap })

/-- One of the two loops of `move_somewhere`, over the slots that are empty or over those that are
not. -/
def somewhereLoop (defs : ItemDefManager) (cb : Callbacks) (dst : ι) (empty : Bool) :
    List Nat → IMoveAction → InventoryManager ν ι → Option (IMoveAction × InventoryManager ν ι)
  | [], act, mgr => some (act, mgr)
  | i :: is, act, mgr =>
    if act.count = 0 then some (act, mgr)
    else do
      let s ← (mgr.heap dst).getItem i
      if s.isEmpty = empty then do
        let (act, mgr) ← addTo defs cb mgr act i
        somewhereLoop defs cb dst empty is act mgr
      else somewhereLoop defs cb dst empty is act mgr

/-- The slots that `for (s16 dest_i = 0; dest_i < dest_size; dest_i++)` goes through. -/
def somewhereSlots (l : InventoryList) : List Nat :=
  let destSize := Int16.ofNat l.getSize.toNat
  List.range destSize.toInt.toNat

/-- `apply` with `move_somewhere`: the lists after it. -/
def applySomewhere : Option (Heap ι) :=
  match mgr.findList act.fromInv act.fromList, mgr.findList act.toInv act.toList with
  | some _, some dst => do
      let slots := somewhereSlots (mgr.heap dst)
      let act := { act with causedByMoveSomewhere := true, moveSomewhere := false }
      let (act, mgr) ← somewhereLoop defs cb dst false slots act mgr
      let (_, mgr) ← somewhereLoop defs cb dst true slots act mgr
      some mgr.heap
  | _, _ => some mgr.heap

/-- `IMoveAction::apply`. -/
def apply : Option (Heap ι) :=
  if act.moveSomewhere then applySomewhere defs cb act mgr
  else (applyMove defs cb act mgr).map Applied.heap

/-! ## The client -/

/-- `IMoveAction::clientApply`: the lists after it. -/
def clientApply [DecidableEq ν] (defs : ItemDefManager) (act : IMoveAction)
    (mgr : InventoryManager ν ι) : Option (Heap ι) :=
  match mgr.getInventory act.fromInv, mgr.getInventory act.toInv with
  | some invFrom, some invTo =>
    let invPlayer := mgr.getInventory .currentPlayer
    if some invFrom ≠ invPlayer ∨ some invTo ≠ invPlayer then some mgr.heap
    else
      match mgr.getList invFrom act.fromList, mgr.getList invTo act.toList with
      | some src, some dst =>
        let count := UInt32.ofNat act.count.toNat
        if act.moveSomewhere then
          moveItemSomewhere defs mgr.heap src (slotIndex act.fromI) dst count
        else
          (moveItem defs mgr.heap src (slotIndex act.fromI) dst (slotIndex act.toI) count
            true).map Moved.heap
      | _, _ => some mgr.heap
  | _, _ => some mgr.heap

/-! ## Flags -/

section

variable {defs : ItemDefManager} {cb : Callbacks} {act act' : IMoveAction}
variable {mgr mgr' : InventoryManager ν ι} {h h' : Heap ι} {src dst : ι} {i j : Nat}

theorem mutated_changeItem (h : Heap ι) (a : ι) (i : Nat) (newitem : ItemStack) :
    h.Mutated (h.call a fun l => l.changeItem i newitem).2 :=
  Heap.mutated_call (fun _ => InventoryList.mutated_changeItem) h a

variable {r : Applied ι} {fromStackWas toStackWas : ItemStack} {moveCount : UInt32}

theorem mutated_resetSource {caused didSwap : Bool} :
    h.Mutated (resetSource h src i dst caused didSwap moveCount fromStackWas toStackWas) := by
  have hfirst : h.Mutated
      (if !caused && decide (fromStackWas.name ≠ toStackWas.name) then
        match (h dst).items.findIdx? ItemStack.isEmpty with
        | some i => (h.call dst fun l => l.changeItem i toStackWas).2
        | none => h
      else h) := by
    split
    · split
      · exact mutated_changeItem h dst _ _
      · exact .refl h
    · exact .refl h
  rw [resetSource]
  split
  · exact hfirst.trans (mutated_changeItem _ src _ _)
  · exact hfirst

theorem mutated_resetDestination {didSwap : Bool} :
    h.Mutated (resetDestination h src i dst j didSwap moveCount fromStackWas toStackWas) := by
  have hfirst := mutated_changeItem h dst j toStackWas
  rw [resetDestination]
  simp only
  split
  · refine (hfirst.trans (mutated_changeItem _ src i fromStackWas)).trans ?_
    exact Heap.mutated_call (fun _ => InventoryList.mutated_takeItem) _ src
  · exact hfirst

theorem mutated_undoPrediction (h : Heap ι) (ma : MoveAction) (src dst : ι) :
    h.Mutated (undoPrediction h ma src dst) := by
  have hflag : ∀ (h : Heap ι) (a : ι),
      h.Mutated (h.call a fun l => ((), l.setModified true)).2 := fun h a =>
    Heap.mutated_call (fun _ => ⟨rfl, rfl, rfl, .inr rfl⟩) h a
  have hfirst : h.Mutated
      (if ma.fromInv.isPlayer then (h.call src fun l => ((), l.setModified true)).2 else h) := by
    split
    · exact hflag h src
    · exact .refl h
  rw [undoPrediction]
  split
  · exact hfirst.trans (hflag _ dst)
  · exact hfirst

theorem mutated_performMove {caused : Bool} {limits : Limits}
    (hr : performMove defs h src i dst j caused limits moveCount = some r) : h.Mutated r.heap := by
  simp only [performMove, Option.bind_eq_bind, Option.bind_eq_some_iff] at hr
  rcases hr with ⟨fromStackWas, -, toStackWas, -, moved, hmoved, hr⟩
  have hmove := mutated_moveItem hmoved
  split at hr
  · cases hr
  · cases hr
    simp only
    split
    · split
      · exact (hmove.trans mutated_resetSource).trans mutated_resetDestination
      · exact hmove.trans mutated_resetDestination
    · split
      · exact hmove.trans mutated_resetSource
      · exact hmove

theorem mutated_applyAllowed {stack srcItem : ItemStack} {swapExpected : Bool}
    (hr : applyAllowed defs cb act h src dst stack srcItem swapExpected = some r) :
    h.Mutated r.heap := by
  simp only [applyAllowed, Option.bind_eq_bind, Option.bind_eq_some_iff] at hr
  rcases hr with ⟨dstItem, -, hr⟩
  split at hr
  · cases hr
    exact mutated_undoPrediction h act.toMoveAction src dst
  · exact mutated_performMove hr

/-- Every list that a move of the server changes is flagged. -/
theorem mutated_applyMove (hr : applyMove defs cb act mgr = some r) : mgr.heap.Mutated r.heap := by
  rw [applyMove] at hr
  simp only at hr
  split at hr
  · split at hr
    · cases hr
      exact .refl mgr.heap
    · split at hr
      · cases hr
        exact .refl mgr.heap
      · split at hr
        · cases hr
          exact .refl mgr.heap
        · simp only [Option.bind_eq_bind, Option.bind_eq_some_iff] at hr
          rcases hr with ⟨stack, -, hr⟩
          split at hr
          · cases hr
            exact .refl mgr.heap
          · split at hr
            · cases hr
              exact .refl mgr.heap
            · exact mutated_applyAllowed hr
  · cases hr
    exact .refl mgr.heap

theorem mutated_addTo (hr : addTo defs cb mgr act i = some (act', mgr')) :
    mgr.heap.Mutated mgr'.heap := by
  simp only [addTo, Option.bind_eq_bind, Option.bind_eq_some_iff] at hr
  rcases hr with ⟨applied, happlied, hr⟩
  split at hr
  · cases hr
  · cases hr
    exact mutated_applyMove happlied

theorem mutated_somewhereLoop {empty : Bool} {is : List Nat}
    (hr : somewhereLoop defs cb dst empty is act mgr = some (act', mgr')) :
    mgr.heap.Mutated mgr'.heap := by
  induction is generalizing act mgr with
  | nil =>
    cases hr
    exact .refl _
  | cons i is ih =>
    rw [somewhereLoop] at hr
    split at hr
    · cases hr
      exact .refl _
    · simp only [Option.bind_eq_bind, Option.bind_eq_some_iff] at hr
      rcases hr with ⟨s, -, hr⟩
      split at hr
      · rcases Option.bind_eq_some_iff.1 hr with ⟨⟨act₁, mgr₁⟩, hadd, hrest⟩
        exact (mutated_addTo hadd).trans (ih hrest)
      · exact ih hr

/-- Every list that the server changes is flagged. -/
theorem mutated_apply (hr : apply defs cb act mgr = some h') : mgr.heap.Mutated h' := by
  rw [apply] at hr
  split at hr
  · rw [applySomewhere] at hr
    split at hr
    · simp only [Option.bind_eq_bind, Option.bind_eq_some_iff] at hr
      rcases hr with ⟨⟨act₁, mgr₁⟩, hfirst, ⟨act₂, mgr₂⟩, hsecond, hr⟩
      cases hr
      exact (mutated_somewhereLoop hfirst).trans (mutated_somewhereLoop hsecond)
    · cases hr
      exact .refl mgr.heap
  · rcases Option.map_eq_some_iff.1 hr with ⟨r, hmove, rfl⟩
    exact mutated_applyMove hmove

/-- Every list that the client changes is flagged. -/
theorem mutated_clientApply [DecidableEq ν] (hr : clientApply defs act mgr = some h') :
    mgr.heap.Mutated h' := by
  rw [clientApply] at hr
  split at hr
  · simp only at hr
    split at hr
    · cases hr
      exact .refl mgr.heap
    · split at hr
      · split at hr
        · exact mutated_moveItemSomewhere hr
        · rcases Option.map_eq_some_iff.1 hr with ⟨r, hmove, rfl⟩
          exact mutated_moveItem hmove
      · cases hr
        exact .refl mgr.heap
  · cases hr
    exact .refl mgr.heap

end

end Inventory
end AxisEngine
