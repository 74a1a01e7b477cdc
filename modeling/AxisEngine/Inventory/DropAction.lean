import AxisEngine.Inventory.Somewhere

/-!
# DropAction — dropping items from a slot

`IDropAction::apply` (`inventorymanager.cpp`) and `item_OnDrop` (`s_item.cpp`).  A callback says how
many items may be taken, and may change the lists while it runs; `on_drop` makes an item in the
world of what it is handed and gives back how many it did not use.  How many are handed to it is
worked out before the callback and not compared with what the slot holds afterwards.

* `IDropAction.apply`, `itemOnDrop` — as the source has them;
* `Exact` — no item comes from nothing and none gets lost;
* `drop_exact_iff` — when a drop is exact.
-/

namespace AxisEngine
namespace Inventory

open Lib

structure IDropAction where
  /-- 0 means everything. -/
  count : UInt16
  fromInv : InventoryLocation
  fromList : Bytes
  fromI : Int16

/-- What the scripts do. -/
structure DropScripts (ι : Type) where
  /-- `allow_take`: the answer, and the lists as the callback leaves them. -/
  allowTake : IDropAction → ItemStack → Heap ι → Int32 × Heap ι
  /-- The `on_drop` of an item, by name; it gives `nil` or a stack. -/
  onDrop : Bytes → Option (ItemStack → Option ItemStack)

section

variable {ι : Type} [DecidableEq ι]

/-- `returned_count` for what the callback gives, if there is one. -/
def returnedCount (item : ItemStack) : Option (Option ItemStack) → UInt16
  | none => item.count
  | some none => item.count
  | some (some item2) => item2.count

variable (scripts : DropScripts ι)

/-- `item_OnDrop`: the number of items that are given back. -/
def itemOnDrop (item : ItemStack) : UInt16 :=
  returnedCount item ((scripts.onDrop item.name).map fun callback => callback item)

/-- `src_can_take_count` and the lists after it; other locations than these are not asked. -/
def IDropAction.askTake (act : IDropAction) (srcItem : ItemStack) (h : Heap ι) : Int32 × Heap ι :=
  match act.fromInv with
  | .detached _ => scripts.allowTake act srcItem h
  | .nodemeta .. => scripts.allowTake act srcItem h
  | .player _ => scripts.allowTake act srcItem h
  | _ => (Int32.ofNat srcItem.count.toNat, h)

/-- "Revert client prediction". -/
def revertPrediction (act : IDropAction) (h : Heap ι) (src : ι) : Heap ι :=
  if act.fromInv.isPlayer then (h.call src fun l => ((), l.setModified true)).2 else h

/-- The lists after a drop, and what `item_OnDrop` was handed. -/
structure Dropped (ι : Type) where
  heap : Heap ι
  handed : Option ItemStack := none

/-- What follows the callback; `srcItem` is the stack that is in the slot then. -/
def IDropAction.drop (act : IDropAction) (h : Heap ι) (src : ι)
    (srcItem : ItemStack) (takeCount : Int) (srcCanTakeCount : Int32) : Dropped ι :=
  let takeCount :=
    if srcCanTakeCount ≠ -1 ∧ srcCanTakeCount.toInt < takeCount then srcCanTakeCount.toInt
    else takeCount
  if takeCount = 0 then { heap := revertPrediction act h src }
  else
    let item1 := { srcItem with count := UInt16.ofInt takeCount }
    let actuallyDroppedCount := max 0 (takeCount - (itemOnDrop scripts item1).toNat)
    if actuallyDroppedCount = 0 then
      { heap := revertPrediction act h src, handed := some item1 }
    else
      let h :=
        if srcCanTakeCount ≠ -1 then
          (h.call src fun l =>
            l.takeItem (slotIndex act.fromI) (UInt32.ofInt actuallyDroppedCount)).2
        else h
      { heap := h, handed := some item1 }

/-- `IDropAction::apply`; `none` when the slot is gone after the callback. -/
def IDropAction.apply {ν : Type} (scripts : DropScripts ι) (act : IDropAction)
    (mgr : InventoryManager ν ι) : Option (Dropped ι) :=
  match mgr.findList act.fromInv act.fromList with
  | none => some { heap := mgr.heap }
  | some src =>
    let h := mgr.heap
    if act.fromI.toInt < 0 ∨ (h src).getSize.toNat ≤ slotIndex act.fromI then
      some { heap := h }
    else do
      let srcItem ← (h src).getItem (slotIndex act.fromI)
      if srcItem.isEmpty then some { heap := h }
      else
        let srcItem := requested srcItem act.count
        let (srcCanTakeCount, h) := act.askTake scripts srcItem h
        -- update item due executed callbacks
        let now ← (h src).getItem (slotIndex act.fromI)
        some (act.drop scripts h src now srcItem.count.toNat srcCanTakeCount)

/-! ## Exact drops -/

/-- The lists at the moment of the drop; nobody is asked about an empty slot. -/
def IDropAction.moment (act : IDropAction) (stack : ItemStack) (h : Heap ι) : Heap ι :=
  if stack.isEmpty then h else (act.askTake scripts (requested stack act.count) h).2

/-- How many items `on_drop` uses. -/
def Dropped.used (r : Dropped ι) : Nat :=
  r.handed.elim 0 fun item => item.count.toNat - (itemOnDrop scripts item).toNat

/-- From the lists `h`: `on_drop` is handed items that are in the slot, and the slot loses those
that it uses. -/
structure Exact (scripts : DropScripts ι) (h : Heap ι) (src : ι) (fromI : Int16)
    (r : Dropped ι) : Prop where
  there : ∀ item, r.handed = some item →
    ∃ s, cell h.slots src (slotIndex fromI) = some s ∧ item = { s with count := item.count } ∧
      item.count.toNat ≤ s.count.toNat
  lost : held r.heap src fromI + r.used scripts = held h src fromI
  unchanged : r.used scripts = 0 →
    cell r.heap.slots src (slotIndex fromI) = cell h.slots src (slotIndex fromI)

/-- As many items as are asked for and allowed are in the slot.  A negative answer is taken for
its last sixteen bits, and nothing leaves the slot. -/
def Covered (now : ItemStack) (asked : UInt16) (limit : Int32) : Prop :=
  if 0 ≤ limit.toInt then min limit.toInt asked.toNat ≤ now.count.toNat
  else limit.toInt % 2 ^ 16 ≤ now.count.toNat ∧
    (itemOnDrop scripts { now with count := UInt16.ofInt limit.toInt }).toNat = limit.toInt % 2 ^ 16

section

variable {scripts : DropScripts ι} {act : IDropAction} {h : Heap ι} {src : ι}
variable {now : ItemStack} {limit : Int32}

@[simp] theorem slots_revertPrediction (act : IDropAction) (h : Heap ι) (src : ι) :
    (revertPrediction act h src).slots = h.slots := by
  rw [revertPrediction]
  split
  · rw [Heap.call, slots_update]
    exact Function.update_eq_self src h.slots
  · rfl

theorem toNat_ofInt (n : Int) : ((UInt16.ofInt n).toNat : Int) = n % 2 ^ 16 := by
  rw [UInt16.ofInt, UInt16.toNat_ofNat']
  omega

omit [DecidableEq ι] in
theorem held_of_cell {fromI : Int16} (h' : cell h.slots src (slotIndex fromI) = some now) :
    held h src fromI = now.count.toNat := by
  rw [held, h']
  rfl

/-- Taking `d` of the items in a slot leaves the others. -/
theorem held_takeItem {fromI : Int16} {d : Nat} (hnow : cell h.slots src (slotIndex fromI) = some now)
    (hd : d ≤ now.count.toNat) :
    held (h.call src fun l => l.takeItem (slotIndex fromI) (UInt32.ofInt d)).2 src fromI + d =
      now.count.toNat := by
  have hbound := now.count.toNat_lt
  have hcount : (UInt32.ofInt (d : Int)).toNat = d := by
    rw [UInt32.ofInt, UInt32.toNat_ofNat']
    omega
  have hitems := (InventoryList.takeItem_of_some hnow (UInt32.ofInt d)).2
  have hcell : cell (h.call src fun l => l.takeItem (slotIndex fromI) (UInt32.ofInt d)).2.slots src
      (slotIndex fromI) = some (now.takeItem (UInt32.ofInt d)).2 := by
    rw [Heap.call, slots_update, hitems]
    exact cell_setCell_self hnow
  rw [held_of_cell hcell]
  have hcases := now.takeItem_cases (UInt32.ofInt d)
  rw [hcount] at hcases
  generalize now.takeItem (UInt32.ofInt d) = r at hcases
  cases hcases with
  | nothing hnothing =>
    simp only
    omega
  | @some k htake hne hk =>
    rw [ItemStack.count_withCount, ItemStack.toNat_sub_of_le' (by omega)]
    omega

/-- The part behind the callback, for an answer that is not negative. -/
theorem exact_drop_of_nonneg {asked : UInt16}
    (hnow : cell h.slots src (slotIndex act.fromI) = some now) (hlimit : 0 ≤ limit.toInt)
    (hdrop : ∀ item, (itemOnDrop scripts item).toNat ≤ item.count.toNat) :
    Exact scripts h src act.fromI (act.drop scripts h src now asked.toNat limit) ↔
      min limit.toInt asked.toNat ≤ now.count.toNat := by
  have hne : limit ≠ -1 := ne_of_nonneg hlimit
  have hbound := asked.toNat_lt
  -- the number that is handed on
  have htake : (if limit ≠ -1 ∧ limit.toInt < asked.toNat then limit.toInt else (asked.toNat : Int)) =
      min limit.toInt asked.toNat := by
    split
    · rename_i hpart
      exact (min_eq_left hpart.2.le).symm
    · rename_i hall
      exact (min_eq_right (not_lt.1 fun hlt => hall ⟨hne, hlt⟩)).symm
  have hcell : cell (revertPrediction act h src).slots src (slotIndex act.fromI) =
      cell h.slots src (slotIndex act.fromI) := by
    rw [slots_revertPrediction]
  rw [IDropAction.drop, htake]
  generalize hn : min limit.toInt (asked.toNat : Int) = n
  by_cases hzero : n = 0
  · rw [if_pos hzero]
    refine iff_of_true ⟨?_, ?_, fun _ => hcell⟩ (by omega)
    · rintro item ⟨⟩
    · rw [held, hcell]
      rfl
  · have hcount : (UInt16.ofInt n).toNat = n := by
      rw [toNat_ofInt]
      omega
    have hback := hdrop { now with count := UInt16.ofInt n }
    simp only at hback
    rw [if_neg hzero]
    simp only [ne_eq, hne, not_false_eq_true, if_true]
    constructor
    · intro hexact
      have hthere : ∃ s : ItemStack, cell h.slots src (slotIndex act.fromI) = some s ∧
          ({ now with count := UInt16.ofInt n } : ItemStack) = { s with count := UInt16.ofInt n } ∧
          (UInt16.ofInt n).toNat ≤ s.count.toNat := by
        split at hexact
        · exact hexact.there _ rfl
        · exact hexact.there _ rfl
      rcases hthere with ⟨s, hs, -, hle⟩
      cases hnow.symm.trans hs
      omega
    · intro hle
      have hthere : ∀ item, some ({ now with count := UInt16.ofInt n } : ItemStack) = some item →
          ∃ s, cell h.slots src (slotIndex act.fromI) = some s ∧
            item = { s with count := item.count } ∧ item.count.toNat ≤ s.count.toNat := by
        rintro item ⟨⟩
        exact ⟨now, hnow, rfl, by simp only; omega⟩
      by_cases hnone : max 0 (n - (itemOnDrop scripts { now with count := UInt16.ofInt n }).toNat) = 0
      · rw [if_pos hnone]
        refine ⟨hthere, ?_, fun _ => hcell⟩
        simp only [held, hcell, Dropped.used, Option.elim_some]
        omega
      · rw [if_neg hnone]
        have hd : max 0 (n - (itemOnDrop scripts { now with count := UInt16.ofInt n }).toNat) =
            (((UInt16.ofInt n).toNat -
              (itemOnDrop scripts { now with count := UInt16.ofInt n }).toNat : Nat) : Int) := by
          omega
        refine ⟨hthere, ?_, ?_⟩
        · rw [hd, held_of_cell hnow]
          exact held_takeItem hnow (by omega)
        · intro hused
          simp only [Dropped.used, Option.elim_some] at hused
          omega

/-- The part behind the callback, for a negative answer: what is handed on is its last sixteen
bits. -/
theorem exact_drop_of_neg {asked : UInt16}
    (hnow : cell h.slots src (slotIndex act.fromI) = some now) (hlimit : limit.toInt < 0)
    (hne : limit ≠ -1) (hdrop : ∀ item, (itemOnDrop scripts item).toNat ≤ item.count.toNat) :
    Exact scripts h src act.fromI (act.drop scripts h src now asked.toNat limit) ↔
      limit.toInt % 2 ^ 16 ≤ now.count.toNat ∧
        (itemOnDrop scripts { now with count := UInt16.ofInt limit.toInt }).toNat =
          limit.toInt % 2 ^ 16 := by
  have hcell : cell (revertPrediction act h src).slots src (slotIndex act.fromI) =
      cell h.slots src (slotIndex act.fromI) := by
    rw [slots_revertPrediction]
  have hcount := toNat_ofInt limit.toInt
  have hback := hdrop { now with count := UInt16.ofInt limit.toInt }
  simp only at hback
  have hresult : act.drop scripts h src now asked.toNat limit =
      { heap := revertPrediction act h src
        handed := some { now with count := UInt16.ofInt limit.toInt } } := by
    have hpart : limit ≠ -1 ∧ limit.toInt < asked.toNat := ⟨hne, by omega⟩
    have hnone : max 0 (limit.toInt -
        (itemOnDrop scripts { now with count := UInt16.ofInt limit.toInt }).toNat) = 0 := by
      omega
    rw [IDropAction.drop, if_pos hpart]
    simp only
    rw [if_neg (by omega), if_pos hnone]
  rw [hresult]
  constructor
  · intro h
    rcases h.there _ rfl with ⟨s, hs, -, hle⟩
    cases hnow.symm.trans hs
    have hlost := h.lost
    simp only [held, hcell, Dropped.used, Option.elim_some] at hlost
    simp only at hle
    omega
  · rintro ⟨hle, hall⟩
    refine ⟨?_, ?_, fun _ => hcell⟩
    · rintro item ⟨⟩
      exact ⟨now, hnow, rfl, by simp only; omega⟩
    · simp only [held, hcell, Dropped.used, Option.elim_some]
      omega

end

/-- A drop is exact if and only if the items asked for and allowed are in the slot after the
callback, or, for a negative answer, `on_drop` gives back all that is made of it. -/
theorem drop_exact_iff {ν : Type} (scripts : DropScripts ι) (act : IDropAction)
    (mgr : InventoryManager ν ι) (src : ι) (stack now : ItemStack)
    (hsrc : mgr.findList act.fromInv act.fromList = some src) (hfrom : 0 ≤ act.fromI.toInt)
    (hstack : cell mgr.heap.slots src (slotIndex act.fromI) = some stack)
    (hnow : cell (act.moment scripts stack mgr.heap).slots src (slotIndex act.fromI) = some now)
    (hlimit : (act.askTake scripts (requested stack act.count) mgr.heap).1 ≠ -1)
    (hdrop : ∀ item, (itemOnDrop scripts item).toNat ≤ item.count.toNat) :
    ∃ r, act.apply scripts mgr = some r ∧
      (Exact scripts (act.moment scripts stack mgr.heap) src act.fromI r ↔
        stack.isEmpty = true ∨ Covered scripts now (requested stack act.count).count
          (act.askTake scripts (requested stack act.count) mgr.heap).1) := by
  have hsize : ¬ (act.fromI.toInt < 0 ∨ (mgr.heap src).getSize.toNat ≤ slotIndex act.fromI) := by
    have hlt := (List.getElem?_eq_some_iff.1 hstack).1
    rw [InventoryList.toNat_getSize]
    simp only [Heap.slots] at hlt
    omega
  have hget : (mgr.heap src).getItem (slotIndex act.fromI) = some stack := hstack
  simp only [IDropAction.apply, hsrc, if_neg hsize, hget, Option.bind_eq_bind, Option.bind_some]
  by_cases hempty : stack.isEmpty = true
  · rw [IDropAction.moment, if_pos hempty, if_pos hempty]
    refine ⟨_, rfl, iff_of_true ⟨?_, Nat.add_zero _, fun _ => rfl⟩ (.inl hempty)⟩
    rintro item ⟨⟩
  · rw [IDropAction.moment, if_neg hempty] at hnow
    rw [IDropAction.moment, if_neg hempty, if_neg hempty]
    generalize act.askTake scripts (requested stack act.count) mgr.heap = answer at hnow hlimit
    have hnow' : (answer.2 src).getItem (slotIndex act.fromI) = some now := hnow
    rw [hnow', Option.bind_some]
    refine ⟨_, rfl, ?_⟩
    rw [Covered]
    split
    · rename_i hnonneg
      rw [exact_drop_of_nonneg hnow hnonneg hdrop]
      simp [hempty]
    · rename_i hneg
      rw [exact_drop_of_neg hnow (not_le.1 hneg) hlimit hdrop]
      simp [hempty]

end

/-- The answer is always the same, nothing is changed, and `on_drop` uses everything. -/
def answering (answer : Int32) : DropScripts Unit :=
  { allowTake := fun _ _ h => (answer, h)
    onDrop := fun _ => some fun _ => some .cleared }

/-- Everything in the first slot is dropped. -/
def dropAll : IDropAction :=
  { count := 0, fromInv := .player (ascii "sam"), fromList := ascii "main", fromI := 0 }

theorem drop_exact_iff_tenApples :
    ∃ r, dropAll.apply (answering 4) tenApples = some r ∧
      (Exact (answering 4) (dropAll.moment (answering 4) (apples 10) tenApples.heap) ()
          dropAll.fromI r ↔
        (apples 10).isEmpty = true ∨ Covered (answering 4) (apples 10)
          (requested (apples 10) dropAll.count).count
            (dropAll.askTake (answering 4) (requested (apples 10) dropAll.count)
              tenApples.heap).1) :=
  drop_exact_iff (answering 4) dropAll tenApples () (apples 10) (apples 10) rfl (by decide) rfl rfl
    (by decide) fun _ => Nat.zero_le _

/-- Ten apples are there and the answer is -2: `on_drop` is handed 65534 apples and uses them all,
and the slot keeps its ten. -/
theorem refused_drop_makes_apples :
    ∃ r, dropAll.apply (answering (-2)) tenApples = some r ∧
      r.handed = some (apples 65534) ∧ r.used (answering (-2)) = 65534 ∧
      cell r.heap.slots () 0 = some (apples 10) ∧
      ¬ Exact (answering (-2)) (dropAll.moment (answering (-2)) (apples 10) tenApples.heap) ()
        dropAll.fromI r := by
  refine ⟨_, rfl, by decide, by decide, by decide, ?_⟩
  intro h
  exact absurd h.lost (by decide)

end Inventory
end AxisEngine
