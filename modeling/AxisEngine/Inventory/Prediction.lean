import AxisEngine.Inventory.MoveLimits

/-!
# Prediction — the client's move and the server's move

A client applies a move to its own inventory before the server does.  With callbacks that permit
what they are asked about, both sides end with equal lists.

* `fill` — slots that take items one after another: what `addItem` on the client and the loops of
  `move_somewhere` on the server have in common;
* `addItemLoop_fill`, `somewhereLoop_fill` — both are a `fill`;
* `prediction_agrees` — the result.
-/

namespace AxisEngine
namespace Inventory

open Lib

variable {ν ι : Type}

/-! ## Callbacks that permit everything -/

/-- Every callback answers with at least the number that it is asked about. -/
structure Callbacks.Permitting (cb : Callbacks) : Prop where
  allowPut_le : ∀ ma s, (s.count.toNat : Int) ≤ (cb.allowPut ma s).toInt
  allowTake_le : ∀ ma s, (s.count.toNat : Int) ≤ (cb.allowTake ma s).toInt
  allowMove_le : ∀ ma n, (n.toNat : Int) ≤ (cb.allowMove ma n).toInt

section

variable {cb : Callbacks}

theorem ne_of_natCast_le {n : Nat} {answer : Int32} (h : (n : Int) ≤ answer.toInt) :
    answer ≠ -1 := by
  rintro rfl
  have hneg : (-1 : Int32).toInt = -1 := by decide
  omega

theorem Callbacks.Permitting.finite (h : cb.Permitting) : cb.Finite where
  allowPut_ne ma s := ne_of_natCast_le (h.allowPut_le ma s)
  allowTake_ne ma s := ne_of_natCast_le (h.allowTake_le ma s)
  allowMove_ne ma n := ne_of_natCast_le (h.allowMove_le ma n)

theorem permits_of_le {limit : Int32} {n : UInt16} (h : (n.toNat : Int) ≤ limit.toInt) :
    permits limit n = true := by
  simp only [permits, Bool.or_eq_true, decide_eq_true_eq]
  exact .inr h

theorem Callbacks.Permitting.answers_le (h : cb.Permitting) (ma : MoveAction)
    (srcItem : ItemStack) :
    (srcItem.count.toNat : Int) ≤ (answers cb ma srcItem).1.toInt ∧
      (srcItem.count.toNat : Int) ≤ (answers cb ma srcItem).2.toInt := by
  rw [answers]
  split
  · exact ⟨h.allowMove_le ma _, h.allowMove_le ma _⟩
  · exact ⟨h.allowTake_le ma _, h.allowPut_le ma _⟩

/-- A swap that is expected is allowed. -/
theorem Callbacks.Permitting.allowSwap (h : cb.Permitting) (ma : MoveAction)
    (srcItem dstItem : ItemStack) :
    (limits cb ma srcItem dstItem true).allowSwap = true := by
  have hput := fun ma s => permits_of_le (h.allowPut_le ma s)
  have htake := fun ma s => permits_of_le (h.allowTake_le ma s)
  have hmove := fun ma n => permits_of_le (h.allowMove_le ma n)
  rw [limits]
  split
  · simp [limitsWithin, hmove]
  · simp [limitsBetween, hput, htake]

end

/-! ## One move on the server -/

variable [DecidableEq ι]
variable {defs : ItemDefManager} {cb : Callbacks} {act : IMoveAction}
variable {mgr : InventoryManager ν ι} {src dst : ι} {stack dstItem old : ItemStack}
variable {n k m : UInt16}

theorem applyMove_permitted (h : TwoSlots act mgr src dst stack dstItem) (hcb : cb.Permitting)
    (hstack : stack.count.toNat ≠ 0)
    (hn : n.toNat = takeCount stack (UInt32.ofNat act.count.toNat))
    (hnle : n.toNat ≤ stack.count.toNat)
    (hk : k.toNat = min n.toNat (ItemStack.room defs dstItem stack)) (hkpos : k.toNat ≠ 0) :
    ∃ r, applyMove defs cb act mgr = some r ∧ r.moveCount.toNat = k.toNat ∧
      r.heap.slots =
        setCell (setCell mgr.heap.slots src (slotIndex act.fromI)
          (stack.withCount (stack.count - k))) dst (slotIndex act.toI)
            (dstItem.receive stack k) := by
  rcases hcb.answers_le act.toMoveAction (stack.withCount k) with ⟨htake, hput⟩
  rw [ItemStack.count_withCount] at htake hput
  have hj : k.toNat = if (answers cb act.toMoveAction (stack.withCount k)).1.toInt < 0 ∨
        (answers cb act.toMoveAction (stack.withCount k)).2.toInt < 0 then
      min stack.count.toNat (ItemStack.room defs dstItem stack)
    else
      min (answers cb act.toMoveAction (stack.withCount k)).2.toInt.toNat
        (min (answers cb act.toMoveAction (stack.withCount k)).1.toInt.toNat k.toNat) := by
    rw [if_neg (by omega)]
    omega
  rcases applyMove_fits h hcb.finite hstack hn hnle hk hkpos hj with
    ⟨r, hr, -, -, hcount, hslots⟩
  rw [if_neg hkpos] at hslots
  exact ⟨r, hr, hcount, hslots⟩

theorem applyMove_swapped (h : TwoSlots act mgr src dst stack dstItem) (hcb : cb.Permitting)
    (hcaused : act.causedByMoveSomewhere = false) (hstack : stack.count.toNat ≠ 0)
    (hfull : fitCount defs stack dstItem act.count = 0) :
    ∃ r, applyMove defs cb act mgr = some r ∧
      r.heap.slots =
        setCell (setCell mgr.heap.slots src (slotIndex act.fromI) dstItem) dst
          (slotIndex act.toI) stack := by
  rcases applyMove_full h hcb.finite hcaused hstack hfull with ⟨r, hr, -, hswap⟩
  rw [if_pos (hcb.allowSwap act.toMoveAction stack dstItem)] at hswap
  exact ⟨r, hr, hswap.2⟩

/-! ## Filling slots -/

/-- How many of `m` items like `old` a slot takes. -/
def fillCount (defs : ItemDefManager) (old s : ItemStack) (m : UInt16) : UInt16 :=
  UInt16.ofNat (min m.toNat (ItemStack.room defs s old))

/-- `m` items like `old` go into the slots that are empty, or into those that are not; what is left
over, and the slots. -/
def fill (defs : ItemDefManager) (old : ItemStack) (empty : Bool) :
    List Nat → UInt16 → List ItemStack → UInt16 × List ItemStack
  | [], m, items => (m, items)
  | i :: is, m, items =>
    if m = 0 then (m, items)
    else
      match items[i]? with
      | none => fill defs old empty is m items
      | some s =>
        if s.isEmpty = empty then
          fill defs old empty is (m - fillCount defs old s m)
            (items.set i (s.receive old (fillCount defs old s m)))
        else fill defs old empty is m items

section

variable {s : ItemStack} {l : InventoryList} {empty : Bool} {i : Nat} {is : List Nat}
variable {items : List ItemStack}

omit [DecidableEq ι] in
theorem toNat_fillCount (defs : ItemDefManager) (old s : ItemStack) (m : UInt16) :
    (fillCount defs old s m).toNat = min m.toNat (ItemStack.room defs s old) := by
  have hbound := m.toNat_lt
  rw [fillCount, UInt16.toNat_ofNat']
  omega

theorem toNat_sub_fillCount (defs : ItemDefManager) (old s : ItemStack) (m : UInt16) :
    (m - fillCount defs old s m).toNat = m.toNat - min m.toNat (ItemStack.room defs s old) := by
  have hcount := toNat_fillCount defs old s m
  rw [ItemStack.toNat_sub_of_le' (by omega), hcount]

theorem fill_zero : fill defs old empty is 0 items = (0, items) := by
  cases is with
  | nil => rfl
  | cons i is => rw [fill, if_pos rfl]

theorem fill_le (defs : ItemDefManager) (old : ItemStack) (empty : Bool) (is : List Nat)
    (m : UInt16) (items : List ItemStack) :
    (fill defs old empty is m items).1.toNat ≤ m.toNat := by
  induction is generalizing m items with
  | nil => exact le_rfl
  | cons i is ih =>
    rw [fill]
    split
    · exact le_rfl
    · split
      · exact ih m items
      · split
        · rename_i s _ _
          have hsub := toNat_sub_fillCount defs old s m
          exact (ih _ _).trans (by omega)
        · exact ih m items

@[simp] theorem length_fill : (fill defs old empty is m items).2.length = items.length := by
  induction is generalizing m items with
  | nil => rfl
  | cons i is ih =>
    rw [fill]
    split
    · rfl
    · split
      · exact ih
      · split
        · exact ih.trans List.length_set
        · exact ih

/-- "First try all the non-empty slots", "then try all the empty ones". -/
def fillAll (defs : ItemDefManager) (old : ItemStack) (m : UInt16) (items : List ItemStack) :
    UInt16 × List ItemStack :=
  let slots := List.range items.length
  let (m, items) := fill defs old false slots m items
  fill defs old true slots m items

theorem addItemAt_fill (defs : ItemDefManager) (old : ItemStack) (hs : l.items[i]? = some s) (hm : m.toNat ≠ 0) :
    (l.addItemAt defs i (old.withCount m)).1 = old.withCount (m - fillCount defs old s m) ∧
      (l.addItemAt defs i (old.withCount m)).2.items =
        l.items.set i (s.receive old (fillCount defs old s m)) := by
  have hcount : (old.withCount m).count.toNat ≠ 0 := by
    rw [ItemStack.count_withCount]
    exact hm
  have hk : (fillCount defs old s m).toNat =
      min (old.withCount m).count.toNat (ItemStack.room defs s (old.withCount m)) := by
    rw [ItemStack.count_withCount, ItemStack.room_withCount hm, toNat_fillCount]
  have hadd := ItemStack.addItem_eq defs s hcount hk
  rw [ItemStack.receive_withCount hm, ItemStack.count_withCount,
    ItemStack.withCount_withCount hm] at hadd
  rcases InventoryList.addItemAt_of_some defs hs (old.withCount m) with ⟨hleft, hitems⟩
  rw [hadd] at hleft hitems
  exact ⟨hleft, hitems⟩

/-- A loop of `addItem` is a `fill`. -/
theorem addItemLoop_fill (defs : ItemDefManager) (old : ItemStack) (l : InventoryList)
    (empty : Bool) (is : List Nat) (hm : m.toNat ≠ 0) :
    (InventoryList.addItemLoop defs empty is (old.withCount m) l).1 =
        old.withCount (fill defs old empty is m l.items).1 ∧
      (InventoryList.addItemLoop defs empty is (old.withCount m) l).2.items =
        (fill defs old empty is m l.items).2 := by
  have hm0 : ¬ m = 0 := fun h0 => hm (by rw [h0]; rfl)
  induction is generalizing m l with
  | nil => exact ⟨rfl, rfl⟩
  | cons i is ih =>
    rw [InventoryList.addItemLoop, fill, if_neg hm0]
    cases hs : l.items[i]? with
    | none =>
      have hnonempty : ¬ (old.withCount m).isEmpty = true := by
        rw [ItemStack.isEmpty_iff, ItemStack.count_withCount]
        exact hm
      simp only [Option.all_none, Bool.true_eq_false, if_false,
        InventoryList.addItemAt_of_none hs, if_neg hnonempty]
      exact ih l hm hm0
    | some s =>
      simp only [Option.all_some, decide_eq_false_iff_not]
      by_cases hempty : s.isEmpty = empty
      · rw [if_neg (not_not.2 hempty), if_pos hempty]
        rcases addItemAt_fill defs old hs hm with ⟨hleft, hitems⟩
        generalize l.addItemAt defs i (old.withCount m) = step at hleft hitems
        rcases step with ⟨leftover, l'⟩
        simp only at hleft hitems ⊢
        subst hleft
        rw [← hitems]
        split
        · rename_i hall
          rw [ItemStack.isEmpty_iff, ItemStack.count_withCount] at hall
          have hzero : m - fillCount defs old s m = 0 := UInt16.toNat_inj.1 hall
          rw [hzero, fill_zero]
          exact ⟨rfl, rfl⟩
        · rename_i hsome
          rw [ItemStack.isEmpty_iff, ItemStack.count_withCount] at hsome
          exact ih l' hsome fun h0 => hsome (by rw [h0]; rfl)
      · rw [if_pos hempty, if_neg hempty]
        exact ih l hm hm0

/-- `addItem` is a `fillAll`. -/
theorem addItem_fillAll (defs : ItemDefManager) (old : ItemStack) (l : InventoryList)
    (hm : m.toNat ≠ 0) :
    (l.addItem defs (old.withCount m)).1 = old.withCount (fillAll defs old m l.items).1 ∧
      (l.addItem defs (old.withCount m)).2.items = (fillAll defs old m l.items).2 := by
  have hnonempty : ¬ (old.withCount m).isEmpty = true := by
    rw [ItemStack.isEmpty_iff, ItemStack.count_withCount]
    exact hm
  have hfirst := addItemLoop_fill defs old l false (List.range l.items.length) hm
  rw [InventoryList.addItem, if_neg hnonempty, fillAll]
  simp only
  generalize fill defs old false (List.range l.items.length) m l.items = first at hfirst
  generalize InventoryList.addItemLoop defs false (List.range l.items.length) (old.withCount m) l =
    step at hfirst
  rcases first with ⟨m₁, items₁⟩
  rcases step with ⟨leftover, l₁⟩
  rcases hfirst with ⟨hleft, hitems⟩
  simp only at hleft hitems ⊢
  subst hleft
  rw [← hitems]
  split
  · rename_i hall
    rw [ItemStack.isEmpty_iff, ItemStack.count_withCount] at hall
    have hzero : m₁ = 0 := UInt16.toNat_inj.1 hall
    rw [hzero, fill_zero]
    exact ⟨rfl, rfl⟩
  · rename_i hsome
    rw [ItemStack.isEmpty_iff, ItemStack.count_withCount] at hsome
    exact addItemLoop_fill defs old l₁ true (List.range l.items.length) hsome

end

/-! ## The loops of the server -/

/-- What is left in the source slot when `m` of `n` items did not find a place. -/
def leftOf (old : ItemStack) (n m : UInt16) : ItemStack :=
  old.withCount (old.count - (n - m))

/-- In the loops of `move_somewhere` `m` of the `n` items of `old` are still to be moved; the list
of the destination holds `items`, and no other list has changed since `slots`. -/
structure Filling (act : IMoveAction) (mgr : InventoryManager ν ι) (slots : ι → List ItemStack)
    (src dst : ι) (fromI : Int16) (old : ItemStack) (n m : UInt16) (items : List ItemStack) :
    Prop where
  src_eq : mgr.findList act.fromInv act.fromList = some src
  dst_eq : mgr.findList act.toInv act.toList = some dst
  caused : act.causedByMoveSomewhere = true
  fromI_eq : act.fromI = fromI
  fromI_nonneg : 0 ≤ fromI.toInt
  count_eq : act.count = m
  m_le : m.toNat ≤ n.toNat
  source_eq : cell slots src (slotIndex fromI) = some old
  slots_eq : mgr.heap.slots =
    Function.update (setCell slots src (slotIndex fromI) (leftOf old n m)) dst items

section

variable {slots : ι → List ItemStack} {items : List ItemStack} {s : ItemStack} {i : Nat}
variable {empty : Bool} {is : List Nat} {fromI : Int16}

theorem toInt_ofNat_slot (hi : i < 2 ^ 15) : (Int16.ofNat i).toInt = i := by
  have hsize : Int16.size = 65536 := rfl
  rw [Int16.toInt_ofNat']
  exact Int.bmod_eq_of_le (by omega) (by omega)

theorem slotIndex_ofNat (hi : i < 2 ^ 15) : slotIndex (Int16.ofNat i) = i := by
  have hslot := toInt_ofNat_slot hi
  have hindex := slotIndex_of_nonneg (i := Int16.ofNat i) (by omega)
  omega

theorem leftOf_withCount (hm : m.toNat ≠ 0) (hmn : m.toNat ≤ n.toNat)
    (hn : n.toNat ≤ old.count.toNat) (hk : k.toNat ≤ m.toNat) :
    (leftOf old n m).withCount ((leftOf old n m).count - k) = leftOf old n (m - k) := by
  have hnm := ItemStack.toNat_sub_of_le' hmn
  have hleft : (old.count - (n - m)).toNat = old.count.toNat - (n.toNat - m.toNat) := by
    rw [ItemStack.toNat_sub_of_le' (by omega), hnm]
  have hmk := ItemStack.toNat_sub_of_le' hk
  have hnmk : (n - (m - k)).toNat = n.toNat - (m.toNat - k.toNat) := by
    rw [ItemStack.toNat_sub_of_le' (by omega), hmk]
  have hsame : old.count - (n - m) - k = old.count - (n - (m - k)) := by
    apply UInt16.toNat_inj.1
    rw [ItemStack.toNat_sub_of_le' (by omega), hleft, ItemStack.toNat_sub_of_le' (by omega), hnmk]
    omega
  rw [leftOf, leftOf, ItemStack.count_withCount, hsame, ItemStack.withCount_withCount (by omega)]

theorem slots_move (hne : src ≠ dst) {x y : ItemStack} {j : Nat} :
    setCell (setCell (Function.update (setCell slots src i x) dst items) src i y) dst j s =
      Function.update (setCell slots src i y) dst (items.set j s) := by
  funext a
  by_cases hsrc : a = src
  · subst hsrc
    simp [setCell, hne]
  · by_cases hdst : a = dst
    · subst hdst
      simp [setCell, Ne.symm hne]
    · simp [setCell, hsrc, hdst]

theorem addTo_eq {r : Applied ι}
    (hr : applyMove defs cb { act with toI := Int16.ofNat i } mgr = some r)
    (hle : r.moveCount.toNat ≤ act.count.toNat) :
    addTo defs cb mgr act i = some
      ({ act with
          toI := Int16.ofNat i
          moveCount := r.moveCount
          count := act.count - UInt16.ofNat r.moveCount.toNat },
        { mgr with heap := r.heap }) := by
  simp only [addTo, hr, Option.bind_eq_bind, Option.bind_some, if_neg (not_lt.2 hle)]

theorem addTo_fill (defs : ItemDefManager) (h : Filling act mgr slots src dst fromI old n m items) (hcb : cb.Permitting)
    (hne : src ≠ dst) (hn : n.toNat ≤ old.count.toNat) (hm : m.toNat ≠ 0) (hi : i < 2 ^ 15)
    (hs : items[i]? = some s) :
    ∃ act' mgr', addTo defs cb mgr act i = some (act', mgr') ∧
      Filling act' mgr' slots src dst fromI old n (m - fillCount defs old s m)
        (items.set i (s.receive old (fillCount defs old s m))) := by
  have hbound := old.count.toNat_lt
  have hindex := slotIndex_ofNat hi
  have hnm := ItemStack.toNat_sub_of_le' h.m_le
  have hleft : (leftOf old n m).count.toNat = old.count.toNat - (n.toNat - m.toNat) := by
    rw [leftOf, ItemStack.count_withCount, ItemStack.toNat_sub_of_le' (by omega), hnm]
  have hmle := h.m_le
  have hstack : (leftOf old n m).count.toNat ≠ 0 := by omega
  have htwo : TwoSlots { act with toI := Int16.ofNat i } mgr src dst (leftOf old n m) s :=
    { src_eq := h.src_eq
      dst_eq := h.dst_eq
      fromI_nonneg := h.fromI_eq ▸ h.fromI_nonneg
      toI_nonneg := by
        have hslot := toInt_ofNat_slot hi
        simp only
        omega
      ne := fun heq => hne heq.1
      stack_eq := by
        simp only [h.slots_eq, h.fromI_eq, cell, Function.update_of_ne hne]
        exact cell_setCell_self h.source_eq
      dstItem_eq := by
        simp only [hindex, h.slots_eq, cell, Function.update_self]
        exact hs }
  have hrequest : m.toNat = takeCount (leftOf old n m) (UInt32.ofNat act.count.toNat) := by
    have hpos : ¬ UInt32.ofNat m.toNat = 0 := fun h0 => hm (by
      rw [← toNat_ofNat_count m, h0]
      rfl)
    rw [takeCount, h.count_eq, if_neg hpos, toNat_ofNat_count]
    omega
  have hroom : ItemStack.room defs s (leftOf old n m) = ItemStack.room defs s old := by
    rw [leftOf, ItemStack.room_withCount]
    rwa [leftOf, ItemStack.count_withCount] at hstack
  have hreceive : s.receive (leftOf old n m) (fillCount defs old s m) =
      s.receive old (fillCount defs old s m) := by
    rw [leftOf, ItemStack.receive_withCount]
    rwa [leftOf, ItemStack.count_withCount] at hstack
  have hk : (fillCount defs old s m).toNat =
      min m.toNat (ItemStack.room defs s (leftOf old n m)) := by
    rw [hroom, toNat_fillCount]
  by_cases hzero : (fillCount defs old s m).toNat = 0
  · -- "Cannot fill this stack, proceed with next slot"
    have hk0 : fillCount defs old s m = 0 := UInt16.toNat_inj.1 hzero
    have hmove := (applyMove_of_twoSlots cb htwo hstack hrequest hk).trans
      (if_pos (by simp only [h.caused, hk0, decide_true, Bool.and_self]))
    refine ⟨_, _, addTo_eq hmove (Nat.zero_le _), ?_⟩
    have hsame : items.set i (s.receive old 0) = items := by
      rcases List.getElem?_eq_some_iff.1 hs with ⟨hlt, hget⟩
      rw [ItemStack.receive, if_pos rfl, ← hget]
      exact List.set_getElem_self hlt
    rw [hk0, hsame, UInt16.sub_zero]
    exact { h with count_eq := by simpa using h.count_eq }
  · rcases applyMove_permitted htwo hcb hstack hrequest (by omega) hk hzero with
      ⟨r, hr, hcount, hslots⟩
    have hle : r.moveCount.toNat ≤ act.count.toNat := by
      rw [h.count_eq, hcount]
      omega
    have hmoved : UInt16.ofNat r.moveCount.toNat = fillCount defs old s m := by
      rw [hcount]
      exact UInt16.ofNat_toNat
    refine ⟨_, _, addTo_eq hr hle, ?_⟩
    refine { h with count_eq := ?_, m_le := ?_, slots_eq := ?_ }
    · simp only [hmoved, h.count_eq]
    · have hsub := toNat_sub_fillCount defs old s m
      omega
    · simp only [hslots, hindex, hreceive, h.slots_eq, h.fromI_eq]
      rw [leftOf_withCount hm h.m_le hn (by omega), slots_move hne]

/-- A loop of `move_somewhere` is a `fill`. -/
theorem somewhereLoop_fill (defs : ItemDefManager) (empty : Bool) (is : List Nat)
    (h : Filling act mgr slots src dst fromI old n m items)
    (hcb : cb.Permitting) (hne : src ≠ dst) (hn : n.toNat ≤ old.count.toNat)
    (his : ∀ i ∈ is, i < 2 ^ 15 ∧ i < items.length) :
    ∃ act' mgr', somewhereLoop defs cb dst empty is act mgr = some (act', mgr') ∧
      Filling act' mgr' slots src dst fromI old n (fill defs old empty is m items).1
        (fill defs old empty is m items).2 := by
  induction is generalizing act mgr m items with
  | nil => exact ⟨act, mgr, rfl, h⟩
  | cons i is ih =>
    rcases his i (List.mem_cons_self ..) with ⟨hi, hlt⟩
    rw [somewhereLoop, fill, h.count_eq]
    by_cases hm0 : m = 0
    · rw [if_pos hm0, if_pos hm0]
      exact ⟨act, mgr, rfl, h⟩
    · have hm : m.toNat ≠ 0 := fun h0 => hm0 (UInt16.toNat_inj.1 h0)
      have hs : items[i]? = some (items[i]) := List.getElem?_eq_getElem hlt
      have hget : (mgr.heap dst).getItem i = some (items[i]) := by
        have hdst := congrFun h.slots_eq dst
        rw [Function.update_self] at hdst
        rw [InventoryList.getItem, ← hs]
        exact congrArg (fun l => l[i]?) hdst
      rw [if_neg hm0, if_neg hm0, hget, hs]
      simp only [Option.bind_eq_bind, Option.bind_some]
      by_cases hempty : (items[i]).isEmpty = empty
      · rw [if_pos hempty, if_pos hempty]
        rcases addTo_fill defs h hcb hne hn hm hi hs with ⟨act₁, mgr₁, hadd, hnext⟩
        rw [hadd]
        refine ih hnext ?_
        intro j hj
        rw [List.length_set]
        exact his j (List.mem_cons_of_mem i hj)
      · rw [if_neg hempty, if_neg hempty]
        exact ih h fun j hj => his j (List.mem_cons_of_mem i hj)

end

/-! ## Both sides -/

section

variable {h : Heap ι}

omit [DecidableEq ι] in
theorem nonneg_of_cell {i : Int16} {a : ι} {s : ItemStack}
    (hsize : (h a).items.length ≤ 2 ^ 32 - 2 ^ 15) (hs : cell h.slots a (slotIndex i) = some s) :
    0 ≤ i.toInt := by
  by_contra hneg
  have hlt := (List.getElem?_eq_some_iff.1 hs).1
  have hle := i.le_toInt
  have hindex : slotIndex i = 2 ^ 32 - i.toInt.natAbs := by
    rw [slotIndex, UInt32.ofInt, UInt32.toNat_ofNat']
    omega
  simp only [Heap.slots] at hlt
  omega

theorem move_agrees (defs : ItemDefManager) (act : IMoveAction)
    (hslots : h.slots = mgr.heap.slots) (hcb : cb.Permitting)
    (hsrc : mgr.findList act.fromInv act.fromList = some src)
    (hdst : mgr.findList act.toInv act.toList = some dst)
    (hcaused : act.causedByMoveSomewhere = false)
    (hclean : ∀ s ∈ (h src).items, s.Clean)
    (hfromSize : (h src).items.length ≤ 2 ^ 32 - 2 ^ 15)
    (htoSize : (h dst).items.length ≤ 2 ^ 32 - 2 ^ 15) :
    ∃ r r', moveItem defs h src (slotIndex act.fromI) dst (slotIndex act.toI)
        (UInt32.ofNat act.count.toNat) true = some r ∧
      applyMove defs cb act mgr = some r' ∧ r.heap.slots = r'.heap.slots := by
  by_cases htwo : ∃ src dst stack dstItem,
      TwoSlots act mgr src dst stack dstItem ∧ stack.count.toNat ≠ 0
  · rcases htwo with ⟨src', dst', stack, dstItem, htwo, hstack⟩
    cases hsrc.symm.trans htwo.src_eq
    cases hdst.symm.trans htwo.dst_eq
    rcases exists_counts defs act dstItem hstack with ⟨n, k, hn, hnpos, hnle, hk, hfit⟩
    have hfrom := htwo.stack_eq
    have hto := htwo.dstItem_eq
    rw [← hslots] at hfrom hto
    rcases moveItem_spec htwo.slot_ne hfrom hstack hto hn hk true with ⟨r, hr, hmoved, hswapped⟩
    by_cases hk0 : k.toNat = 0
    · have hfull : fitCount defs stack dstItem act.count = 0 := by
        rw [hfit]
        exact UInt16.toNat_inj.1 hk0
      rcases applyMove_swapped htwo hcb hcaused hstack hfull with ⟨r', hr', hslots'⟩
      refine ⟨r, r', hr, hr', ?_⟩
      rw [(hswapped hk0).2, if_pos rfl, hslots', hslots]
    · rcases applyMove_permitted htwo hcb hstack hn hnle hk hk0 with ⟨r', hr', -, hslots'⟩
      refine ⟨r, r', hr, hr', ?_⟩
      rw [(hmoved hk0).2.2, hslots', hslots]
  · -- nothing to move: the client takes nothing, or puts back what it took
    have hserver := (applyMove_cases defs cb act mgr).resolve_right htwo
    rcases moveItem_outcome defs h src (slotIndex act.fromI) dst (slotIndex act.toI)
      (UInt32.ofNat act.count.toNat) true with ⟨r, hr, houtcome⟩
    refine ⟨r, _, hr, hserver, ?_⟩
    simp only
    rw [← hslots]
    have hnone : ∀ {old other}, ¬ (src = dst ∧ slotIndex act.fromI = slotIndex act.toI) →
        cell h.slots src (slotIndex act.fromI) = some old →
        cell h.slots dst (slotIndex act.toI) = some other → old.count.toNat ≠ 0 → False := by
      intro old other hne hfrom hto hold
      refine htwo ⟨src, dst, old, other, ?_, hold⟩
      exact
        { src_eq := hsrc
          dst_eq := hdst
          fromI_nonneg := nonneg_of_cell hfromSize hfrom
          toI_nonneg := nonneg_of_cell htoSize hto
          ne := fun heq => hne ⟨heq.1, congrArg slotIndex heq.2⟩
          stack_eq := hslots ▸ hfrom
          dstItem_eq := hslots ▸ hto }
    generalize r.moved = moved at houtcome
    generalize r.didSwap = didSwap at houtcome
    generalize r.heap.slots = slots' at houtcome ⊢
    cases houtcome with
    | same _ => rfl
    | noSource _ _ => rfl
    | @empty old _ hfrom hold =>
      -- an empty stack is the cleared one, which is what is put there
      have hcleared : old = .cleared :=
        hclean old (List.mem_of_getElem? hfrom) (UInt16.toNat_inj.1 hold)
      subst hcleared
      have hsame : (taken ItemStack.cleared (UInt32.ofNat act.count.toNat)).2 = .cleared := by
        rw [taken]
        split
        · rfl
        · rw [ItemStack.takeItem, if_pos (.inr rfl)]
      rw [hsame]
      exact setCell_eq_self hfrom
    | @moved old other n m hne hfrom hto hn _ hm _ =>
      refine (hnone hne hfrom hto ?_).elim
      rw [takeCount] at hn
      split at hn <;> omega
    | stuck _ _ _ _ _ _ hswap => cases hswap
    | swapped hne hfrom hold hto _ _ _ => exact (hnone hne hfrom hto hold).elim
    | nowhere _ _ _ => rfl

/-- The client's shift-click: the items go into the other list, the rest goes back. -/
theorem moveItemSomewhere_fillAll (defs : ItemDefManager) {i : Nat} (hne : src ≠ dst)
    (hsrc : cell h.slots src i = some old) (hn : 0 < n.toNat ∧ n.toNat ≤ old.count.toNat) :
    ∃ h', moveItemSomewhere defs h src i dst (UInt32.ofNat n.toNat) = some h' ∧
      h'.slots = Function.update
        (setCell h.slots src i (leftOf old n (fillAll defs old n (h.slots dst)).1)) dst
          (fillAll defs old n (h.slots dst)).2 := by
  have hnpos : n.toNat ≠ 0 := by omega
  have hold : old.count.toNat ≠ 0 := by omega
  rcases taken_of_pos hold (UInt32.ofNat n.toNat) with ⟨n', hn', -, -, htaken⟩
  have hrequest : ¬ UInt32.ofNat n.toNat = 0 := fun h0 => hnpos (by
    rw [← toNat_ofNat_count n, h0]
    rfl)
  rw [takeCount, if_neg hrequest, toNat_ofNat_count] at hn'
  have hnn : n' = n := UInt16.toNat_inj.1 (by omega)
  subst hnn
  rcases takeFrom_of_some hsrc (UInt32.ofNat n'.toNat) with ⟨hmoved, hslots⟩
  rw [htaken] at hmoved hslots
  rw [moveItemSomewhere]
  generalize takeFrom h src i (UInt32.ofNat n'.toNat) = step₁ at hmoved hslots
  rcases step₁ with ⟨item1, h₁⟩
  simp only at hmoved hslots ⊢
  subst hmoved
  have hnonempty : ¬ (old.withCount n').isEmpty = true := by
    rw [ItemStack.isEmpty_iff, ItemStack.count_withCount]
    exact hnpos
  rcases addItem_fillAll defs old (h₁ dst) hnpos with ⟨hleft, hitems⟩
  have hdst : (h₁ dst).items = h.slots dst := by
    have hframe := congrFun hslots dst
    rw [setCell, Function.update_of_ne (Ne.symm hne)] at hframe
    exact hframe
  rw [hdst] at hleft hitems
  have hle : (fillAll defs old n' (h.slots dst)).1.toNat ≤ n'.toNat :=
    (fill_le defs old true _ _ _).trans (fill_le defs old false _ _ _)
  generalize fillAll defs old n' (h.slots dst) = filled at hleft hitems hle ⊢
  rcases filled with ⟨m, items⟩
  simp only at hleft hitems hle ⊢
  rw [if_neg hnonempty]
  have hslots₂ : (h₁.call dst fun l => l.addItem defs (old.withCount n')).2.slots =
      Function.update (setCell h.slots src i (old.withCount (old.count - n'))) dst items := by
    rw [Heap.call, slots_update, hitems, hslots]
  have hleft₂ : (h₁.call dst fun l => l.addItem defs (old.withCount n')).1 = old.withCount m :=
    hleft
  generalize h₁.call dst (fun l => l.addItem defs (old.withCount n')) = step₂ at hslots₂ hleft₂
  rcases step₂ with ⟨leftover, h₂⟩
  simp only at hslots₂ hleft₂ ⊢
  subst hleft₂
  by_cases hm : m.toNat = 0
  · have hempty : (old.withCount m).isEmpty = true := by
      rw [ItemStack.isEmpty_iff, ItemStack.count_withCount]
      exact hm
    have hm0 : m = 0 := UInt16.toNat_inj.1 hm
    refine ⟨h₂, if_pos hempty, ?_⟩
    rw [hslots₂, hm0, leftOf, UInt16.sub_zero]
  · have hrest : ¬ (old.withCount m).isEmpty = true := by
      rw [ItemStack.isEmpty_iff, ItemStack.count_withCount]
      exact hm
    have hcell : cell h₂.slots src i = some (old.withCount (old.count - n')) := by
      rw [hslots₂, cell, Function.update_of_ne hne]
      exact cell_setCell_self hsrc
    have hget : (h₂ src).getItem i = some (old.withCount (old.count - n')) := hcell
    rw [if_neg hrest, hget]
    refine ⟨_, rfl, ?_⟩
    rw [(call_changeItem_of_some hcell _).2, add_withCount hm hle hn.2, hslots₂]
    funext a
    by_cases ha : a = src
    · subst ha
      simp [setCell, hne, leftOf]
    · by_cases hd : a = dst
      · subst hd
        simp [setCell, Ne.symm hne]
      · simp [setCell, ha, hd]

/-- The server's shift-click. -/
theorem applySomewhere_fillAll (defs : ItemDefManager) (act : IMoveAction) (hcb : cb.Permitting)
    (hsrc : mgr.findList act.fromInv act.fromList = some src)
    (hdst : mgr.findList act.toInv act.toList = some dst) (hne : src ≠ dst)
    (hfrom : 0 ≤ act.fromI.toInt)
    (hold : cell mgr.heap.slots src (slotIndex act.fromI) = some old)
    (hn : 0 < act.count.toNat ∧ act.count.toNat ≤ old.count.toNat) (hsize : (mgr.heap dst).items.length < 2 ^ 15) :
    ∃ h', applySomewhere defs cb act mgr = some h' ∧
      h'.slots = Function.update
        (setCell mgr.heap.slots src (slotIndex act.fromI)
          (leftOf old act.count (fillAll defs old act.count (mgr.heap.slots dst)).1)) dst
            (fillAll defs old act.count (mgr.heap.slots dst)).2 := by
  have hslots : somewhereSlots (mgr.heap dst) = List.range (mgr.heap.slots dst).length := by
    rw [somewhereSlots, InventoryList.toNat_getSize]
    simp only [toInt_ofNat_slot hsize, Int.toNat_natCast]
    rfl
  have his : ∀ i ∈ List.range (mgr.heap.slots dst).length,
      i < 2 ^ 15 ∧ i < (mgr.heap.slots dst).length := by
    intro i hi
    have hlt := List.mem_range.1 hi
    exact ⟨hlt.trans hsize, hlt⟩
  have hstart : Filling { act with causedByMoveSomewhere := true, moveSomewhere := false } mgr
      mgr.heap.slots src dst act.fromI old act.count act.count (mgr.heap.slots dst) :=
    { src_eq := hsrc
      dst_eq := hdst
      caused := rfl
      fromI_eq := rfl
      fromI_nonneg := hfrom
      count_eq := rfl
      m_le := le_rfl
      source_eq := hold
      slots_eq := by
        have hall : leftOf old act.count act.count = old := by
          rw [leftOf, UInt16.sub_self, UInt16.sub_zero, ItemStack.withCount_self (by omega)]
        rw [hall, setCell_eq_self hold, Function.update_eq_self] }
  rcases somewhereLoop_fill defs false _ hstart hcb hne hn.2 his with ⟨act₁, mgr₁, hfirst, hfill₁⟩
  rcases somewhereLoop_fill defs true (List.range (mgr.heap.slots dst).length) hfill₁ hcb hne hn.2
    (by rwa [length_fill]) with ⟨act₂, mgr₂, hsecond, hfill₂⟩
  refine ⟨mgr₂.heap, ?_, hfill₂.slots_eq⟩
  rw [applySomewhere, hsrc, hdst]
  simp only [hslots, hfirst, hsecond, Option.bind_eq_bind, Option.bind_some]

/-- The action as the server gets it: the current player is named. -/
def IMoveAction.onServer (act : IMoveAction) (name : Bytes) : IMoveAction :=
  { act with
    fromInv := act.fromInv.applyCurrentPlayer name
    toInv := act.toInv.applyCurrentPlayer name }

/-- Both names of the player lead to the inventory `inv`. -/
structure LeadsTo (mgr : InventoryManager ν ι) (name : Bytes) (inv : ν) : Prop where
  current : mgr.getInventory .currentPlayer = some inv
  player : mgr.getInventory (.player name) = some inv

/-- The lists of an action are not too long for its slot indices, which are `s16`; empty stacks are
cleared, as every constructor leaves them.  A shift-click leads to another list, and asks for some
of the items that there are. -/
structure Predictable (act : IMoveAction) (mgr : InventoryManager ν ι) (src dst : ι) : Prop where
  clean : ∀ s ∈ (mgr.heap src).items, s.Clean
  src_size : (mgr.heap src).items.length ≤ 2 ^ 32 - 2 ^ 15
  dst_size : (mgr.heap dst).items.length ≤ 2 ^ 32 - 2 ^ 15
  somewhere : act.moveSomewhere = true →
    src ≠ dst ∧ (mgr.heap dst).items.length < 2 ^ 15 ∧
      ∃ old, cell mgr.heap.slots src (slotIndex act.fromI) = some old ∧
        0 < act.count.toNat ∧ act.count.toNat ≤ old.count.toNat

omit [DecidableEq ι] in
theorem LeadsTo.inventory_eq {name : Bytes} {inv : ν} (hmgr : LeadsTo mgr name inv)
    {location : InventoryLocation} (h : location = .currentPlayer ∨ location = .player name) :
    mgr.getInventory location = some inv ∧
      mgr.getInventory (location.applyCurrentPlayer name) = some inv := by
  rcases h with rfl | rfl
  · exact ⟨hmgr.current, hmgr.player⟩
  · exact ⟨hmgr.player, hmgr.player⟩

omit [DecidableEq ι] in
theorem contents_of_mutated {h h' hc hs : Heap ι} (hstart : ∀ a, (h' a).contents = (h a).contents)
    (hclient : h.Mutated hc) (hserver : h'.Mutated hs) (hslots : hc.slots = hs.slots) (a : ι) :
    (hc a).contents = (hs a).contents := by
  have hsame := hstart a
  simp only [InventoryList.contents, Prod.mk.injEq] at hsame ⊢
  refine ⟨?_, ?_, congrFun hslots a⟩
  · rw [(hclient a).width_eq, (hserver a).width_eq, hsame.1]
  · rw [(hclient a).name_eq, (hserver a).name_eq, hsame.2.1]

theorem apply_of_not_found (h : ¬ ∃ src dst, mgr.findList act.fromInv act.fromList = some src ∧
    mgr.findList act.toInv act.toList = some dst) : apply defs cb act mgr = some mgr.heap := by
  rw [apply]
  split
  · rw [applySomewhere]
    split
    · rename_i src dst hsrc hdst
      exact absurd ⟨src, dst, hsrc, hdst⟩ h
    · rfl
  · rw [applyMove]
    simp only
    split
    · rename_i src dst hsrc hdst
      exact absurd ⟨src, dst, hsrc, hdst⟩ h
    · rfl

/-- Client and server start with equal lists `mgr.heap` and `h`, and end with equal lists. -/
theorem prediction_agrees [DecidableEq ν] (defs : ItemDefManager) (cb : Callbacks)
    (act : IMoveAction) (mgr : InventoryManager ν ι) (h : Heap ι) (name : Bytes) (inv : ν)
    (hcb : cb.Permitting) (hmgr : LeadsTo mgr name inv)
    (hfrom : act.fromInv = .currentPlayer ∨ act.fromInv = .player name)
    (hto : act.toInv = .currentPlayer ∨ act.toInv = .player name)
    (hcaused : act.causedByMoveSomewhere = false)
    (hstart : ∀ a, (h a).contents = (mgr.heap a).contents)
    (hlists : ∀ src dst, mgr.getList inv act.fromList = some src →
      mgr.getList inv act.toList = some dst → Predictable act mgr src dst) :
    ∃ hc hs, clientApply defs act mgr = some hc ∧
      apply defs cb (act.onServer name) { mgr with heap := h } = some hs ∧
      ∀ a, (hc a).contents = (hs a).contents := by
  -- it is enough that the slots agree
  suffices hslots : ∃ hc hs, clientApply defs act mgr = some hc ∧
      apply defs cb (act.onServer name) { mgr with heap := h } = some hs ∧ hc.slots = hs.slots by
    rcases hslots with ⟨hc, hs, hclient, hserver, hslots⟩
    exact ⟨hc, hs, hclient, hserver, contents_of_mutated hstart (mutated_clientApply hclient)
      (mutated_apply hserver) hslots⟩
  have hsame : mgr.heap.slots = h.slots := by
    funext a
    exact (congrArg (fun c => c.2.2) (hstart a)).symm
  rcases hmgr.inventory_eq hfrom with ⟨hfromInv, hfromServer⟩
  rcases hmgr.inventory_eq hto with ⟨htoInv, htoServer⟩
  have hsrcServer : InventoryManager.findList { mgr with heap := h } (act.onServer name).fromInv
      act.fromList = mgr.getList inv act.fromList := by
    rw [InventoryManager.findList]
    simp only [IMoveAction.onServer, hfromServer, Option.bind_some]
  have hdstServer : InventoryManager.findList { mgr with heap := h } (act.onServer name).toInv
      act.toList = mgr.getList inv act.toList := by
    rw [InventoryManager.findList]
    simp only [IMoveAction.onServer, htoServer, Option.bind_some]
  have hboth : ¬ (some inv ≠ mgr.getInventory .currentPlayer ∨
      some inv ≠ mgr.getInventory .currentPlayer) := by
    rw [hmgr.current]
    exact not_or.2 ⟨not_not.2 rfl, not_not.2 rfl⟩
  by_cases hfound : ∃ src dst, mgr.getList inv act.fromList = some src ∧
      mgr.getList inv act.toList = some dst
  · rcases hfound with ⟨src, dst, hsrc, hdst⟩
    have hpredict := hlists src dst hsrc hdst
    have hclient : clientApply defs act mgr =
        if act.moveSomewhere then
          moveItemSomewhere defs mgr.heap src (slotIndex act.fromI) dst
            (UInt32.ofNat act.count.toNat)
        else
          (moveItem defs mgr.heap src (slotIndex act.fromI) dst (slotIndex act.toI)
            (UInt32.ofNat act.count.toNat) true).map Moved.heap := by
      simp only [clientApply, hfromInv, htoInv, if_neg hboth, hsrc, hdst]
    rw [hsrc] at hsrcServer
    rw [hdst] at hdstServer
    rw [hclient, apply]
    by_cases hsomewhere : act.moveSomewhere = true
    · rcases hpredict.somewhere hsomewhere with ⟨hne, hsize, old, hold, hn⟩
      rcases moveItemSomewhere_fillAll defs hne hold hn with ⟨hc, hhc, hcslots⟩
      have hlength : (h dst).items.length < 2 ^ 15 := by
        have hitems : (mgr.heap dst).items = (h dst).items := congrFun hsame dst
        rwa [← hitems]
      rcases applySomewhere_fillAll defs (act.onServer name) hcb hsrcServer
        hdstServer hne (nonneg_of_cell hpredict.src_size hold) (hsame ▸ hold) hn hlength with
        ⟨hs, hhs, hsslots⟩
      refine ⟨hc, hs, (if_pos hsomewhere).trans hhc, (if_pos hsomewhere).trans hhs, ?_⟩
      rw [hcslots, hsslots, hsame]
      rfl
    · rcases move_agrees defs (act.onServer name) hsame hcb hsrcServer hdstServer
        hcaused hpredict.clean hpredict.src_size hpredict.dst_size with ⟨r, r', hr, hr', hslots⟩
      refine ⟨r.heap, r'.heap, ?_, ?_, hslots⟩
      · rw [if_neg hsomewhere]
        exact congrArg (Option.map Moved.heap) hr
      · exact (if_neg hsomewhere).trans (congrArg (Option.map Applied.heap) hr')
  · -- a list does not exist: neither side does anything
    refine ⟨mgr.heap, h, ?_, ?_, hsame⟩
    · simp only [clientApply, hfromInv, htoInv, if_neg hboth]
      split
      · rename_i src dst hsrc hdst
        exact absurd ⟨src, dst, hsrc, hdst⟩ hfound
      · rfl
    · refine apply_of_not_found ?_
      rintro ⟨src, dst, hsrc, hdst⟩
      exact hfound ⟨src, dst, hsrcServer.symm.trans hsrc, hdstServer.symm.trans hdst⟩

end

theorem constantly_permitting : (constantly 65535).Permitting := by
  have hanswer : (65535 : Int32).toInt = 65535 := by decide
  have hle : ∀ n : UInt16, (n.toNat : Int) ≤ (65535 : Int32).toInt := by
    intro n
    have hlt := n.toNat_lt
    omega
  exact ⟨fun _ s => hle s.count, fun _ s => hle s.count, fun _ n => hle n⟩

theorem prediction_agrees_apple :
    ∃ hc hs, clientApply .builtin oneApple tenApples = some hc ∧
      apply .builtin (constantly 65535) (oneApple.onServer (ascii "sam"))
        { tenApples with heap := tenApples.heap } = some hs ∧
      ∀ a, (hc a).contents = (hs a).contents := by
  refine prediction_agrees .builtin (constantly 65535) oneApple tenApples tenApples.heap
    (ascii "sam") () constantly_permitting ⟨rfl, rfl⟩ (.inr rfl) (.inr rfl) rfl (fun _ => rfl) ?_
  intro src dst _ _
  refine ⟨?_, by simp [tenApples], by simp [tenApples], fun hsomewhere => by cases hsomewhere⟩
  intro s hs
  have hcases : s = apples 10 ∨ s = .cleared := by
    simpa [tenApples] using hs
  rcases hcases with rfl | rfl
  · exact fun hzero => absurd hzero (by decide)
  · exact ItemStack.clean_cleared

/-! ### Lists that are too long -/

/-- Five apples in one list, and another list of empty slots. -/
def manySlots (size : UInt32) : InventoryManager Unit Bool :=
  { getInventory := fun _ => some ()
    getList := fun _ listname => some (listname = ascii "main")
    heap := fun main =>
      if main then InventoryList.create (ascii "main") size
      else { name := ascii "craft", items := [apples 5], length_lt := length_apples } }

/-- A shift-click on the apples. -/
def shiftClick : IMoveAction :=
  { fromInv := .currentPlayer, fromList := ascii "craft", fromI := 0
    toInv := .currentPlayer, toList := ascii "main", toI := -1
    count := 5, moveSomewhere := true }

omit [DecidableEq ι] in
theorem fill_false_of_isEmpty {items : List ItemStack} {is : List Nat}
    (h : ∀ s ∈ items, s.isEmpty = true) : fill defs old false is m items = (m, items) := by
  induction is with
  | nil => rfl
  | cons i is ih =>
    rw [fill]
    split
    · rfl
    · split
      · exact ih
      · rename_i s hs
        have hempty := h s (List.mem_of_getElem? hs)
        rw [if_neg (by simp [hempty])]
        exact ih

theorem fillAll_of_isEmpty (defs : ItemDefManager) (old : ItemStack) {s : ItemStack} {items : List ItemStack}
    (h : ∀ s' ∈ s :: items, s'.isEmpty = true) (hm : m.toNat ≠ 0) :
    fillAll defs old m (s :: items) = (0, old.withCount m :: items) := by
  have hm0 : ¬ m = 0 := fun h0 => hm (by rw [h0]; rfl)
  have hempty := h s (List.mem_cons_self ..)
  have hbound := m.toNat_lt
  have hall : fillCount defs old s m = m := by
    apply UInt16.toNat_inj.1
    rw [toNat_fillCount, ItemStack.room, if_pos hempty]
    omega
  rw [fillAll]
  simp only [fill_false_of_isEmpty h]
  rw [List.length_cons, List.range_succ_eq_map, fill, if_neg hm0]
  simp only [List.getElem?_cons_zero, hempty, if_true, hall, UInt16.sub_self, fill_zero,
    List.set_cons_zero, ItemStack.receive, if_neg hm0]

section

variable {size : UInt32} {n : Nat}

theorem items_manySlots (hsize : size.toNat = n + 1) :
    ((manySlots size).heap true).items = .cleared :: List.replicate n .cleared := by
  have hitems : ((manySlots size).heap true).items = List.replicate size.toNat .cleared := rfl
  rw [hitems, hsize, List.replicate_succ]

/-- The client puts the apples into the first slot. -/
theorem client_shiftClick (size : UInt32) (hsize : size.toNat = n + 1) :
    ∃ hc, clientApply .builtin shiftClick (manySlots size) = some hc ∧
      cell hc.slots true 0 = some (apples 5) := by
  have hslots : (manySlots size).heap.slots true = .cleared :: List.replicate n .cleared :=
    items_manySlots hsize
  have hempty : ∀ s ∈ ItemStack.cleared :: List.replicate n ItemStack.cleared,
      s.isEmpty = true := by
    intro s hs
    rcases List.mem_cons.1 hs with rfl | hs
    · rfl
    · rw [List.eq_of_mem_replicate hs]
      rfl
  have hne : false ≠ true := by decide
  have hsrc : cell (manySlots size).heap.slots false 0 = some (apples 5) := rfl
  rcases moveItemSomewhere_fillAll .builtin (n := 5) hne hsrc (by decide) with
    ⟨hc, hmove, hcslots⟩
  refine ⟨hc, hmove, ?_⟩
  have hfilled := fillAll_of_isEmpty .builtin (apples 5) hempty (m := 5) (by decide)
  rw [hcslots, hslots, hfilled, cell, Function.update_self]
  rfl

/-- The server goes through the slots with an `s16`: here through none. -/
theorem server_shiftClick (cb : Callbacks) (hsize : (Int16.ofNat size.toNat).toInt ≤ 0) :
    apply .builtin cb (shiftClick.onServer (ascii "sam")) (manySlots size) =
      some (manySlots size).heap := by
  have hnone : somewhereSlots ((manySlots size).heap true) = [] := by
    have hget : ((manySlots size).heap true).getSize.toNat = size.toNat := by
      rw [InventoryList.toNat_getSize]
      exact List.length_replicate
    rw [somewhereSlots, hget]
    simp only [Int.toNat_of_nonpos hsize, List.range_zero]
  have hfrom : (manySlots size).findList (shiftClick.onServer (ascii "sam")).fromInv
      (shiftClick.onServer (ascii "sam")).fromList = some false := rfl
  have hto : (manySlots size).findList (shiftClick.onServer (ascii "sam")).toInv
      (shiftClick.onServer (ascii "sam")).toList = some true := rfl
  have hsomewhere : (shiftClick.onServer (ascii "sam")).moveSomewhere = true := rfl
  rw [apply, if_pos hsomewhere, applySomewhere, hfrom, hto]
  simp only [hnone]
  rfl

end

/-- A list with five apples in its last slot. -/
def lastSlot (n : Nat) (h : n + 1 < 2 ^ 32) : InventoryManager Unit Unit :=
  { getInventory := fun _ => some ()
    getList := fun _ _ => some ()
    heap := fun _ =>
      { name := ascii "main"
        items := List.replicate n .cleared ++ [apples 5]
        length_lt := by
          rw [List.length_append, List.length_replicate]
          exact h } }

/-- Slot -2 is the last slot but one that a `u32` can name. -/
def fromMinusTwo : IMoveAction :=
  { fromInv := .currentPlayer, fromList := ascii "main", fromI := -2
    toInv := .currentPlayer, toList := ascii "main", toI := 0
    count := 0 }

section

variable {n : Nat} {h : n + 1 < 2 ^ 32}

theorem cell_lastSlot (hn : 0 < n) :
    cell (lastSlot n h).heap.slots () n = some (apples 5) ∧
      cell (lastSlot n h).heap.slots () 0 = some .cleared := by
  have hitems : (lastSlot n h).heap.slots () = List.replicate n .cleared ++ [apples 5] := rfl
  constructor
  · rw [cell, hitems, List.getElem?_append_right (by rw [List.length_replicate]),
      List.length_replicate, Nat.sub_self]
    rfl
  · rw [cell, hitems, List.getElem?_append_left (by rw [List.length_replicate]; exact hn),
      List.getElem?_replicate, if_pos hn]

theorem client_fromMinusTwo (hn : slotIndex (-2) = n) (hpos : 0 < n) :
    ∃ hc, clientApply .builtin fromMinusTwo (lastSlot n h) = some hc ∧
      cell hc.slots () 0 = some (apples 5) := by
  have hto : slotIndex fromMinusTwo.toI = 0 := by decide
  have hfrom : slotIndex fromMinusTwo.fromI = n := hn
  have hne : ¬ (() = () ∧ n = 0) := by omega
  rcases cell_lastSlot (h := h) hpos with ⟨hsrc, hdst⟩
  have hn : (5 : UInt16).toNat = takeCount (apples 5) 0 := by decide
  have hk : (5 : UInt16).toNat = min (5 : UInt16).toNat
      (ItemStack.room .builtin .cleared (apples 5)) := by decide
  rcases moveItem_spec hne hsrc (by decide) hdst hn hk true with ⟨r, hr, hmoved, -⟩
  refine ⟨r.heap, ?_, ?_⟩
  · have hclient : clientApply .builtin fromMinusTwo (lastSlot n h) =
        (moveItem .builtin (lastSlot n h).heap () (slotIndex fromMinusTwo.fromI) ()
          (slotIndex fromMinusTwo.toI) 0 true).map Moved.heap := rfl
    rw [hclient, hfrom, hto, hr]
    rfl
  · rw [(hmoved (by decide)).2.2, cell_setCell_self]
    · decide
    · rw [cell_setCell_of_ne (by omega)]
      exact hdst

theorem server_fromMinusTwo (cb : Callbacks) :
    apply .builtin cb (fromMinusTwo.onServer (ascii "sam")) (lastSlot n h) =
      some (lastSlot n h).heap := by
  have hneg : (fromMinusTwo.onServer (ascii "sam")).fromI.toInt < 0 := by decide
  have hfrom : (lastSlot n h).findList (fromMinusTwo.onServer (ascii "sam")).fromInv
      (fromMinusTwo.onServer (ascii "sam")).fromList = some () := rfl
  have hto : (lastSlot n h).findList (fromMinusTwo.onServer (ascii "sam")).toInv
      (fromMinusTwo.onServer (ascii "sam")).toList = some () := rfl
  have hmove : (fromMinusTwo.onServer (ascii "sam")).moveSomewhere = false := rfl
  rw [apply, hmove, if_neg Bool.false_ne_true, applyMove, hfrom, hto]
  simp only [if_pos (Or.inl hneg), Option.map_some]

end

/-- A shift-click into a list of 32768 slots, and a move from slot -2 of a list that has a slot
2^32 - 2: the client moves the apples, and the server does not. -/
theorem long_lists_disagree :
    (∃ hc hs, clientApply .builtin shiftClick (manySlots 32768) = some hc ∧
      apply .builtin (constantly 65535) (shiftClick.onServer (ascii "sam")) (manySlots 32768) =
        some hs ∧ (hc true).contents ≠ (hs true).contents) ∧
    ∃ hc hs, clientApply .builtin fromMinusTwo (lastSlot 4294967294 (by decide)) = some hc ∧
      apply .builtin (constantly 65535) (fromMinusTwo.onServer (ascii "sam"))
        (lastSlot 4294967294 (by decide)) = some hs ∧ (hc ()).contents ≠ (hs ()).contents := by
  constructor
  · rcases client_shiftClick 32768 (n := 32767) (by decide) with ⟨hc, hclient, hcell⟩
    refine ⟨hc, _, hclient, server_shiftClick (constantly 65535) (by decide), ?_⟩
    intro hsame
    have hitems : (hc true).items = ((manySlots 32768).heap true).items :=
      congrArg (fun c => c.2.2) hsame
    rw [items_manySlots (n := 32767) (by decide)] at hitems
    have hfirst : (hc true).items[0]? = some (apples 5) := hcell
    rw [hitems, List.getElem?_cons_zero] at hfirst
    exact absurd hfirst (by decide)
  · rcases client_fromMinusTwo (n := 4294967294) (h := by decide) (by decide) (by decide) with
      ⟨hc, hclient, hcell⟩
    refine ⟨hc, _, hclient, server_fromMinusTwo (constantly 65535), ?_⟩
    intro hsame
    have hitems : (hc ()).items = ((lastSlot 4294967294 (by decide)).heap ()).items :=
      congrArg (fun c => c.2.2) hsame
    have hzero := (cell_lastSlot (n := 4294967294) (h := by decide) (by decide)).2
    have hfirst : cell (lastSlot 4294967294 (by decide)).heap.slots () 0 = some (apples 5) := by
      rw [← hcell, cell, cell]
      exact congrArg (fun l => l[0]?) hitems.symm
    exact absurd (hzero.symm.trans hfirst) (by decide)

end Inventory
end AxisEngine
