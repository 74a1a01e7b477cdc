import AxisEngine.Inventory.MoveAction

/-!
# MoveLimits — what the callbacks bound

A move on the server is bounded by what was asked for and by the answers of the callbacks, unless
an answer is negative and not -1: the conversion to `u32` makes it huge, and the whole stack is
moved.

* `limitedCount_eq` — the limits in natural numbers;
* `move_bounded_iff` — when the answers bound the move.
-/

namespace AxisEngine
namespace Inventory

open Lib

/-! ## Limits in natural numbers -/

theorem toInt_eq (i : Int32) :
    i.toInt = if i.toUInt32.toNat < 2 ^ 31 then (i.toUInt32.toNat : Int)
      else (i.toUInt32.toNat : Int) - 2 ^ 32 := by
  have h := BitVec.toInt_eq_toNat_cond i.toBitVec
  have hnat : i.toBitVec.toNat = i.toUInt32.toNat := rfl
  have hint : i.toBitVec.toInt = i.toInt := rfl
  rw [hnat, hint] at h
  rw [h]
  split <;> split <;> omega

section

variable {limit : Int32} {moveCount : UInt32}

theorem toInt_toInt32 (n : UInt32) :
    n.toInt32.toInt = if n.toNat < 2 ^ 31 then (n.toNat : Int) else (n.toNat : Int) - 2 ^ 32 :=
  toInt_eq n.toInt32

theorem applyLimit_of_nonneg (hlimit : 0 ≤ limit.toInt) (moveCount : UInt32)
    (hcount : moveCount.toNat < 2 ^ 31) :
    (applyLimit limit moveCount).toNat = min limit.toInt.toNat moveCount.toNat := by
  have hne : limit ≠ -1 := by
    rintro rfl
    exact absurd hlimit (by decide)
  have hlim := toInt_eq limit
  have hcnt := toInt_toInt32 moveCount
  have hbound := limit.toUInt32.toNat_lt
  rw [if_pos hcount] at hcnt
  rw [applyLimit, if_neg hne]
  split
  · split at hlim <;> omega
  · have hsame : moveCount.toInt32.toUInt32 = moveCount := rfl
    rw [hsame]
    omega

/-- A negative limit makes `move_count` huge, and it stays so. -/
theorem applyLimit_of_neg (hlimit : limit.toInt < 0 ∨ 2 ^ 31 ≤ moveCount.toNat)
    (hne : limit ≠ -1) : 2 ^ 31 ≤ (applyLimit limit moveCount).toNat := by
  have hlim := toInt_eq limit
  have hcnt := toInt_toInt32 moveCount
  have hbound := limit.toUInt32.toNat_lt
  have hbound' := moveCount.toNat_lt
  have hsame : moveCount.toInt32.toUInt32 = moveCount := rfl
  rw [applyLimit, if_neg hne]
  split
  · split at hlim <;> split at hcnt <;> omega
  · rw [hsame]
    split at hlim <;> split at hcnt <;> omega

end

section

variable {limits : Limits} {n available : UInt16}

theorem toNat_ofNat_count (n : UInt16) : (UInt32.ofNat n.toNat).toNat = n.toNat := by
  have hn := n.toNat_lt
  rw [UInt32.toNat_ofNat']
  omega

theorem limitedCount_of_nonneg (hsrc : 0 ≤ limits.srcCanTakeCount.toInt)
    (hdst : 0 ≤ limits.dstCanPutCount.toInt) (hn : n.toNat ≤ available.toNat) :
    (limitedCount limits (UInt32.ofNat n.toNat) available).toNat =
      min limits.dstCanPutCount.toInt.toNat (min limits.srcCanTakeCount.toInt.toNat n.toNat) := by
  have hbound := n.toNat_lt
  have hcount := toNat_ofNat_count n
  have hfirst := applyLimit_of_nonneg hsrc (UInt32.ofNat n.toNat) (by omega)
  have hsecond := applyLimit_of_nonneg hdst
    (applyLimit limits.srcCanTakeCount (UInt32.ofNat n.toNat)) (by omega)
  simp only [limitedCount]
  rw [if_neg (by omega), hsecond, hfirst, hcount]

/-- With a negative limit all of the stack is moved. -/
theorem limitedCount_of_neg
    (hneg : limits.srcCanTakeCount.toInt < 0 ∨ limits.dstCanPutCount.toInt < 0)
    (hsrc : limits.srcCanTakeCount ≠ -1) (hdst : limits.dstCanPutCount ≠ -1) :
    (limitedCount limits (UInt32.ofNat n.toNat) available).toNat = available.toNat := by
  have hbound := available.toNat_lt
  have hhuge : 2 ^ 31 ≤ (applyLimit limits.dstCanPutCount
      (applyLimit limits.srcCanTakeCount (UInt32.ofNat n.toNat))).toNat := by
    rcases hneg with hneg | hneg
    · exact applyLimit_of_neg (.inr (applyLimit_of_neg (.inl hneg) hsrc)) hdst
    · exact applyLimit_of_neg (.inl hneg) hdst
  simp only [limitedCount]
  rw [if_pos (by omega), toNat_ofNat_count]

theorem limitedCount_eq (hn : n.toNat ≤ available.toNat) (hsrc : limits.srcCanTakeCount ≠ -1)
    (hdst : limits.dstCanPutCount ≠ -1) :
    (limitedCount limits (UInt32.ofNat n.toNat) available).toNat =
      if limits.srcCanTakeCount.toInt < 0 ∨ limits.dstCanPutCount.toInt < 0 then available.toNat
      else min limits.dstCanPutCount.toInt.toNat
        (min limits.srcCanTakeCount.toInt.toNat n.toNat) := by
  by_cases hneg : limits.srcCanTakeCount.toInt < 0 ∨ limits.dstCanPutCount.toInt < 0
  · rw [if_pos hneg]
    exact limitedCount_of_neg hneg hsrc hdst
  · rw [if_neg hneg]
    rw [not_or, not_lt, not_lt] at hneg
    exact limitedCount_of_nonneg hneg.1 hneg.2 hn

end

/-! ## What the callbacks answer -/

/-- No callback answers -1, which stands for an infinite stack. -/
structure Callbacks.Finite (cb : Callbacks) : Prop where
  allowPut_ne : ∀ ma s, cb.allowPut ma s ≠ -1
  allowTake_ne : ∀ ma s, cb.allowTake ma s ≠ -1
  allowMove_ne : ∀ ma n, cb.allowMove ma n ≠ -1

/-- What may be taken and what may be put, as the callbacks answer for `srcItem`. -/
def answers (cb : Callbacks) (ma : MoveAction) (srcItem : ItemStack) : Int32 × Int32 :=
  if ma.fromInv.same ma.toInv then (cb.allowMove ma srcItem.count, cb.allowMove ma srcItem.count)
  else (cb.allowTake ma srcItem, cb.allowPut ma srcItem)

section

variable {cb : Callbacks} {ma : MoveAction} {srcItem dstItem : ItemStack}

/-- When no swap is expected, the answers are the limits. -/
theorem limits_false (cb : Callbacks) (ma : MoveAction) (srcItem dstItem : ItemStack) :
    limits cb ma srcItem dstItem false =
      { srcCanTakeCount := (answers cb ma srcItem).1
        dstCanPutCount := (answers cb ma srcItem).2
        allowSwap := false } := by
  rw [limits, answers]
  split
  · simp [limitsWithin]
  · simp [limitsBetween]

theorem le_of_permits {limit : Int32} {n : UInt16} (h : permits limit n = true)
    (hne : limit ≠ -1) : (n.toNat : Int) ≤ limit.toInt := by
  simp only [permits, Bool.or_eq_true, decide_eq_true_eq] at h
  exact h.resolve_left hne

/-- When a swap is expected, it is allowed, for the whole stack and for some of the other, or
nothing is. -/
theorem limits_true (ma : MoveAction) (hcb : cb.Finite) (hsrc : srcItem.count.toNat ≠ 0)
    (hdst : dstItem.count.toNat ≠ 0) :
    limits cb ma srcItem dstItem true =
        { srcCanTakeCount := 0, dstCanPutCount := 0, allowSwap := false } ∨
      ((limits cb ma srcItem dstItem true).allowSwap = true ∧
        (limits cb ma srcItem dstItem true).srcCanTakeCount ≠ -1 ∧
        (limits cb ma srcItem dstItem true).dstCanPutCount ≠ -1 ∧
        (srcItem.count.toNat : Int) ≤ (limits cb ma srcItem dstItem true).srcCanTakeCount.toInt ∧
        0 < (limits cb ma srcItem dstItem true).dstCanPutCount.toInt) := by
  rw [limits]
  split
  · rw [limitsWithin]
    by_cases hfirst : permits (cb.allowMove ma srcItem.count) srcItem.count = true
    · by_cases hsecond :
          permits (cb.allowMove ma.swapDirections dstItem.count) dstItem.count = true
      · refine .inr ?_
        have hle := le_of_permits hfirst (hcb.allowMove_ne _ _)
        have hle' := le_of_permits hsecond (hcb.allowMove_ne _ _)
        simp only [hfirst, hsecond, Bool.and_self, if_true, ne_eq, not_true_eq_false, if_false]
        exact ⟨trivial, hcb.allowMove_ne _ _, hcb.allowMove_ne _ _, hle, by omega⟩
      · refine .inl ?_
        simp [hfirst, hsecond]
    · refine .inl ?_
      simp [hfirst]
  · rw [limitsBetween]
    by_cases hfirst : permits (cb.allowTake ma srcItem) srcItem.count = true ∧
        permits (cb.allowPut ma srcItem) srcItem.count = true
    · by_cases hsecond : permits (cb.allowPut ma.swapDirections dstItem) dstItem.count = true ∧
          permits (cb.allowTake ma.swapDirections dstItem) dstItem.count = true
      · refine .inr ?_
        have hle := le_of_permits hfirst.1 (hcb.allowTake_ne _ _)
        have hle' := le_of_permits hfirst.2 (hcb.allowPut_ne _ _)
        simp only [hfirst.1, hfirst.2, hsecond.1, hsecond.2, Bool.and_self, ne_eq,
          not_true_eq_false, if_false]
        exact ⟨trivial, hcb.allowTake_ne _ _, hcb.allowPut_ne _ _, hle, by omega⟩
      · refine .inl ?_
        rcases not_and_or.1 hsecond with hnot | hnot
        · simp [hfirst.1, hfirst.2, hnot]
        · simp [hfirst.1, hfirst.2, hnot]
    · refine .inl ?_
      rcases not_and_or.1 hfirst with hnot | hnot
      · simp [hnot]
      · simp [hnot]

theorem answers_ne (ma : MoveAction) (srcItem : ItemStack) (hcb : cb.Finite) :
    (answers cb ma srcItem).1 ≠ -1 ∧ (answers cb ma srcItem).2 ≠ -1 := by
  rw [answers]
  split
  · exact ⟨hcb.allowMove_ne _ _, hcb.allowMove_ne _ _⟩
  · exact ⟨hcb.allowTake_ne _ _, hcb.allowPut_ne _ _⟩

end

/-! ## The action between two slots -/

section

variable {i j : Int16}

theorem slotIndex_of_nonneg (h : 0 ≤ i.toInt) : (slotIndex i : Int) = i.toInt := by
  have hlt := i.toInt_lt
  rw [slotIndex, UInt32.ofInt, UInt32.toNat_ofNat']
  omega

theorem slotIndex_inj (hi : 0 ≤ i.toInt) (hj : 0 ≤ j.toInt) :
    slotIndex i = slotIndex j ↔ i = j := by
  have hi' := slotIndex_of_nonneg hi
  have hj' := slotIndex_of_nonneg hj
  constructor
  · intro h
    apply Int16.toInt_inj.1
    omega
  · rintro rfl
    rfl

end

variable {ν ι : Type}

/-- The action leads from a slot to another one; both exist. -/
structure TwoSlots (act : IMoveAction) (mgr : InventoryManager ν ι) (src dst : ι)
    (stack dstItem : ItemStack) : Prop where
  src_eq : mgr.findList act.fromInv act.fromList = some src
  dst_eq : mgr.findList act.toInv act.toList = some dst
  fromI_nonneg : 0 ≤ act.fromI.toInt
  toI_nonneg : 0 ≤ act.toI.toInt
  ne : ¬ (src = dst ∧ act.fromI = act.toI)
  stack_eq : cell mgr.heap.slots src (slotIndex act.fromI) = some stack
  dstItem_eq : cell mgr.heap.slots dst (slotIndex act.toI) = some dstItem

section

variable {defs : ItemDefManager} {cb : Callbacks} {act : IMoveAction}
variable {mgr : InventoryManager ν ι} {src dst : ι} {stack dstItem : ItemStack} {n k : UInt16}

theorem TwoSlots.slot_ne (h : TwoSlots act mgr src dst stack dstItem) :
    ¬ (src = dst ∧ slotIndex act.fromI = slotIndex act.toI) := by
  rintro ⟨hlist, hindex⟩
  exact h.ne ⟨hlist, (slotIndex_inj h.fromI_nonneg h.toI_nonneg).1 hindex⟩

theorem requested_eq (hstack : stack.count.toNat ≠ 0)
    (hn : n.toNat = takeCount stack (UInt32.ofNat act.count.toNat)) :
    requested stack act.count = stack.withCount n := by
  have hzero : UInt32.ofNat act.count.toNat = 0 ↔ act.count.toNat = 0 := by
    rw [← UInt32.toNat_inj, toNat_ofNat_count]
    rfl
  rw [takeCount, toNat_ofNat_count] at hn
  simp only [hzero] at hn
  rw [requested]
  split
  · rename_i hpart
    have hpos := UInt16.lt_iff_toNat_lt.1 hpart.1
    have hlt := UInt16.lt_iff_toNat_lt.1 hpart.2
    have h0 : (0 : UInt16).toNat = 0 := rfl
    rw [if_neg (by omega)] at hn
    have hcount : n = act.count := UInt16.toNat_inj.1 (by omega)
    rw [hcount, ItemStack.withCount_of_ne (by omega)]
  · rename_i hall
    have hcount : n = stack.count := by
      apply UInt16.toNat_inj.1
      rcases not_and_or.1 hall with hnot | hnot
      · have hle := UInt16.le_iff_toNat_le.1 (UInt16.not_lt.1 hnot)
        have h0 : (0 : UInt16).toNat = 0 := rfl
        rw [if_pos (by omega)] at hn
        exact hn
      · have hle := UInt16.le_iff_toNat_le.1 (UInt16.not_lt.1 hnot)
        split at hn <;> omega
    rw [hcount, ItemStack.withCount_self hstack]

/-- What does not fit of what is asked for. -/
theorem itemFits_requested (hnpos : n.toNat ≠ 0)
    (hk : k.toNat = min n.toNat (ItemStack.room defs dstItem stack)) :
    dstItem.itemFits defs (stack.withCount n) = (decide (n - k = 0), stack.withCount (n - k)) := by
  have hcount : (stack.withCount n).count.toNat ≠ 0 := by
    rw [ItemStack.count_withCount]
    exact hnpos
  rw [ItemStack.itemFits_eq, ItemStack.addItem_eq defs dstItem hcount (k := k),
    ItemStack.count_withCount, ItemStack.withCount_withCount hnpos, ItemStack.isEmpty_withCount]
  rw [ItemStack.room_withCount hnpos, ItemStack.count_withCount]
  exact hk

end

variable [DecidableEq ι]
variable {defs : ItemDefManager} {cb : Callbacks} {act : IMoveAction}
variable {mgr : InventoryManager ν ι} {src dst : ι} {stack dstItem : ItemStack} {n k : UInt16}

/-- Between two slots `k` of the `n` items asked for fit.  The callbacks are asked about these
items; when nothing fits, about the whole stack, for a swap. -/
theorem applyMove_of_twoSlots (cb : Callbacks) (h : TwoSlots act mgr src dst stack dstItem)
    (hstack : stack.count.toNat ≠ 0)
    (hn : n.toNat = takeCount stack (UInt32.ofNat act.count.toNat))
    (hk : k.toNat = min n.toNat (ItemStack.room defs dstItem stack)) :
    applyMove defs cb act mgr =
      if act.causedByMoveSomewhere && decide (k = 0) then
        some { heap := mgr.heap, moveCount := 0 }
      else
        applyAllowed defs cb act mgr.heap src dst stack
          (if k = 0 then stack else stack.withCount k) (decide (k = 0)) := by
  rcases taken_of_pos hstack (UInt32.ofNat act.count.toNat) with ⟨n', hn', hnpos, -, -⟩
  have hnn : n' = n := UInt16.toNat_inj.1 (hn'.trans hn.symm)
  subst hnn
  have hsrcSize : ¬ (act.fromI.toInt < 0 ∨ (mgr.heap src).getSize.toNat ≤ slotIndex act.fromI) := by
    have hlt := (List.getElem?_eq_some_iff.1 h.stack_eq).1
    have hnonneg := h.fromI_nonneg
    rw [InventoryList.toNat_getSize]
    simp only [Heap.slots] at hlt
    omega
  have hdstSize : ¬ (act.toI.toInt < 0 ∨ (mgr.heap dst).getSize.toNat ≤ slotIndex act.toI) := by
    have hlt := (List.getElem?_eq_some_iff.1 h.dstItem_eq).1
    have hnonneg := h.toI_nonneg
    rw [InventoryList.toNat_getSize]
    simp only [Heap.slots] at hlt
    omega
  have hget : (mgr.heap src).getItem (slotIndex act.fromI) = some stack := h.stack_eq
  have hfits : (mgr.heap dst).itemFits defs (slotIndex act.toI) (requested stack act.count) =
      (decide (n' - k = 0), stack.withCount (n' - k)) := by
    have hdst : (mgr.heap dst).items[slotIndex act.toI]? = some dstItem := h.dstItem_eq
    rw [InventoryList.itemFits, hdst, requested_eq hstack hn]
    exact itemFits_requested hnpos hk
  have hnonempty : ¬ (stack.withCount n').isEmpty = true := by
    rw [ItemStack.isEmpty_iff, ItemStack.count_withCount]
    exact hnpos
  have hkn : k.toNat ≤ n'.toNat := hk ▸ min_le_left _ _
  have hcount : n' - (n' - k) = k := by
    apply UInt16.toNat_inj.1
    have hsub := ItemStack.toNat_sub_of_le' hkn
    rw [ItemStack.toNat_sub_of_le' (by omega), hsub]
    omega
  rw [applyMove, h.src_eq, h.dst_eq]
  simp only [if_neg hsrcSize, if_neg hdstSize, if_neg h.ne, hget, Option.bind_eq_bind,
    Option.bind_some, hfits]
  rw [requested_eq hstack hn, if_neg hnonempty]
  simp only [ItemStack.count_withCount, hcount]
  by_cases hzero : k = 0
  · -- nothing fits: a shift-click goes on, any other move is a swap of the entire stack
    subst hzero
    have hn0 : ¬ n' = 0 := fun h0 => hnpos (by rw [h0]; rfl)
    cases hcaused : act.causedByMoveSomewhere with
    | true => simp
    | false => simp [hn0]
  · have hne : ¬ n' - k = n' := by
      intro heq
      have hsub := congrArg UInt16.toNat heq
      rw [ItemStack.toNat_sub_of_le' hkn] at hsub
      exact hzero (UInt16.toNat_inj.1 (by simp only [UInt16.toNat_zero]; omega))
    have hkpos : k.toNat ≠ 0 := fun h0 => hzero (UInt16.toNat_inj.1 h0)
    simp only [hzero, hne, decide_false, Bool.and_false, Bool.false_and, Bool.false_eq_true,
      if_false]
    rw [ItemStack.withCount_of_ne hnpos, ItemStack.withCount_of_ne hkpos]

omit [DecidableEq ι] in
theorem exists_cell (h : Heap ι) {a : ι} {i : Nat} (hlt : i < (h a).items.length) :
    ∃ s, cell h.slots a i = some s :=
  ⟨_, List.getElem?_eq_getElem hlt⟩

theorem isEmpty_requested (hempty : stack.count.toNat = 0) (count : UInt16) :
    (requested stack count).isEmpty = true := by
  have hnot : ¬ (count > 0 ∧ count < stack.count) := by
    rintro ⟨-, hlt⟩
    have hlt' := UInt16.lt_iff_toNat_lt.1 hlt
    omega
  rw [requested, if_neg hnot, ItemStack.isEmpty_iff]
  exact hempty

/-- Without two slots, or with nothing to take, nothing happens. -/
theorem applyMove_cases (defs : ItemDefManager) (cb : Callbacks) (act : IMoveAction)
    (mgr : InventoryManager ν ι) :
    applyMove defs cb act mgr = some { heap := mgr.heap, moveCount := act.moveCount } ∨
      ∃ src dst stack dstItem, TwoSlots act mgr src dst stack dstItem ∧ stack.count.toNat ≠ 0 := by
  cases hsrc : mgr.findList act.fromInv act.fromList with
  | none => exact .inl (by simp only [applyMove, hsrc])
  | some src =>
    cases hdst : mgr.findList act.toInv act.toList with
    | none => exact .inl (by simp only [applyMove, hsrc, hdst])
    | some dst =>
      by_cases hfrom : act.fromI.toInt < 0 ∨ (mgr.heap src).getSize.toNat ≤ slotIndex act.fromI
      · exact .inl (by simp only [applyMove, hsrc, hdst, if_pos hfrom])
      · by_cases hto : act.toI.toInt < 0 ∨ (mgr.heap dst).getSize.toNat ≤ slotIndex act.toI
        · exact .inl (by simp only [applyMove, hsrc, hdst, if_neg hfrom, if_pos hto])
        · by_cases hsame : src = dst ∧ act.fromI = act.toI
          · refine .inl ?_
            simp only [applyMove, hsrc, hdst, if_neg hfrom, if_neg hto, if_pos hsame]
          · rw [not_or, not_lt, not_le, InventoryList.toNat_getSize] at hfrom hto
            rcases exists_cell mgr.heap hfrom.2 with ⟨stack, hstack⟩
            rcases exists_cell mgr.heap hto.2 with ⟨dstItem, hdstItem⟩
            by_cases hempty : stack.count.toNat = 0
            · refine .inl ?_
              have hget : (mgr.heap src).getItem (slotIndex act.fromI) = some stack := hstack
              have hnothing : (requested stack act.count).isEmpty = true :=
                isEmpty_requested hempty act.count
              simp only [applyMove, hsrc, hdst, InventoryList.toNat_getSize,
                if_neg (not_or.2 ⟨not_lt.2 hfrom.1, not_le.2 hfrom.2⟩),
                if_neg (not_or.2 ⟨not_lt.2 hto.1, not_le.2 hto.2⟩), if_neg hsame, hget,
                Option.bind_eq_bind, Option.bind_some, if_pos hnothing]
            · exact .inr ⟨src, dst, stack, dstItem,
                ⟨hsrc, hdst, hfrom.1, hto.1, hsame, hstack, hdstItem⟩, hempty⟩

@[simp] theorem slots_undoPrediction (h : Heap ι) (ma : MoveAction) (src dst : ι) :
    (undoPrediction h ma src dst).slots = h.slots := by
  have hcall : ∀ (h : Heap ι) (a : ι),
      (h.call a fun l => ((), l.setModified true)).2.slots = h.slots := by
    intro h a
    rw [Heap.call, slots_update]
    exact Function.update_eq_self a h.slots
  rw [undoPrediction]
  split <;> split <;> simp only [hcall]

/-- With finite limits, `performMove` is a call of `moveItem`. -/
theorem performMove_eq {limits : Limits} {moveCount : UInt32} {i j : Nat} {h : Heap ι}
    {r : Moved ι} (caused : Bool)
    (hstack : cell h.slots src i = some stack) (hdstItem : cell h.slots dst j = some dstItem)
    (htake : limits.srcCanTakeCount ≠ -1) (hput : limits.dstCanPutCount ≠ -1)
    (hr : moveItem defs h src i dst j moveCount limits.allowSwap = some r)
    (hswap : r.didSwap = limits.allowSwap) :
    performMove defs h src i dst j caused limits moveCount =
      some { heap := r.heap
             moveCount := UInt32.ofNat r.moved.count.toNat
             didSwap := r.didSwap } := by
  have hfrom : (h src).getItem i = some stack := hstack
  have hto : (h dst).getItem j = some dstItem := hdstItem
  simp only [performMove, hfrom, hto, hr, Option.bind_eq_bind, Option.bind_some, if_neg htake,
    if_neg hput, hswap, ne_eq, not_true_eq_false, if_false]

section

variable {srcItem : ItemStack} {swapExpected : Bool} {c : UInt32}

/-- No limit allows anything: the slots stay. -/
theorem applyAllowed_zero (h : TwoSlots act mgr src dst stack dstItem)
    (hc : limitedCount (limits cb act.toMoveAction srcItem dstItem swapExpected)
      (UInt32.ofNat srcItem.count.toNat) stack.count = 0) :
    applyAllowed defs cb act mgr.heap src dst stack srcItem swapExpected =
      some { heap := undoPrediction mgr.heap act.toMoveAction src dst, moveCount := 0 } := by
  have hto : (mgr.heap dst).getItem (slotIndex act.toI) = some dstItem := h.dstItem_eq
  simp only [applyAllowed, hto, Option.bind_eq_bind, Option.bind_some, hc, if_true]

/-- The limits allow `c` items: `k` of them are moved, or the stacks are swapped. -/
theorem applyAllowed_some (h : TwoSlots act mgr src dst stack dstItem)
    (hstack : stack.count.toNat ≠ 0)
    (hc : limitedCount (limits cb act.toMoveAction srcItem dstItem swapExpected)
      (UInt32.ofNat srcItem.count.toNat) stack.count = c) (hcpos : c ≠ 0)
    (htake : (limits cb act.toMoveAction srcItem dstItem swapExpected).srcCanTakeCount ≠ -1)
    (hput : (limits cb act.toMoveAction srcItem dstItem swapExpected).dstCanPutCount ≠ -1)
    (hk : k.toNat = min (takeCount stack c) (ItemStack.room defs dstItem stack))
    (hswap : (limits cb act.toMoveAction srcItem dstItem swapExpected).allowSwap = decide (k = 0)) :
    ∃ r, applyAllowed defs cb act mgr.heap src dst stack srcItem swapExpected = some r ∧
      (∀ kind, tally (ItemStack.amount kind) (bothLists src dst) r.heap.slots =
        tally (ItemStack.amount kind) (bothLists src dst) mgr.heap.slots) ∧
      r.didSwap = decide (k = 0) ∧
      (k.toNat ≠ 0 → r.moveCount.toNat = k.toNat) ∧
      r.heap.slots =
        if k.toNat = 0 then
          setCell (setCell mgr.heap.slots src (slotIndex act.fromI) dstItem) dst
            (slotIndex act.toI) stack
        else
          setCell (setCell mgr.heap.slots src (slotIndex act.fromI)
            (stack.withCount (stack.count - k))) dst (slotIndex act.toI)
              (dstItem.receive stack k) := by
  rcases taken_of_pos hstack c with ⟨n, hn, -, -, -⟩
  rw [← hn] at hk
  rcases moveItem_spec h.slot_ne h.stack_eq hstack h.dstItem_eq hn hk (decide (k = 0)) with
    ⟨r, hr, hmoved, hswapped⟩
  have hzero : k = 0 ↔ k.toNat = 0 := UInt16.toNat_inj.symm
  have hdid : r.didSwap = decide (k = 0) := by
    by_cases hk0 : k.toNat = 0
    · exact (hswapped hk0).1
    · rw [(hmoved hk0).2.1, decide_eq_false (mt hzero.1 hk0)]
  have hto : (mgr.heap dst).getItem (slotIndex act.toI) = some dstItem := h.dstItem_eq
  rw [← hswap] at hr
  have hperform := performMove_eq act.causedByMoveSomewhere h.stack_eq h.dstItem_eq
    htake hput hr (hdid.trans hswap.symm)
  refine ⟨{ heap := r.heap
            moveCount := UInt32.ofNat r.moved.count.toNat
            didSwap := r.didSwap }, ?_, ?_, hdid, ?_, ?_⟩
  · simp only [applyAllowed, hto, Option.bind_eq_bind, Option.bind_some, hc, if_neg hcpos]
    exact hperform
  · rcases moveItem_outcome defs mgr.heap src (slotIndex act.fromI) dst (slotIndex act.toI) c
      (decide (k = 0)) with ⟨r', hr', houtcome⟩
    rw [← hswap] at hr'
    cases hr.symm.trans hr'
    exact houtcome.tally_eq
  · intro hk0
    rw [(hmoved hk0).1, ItemStack.count_withCount, toNat_ofNat_count]
  · by_cases hk0 : k.toNat = 0
    · rw [if_pos hk0, (hswapped hk0).2, decide_eq_true (hzero.2 hk0), if_pos rfl]
    · rw [if_neg hk0, (hmoved hk0).2.2]

end

/-! ## The bound -/

/-- How many of the items asked for the slot of the destination takes. -/
def fitCount (defs : ItemDefManager) (stack dstItem : ItemStack) (count : UInt16) : UInt16 :=
  (requested stack count).count - (dstItem.itemFits defs (requested stack count)).2.count

/-- What the callbacks are asked about. -/
def asked (defs : ItemDefManager) (stack dstItem : ItemStack) (count : UInt16) : ItemStack :=
  if fitCount defs stack dstItem count = 0 then stack
  else stack.withCount (fitCount defs stack dstItem count)

section

variable (defs : ItemDefManager) (cb : Callbacks) (act : IMoveAction)

/-- The number of items asked for and what may be taken and put; nothing when that is negative. -/
def moveBound (stack dstItem : ItemStack) : Nat :=
  let (take, put) := answers cb act.toMoveAction (asked defs stack dstItem act.count)
  min (requested stack act.count).count.toNat (min take.toInt.toNat put.toInt.toNat)

/-- How many items left a slot. -/
def itemsLeft (slots slots' : ι → List ItemStack) (a : ι) (i : Nat) : Nat :=
  (cell slots a i).elim 0 (fun s => s.count.toNat) -
    (cell slots' a i).elim 0 (fun s => s.count.toNat)

/-- Nothing changed, or no more items left the slot of the source than asked for and allowed. -/
def MovedWithin (slots slots' : ι → List ItemStack) (src dst : ι) : Prop :=
  slots' = slots ∨
    ∃ stack dstItem, cell slots src (slotIndex act.fromI) = some stack ∧
      cell slots dst (slotIndex act.toI) = some dstItem ∧
      itemsLeft slots slots' src (slotIndex act.fromI) ≤ moveBound defs cb act stack dstItem

/-- Items fit, and a callback answers with a negative number. -/
def Overruns (mgr : InventoryManager ν ι) (src dst : ι) : Prop :=
  ∃ stack dstItem, TwoSlots act mgr src dst stack dstItem ∧
    fitCount defs stack dstItem act.count ≠ 0 ∧
    ((answers cb act.toMoveAction (asked defs stack dstItem act.count)).1.toInt < 0 ∨
      (answers cb act.toMoveAction (asked defs stack dstItem act.count)).2.toInt < 0)

end

theorem fitCount_of_empty (hempty : stack.count.toNat = 0) (count : UInt16) :
    fitCount defs stack dstItem count = 0 := by
  have hnothing := isEmpty_requested hempty count
  rw [fitCount, ItemStack.itemFits_eq, ItemStack.addItem, if_pos hnothing]
  exact UInt16.sub_self _

theorem fitCount_eq (hstack : stack.count.toNat ≠ 0)
    (hn : n.toNat = takeCount stack (UInt32.ofNat act.count.toNat))
    (hk : k.toNat = min n.toNat (ItemStack.room defs dstItem stack)) :
    fitCount defs stack dstItem act.count = k := by
  rcases taken_of_pos hstack (UInt32.ofNat act.count.toNat) with ⟨n', hn', hnpos, -, -⟩
  rw [← hn] at hn'
  rw [hn'] at hnpos
  have hkn : k.toNat ≤ n.toNat := hk ▸ min_le_left _ _
  rw [fitCount, requested_eq hstack hn, itemFits_requested hnpos hk, ItemStack.count_withCount,
    ItemStack.count_withCount]
  apply UInt16.toNat_inj.1
  have hsub := ItemStack.toNat_sub_of_le' hkn
  rw [ItemStack.toNat_sub_of_le' (by omega), hsub]
  omega

omit [DecidableEq ι] in
theorem itemsLeft_self (slots : ι → List ItemStack) (a : ι) (i : Nat) :
    itemsLeft slots slots a i = 0 :=
  Nat.sub_self _

theorem itemsLeft_moved {slots : ι → List ItemStack} {i j : Nat} {new : ItemStack}
    (hne : ¬ (src = dst ∧ i = j)) (hstack : cell slots src i = some stack)
    (hk : k.toNat ≤ stack.count.toNat) :
    itemsLeft slots (setCell (setCell slots src i (stack.withCount (stack.count - k))) dst j new)
      src i = k.toNat := by
  rw [itemsLeft, cell_setCell_of_ne hne, cell_setCell_self hstack, hstack]
  simp only [Option.elim_some, ItemStack.count_withCount]
  rw [ItemStack.toNat_sub_of_le' hk]
  omega

/-- The numbers that a move between two slots goes by: `n` items are asked for, `k` fit. -/
theorem exists_counts (defs : ItemDefManager) (act : IMoveAction) (dstItem : ItemStack)
    (hstack : stack.count.toNat ≠ 0) :
    ∃ n k : UInt16, n.toNat = takeCount stack (UInt32.ofNat act.count.toNat) ∧
      n.toNat ≠ 0 ∧ n.toNat ≤ stack.count.toNat ∧
      k.toNat = min n.toNat (ItemStack.room defs dstItem stack) ∧
      fitCount defs stack dstItem act.count = k := by
  rcases taken_of_pos hstack (UInt32.ofNat act.count.toNat) with ⟨n, hn, hnpos, hnle, -⟩
  have hbound := n.toNat_lt
  have hk : (UInt16.ofNat (min n.toNat (ItemStack.room defs dstItem stack))).toNat =
      min n.toNat (ItemStack.room defs dstItem stack) := by
    rw [UInt16.toNat_ofNat']
    omega
  exact ⟨n, _, hn, hnpos, hnle, hk, fitCount_eq hstack hn hk⟩

/-- When nothing fits, the stacks are swapped, or nothing happens. -/
theorem applyMove_full (h : TwoSlots act mgr src dst stack dstItem) (hcb : cb.Finite)
    (hcaused : act.causedByMoveSomewhere = false) (hstack : stack.count.toNat ≠ 0)
    (hfull : fitCount defs stack dstItem act.count = 0) :
    ∃ r, applyMove defs cb act mgr = some r ∧
      (∀ kind, tally (ItemStack.amount kind) (bothLists src dst) r.heap.slots =
        tally (ItemStack.amount kind) (bothLists src dst) mgr.heap.slots) ∧
      (if (limits cb act.toMoveAction stack dstItem true).allowSwap then
        r.didSwap = true ∧ r.heap.slots =
          setCell (setCell mgr.heap.slots src (slotIndex act.fromI) dstItem) dst
            (slotIndex act.toI) stack
      else r.heap.slots = mgr.heap.slots) := by
  rcases exists_counts defs act dstItem hstack with ⟨n, k, hn, hnpos, -, hk, hfit⟩
  have hk0 : k = 0 := hfit.symm.trans hfull
  subst hk0
  have hzero : (0 : UInt16).toNat = 0 := rfl
  have hroom : ItemStack.room defs dstItem stack = 0 := by omega
  have hdstItem : dstItem.count.toNat ≠ 0 := by
    intro hempty
    rw [ItemStack.room, if_pos (ItemStack.isEmpty_iff.2 hempty)] at hroom
    omega
  have hstep := applyMove_of_twoSlots cb h hstack hn hk
  rw [hcaused, Bool.false_and, if_neg Bool.false_ne_true, if_pos rfl] at hstep
  simp only [decide_true] at hstep
  have hbound := stack.count.toNat_lt
  rcases limits_true act.toMoveAction hcb hstack hdstItem with
    hnone | ⟨hswap, htake, hput, htakeLe, hputPos⟩
  · have hc : limitedCount (limits cb act.toMoveAction stack dstItem true)
        (UInt32.ofNat stack.count.toNat) stack.count = 0 := by
      rw [hnone]
      apply UInt32.toNat_inj.1
      rw [limitedCount_of_nonneg (by simp) (by simp) le_rfl]
      simp
    rw [applyAllowed_zero h hc] at hstep
    refine ⟨_, hstep, fun _ => by rw [slots_undoPrediction], ?_⟩
    rw [hnone]
    exact slots_undoPrediction mgr.heap act.toMoveAction src dst
  · -- the limits let some items through, and none of them fits
    have hcount := limitedCount_of_nonneg (n := stack.count)
      ((Int.natCast_nonneg _).trans htakeLe) hputPos.le le_rfl
    have hcpos : limitedCount (limits cb act.toMoveAction stack dstItem true)
        (UInt32.ofNat stack.count.toNat) stack.count ≠ 0 := by
      intro h0
      rw [h0] at hcount
      have h0' : (0 : UInt32).toNat = 0 := rfl
      omega
    have hk' : (0 : UInt16).toNat = min (takeCount stack
        (limitedCount (limits cb act.toMoveAction stack dstItem true)
          (UInt32.ofNat stack.count.toNat) stack.count)) (ItemStack.room defs dstItem stack) := by
      omega
    rcases applyAllowed_some h hstack rfl hcpos htake hput hk' hswap with
      ⟨r, hr, htally, hdid, -, hslots⟩
    refine ⟨r, hstep.trans hr, htally, ?_⟩
    rw [if_pos hswap]
    exact ⟨hdid, hslots⟩

/-- Some of the items fit: with two answers that are not negative, `j` of them are moved. -/
theorem applyMove_fits (h : TwoSlots act mgr src dst stack dstItem) (hcb : cb.Finite)
    (hstack : stack.count.toNat ≠ 0)
    (hn : n.toNat = takeCount stack (UInt32.ofNat act.count.toNat))
    (hnle : n.toNat ≤ stack.count.toNat)
    (hk : k.toNat = min n.toNat (ItemStack.room defs dstItem stack)) (hkpos : k.toNat ≠ 0)
    {j : UInt16}
    (hj : j.toNat = if (answers cb act.toMoveAction (stack.withCount k)).1.toInt < 0 ∨
        (answers cb act.toMoveAction (stack.withCount k)).2.toInt < 0 then
      min stack.count.toNat (ItemStack.room defs dstItem stack)
    else
      min (answers cb act.toMoveAction (stack.withCount k)).2.toInt.toNat
        (min (answers cb act.toMoveAction (stack.withCount k)).1.toInt.toNat k.toNat)) :
    ∃ r, applyMove defs cb act mgr = some r ∧
      (∀ kind, tally (ItemStack.amount kind) (bothLists src dst) r.heap.slots =
        tally (ItemStack.amount kind) (bothLists src dst) mgr.heap.slots) ∧
      r.didSwap = false ∧ r.moveCount.toNat = j.toNat ∧
      r.heap.slots = if j.toNat = 0 then mgr.heap.slots
        else
          setCell (setCell mgr.heap.slots src (slotIndex act.fromI)
            (stack.withCount (stack.count - j))) dst (slotIndex act.toI)
              (dstItem.receive stack j) := by
  have hk0 : ¬ k = 0 := fun h0 => hkpos (by rw [h0]; rfl)
  have hstep := applyMove_of_twoSlots cb h hstack hn hk
  rw [decide_eq_false hk0, Bool.and_false, if_neg Bool.false_ne_true, if_neg hk0] at hstep
  have hlimits := limits_false cb act.toMoveAction (stack.withCount k) dstItem
  rcases answers_ne act.toMoveAction (stack.withCount k) hcb with ⟨htake, hput⟩
  have hroom : k.toNat ≤ ItemStack.room defs dstItem stack := hk ▸ min_le_right _ _
  have hkn : k.toNat ≤ n.toNat := hk ▸ min_le_left _ _
  -- how many items the limits let through
  have hcount : (limitedCount (limits cb act.toMoveAction (stack.withCount k) dstItem false)
        (UInt32.ofNat (stack.withCount k).count.toNat) stack.count).toNat =
      if (answers cb act.toMoveAction (stack.withCount k)).1.toInt < 0 ∨
          (answers cb act.toMoveAction (stack.withCount k)).2.toInt < 0 then
        stack.count.toNat
      else
        min (answers cb act.toMoveAction (stack.withCount k)).2.toInt.toNat
          (min (answers cb act.toMoveAction (stack.withCount k)).1.toInt.toNat k.toNat) := by
    rw [ItemStack.count_withCount, hlimits]
    exact limitedCount_eq (by omega) htake hput
  generalize hc : limitedCount (limits cb act.toMoveAction (stack.withCount k) dstItem false)
    (UInt32.ofNat (stack.withCount k).count.toNat) stack.count = c at hcount
  have hcj : j.toNat = min c.toNat (ItemStack.room defs dstItem stack) := by
    rw [hcount, hj]
    split <;> omega
  have hcle : c.toNat ≤ stack.count.toNat := by
    rw [hcount]
    split <;> omega
  by_cases hc0 : c = 0
  · rw [hc0] at hc hcj
    have hj0 : j.toNat = 0 := by simpa using hcj
    rw [applyAllowed_zero h hc] at hstep
    refine ⟨_, hstep, fun _ => by rw [slots_undoPrediction], rfl, hj0.symm, ?_⟩
    rw [if_pos hj0, slots_undoPrediction]
  · have hcpos : c.toNat ≠ 0 := fun h0 => hc0 (UInt32.toNat_inj.1 h0)
    have hjpos : j.toNat ≠ 0 := by omega
    have hj0 : ¬ j = 0 := fun h0 => hjpos (by rw [h0]; rfl)
    have hjtake : j.toNat = min (takeCount stack c) (ItemStack.room defs dstItem stack) := by
      rw [takeCount, if_neg hc0, hcj]
      omega
    rcases applyAllowed_some h hstack hc hc0 (by rw [hlimits]; exact htake)
        (by rw [hlimits]; exact hput) hjtake (by rw [hlimits, decide_eq_false hj0]) with
      ⟨r, hr, htally, hdid, hmoved, hslots⟩
    refine ⟨r, hstep.trans hr, htally, ?_, hmoved hjpos, ?_⟩
    · rw [hdid, decide_eq_false hj0]
    · rw [hslots, if_neg hjpos, if_neg hjpos]

omit [DecidableEq ι] in
theorem TwoSlots.unique {src' dst' : ι} {stack' dstItem' : ItemStack}
    (h : TwoSlots act mgr src dst stack dstItem) (h' : TwoSlots act mgr src' dst' stack' dstItem') :
    src = src' ∧ dst = dst' ∧ stack = stack' ∧ dstItem = dstItem' := by
  cases h.src_eq.symm.trans h'.src_eq
  cases h.dst_eq.symm.trans h'.dst_eq
  exact ⟨rfl, rfl, Option.some.inj (h.stack_eq.symm.trans h'.stack_eq),
    Option.some.inj (h.dstItem_eq.symm.trans h'.dstItem_eq)⟩

theorem moveBound_eq (cb : Callbacks) (hstack : stack.count.toNat ≠ 0)
    (hn : n.toNat = takeCount stack (UInt32.ofNat act.count.toNat))
    (hfit : fitCount defs stack dstItem act.count = k) (hk : k.toNat ≠ 0) :
    moveBound defs cb act stack dstItem =
      min n.toNat (min (answers cb act.toMoveAction (stack.withCount k)).1.toInt.toNat
        (answers cb act.toMoveAction (stack.withCount k)).2.toInt.toNat) := by
  have hk0 : ¬ k = 0 := fun h0 => hk (by rw [h0]; rfl)
  rw [moveBound, asked, hfit, if_neg hk0, requested_eq hstack hn, ItemStack.count_withCount]

omit [DecidableEq ι] in
theorem overruns_iff (h : TwoSlots act mgr src dst stack dstItem)
    (hfit : fitCount defs stack dstItem act.count = k) (hk : k.toNat ≠ 0) :
    Overruns defs cb act mgr src dst ↔
      (answers cb act.toMoveAction (stack.withCount k)).1.toInt < 0 ∨
        (answers cb act.toMoveAction (stack.withCount k)).2.toInt < 0 := by
  have hk0 : ¬ k = 0 := fun h0 => hk (by rw [h0]; rfl)
  have hasked : asked defs stack dstItem act.count = stack.withCount k := by
    rw [asked, hfit, if_neg hk0]
  constructor
  · rintro ⟨stack', dstItem', h', -, hneg⟩
    rcases h.unique h' with ⟨-, -, rfl, rfl⟩
    rwa [hasked] at hneg
  · intro hneg
    exact ⟨stack, dstItem, h, by rw [hfit]; exact hk0, by rwa [hasked]⟩

/-- The number of items that `take` and `put` let through. -/
theorem movedCount_exists (hk : k.toNat = min n.toNat (ItemStack.room defs dstItem stack))
    (hkpos : k.toNat ≠ 0) (take put : Int) (hnle : n.toNat ≤ stack.count.toNat) :
    ∃ j : UInt16,
      (j.toNat = if take < 0 ∨ put < 0 then
        min stack.count.toNat (ItemStack.room defs dstItem stack)
      else min put.toNat (min take.toNat k.toNat)) ∧ j.toNat ≤ stack.count.toNat := by
  have hbound := stack.count.toNat_lt
  refine ⟨UInt16.ofNat (if take < 0 ∨ put < 0 then
    min stack.count.toNat (ItemStack.room defs dstItem stack)
      else min put.toNat (min take.toNat k.toNat)), ?_, ?_⟩
  · rw [UInt16.toNat_ofNat']
    split <;> omega
  · rw [UInt16.toNat_ofNat']
    split <;> omega

/-- A move of the server keeps the number of items of each kind.  It moves no more than what was
asked for and what the callbacks allow, exactly when no callback answers with a negative number
for items that fit. -/
theorem move_bounded_iff (defs : ItemDefManager) (cb : Callbacks) (act : IMoveAction)
    (mgr : InventoryManager ν ι) (src dst : ι) (hcb : cb.Finite)
    (hsrc : mgr.findList act.fromInv act.fromList = some src)
    (hdst : mgr.findList act.toInv act.toList = some dst)
    (hsomewhere : act.moveSomewhere = false) (hcaused : act.causedByMoveSomewhere = false) :
    ∃ r, applyMove defs cb act mgr = some r ∧ apply defs cb act mgr = some r.heap ∧
      (∀ kind, tally (ItemStack.amount kind) (bothLists src dst) r.heap.slots =
        tally (ItemStack.amount kind) (bothLists src dst) mgr.heap.slots) ∧
      ((r.didSwap = false → MovedWithin defs cb act mgr.heap.slots r.heap.slots src dst) ↔
        ¬ Overruns defs cb act mgr src dst) := by
  have happly : ∀ r, applyMove defs cb act mgr = some r → apply defs cb act mgr = some r.heap := by
    intro r hr
    rw [apply, hsomewhere, hr]
    rfl
  by_cases htwo : ∃ src dst stack dstItem,
      TwoSlots act mgr src dst stack dstItem ∧ stack.count.toNat ≠ 0
  · rcases htwo with ⟨src', dst', stack, dstItem, htwo, hstack⟩
    cases hsrc.symm.trans htwo.src_eq
    cases hdst.symm.trans htwo.dst_eq
    rcases exists_counts defs act dstItem hstack with ⟨n, k, hn, hnpos, hnle, hk, hfit⟩
    by_cases hk0 : k.toNat = 0
    · -- nothing fits
      have hfull : fitCount defs stack dstItem act.count = 0 := by
        rw [hfit]
        exact UInt16.toNat_inj.1 hk0
      rcases applyMove_full htwo hcb hcaused hstack hfull with ⟨r, hr, htally, hswap⟩
      refine ⟨r, hr, happly r hr, htally, iff_of_true ?_ ?_⟩
      · intro hdid
        split at hswap
        · cases hdid.symm.trans hswap.1
        · exact .inl hswap
      · rintro ⟨stack', dstItem', htwo', hfit', -⟩
        rcases htwo.unique htwo' with ⟨-, -, rfl, rfl⟩
        exact hfit' hfull
    · rcases movedCount_exists hk hk0 (answers cb act.toMoveAction (stack.withCount k)).1.toInt
        (answers cb act.toMoveAction (stack.withCount k)).2.toInt hnle with ⟨j, hj, hjle⟩
      rcases applyMove_fits htwo hcb hstack hn hnle hk hk0 hj with
        ⟨r, hr, htally, hdid, -, hslots⟩
      have hleft : itemsLeft mgr.heap.slots r.heap.slots src (slotIndex act.fromI) = j.toNat := by
        rw [hslots]
        split
        · rename_i hj0
          rw [itemsLeft_self, hj0]
        · exact itemsLeft_moved htwo.slot_ne htwo.stack_eq hjle
      refine ⟨r, hr, happly r hr, htally, ?_⟩
      rw [overruns_iff htwo hfit hk0]
      have hbound := moveBound_eq cb hstack hn hfit hk0
      by_cases hneg : (answers cb act.toMoveAction (stack.withCount k)).1.toInt < 0 ∨
          (answers cb act.toMoveAction (stack.withCount k)).2.toInt < 0
      · -- the bound is zero, and all that fits is moved
        rw [if_pos hneg] at hj
        refine iff_of_false ?_ (fun hnot => hnot hneg)
        intro hwithin
        rcases hwithin hdid with hsame | ⟨stack', dstItem', hstack', hdstItem', hle⟩
        · rw [hsame, itemsLeft_self] at hleft
          omega
        · cases htwo.stack_eq.symm.trans hstack'
          cases htwo.dstItem_eq.symm.trans hdstItem'
          rw [hleft, hbound] at hle
          omega
      · rw [if_neg hneg] at hj
        refine iff_of_true ?_ hneg
        intro _
        refine .inr ⟨stack, dstItem, htwo.stack_eq, htwo.dstItem_eq, ?_⟩
        rw [hleft, hbound]
        omega
  · have hsame := (applyMove_cases defs cb act mgr).resolve_right htwo
    refine ⟨_, hsame, happly _ hsame, fun _ => rfl, iff_of_true (fun _ => .inl rfl) ?_⟩
    rintro ⟨stack, dstItem, htwo', hfit, -⟩
    exact htwo ⟨src, dst, stack, dstItem, htwo', fun hempty =>
      hfit (fitCount_of_empty hempty act.count)⟩

/-- Callbacks that always answer the same. -/
def constantly (answer : Int32) : Callbacks :=
  { allowPut := fun _ _ => answer, allowTake := fun _ _ => answer, allowMove := fun _ _ => answer }

/-- One player list: ten apples and an empty slot. -/
def tenApples : InventoryManager Unit Unit :=
  { getInventory := fun _ => some ()
    getList := fun _ _ => some ()
    heap := fun _ =>
      { name := ascii "main", items := [apples 10, .cleared], length_lt := by decide } }

/-- One apple is to go to the other slot. -/
def oneApple : IMoveAction :=
  { fromInv := .player (ascii "sam"), fromList := ascii "main", fromI := 0
    toInv := .player (ascii "sam"), toList := ascii "main", toI := 1
    count := 1 }

theorem constantly_finite {answer : Int32} (h : answer ≠ -1) : (constantly answer).Finite :=
  ⟨fun _ _ => h, fun _ _ => h, fun _ _ => h⟩

theorem move_bounded_iff_three :
    ∃ r, applyMove .builtin (constantly 3) oneApple tenApples = some r ∧
      apply .builtin (constantly 3) oneApple tenApples = some r.heap ∧
      (∀ kind, tally (ItemStack.amount kind) (bothLists () ()) r.heap.slots =
        tally (ItemStack.amount kind) (bothLists () ()) tenApples.heap.slots) ∧
      ((r.didSwap = false → MovedWithin .builtin (constantly 3) oneApple tenApples.heap.slots
          r.heap.slots () ()) ↔
        ¬ Overruns .builtin (constantly 3) oneApple tenApples () ()) :=
  move_bounded_iff .builtin (constantly 3) oneApple tenApples () ()
    (constantly_finite (by decide)) rfl rfl rfl rfl

/-- One apple is asked for, the answer is -2, and ten apples are moved. -/
theorem refused_move_moves_the_stack :
    ∃ r, applyMove .builtin (constantly (-2)) oneApple tenApples = some r ∧ r.didSwap = false ∧
      cell r.heap.slots () 1 = some (apples 10) ∧
      ¬ MovedWithin .builtin (constantly (-2)) oneApple tenApples.heap.slots r.heap.slots () () := by
  refine ⟨_, rfl, by decide, by decide, ?_⟩
  rintro (hsame | ⟨stack, dstItem, hstack, hdstItem, hle⟩)
  · exact absurd (congrFun hsame ()) (by decide)
  · cases hstack
    cases hdstItem
    exact absurd hle (by decide)

end Inventory
end AxisEngine
