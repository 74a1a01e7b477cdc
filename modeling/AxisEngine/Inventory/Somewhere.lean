import AxisEngine.Inventory.Prediction

/-!
# Somewhere — the bookkeeping of `move_somewhere`

`apply` returns early when there is nothing to do for a slot, and `move_count` is then still the
number of the slot before.  The loops take that number off `count` a second time.

* `Calls` — the calls of `add_to` in a run of the loops;
* `applyMove_call` — what one of these calls moves and leaves in `move_count`;
* `somewhere_accounts_iff` — the books are right exactly when no early return comes behind a move.
-/

namespace AxisEngine
namespace Inventory

open Lib

variable {ν ι : Type}

/-- No callback refuses with a negative number. -/
structure Callbacks.Nonneg (cb : Callbacks) : Prop where
  allowPut_nonneg : ∀ ma s, 0 ≤ (cb.allowPut ma s).toInt
  allowTake_nonneg : ∀ ma s, 0 ≤ (cb.allowTake ma s).toInt
  allowMove_nonneg : ∀ ma n, 0 ≤ (cb.allowMove ma n).toInt

theorem ne_of_nonneg {answer : Int32} (h : 0 ≤ answer.toInt) : answer ≠ -1 := by
  rintro rfl
  exact absurd h (by decide)

theorem Callbacks.Nonneg.finite {cb : Callbacks} (h : cb.Nonneg) : cb.Finite where
  allowPut_ne ma s := ne_of_nonneg (h.allowPut_nonneg ma s)
  allowTake_ne ma s := ne_of_nonneg (h.allowTake_nonneg ma s)
  allowMove_ne ma n := ne_of_nonneg (h.allowMove_nonneg ma n)

theorem Callbacks.Nonneg.answers {cb : Callbacks} (h : cb.Nonneg) (ma : MoveAction)
    (srcItem : ItemStack) :
    0 ≤ (answers cb ma srcItem).1.toInt ∧ 0 ≤ (answers cb ma srcItem).2.toInt := by
  rw [Inventory.answers]
  split
  · exact ⟨h.allowMove_nonneg _ _, h.allowMove_nonneg _ _⟩
  · exact ⟨h.allowTake_nonneg _ _, h.allowPut_nonneg _ _⟩

/-! ## The calls of a run -/

/-- A call of `add_to`: the action and the lists before it, and the slot it is for. -/
structure Call (ν ι : Type) where
  act : IMoveAction
  mgr : InventoryManager ν ι
  slot : Nat

/-- The action that the inner `apply` goes by. -/
def Call.inner (c : Call ν ι) : IMoveAction := { c.act with toI := Int16.ofNat c.slot }

/-- The stack that is moved away. -/
def Call.source (c : Call ν ι) (src : ι) : Option ItemStack :=
  cell c.mgr.heap.slots src (slotIndex c.act.fromI)

/-- There is nothing to do: the source slot is missing, empty, or the slot of the call itself. -/
def Call.Idle (c : Call ν ι) (src dst : ι) : Prop :=
  c.act.fromI.toInt < 0 ∨ (∀ stack, c.source src = some stack → stack.isEmpty) ∨
    (src = dst ∧ c.act.fromI = Int16.ofNat c.slot)

variable [DecidableEq ι]

/-- What the call takes off `count` is the number of items that leave the source slot. -/
def Call.Right (defs : ItemDefManager) (cb : Callbacks) (src : ι) (c : Call ν ι) : Prop :=
  ∃ r, applyMove defs cb c.inner c.mgr = some r ∧
    r.moveCount.toNat = itemsLeft c.mgr.heap.slots r.heap.slots src (slotIndex c.act.fromI)

/-- The calls of `add_to` that one of the loops makes. -/
inductive LoopCalls (defs : ItemDefManager) (cb : Callbacks) (dst : ι) (empty : Bool) :
    List Nat → IMoveAction → InventoryManager ν ι → Call ν ι → Prop
  | now {i is act mgr s} (hcount : act.count ≠ 0) (hs : (mgr.heap dst).getItem i = some s)
      (hempty : s.isEmpty = empty) : LoopCalls defs cb dst empty (i :: is) act mgr ⟨act, mgr, i⟩
  | later {i is act mgr s act' mgr' c} (hcount : act.count ≠ 0)
      (hs : (mgr.heap dst).getItem i = some s) (hempty : s.isEmpty = empty)
      (hadd : addTo defs cb mgr act i = some (act', mgr'))
      (hc : LoopCalls defs cb dst empty is act' mgr' c) :
      LoopCalls defs cb dst empty (i :: is) act mgr c
  | passed {i is act mgr s c} (hcount : act.count ≠ 0)
      (hs : (mgr.heap dst).getItem i = some s) (hempty : s.isEmpty ≠ empty)
      (hc : LoopCalls defs cb dst empty is act mgr c) :
      LoopCalls defs cb dst empty (i :: is) act mgr c

/-- The action as the loops see it. -/
def IMoveAction.causing (act : IMoveAction) : IMoveAction :=
  { act with causedByMoveSomewhere := true, moveSomewhere := false }

/-- The calls of `add_to` in both loops of `applySomewhere`. -/
def Calls (defs : ItemDefManager) (cb : Callbacks) (act : IMoveAction)
    (mgr : InventoryManager ν ι) (dst : ι) (c : Call ν ι) : Prop :=
  LoopCalls defs cb dst false (somewhereSlots (mgr.heap dst)) act.causing mgr c ∨
    ∃ act' mgr', somewhereLoop defs cb dst false (somewhereSlots (mgr.heap dst)) act.causing mgr =
        some (act', mgr') ∧
      LoopCalls defs cb dst true (somewhereSlots (mgr.heap dst)) act' mgr' c

/-- The number of items in the source slot. -/
def held (h : Heap ι) (src : ι) (fromI : Int16) : Nat :=
  (cell h.slots src (slotIndex fromI)).elim 0 (fun s => s.count.toNat)

/-- Every call takes off `count` what it moves, no assertion fails, and no more is moved than is
asked for and there. -/
structure Accounts (defs : ItemDefManager) (cb : Callbacks) (act : IMoveAction)
    (mgr : InventoryManager ν ι) (src dst : ι) : Prop where
  right : ∀ c, Calls defs cb act mgr dst c → c.Right defs cb src
  bounded : ∃ h, applySomewhere defs cb act mgr = some h ∧
    itemsLeft mgr.heap.slots h.slots src (slotIndex act.fromI) ≤
      min act.count.toNat (held mgr.heap src act.fromI)

/-! ## One call -/

section

variable {defs : ItemDefManager} {cb : Callbacks} {src dst : ι} {c : Call ν ι} {s : ItemStack}

/-- The call is one of a loop: the lists exist, and so does the slot. -/
structure Call.Ready (c : Call ν ι) (src dst : ι) : Prop where
  src_eq : c.mgr.findList c.act.fromInv c.act.fromList = some src
  dst_eq : c.mgr.findList c.act.toInv c.act.toList = some dst
  caused : c.act.causedByMoveSomewhere = true
  count_ne : c.act.count ≠ 0
  slot_lt : c.slot < 2 ^ 15
  slot_exists : ∃ s, (c.mgr.heap dst).getItem c.slot = some s

omit [DecidableEq ι] in
/-- A call that is not idle leads from a slot with items to another one. -/
theorem Call.Ready.twoSlots (h : c.Ready src dst) (hidle : ¬ c.Idle src dst) :
    ∃ stack dstItem, TwoSlots c.inner c.mgr src dst stack dstItem ∧ stack.count.toNat ≠ 0 := by
  rcases h.slot_exists with ⟨dstItem, hdstItem⟩
  simp only [Call.Idle, not_or, not_lt, not_forall] at hidle
  rcases hidle with ⟨hfrom, ⟨stack, hstack, hitems⟩, hother⟩
  refine ⟨stack, dstItem, ?_, fun hempty => hitems (ItemStack.isEmpty_iff.2 hempty)⟩
  exact
    { src_eq := h.src_eq
      dst_eq := h.dst_eq
      fromI_nonneg := hfrom
      toI_nonneg := by
        have hslot := toInt_ofNat_slot h.slot_lt
        simp only [Call.inner]
        omega
      ne := hother
      stack_eq := hstack
      dstItem_eq := by
        simp only [Call.inner, slotIndex_ofNat h.slot_lt]
        exact hdstItem }

/-- An idle call returns early. -/
theorem Call.Idle.applyMove_eq (hidle : c.Idle src dst) (h : c.Ready src dst) :
    applyMove defs cb c.inner c.mgr =
      some { heap := c.mgr.heap, moveCount := c.act.moveCount } := by
  refine (applyMove_cases defs cb c.inner c.mgr).resolve_right ?_
  rintro ⟨src', dst', stack, dstItem, htwo, hitems⟩
  cases h.src_eq.symm.trans htwo.src_eq
  cases h.dst_eq.symm.trans htwo.dst_eq
  rcases hidle with hfrom | hempty | hsame
  · exact absurd htwo.fromI_nonneg (not_le.2 hfrom)
  · exact hitems (ItemStack.isEmpty_iff.1 (hempty stack htwo.stack_eq))
  · exact htwo.ne hsame

/-- Any other call leaves in `move_count` how many items it took from the source slot: no more
than are there and asked for. -/
theorem applyMove_call (defs : ItemDefManager) (hcb : cb.Nonneg) (h : c.Ready src dst)
    (hidle : ¬ c.Idle src dst) :
    ∃ r, applyMove defs cb c.inner c.mgr = some r ∧ r.moveCount.toNat ≤ c.act.count.toNat ∧
      held r.heap src c.act.fromI + r.moveCount.toNat = held c.mgr.heap src c.act.fromI := by
  rcases h.twoSlots hidle with ⟨stack, dstItem, htwo, hitems⟩
  rcases exists_counts defs c.inner dstItem hitems with ⟨n, k, hn, -, hnle, hk, -⟩
  have hheld : held c.mgr.heap src c.act.fromI = stack.count.toNat := by
    have hcell : cell c.mgr.heap.slots src (slotIndex c.act.fromI) = some stack := htwo.stack_eq
    rw [held, hcell]
    rfl
  -- no more than `count` is asked for
  have hasked : n.toNat ≤ c.act.count.toNat := by
    have hcount : UInt32.ofNat c.inner.count.toNat ≠ 0 := by
      intro hzero
      have hnat := congrArg UInt32.toNat hzero
      rw [toNat_ofNat_count] at hnat
      exact h.count_ne (UInt16.toNat_inj.1 hnat)
    rw [hn, takeCount, if_neg hcount, toNat_ofNat_count]
    exact Nat.min_le_left _ _
  by_cases hk0 : k.toNat = 0
  · have hzero : k = 0 := UInt16.toNat_inj.1 hk0
    have hmove := applyMove_of_twoSlots cb htwo hitems hn hk
    have hcaused : c.inner.causedByMoveSomewhere = true := h.caused
    rw [hcaused, hzero, decide_eq_true rfl, Bool.and_self, if_pos rfl] at hmove
    exact ⟨_, hmove, Nat.zero_le _, Nat.add_zero _⟩
  · rcases movedCount_exists hk hk0
      (answers cb c.inner.toMoveAction (stack.withCount k)).1.toInt
      (answers cb c.inner.toMoveAction (stack.withCount k)).2.toInt hnle with ⟨j, hj, hjle⟩
    rcases applyMove_fits htwo hcb.finite hitems hn hnle hk hk0 hj with
      ⟨r, hr, -, -, hmoved, hslots⟩
    rcases hcb.answers c.inner.toMoveAction (stack.withCount k) with ⟨htake, hput⟩
    rw [if_neg (not_or.2 ⟨not_lt.2 htake, not_lt.2 hput⟩)] at hj
    refine ⟨r, hr, by omega, ?_⟩
    by_cases hj0 : j.toNat = 0
    · rw [if_pos hj0] at hslots
      rw [held, held, hslots, hmoved, hj0]
      exact Nat.add_zero _
    · have hleft : held r.heap src c.act.fromI = stack.count.toNat - j.toNat := by
        have hcell : cell c.mgr.heap.slots src (slotIndex c.act.fromI) = some stack :=
          htwo.stack_eq
        rw [if_neg hj0] at hslots
        have hother : cell r.heap.slots src (slotIndex c.inner.fromI) =
            some (stack.withCount (stack.count - j)) := by
          rw [hslots, cell_setCell_of_ne htwo.slot_ne]
          exact cell_setCell_self hcell
        have hsame : c.inner.fromI = c.act.fromI := rfl
        rw [held, ← hsame, hother, Option.elim_some, ItemStack.count_withCount,
          ItemStack.toNat_sub_of_le' hjle]
      rw [hleft, hheld, hmoved]
      omega

/-- A call takes the right number off, unless it returns early and `move_count` is left over. -/
theorem Call.Ready.right_iff (hcb : cb.Nonneg) (h : c.Ready src dst) :
    c.Right defs cb src ↔ (c.Idle src dst → c.act.moveCount = 0) := by
  have hzero : c.act.moveCount = 0 ↔ c.act.moveCount.toNat = 0 := UInt32.toNat_inj.symm
  by_cases hidle : c.Idle src dst
  · have hmove : applyMove defs cb c.inner c.mgr =
        some { heap := c.mgr.heap, moveCount := c.act.moveCount } := hidle.applyMove_eq h
    rw [hzero]
    constructor
    · rintro ⟨r, hr, hright⟩ -
      cases hmove.symm.trans hr
      exact hright.trans (itemsLeft_self ..)
    · intro hright
      exact ⟨_, hmove, (hright hidle).trans (itemsLeft_self ..).symm⟩
  · refine iff_of_true ?_ fun h => absurd h hidle
    rcases applyMove_call defs hcb h hidle with ⟨r, hr, -, hheld⟩
    refine ⟨r, hr, ?_⟩
    show _ = held c.mgr.heap src c.act.fromI - held r.heap src c.act.fromI
    omega

end

/-! ## The loops -/

/-- What no call changes: the lists that the action leads to, and who asked for it. -/
structure Looping (start act : IMoveAction) (mgr : InventoryManager ν ι) (src dst : ι) :
    Prop where
  src_eq : mgr.findList act.fromInv act.fromList = some src
  dst_eq : mgr.findList act.toInv act.toList = some dst
  caused : act.causedByMoveSomewhere = true
  fromI_eq : act.fromI = start.fromI

/-- The books of a run: what has left the source slot is what is gone from `count`. -/
def Balanced (start act : IMoveAction) (mgr₀ mgr : InventoryManager ν ι) (src : ι) : Prop :=
  ∃ moved, held mgr.heap src start.fromI + moved = held mgr₀.heap src start.fromI ∧
    act.count.toNat + moved = start.count.toNat

section

variable {defs : ItemDefManager} {cb : Callbacks} {src dst : ι} {start act act' : IMoveAction}
variable {mgr₀ mgr mgr' : InventoryManager ν ι} {empty : Bool} {is : List Nat} {i : Nat}

omit [DecidableEq ι] in
theorem Looping.ready (h : Looping start act mgr src dst) (hcount : act.count ≠ 0)
    (hi : i < 2 ^ 15) {s : ItemStack} (hs : (mgr.heap dst).getItem i = some s) :
    Call.Ready ⟨act, mgr, i⟩ src dst :=
  { src_eq := h.src_eq
    dst_eq := h.dst_eq
    caused := h.caused
    count_ne := hcount
    slot_lt := hi
    slot_exists := ⟨s, hs⟩ }

theorem Looping.addTo (h : Looping start act mgr src dst)
    (hadd : addTo defs cb mgr act i = some (act', mgr')) : Looping start act' mgr' src dst := by
  simp only [Inventory.addTo, Option.bind_eq_bind, Option.bind_eq_some_iff] at hadd
  rcases hadd with ⟨r, -, hadd⟩
  split at hadd
  · cases hadd
  · cases hadd
    exact ⟨h.src_eq, h.dst_eq, h.caused, h.fromI_eq⟩

theorem Looping.loop (h : Looping start act mgr src dst)
    (hloop : somewhereLoop defs cb dst empty is act mgr = some (act', mgr')) :
    Looping start act' mgr' src dst := by
  induction is generalizing act mgr with
  | nil =>
    cases hloop
    exact h
  | cons i is ih =>
    rw [somewhereLoop] at hloop
    split at hloop
    · cases hloop
      exact h
    · simp only [Option.bind_eq_bind, Option.bind_eq_some_iff] at hloop
      rcases hloop with ⟨s, -, hloop⟩
      split at hloop
      · rcases Option.bind_eq_some_iff.1 hloop with ⟨⟨act₁, mgr₁⟩, hadd, hrest⟩
        exact ih (h.addTo hadd) hrest
      · exact ih h hloop

theorem LoopCalls.ready {c : Call ν ι} (hc : LoopCalls defs cb dst empty is act mgr c)
    (h : Looping start act mgr src dst) (his : ∀ i ∈ is, i < 2 ^ 15) : c.Ready src dst := by
  induction hc with
  | now hcount hs => exact h.ready hcount (his _ (List.mem_cons_self ..)) hs
  | later _ _ _ hadd _ ih => exact ih (h.addTo hadd) fun j hj => his j (List.mem_cons_of_mem _ hj)
  | passed _ _ _ _ ih => exact ih h fun j hj => his j (List.mem_cons_of_mem _ hj)

section

variable (h : Looping start act mgr src dst) (hbalance : Balanced start act mgr₀ mgr src)
  (hcb : cb.Nonneg)

include h hbalance hcb

/-- A call that takes the right number off keeps the balance. -/
theorem Looping.addTo_right (hready : Call.Ready ⟨act, mgr, i⟩ src dst)
    (hright : Call.Right defs cb src ⟨act, mgr, i⟩) :
    ∃ act' mgr', Inventory.addTo defs cb mgr act i = some (act', mgr') ∧
      Balanced start act' mgr₀ mgr' src := by
  have hmove : ∃ r, applyMove defs cb (Call.inner ⟨act, mgr, i⟩) mgr = some r ∧
      r.moveCount.toNat ≤ act.count.toNat ∧
      held r.heap src act.fromI + r.moveCount.toNat = held mgr.heap src act.fromI := by
    by_cases hidle : Call.Idle ⟨act, mgr, i⟩ src dst
    · have hzero : act.moveCount = 0 := (hready.right_iff hcb).1 hright hidle
      refine ⟨_, hidle.applyMove_eq hready, ?_, ?_⟩
      · rw [hzero]
        exact Nat.zero_le _
      · rw [hzero]
        exact Nat.add_zero _
    · exact applyMove_call defs hcb hready hidle
  rcases hmove with ⟨r, hr, hle, hheld⟩
  refine ⟨_, _, addTo_eq hr hle, ?_⟩
  rcases hbalance with ⟨moved, hsource, hcount⟩
  refine ⟨moved + r.moveCount.toNat, ?_, ?_⟩
  · rw [h.fromI_eq] at hheld
    show held r.heap src start.fromI + _ = _
    omega
  · have hbound := act.count.toNat_lt
    have hsmall : (UInt16.ofNat r.moveCount.toNat).toNat = r.moveCount.toNat := by
      rw [UInt16.toNat_ofNat']
      omega
    simp only
    rw [ItemStack.toNat_sub_of_le' (by omega), hsmall]
    omega

/-- A loop whose calls all take the right number off ends, and keeps the balance. -/
theorem Looping.loop_right (his : ∀ i ∈ is, i < 2 ^ 15 ∧ i < (mgr.heap dst).items.length)
    (hright : ∀ c, LoopCalls defs cb dst empty is act mgr c → c.Right defs cb src) :
    ∃ act' mgr', somewhereLoop defs cb dst empty is act mgr = some (act', mgr') ∧
      Balanced start act' mgr₀ mgr' src := by
  induction is generalizing act mgr with
  | nil => exact ⟨act, mgr, rfl, hbalance⟩
  | cons i is ih =>
    rcases his i (List.mem_cons_self ..) with ⟨hi, hlt⟩
    rw [somewhereLoop]
    by_cases hcount : act.count = 0
    · rw [if_pos hcount]
      exact ⟨act, mgr, rfl, hbalance⟩
    · have hs : (mgr.heap dst).getItem i = some ((mgr.heap dst).items[i]) :=
        List.getElem?_eq_getElem hlt
      rw [if_neg hcount, hs]
      simp only [Option.bind_eq_bind, Option.bind_some]
      by_cases hempty : ((mgr.heap dst).items[i]).isEmpty = empty
      · rw [if_pos hempty]
        rcases h.addTo_right hbalance hcb (h.ready hcount hi hs)
          (hright _ (.now hcount hs hempty)) with ⟨act₁, mgr₁, hadd, hnext⟩
        have hlength : (mgr₁.heap dst).items.length = (mgr.heap dst).items.length :=
          (mutated_addTo hadd dst).length_eq
        rw [hadd]
        refine ih (h.addTo hadd) hnext ?_ fun c hc => hright c (.later hcount hs hempty hadd hc)
        intro j hj
        rw [hlength]
        exact his j (List.mem_cons_of_mem i hj)
      · rw [if_neg hempty]
        exact ih h hbalance (fun j hj => his j (List.mem_cons_of_mem i hj))
          fun c hc => hright c (.passed hcount hs hempty hc)

end

end

/-! ## Both loops -/

section

variable {act : IMoveAction} {mgr : InventoryManager ν ι} {src dst : ι}

theorem mem_somewhereSlots {l : InventoryList} {i : Nat} (hi : i ∈ somewhereSlots l) :
    i < 2 ^ 15 ∧ i < l.items.length := by
  have hsize := l.toNat_getSize
  have hlt := (Int16.ofNat l.getSize.toNat).toInt_lt
  have hint : (Int16.ofNat l.getSize.toNat).toInt = Int.bmod l.getSize.toNat (2 ^ 16) :=
    Int16.toInt_ofNat ..
  simp only [somewhereSlots, List.mem_range] at hi
  rw [Int.bmod_def] at hint
  split at hint <;> omega

omit [DecidableEq ι] in
theorem looping_causing (hsrc : mgr.findList act.fromInv act.fromList = some src)
    (hdst : mgr.findList act.toInv act.toList = some dst) :
    Looping act act.causing mgr src dst :=
  ⟨hsrc, hdst, rfl, rfl⟩

/-- The books of `move_somewhere` are right exactly when `apply` returns early for a slot only
while `move_count` is zero. -/
theorem somewhere_accounts_iff (defs : ItemDefManager) (cb : Callbacks) (act : IMoveAction)
    (mgr : InventoryManager ν ι) (src dst : ι) (hcb : cb.Nonneg)
    (hsrc : mgr.findList act.fromInv act.fromList = some src)
    (hdst : mgr.findList act.toInv act.toList = some dst) :
    Accounts defs cb act mgr src dst ↔
      ∀ c, Calls defs cb act mgr dst c → c.Idle src dst → c.act.moveCount = 0 := by
  have hstart := looping_causing hsrc hdst
  have hslots : ∀ i ∈ somewhereSlots (mgr.heap dst), i < 2 ^ 15 := fun i hi =>
    (mem_somewhereSlots hi).1
  have hcalls : ∀ c, Calls defs cb act mgr dst c →
      (c.Right defs cb src ↔ (c.Idle src dst → c.act.moveCount = 0)) := by
    rintro c (hc | ⟨act', mgr', hloop, hc⟩)
    · exact (hc.ready hstart hslots).right_iff hcb
    · exact (hc.ready (hstart.loop hloop) hslots).right_iff hcb
  constructor
  · intro h c hc
    exact (hcalls c hc).1 (h.right c hc)
  · intro htimely
    have hright : ∀ c, Calls defs cb act mgr dst c → c.Right defs cb src := fun c hc =>
      (hcalls c hc).2 (htimely c hc)
    refine ⟨hright, ?_⟩
    -- the loops end one after the other, and their calls keep the balance
    have hbalance : Balanced act act.causing mgr mgr src := ⟨0, rfl, rfl⟩
    rcases hstart.loop_right hbalance hcb (fun i hi => mem_somewhereSlots hi)
      (fun c hc => hright c (.inl hc)) with ⟨act₁, mgr₁, hfirst, hbalance₁⟩
    have hlength : (mgr₁.heap dst).items.length = (mgr.heap dst).items.length :=
      (mutated_somewhereLoop hfirst dst).length_eq
    rcases (hstart.loop hfirst).loop_right hbalance₁ hcb
      (fun i hi => hlength ▸ mem_somewhereSlots hi)
      (fun c hc => hright c (.inr ⟨act₁, mgr₁, hfirst, hc⟩)) with
      ⟨act₂, mgr₂, hsecond, moved, hsource, hcount⟩
    refine ⟨mgr₂.heap, ?_, ?_⟩
    · have hfirst' : somewhereLoop defs cb dst false (somewhereSlots (mgr.heap dst))
          { act with causedByMoveSomewhere := true, moveSomewhere := false } mgr =
            some (act₁, mgr₁) := hfirst
      simp only [applySomewhere, hsrc, hdst, hfirst', hsecond, Option.bind_eq_bind,
        Option.bind_some]
    · show held mgr.heap src act.fromI - held mgr₂.heap src act.fromI ≤ _
      omega

end

/-- Three apples and two empty slots. -/
def threeApples : InventoryManager Unit Unit :=
  { getInventory := fun _ => some ()
    getList := fun _ _ => some ()
    heap := fun _ =>
      { name := ascii "main", items := [apples 3, .cleared, .cleared], length_lt := by decide } }

/-- So many apples are to go anywhere. -/
def anywhere (count : UInt16) : IMoveAction :=
  { fromInv := .player (ascii "sam"), fromList := ascii "main", fromI := 0
    toInv := .player (ascii "sam"), toList := ascii "main", toI := 0
    count := count
    moveSomewhere := true }

theorem constantly_nonneg {answer : Int32} (h : 0 ≤ answer.toInt) : (constantly answer).Nonneg :=
  ⟨fun _ _ => h, fun _ _ => h, fun _ _ => h⟩

theorem somewhere_accounts_iff_threeApples :
    Accounts .builtin (constantly 99) (anywhere 3) threeApples () () ↔
      ∀ c, Calls .builtin (constantly 99) (anywhere 3) threeApples () c →
        c.Idle () () → c.act.moveCount = 0 :=
  somewhere_accounts_iff .builtin (constantly 99) (anywhere 3) threeApples () ()
    (constantly_nonneg (by decide)) rfl rfl

/-- Five apples are asked for and three are there.  When they are gone, the next empty slot takes
three off the two that are left, and the assertion fails. -/
theorem somewhere_takes_off_twice :
    applySomewhere .builtin (constantly 99) (anywhere 5) threeApples = none ∧
      ¬ Accounts .builtin (constantly 99) (anywhere 5) threeApples () () := by
  have hfails : applySomewhere .builtin (constantly 99) (anywhere 5) threeApples = none := by
    decide +kernel
  refine ⟨hfails, fun h => ?_⟩
  rcases h.bounded with ⟨heap, hruns, -⟩
  cases hfails.symm.trans hruns

end Inventory
end AxisEngine
