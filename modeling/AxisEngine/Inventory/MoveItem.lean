import AxisEngine.Inventory.InventoryList

/-!
# MoveItem — moves between two lists

`InventoryList::moveItem` and `moveItemSomewhere` (`inventory.cpp`).  Both take a pointer to the
destination list, which may be the source list, so they work on a heap of lists.

* `moveItem`, `moveItemSomewhere` — the operations of the source;
* `MoveOutcome` — all that `moveItem` can do to the slots;
* `items_conserved` — no item is lost or made, and when the returned stack is the one that left.
-/

namespace AxisEngine
namespace Inventory

open Lib

variable {ι : Type} [DecidableEq ι]

/-- The lists that pointers of type `ι` point to. -/
abbrev Heap (ι : Type) := ι → InventoryList

namespace Heap

/-- A call of an operation on the list behind a pointer. -/
def call {β : Type} (h : Heap ι) (a : ι) (f : InventoryList → β × InventoryList) : β × Heap ι :=
  ((f (h a)).1, Function.update h a (f (h a)).2)

/-- The slots of all lists. -/
def slots (h : Heap ι) : ι → List ItemStack :=
  fun a => (h a).items

end Heap

/-! ## Operations -/

/-- What `moveItem` returns, `did_swap`, and the lists after it. -/
structure Moved (ι : Type) where
  moved : ItemStack
  didSwap : Bool
  heap : Heap ι

section

variable (h : Heap ι) (this : ι) (i : Nat)

/-- "Take item from source list"; 0 takes all. -/
def takeFrom (count : UInt32) : ItemStack × Heap ι :=
  if count = 0 then h.call this fun l => l.changeItem i .cleared
  else h.call this fun l => l.takeItem i count

/-- "Adding was not possible, swap the items." -/
def swapStacks (dest : ι) (destI : Nat) : ItemStack × Heap ι :=
  let (moved, h) := h.call this fun l => l.changeItem i .cleared
  let (item2, h) := h.call dest fun l => l.changeItem destI moved
  let (_, h) := h.call this fun l => l.changeItem i item2
  (moved, h)

/-- The end of `moveItem` when something was left over: it goes back to the source, and if nothing
was moved the two stacks may be swapped.  `none` is a failed assertion of `getItem`. -/
def putBack (dest : ι) (destI : Nat)
    (moved leftover : ItemStack) (swapIfNeeded : Bool) : Option (Moved ι) := do
  let moved := moved.remove leftover.count
  let rest ← (h this).getItem i
  -- not `addItem`: the stack may be larger than its maximum
  let (_, h) := h.call this fun l => l.changeItem i (leftover.add rest.count)
  if moved.isEmpty && swapIfNeeded then
    let (moved, h) := swapStacks h this i dest destI
    some { moved := moved, didSwap := true, heap := h }
  else some { moved := moved, didSwap := false, heap := h }

end

def moveItem (defs : ItemDefManager) (h : Heap ι) (this : ι) (i : Nat) (dest : ι) (destI : Nat)
    (count : UInt32) (swapIfNeeded : Bool) : Option (Moved ι) :=
  if this = dest ∧ i = destI then some { moved := .cleared, didSwap := false, heap := h }
  else
    let (moved, h) := takeFrom h this i count
    let (leftover, h) := h.call dest fun l => l.addItemAt defs destI moved
    if leftover.isEmpty then some { moved := moved, didSwap := false, heap := h }
    else putBack h this i dest destI moved leftover swapIfNeeded

/-- `none` is a failed assertion of `getItem`. -/
def moveItemSomewhere (defs : ItemDefManager) (h : Heap ι) (this : ι) (i : Nat) (dest : ι)
    (count : UInt32) : Option (Heap ι) :=
  let (item1, h) := takeFrom h this i count
  if item1.isEmpty then some h
  else
    let (leftover, h) := h.call dest fun l => l.addItem defs item1
    if leftover.isEmpty then some h
    else do
      let rest ← (h this).getItem i
      let (_, h) := h.call this fun l => l.changeItem i (leftover.add rest.count)
      some h

/-! ## Calls, slot by slot -/

section

variable {defs : ItemDefManager} {h : Heap ι} {a : ι} {i : Nat} {s newitem : ItemStack}
variable {count : UInt32}

theorem slots_update (h : Heap ι) (a : ι) (l : InventoryList) :
    Heap.slots (Function.update h a l) = Function.update h.slots a l.items := by
  funext b
  by_cases hb : b = a
  · subst hb
    simp [Heap.slots]
  · simp [Heap.slots, hb]

theorem call_changeItem_of_none (hs : cell h.slots a i = none) :
    h.call a (fun l => l.changeItem i newitem) = (newitem, h) := by
  rw [Heap.call, InventoryList.changeItem_of_none hs, Function.update_eq_self]

theorem call_changeItem_of_some (hs : cell h.slots a i = some s) (newitem : ItemStack) :
    (h.call a fun l => l.changeItem i newitem).1 = s ∧
      (h.call a fun l => l.changeItem i newitem).2.slots = setCell h.slots a i newitem := by
  rcases InventoryList.changeItem_of_some hs newitem with ⟨hold, hitems⟩
  refine ⟨hold, ?_⟩
  rw [Heap.call, slots_update, hitems]
  rfl

theorem call_addItemAt_of_none (hs : cell h.slots a i = none) :
    h.call a (fun l => l.addItemAt defs i newitem) = (newitem, h) := by
  rw [Heap.call, InventoryList.addItemAt_of_none hs, Function.update_eq_self]

theorem call_addItemAt_of_some (defs : ItemDefManager) (hs : cell h.slots a i = some s)
    (newitem : ItemStack) :
    (h.call a fun l => l.addItemAt defs i newitem).1 = (s.addItem defs newitem).2 ∧
      (h.call a fun l => l.addItemAt defs i newitem).2.slots =
        setCell h.slots a i (s.addItem defs newitem).1 := by
  rcases InventoryList.addItemAt_of_some defs hs newitem with ⟨hleft, hitems⟩
  refine ⟨hleft, ?_⟩
  rw [Heap.call, slots_update, hitems]
  rfl

theorem call_addItemAt_of_isEmpty (hnew : newitem.isEmpty = true) :
    h.call a (fun l => l.addItemAt defs i newitem) = (newitem, h) := by
  rw [Heap.call, InventoryList.addItemAt_of_isEmpty hnew, Function.update_eq_self]

/-- The stack that `takeFrom` takes out of a slot, and what it leaves there. -/
def taken (s : ItemStack) (count : UInt32) : ItemStack × ItemStack :=
  if count = 0 then (s, .cleared) else s.takeItem count

theorem takeFrom_of_none (hs : cell h.slots a i = none) :
    takeFrom h a i count = (.cleared, h) := by
  rw [takeFrom]
  split
  · exact call_changeItem_of_none hs
  · rw [Heap.call, InventoryList.takeItem_of_none hs, Function.update_eq_self]

theorem takeFrom_of_some (hs : cell h.slots a i = some s) (count : UInt32) :
    (takeFrom h a i count).1 = (taken s count).1 ∧
      (takeFrom h a i count).2.slots = setCell h.slots a i (taken s count).2 := by
  rw [takeFrom, taken]
  split
  · exact call_changeItem_of_some hs .cleared
  · rcases InventoryList.takeItem_of_some hs count with ⟨htaken, hitems⟩
    refine ⟨htaken, ?_⟩
    rw [Heap.call, slots_update, hitems]
    rfl

/-- How many items a request takes out of a stack. -/
def takeCount (s : ItemStack) (count : UInt32) : Nat :=
  if count = 0 then s.count.toNat else min count.toNat s.count.toNat

theorem taken_of_empty (hs : s.count.toNat = 0) :
    (taken s count).1.count.toNat = 0 ∧ (taken s count).2.count.toNat = 0 := by
  rw [taken]
  split
  · exact ⟨hs, rfl⟩
  · have hcases := s.takeItem_cases count
    generalize s.takeItem count = r at hcases
    cases hcases with
    | nothing _ => exact ⟨rfl, hs⟩
    | some _ hne _ => exact absurd hs hne

theorem taken_of_pos (hs : s.count.toNat ≠ 0) (count : UInt32) :
    ∃ n : UInt16, n.toNat = takeCount s count ∧ n.toNat ≠ 0 ∧ n.toNat ≤ s.count.toNat ∧
      taken s count = (s.withCount n, s.withCount (s.count - n)) := by
  rw [taken, takeCount]
  split
  · refine ⟨s.count, rfl, hs, le_rfl, ?_⟩
    rw [ItemStack.withCount_self hs, UInt16.sub_self]
    rfl
  · rename_i hcount
    have hpos : count.toNat ≠ 0 := fun h0 => hcount (UInt32.toNat_inj.1 h0)
    have hcases := s.takeItem_cases count
    generalize s.takeItem count = r at hcases
    cases hcases with
    | nothing hnothing => exact absurd hnothing (not_or.2 ⟨hpos, hs⟩)
    | @some n _ _ hn =>
      have hne : n.toNat ≠ 0 := by omega
      refine ⟨n, hn, hne, by omega, ?_⟩
      rw [ItemStack.withCount_of_ne hne]

end

/-! ## Flags -/

namespace Heap

/-- Every list is as it was, or flagged; none changes its name, its size or its width. -/
def Mutated (h h' : Heap ι) : Prop :=
  ∀ a, InventoryList.Mutated (h a) (h' a)

omit [DecidableEq ι] in
theorem Mutated.refl (h : Heap ι) : Mutated h h := fun a => .refl (h a)

omit [DecidableEq ι] in
theorem Mutated.trans {h h' h'' : Heap ι} (hfirst : Mutated h h') (hsecond : Mutated h' h'') :
    Mutated h h'' :=
  fun a => (hfirst a).trans (hsecond a)

theorem mutated_call {β : Type} {f : InventoryList → β × InventoryList}
    (hf : ∀ l, InventoryList.Mutated l (f l).2) (h : Heap ι) (a : ι) :
    Mutated h (h.call a f).2 := by
  intro b
  by_cases hb : b = a
  · subst hb
    simp only [call, Function.update_self]
    exact hf (h b)
  · simp only [call, Function.update_of_ne hb]
    exact .refl (h b)

end Heap

section

variable {defs : ItemDefManager} {h h' : Heap ι} {this dest : ι} {i destI : Nat} {count : UInt32}
variable {moved leftover : ItemStack} {swapIfNeeded : Bool} {r : Moved ι}

theorem mutated_takeFrom : h.Mutated (takeFrom h this i count).2 := by
  rw [takeFrom]
  split
  · exact Heap.mutated_call (fun _ => InventoryList.mutated_changeItem) h this
  · exact Heap.mutated_call (fun _ => InventoryList.mutated_takeItem) h this

theorem mutated_swapStacks : h.Mutated (swapStacks h this i dest destI).2 := by
  -- three calls of `changeItem`
  have hchange : ∀ (h : Heap ι) (a : ι) (j : Nat) (newitem : ItemStack),
      h.Mutated (h.call a fun l => l.changeItem j newitem).2 := fun h a _ _ =>
    Heap.mutated_call (fun _ => InventoryList.mutated_changeItem) h a
  exact ((hchange h this i _).trans (hchange _ dest destI _)).trans (hchange _ this i _)

theorem mutated_putBack (hr : putBack h this i dest destI moved leftover swapIfNeeded = some r) :
    h.Mutated r.heap := by
  simp only [putBack, Option.bind_eq_bind, Option.bind_eq_some_iff] at hr
  rcases hr with ⟨rest, -, hr⟩
  have hback : h.Mutated (h.call this fun l => l.changeItem i (leftover.add rest.count)).2 :=
    Heap.mutated_call (fun _ => InventoryList.mutated_changeItem) h this
  split at hr
  · cases hr
    exact hback.trans mutated_swapStacks
  · cases hr
    exact hback

/-- Every list that `moveItem` changes is flagged. -/
theorem mutated_moveItem (hr : moveItem defs h this i dest destI count swapIfNeeded = some r) :
    h.Mutated r.heap := by
  rw [moveItem] at hr
  split at hr
  · cases hr
    exact .refl h
  · have htake : h.Mutated (takeFrom h this i count).2 := mutated_takeFrom
    have hadd := htake.trans (Heap.mutated_call
      (f := fun l => l.addItemAt defs destI (takeFrom h this i count).1)
      (fun _ => InventoryList.mutated_addItemAt) _ dest)
    simp only at hr
    split at hr
    · cases hr
      exact hadd
    · exact hadd.trans (mutated_putBack hr)

/-- Every list that `moveItemSomewhere` changes is flagged. -/
theorem mutated_moveItemSomewhere (hr : moveItemSomewhere defs h this i dest count = some h') :
    h.Mutated h' := by
  rw [moveItemSomewhere] at hr
  have htake : h.Mutated (takeFrom h this i count).2 := mutated_takeFrom
  have hadd := htake.trans (Heap.mutated_call
    (f := fun l => l.addItem defs (takeFrom h this i count).1)
    (fun _ => InventoryList.mutated_addItem) _ dest)
  simp only at hr
  split at hr
  · cases hr
    exact htake
  · split at hr
    · cases hr
      exact hadd
    · simp only [Option.bind_eq_bind, Option.bind_eq_some_iff] at hr
      rcases hr with ⟨rest, -, hr⟩
      cases hr
      exact hadd.trans (Heap.mutated_call (fun _ => InventoryList.mutated_changeItem) _ this)

end

/-! ## What a move does -/

/-- Everything `moveItem` can do to the slots; `n` items are asked for, `m` of them do not fit. -/
inductive MoveOutcome (defs : ItemDefManager) (slots : ι → List ItemStack) (this : ι) (i : Nat)
    (dest : ι) (destI : Nat) (count : UInt32) (swapIfNeeded : Bool) :
    ItemStack → Bool → (ι → List ItemStack) → Prop
  | same :
      this = dest ∧ i = destI →
      MoveOutcome defs slots this i dest destI count swapIfNeeded .cleared false slots
  | noSource :
      ¬ (this = dest ∧ i = destI) → cell slots this i = none →
      MoveOutcome defs slots this i dest destI count swapIfNeeded .cleared false slots
  | empty {old : ItemStack} :
      ¬ (this = dest ∧ i = destI) → cell slots this i = some old → old.count.toNat = 0 →
      MoveOutcome defs slots this i dest destI count swapIfNeeded (taken old count).1 false
        (setCell slots this i (taken old count).2)
  | moved {old other : ItemStack} {n m : UInt16} :
      ¬ (this = dest ∧ i = destI) → cell slots this i = some old →
      cell slots dest destI = some other → n.toNat = takeCount old count →
      n.toNat ≤ old.count.toNat → m.toNat < n.toNat →
      (other.addItem defs (old.withCount n)).2 = old.withCount m →
      MoveOutcome defs slots this i dest destI count swapIfNeeded (old.withCount (n - m)) false
        (setCell (setCell slots this i (old.withCount (old.count - (n - m)))) dest destI
          (other.addItem defs (old.withCount n)).1)
  | stuck {old other : ItemStack} {n : UInt16} :
      ¬ (this = dest ∧ i = destI) → cell slots this i = some old → old.count.toNat ≠ 0 →
      cell slots dest destI = some other → n.toNat = takeCount old count →
      other.addItem defs (old.withCount n) = (other, old.withCount n) → swapIfNeeded = false →
      MoveOutcome defs slots this i dest destI count swapIfNeeded .cleared false slots
  | swapped {old other : ItemStack} {n : UInt16} :
      ¬ (this = dest ∧ i = destI) → cell slots this i = some old → old.count.toNat ≠ 0 →
      cell slots dest destI = some other → n.toNat = takeCount old count →
      other.addItem defs (old.withCount n) = (other, old.withCount n) → swapIfNeeded = true →
      MoveOutcome defs slots this i dest destI count swapIfNeeded old true
        (setCell (setCell slots this i other) dest destI old)
  | nowhere {old : ItemStack} :
      cell slots this i = some old → old.count.toNat ≠ 0 → cell slots dest destI = none →
      MoveOutcome defs slots this i dest destI count swapIfNeeded
        (if swapIfNeeded then old else .cleared) swapIfNeeded slots

section

variable {defs : ItemDefManager} {h : Heap ι} {slots : ι → List ItemStack} {this dest : ι}
variable {i destI : Nat} {count : UInt32} {swapIfNeeded : Bool} {old other : ItemStack}
variable {n m : UInt16}

/-- What goes back to the source is the old stack without what was moved. -/
theorem add_withCount (hm : m.toNat ≠ 0) (hmn : m.toNat ≤ n.toNat)
    (hn : n.toNat ≤ old.count.toNat) :
    (old.withCount m).add (old.withCount (old.count - n)).count =
      old.withCount (old.count - (n - m)) := by
  have hbound := old.count.toNat_lt
  have hsum : m + (old.count - n) = old.count - (n - m) := by
    apply UInt16.toNat_inj.1
    rw [UInt16.toNat_add, ItemStack.toNat_sub_of_le' hn, ItemStack.toNat_sub_of_le',
      ItemStack.toNat_sub_of_le' hmn]
    · omega
    · rw [ItemStack.toNat_sub_of_le' hmn]
      omega
  have hne : (old.count - (n - m)).toNat ≠ 0 := by
    rw [← hsum, UInt16.toNat_add, ItemStack.toNat_sub_of_le' hn]
    omega
  rw [ItemStack.count_withCount, ItemStack.withCount_of_ne hne, ← hsum,
    ItemStack.withCount_of_ne hm]
  rfl

theorem putBack_moved (hsrc : cell h.slots this i = some (old.withCount (old.count - n)))
    (hm : m.toNat ≠ 0) (hmn : m.toNat < n.toNat) (hn : n.toNat ≤ old.count.toNat) (dest : ι)
    (destI : Nat) (swapIfNeeded : Bool) :
    ∃ r, putBack h this i dest destI (old.withCount n) (old.withCount m) swapIfNeeded = some r ∧
      r.moved = old.withCount (n - m) ∧ r.didSwap = false ∧
      r.heap.slots = setCell h.slots this i (old.withCount (old.count - (n - m))) := by
  have hget : (h this).getItem i = some (old.withCount (old.count - n)) := hsrc
  have hmoved : (old.withCount n).remove (old.withCount m).count = old.withCount (n - m) := by
    rw [ItemStack.remove_eq, ItemStack.count_withCount, ItemStack.count_withCount,
      ItemStack.withCount_withCount (by omega)]
  have hnonempty : (old.withCount (n - m)).isEmpty = false := by
    rw [← Bool.not_eq_true, ItemStack.isEmpty_iff, ItemStack.count_withCount,
      ItemStack.toNat_sub_of_le' hmn.le]
    omega
  have hback := add_withCount hm hmn.le hn
  refine ⟨{ moved := old.withCount (n - m)
            didSwap := false
            heap := (h.call this fun l => l.changeItem i
              ((old.withCount m).add (old.withCount (old.count - n)).count)).2 }, ?_, rfl, rfl, ?_⟩
  · simp only [putBack, hget, hmoved, hnonempty, Bool.false_and]
    rfl
  · rw [hback]
    exact (call_changeItem_of_some hsrc _).2

section

variable (hne : ¬ (this = dest ∧ i = destI))

include hne

/-- The source slot gets all of its items back. -/
theorem restore (hsrc : cell slots this i = some old)
    (hslots : h.slots = setCell slots this i (old.withCount (old.count - n)))
    (hold : old.count.toNat ≠ 0) (hnpos : n.toNat ≠ 0) (hn : n.toNat ≤ old.count.toNat) :
    cell h.slots this i = some (old.withCount (old.count - n)) ∧
      cell h.slots dest destI = cell slots dest destI ∧
      (h.call this fun l => l.changeItem i
        ((old.withCount n).add (old.withCount (old.count - n)).count)).2.slots = slots := by
  have hne' : ¬ (dest = this ∧ destI = i) := fun heq => hne ⟨heq.1.symm, heq.2.symm⟩
  have hcell : cell h.slots this i = some (old.withCount (old.count - n)) := by
    rw [hslots]
    exact cell_setCell_self hsrc
  refine ⟨hcell, ?_, ?_⟩
  · rw [hslots]
    exact cell_setCell_of_ne hne'
  · have hback : (old.withCount n).add (old.withCount (old.count - n)).count = old := by
      rw [add_withCount hnpos le_rfl hn, UInt16.sub_self, UInt16.sub_zero,
        ItemStack.withCount_self hold]
    rw [(call_changeItem_of_some hcell _).2, hback, hslots, setCell_setCell, setCell_eq_self hsrc]

/-- Two slots exchange their stacks; a slot that does not exist takes nothing. -/
theorem swapStacks_spec (hsrc : cell h.slots this i = some old) :
    (swapStacks h this i dest destI).1 = old ∧
      ((cell h.slots dest destI = none ∧ (swapStacks h this i dest destI).2.slots = h.slots) ∨
        ∃ other, cell h.slots dest destI = some other ∧
          (swapStacks h this i dest destI).2.slots =
            setCell (setCell h.slots this i other) dest destI old) := by
  have hne' : ¬ (dest = this ∧ destI = i) := fun heq => hne ⟨heq.1.symm, heq.2.symm⟩
  rcases call_changeItem_of_some hsrc .cleared with ⟨hold, hslots⟩
  rw [swapStacks]
  generalize h.call this (fun l => l.changeItem i .cleared) = step₁ at hold hslots
  rcases step₁ with ⟨moved, h₁⟩
  simp only at hold hslots ⊢
  subst hold
  refine ⟨rfl, ?_⟩
  have hcell : cell h₁.slots this i = some .cleared := by
    rw [hslots]
    exact cell_setCell_self hsrc
  have hdest : cell h₁.slots dest destI = cell h.slots dest destI := by
    rw [hslots]
    exact cell_setCell_of_ne hne'
  cases hdst : cell h.slots dest destI with
  | none =>
    refine .inl ⟨rfl, ?_⟩
    rw [call_changeItem_of_none (hdest.trans hdst)]
    rw [(call_changeItem_of_some hcell _).2, hslots, setCell_setCell, setCell_eq_self hsrc]
  | some other =>
    refine .inr ⟨other, rfl, ?_⟩
    rcases call_changeItem_of_some (hdest.trans hdst) moved with ⟨hother, hslots₂⟩
    generalize h₁.call dest (fun l => l.changeItem destI moved) = step₂ at hother hslots₂
    rcases step₂ with ⟨item2, h₂⟩
    simp only at hother hslots₂
    subst hother
    have hcell₂ : cell h₂.slots this i = some .cleared := by
      rw [hslots₂, cell_setCell_of_ne hne]
      exact hcell
    rw [(call_changeItem_of_some hcell₂ _).2, hslots₂, hslots, setCell_comm hne', setCell_setCell]

/-- `putBack` when nothing was moved. -/
theorem putBack_stuck (hsrc : cell slots this i = some old)
    (hslots : h.slots = setCell slots this i (old.withCount (old.count - n)))
    (hold : old.count.toNat ≠ 0) (hnpos : n.toNat ≠ 0) (hn : n.toNat ≤ old.count.toNat)
    (swapIfNeeded : Bool) :
    ∃ r, putBack h this i dest destI (old.withCount n) (old.withCount n) swapIfNeeded = some r ∧
      r.moved = (if swapIfNeeded then old else .cleared) ∧ r.didSwap = swapIfNeeded ∧
      ((swapIfNeeded = false ∨ cell slots dest destI = none) ∧ r.heap.slots = slots ∨
        swapIfNeeded = true ∧ ∃ other, cell slots dest destI = some other ∧
          r.heap.slots = setCell (setCell slots this i other) dest destI old) := by
  rcases restore hne hsrc hslots hold hnpos hn with ⟨hcell, hdest, hrestored⟩
  have hget : (h this).getItem i = some (old.withCount (old.count - n)) := hcell
  have hmoved : (old.withCount n).remove (old.withCount n).count = .cleared := by
    rw [ItemStack.remove_eq, UInt16.sub_self]
    rfl
  have heq : putBack h this i dest destI (old.withCount n) (old.withCount n) swapIfNeeded =
      if swapIfNeeded then
        some
          { moved := (swapStacks (h.call this fun l => l.changeItem i
              ((old.withCount n).add (old.withCount (old.count - n)).count)).2 this i dest destI).1
            didSwap := true
            heap := (swapStacks (h.call this fun l => l.changeItem i
              ((old.withCount n).add (old.withCount (old.count - n)).count)).2
                this i dest destI).2 }
      else
        some
          { moved := .cleared
            didSwap := false
            heap := (h.call this fun l => l.changeItem i
              ((old.withCount n).add (old.withCount (old.count - n)).count)).2 } := by
    simp only [putBack, hget, hmoved, ItemStack.isEmpty_cleared, Bool.true_and]
    rfl
  rw [heq]
  generalize (h.call this fun l => l.changeItem i
    ((old.withCount n).add (old.withCount (old.count - n)).count)).2 = h₁ at hrestored
  cases swapIfNeeded with
  | false => exact ⟨_, rfl, rfl, rfl, .inl ⟨.inl rfl, hrestored⟩⟩
  | true =>
    have hsrc₁ : cell h₁.slots this i = some old := hrestored.symm ▸ hsrc
    rcases swapStacks_spec hne hsrc₁ with ⟨hfst, ⟨hnone, hsame⟩ | ⟨other, hother, hswap⟩⟩
    · refine ⟨_, rfl, hfst, rfl, .inl ⟨.inr ?_, hsame.trans hrestored⟩⟩
      rw [← hrestored]
      exact hnone
    · refine ⟨_, rfl, hfst, rfl, .inr ⟨rfl, other, ?_, ?_⟩⟩
      · rw [← hrestored]
        exact hother
      · rw [← hrestored]
        exact hswap

end

/-- `moveItem` never looks at a slot that does not exist, and does one of the things listed. -/
theorem moveItem_outcome (defs : ItemDefManager) (h : Heap ι) (this : ι) (i : Nat) (dest : ι)
    (destI : Nat) (count : UInt32) (swapIfNeeded : Bool) :
    ∃ r, moveItem defs h this i dest destI count swapIfNeeded = some r ∧
      MoveOutcome defs h.slots this i dest destI count swapIfNeeded r.moved r.didSwap
        r.heap.slots := by
  by_cases hsame : this = dest ∧ i = destI
  · exact ⟨_, if_pos hsame, .same hsame⟩
  · rw [moveItem, if_neg hsame]
    cases hsrc : cell h.slots this i with
    | none =>
      rw [takeFrom_of_none hsrc]
      simp only [call_addItemAt_of_isEmpty ItemStack.isEmpty_cleared]
      exact ⟨_, if_pos rfl, .noSource hsame hsrc⟩
    | some old =>
      rcases takeFrom_of_some hsrc count with ⟨htaken, hslots⟩
      generalize takeFrom h this i count = step₁ at htaken hslots
      rcases step₁ with ⟨moved, h₁⟩
      simp only at htaken hslots ⊢
      subst htaken
      by_cases hold : old.count.toNat = 0
      · have hempty : (taken old count).1.isEmpty = true :=
          ItemStack.isEmpty_iff.2 (taken_of_empty hold).1
        rw [call_addItemAt_of_isEmpty hempty]
        exact ⟨_, if_pos hempty, hslots ▸ .empty hsame hsrc hold⟩
      · rcases taken_of_pos hold count with ⟨n, hn, hnpos, hnle, htaken⟩
        rw [htaken] at hslots ⊢
        simp only at hslots ⊢
        have hempty : ¬ (old.withCount n).isEmpty = true := by
          rw [ItemStack.isEmpty_iff, ItemStack.count_withCount]
          exact hnpos
        have hdest : cell h₁.slots dest destI = cell h.slots dest destI := by
          rw [hslots]
          exact cell_setCell_of_ne fun heq => hsame ⟨heq.1.symm, heq.2.symm⟩
        cases hdst : cell h.slots dest destI with
        | none =>
          rw [call_addItemAt_of_none (hdest.trans hdst)]
          simp only [if_neg hempty]
          rcases putBack_stuck hsame hsrc hslots hold hnpos hnle swapIfNeeded with
            ⟨r, hr, hmoved, hswap, ⟨-, hsl⟩ | ⟨-, other, hother, -⟩⟩
          · refine ⟨r, hr, ?_⟩
            rw [hmoved, hswap, hsl]
            exact .nowhere hsrc hold hdst
          · cases hdst.symm.trans hother
        | some other =>
          rcases call_addItemAt_of_some defs (hdest.trans hdst) (old.withCount n) with
            ⟨hleft, hslots₂⟩
          generalize h₁.call dest (fun l => l.addItemAt defs destI (old.withCount n)) = step₂
            at hleft hslots₂
          rcases step₂ with ⟨leftover, h₂⟩
          simp only at hleft hslots₂ ⊢
          have hcount : (old.withCount n).count.toNat ≠ 0 := by
            rw [ItemStack.count_withCount]
            exact hnpos
          rcases ItemStack.addItem_rest defs other hcount with hall | ⟨m, hm, hrest⟩
          · -- nothing fits
            rw [hall] at hleft hslots₂
            subst hleft
            have hback : h₂.slots = setCell h.slots this i (old.withCount (old.count - n)) := by
              rw [hslots₂, setCell_eq_self (hdest.trans hdst), hslots]
            simp only [if_neg hempty]
            rcases putBack_stuck hsame hsrc hback hold hnpos hnle swapIfNeeded with
              ⟨r, hr, hmoved, hswap, ⟨hor, hsl⟩ | ⟨rfl, other', hother, hsl⟩⟩
            · rcases hor with rfl | hnone
              · refine ⟨r, hr, ?_⟩
                rw [hmoved, hswap, hsl]
                exact .stuck hsame hsrc hold hdst hn hall rfl
              · cases hdst.symm.trans hnone
            · cases hdst.symm.trans hother
              refine ⟨r, hr, ?_⟩
              rw [hmoved, hswap, hsl]
              exact .swapped hsame hsrc hold hdst hn hall rfl
          · rw [ItemStack.count_withCount] at hm
            rw [ItemStack.withCount_withCount hnpos] at hrest
            have hleft' : leftover = old.withCount m := hleft.trans hrest
            subst hleft'
            by_cases hm0 : m.toNat = 0
            · -- all of it fits
              have hall : (old.withCount m).isEmpty = true := by
                rw [ItemStack.isEmpty_iff, ItemStack.count_withCount]
                exact hm0
              have hzero : m = 0 := UInt16.toNat_inj.1 hm0
              have hnm : n - m = n := by rw [hzero, UInt16.sub_zero]
              have hmoved : MoveOutcome defs h.slots this i dest destI count swapIfNeeded
                  (old.withCount (n - m)) false
                  (setCell (setCell h.slots this i (old.withCount (old.count - (n - m))))
                    dest destI (other.addItem defs (old.withCount n)).1) :=
                .moved hsame hsrc hdst hn hnle hm hrest
              rw [hnm, ← hslots, ← hslots₂] at hmoved
              exact ⟨_, if_pos hall, hmoved⟩
            · have hne' : ¬ (dest = this ∧ destI = i) := fun heq =>
                hsame ⟨heq.1.symm, heq.2.symm⟩
              have hsrc₂ : cell h₂.slots this i = some (old.withCount (old.count - n)) := by
                rw [hslots₂, cell_setCell_of_ne hsame, hslots]
                exact cell_setCell_self hsrc
              have hrestNonempty : ¬ (old.withCount m).isEmpty = true := by
                rw [ItemStack.isEmpty_iff, ItemStack.count_withCount]
                exact hm0
              simp only [if_neg hrestNonempty]
              rcases putBack_moved hsrc₂ hm0 hm hnle dest destI swapIfNeeded with
                ⟨r, hr, hmoved, hswap, hsl⟩
              refine ⟨r, hr, ?_⟩
              rw [hmoved, hswap, hsl, hslots₂, setCell_comm hne', hslots, setCell_setCell]
              exact .moved hsame hsrc hdst hn hnle hm hrest

/-- When some items fit, not all of them are left over. -/
theorem not_all_left {k : UInt16} (hk : k.toNat = min n.toNat (ItemStack.room defs other old))
    (hpos : k.toNat ≠ 0) :
    ¬ (other.receive old k, old.withCount (n - k)) = (other, old.withCount n) := by
  intro heq
  have hcount := congrArg ItemStack.count (congrArg Prod.snd heq)
  simp only [ItemStack.count_withCount] at hcount
  have hkn : k.toNat ≤ n.toNat := hk ▸ min_le_left _ _
  have hsub := congrArg UInt16.toNat hcount
  rw [ItemStack.toNat_sub_of_le' hkn] at hsub
  omega

/-- A move between two slots that exist: `k` of the `n` items asked for fit. -/
theorem moveItem_spec (hne : ¬ (this = dest ∧ i = destI)) (hsrc : cell h.slots this i = some old)
    (hold : old.count.toNat ≠ 0) (hdst : cell h.slots dest destI = some other)
    (hn : n.toNat = takeCount old count) {k : UInt16}
    (hk : k.toNat = min n.toNat (ItemStack.room defs other old)) (swapIfNeeded : Bool) :
    ∃ r, moveItem defs h this i dest destI count swapIfNeeded = some r ∧
      (k.toNat ≠ 0 → r.moved = old.withCount k ∧ r.didSwap = false ∧
        r.heap.slots = setCell (setCell h.slots this i (old.withCount (old.count - k))) dest destI
          (other.receive old k)) ∧
      (k.toNat = 0 → r.didSwap = swapIfNeeded ∧
        r.heap.slots = if swapIfNeeded then setCell (setCell h.slots this i other) dest destI old
          else h.slots) := by
  rcases moveItem_outcome defs h this i dest destI count swapIfNeeded with ⟨r, hr, houtcome⟩
  refine ⟨r, hr, ?_⟩
  rcases taken_of_pos hold count with ⟨n', hn', hnpos, -, -⟩
  have hnn : n' = n := UInt16.toNat_inj.1 (hn'.trans hn.symm)
  subst hnn
  have hadd : other.addItem defs (old.withCount n') =
      (other.receive old k, old.withCount (n' - k)) := by
    rw [ItemStack.addItem_eq defs other (k := k), ItemStack.receive_withCount hnpos,
      ItemStack.count_withCount, ItemStack.withCount_withCount hnpos]
    · rw [ItemStack.count_withCount]
      exact hnpos
    · rw [ItemStack.room_withCount hnpos, ItemStack.count_withCount]
      exact hk
  generalize r.moved = moved at houtcome ⊢
  generalize r.didSwap = didSwap at houtcome ⊢
  generalize r.heap.slots = slots' at houtcome ⊢
  cases houtcome with
  | same heq => exact absurd heq hne
  | noSource _ hsrc' => cases hsrc.symm.trans hsrc'
  | empty _ hsrc' hempty =>
    cases hsrc.symm.trans hsrc'
    exact absurd hempty hold
  | @moved old' other' n₁ m _ hsrc' hdst' hn₁ _ hm hrest =>
    cases hsrc.symm.trans hsrc'
    cases hdst.symm.trans hdst'
    have hnn : n₁ = n' := UInt16.toNat_inj.1 (hn₁.trans hn'.symm)
    subst hnn
    -- what does not fit is what is left over
    rw [hadd] at hrest ⊢
    have hcount := congrArg ItemStack.count hrest
    simp only [ItemStack.count_withCount] at hcount
    have hk' : n₁ - m = k := by
      rw [← hcount]
      apply UInt16.toNat_inj.1
      have hkn : k.toNat ≤ n₁.toNat := hk ▸ min_le_left _ _
      have hsub := ItemStack.toNat_sub_of_le' hkn
      rw [ItemStack.toNat_sub_of_le' (by omega), hsub]
      omega
    rw [hk']
    refine ⟨fun _ => ⟨rfl, rfl, rfl⟩, ?_⟩
    intro hzero
    have hnm := congrArg UInt16.toNat hk'
    rw [ItemStack.toNat_sub_of_le' hm.le] at hnm
    omega
  | @stuck old' other' n₁ _ hsrc' _ hdst' hn₁ hnothing hswap =>
    cases hsrc.symm.trans hsrc'
    cases hdst.symm.trans hdst'
    have hnn : n₁ = n' := UInt16.toNat_inj.1 (hn₁.trans hn'.symm)
    subst hnn
    refine ⟨?_, fun _ => ⟨hswap.symm, by rw [hswap]; rfl⟩⟩
    exact fun hpos => absurd (hadd.symm.trans hnothing) (not_all_left hk hpos)
  | @swapped old' other' n₁ _ hsrc' _ hdst' hn₁ hnothing hswap =>
    cases hsrc.symm.trans hsrc'
    cases hdst.symm.trans hdst'
    have hnn : n₁ = n' := UInt16.toNat_inj.1 (hn₁.trans hn'.symm)
    subst hnn
    refine ⟨?_, fun _ => ⟨hswap.symm, by rw [hswap]; rfl⟩⟩
    exact fun hpos => absurd (hadd.symm.trans hnothing) (not_all_left hk hpos)
  | nowhere _ _ hdst' => cases hdst.symm.trans hdst'

end

/-! ## Conservation -/

/-- Both lists, or the one list. -/
def bothLists (this dest : ι) : Finset ι :=
  {this, dest}

/-- The slot of the source holds what it held, or nothing as before; or the stack `moved` went from
it to the destination; or it went there and the stack of the destination came back. -/
inductive LeftSource (slots slots' : ι → List ItemStack) (this : ι) (i : Nat) (dest : ι)
    (destI : Nat) (moved : ItemStack) : Prop
  | nothing :
      moved.count.toNat = 0 →
      (cell slots' this i = cell slots this i ∨
        ∃ old new, cell slots this i = some old ∧ old.count.toNat = 0 ∧
          cell slots' this i = some new ∧ new.count.toNat = 0) →
      LeftSource slots slots' this i dest destI moved
  | part {old other other' : ItemStack} {k : UInt16} :
      cell slots this i = some old → k.toNat ≠ 0 → k.toNat ≤ old.count.toNat →
      moved = old.withCount k → cell slots' this i = some (old.withCount (old.count - k)) →
      cell slots dest destI = some other → cell slots' dest destI = some other' →
      other'.count.toNat = other.count.toNat + k.toNat →
      LeftSource slots slots' this i dest destI moved
  | swap {other : ItemStack} :
      cell slots this i = some moved → cell slots dest destI = some other →
      cell slots' this i = some other → cell slots' dest destI = some moved →
      LeftSource slots slots' this i dest destI moved

/-- A stack is to be swapped with a slot that does not exist. -/
def SwapsWithNowhere (slots : ι → List ItemStack) (this : ι) (i : Nat) (dest : ι) (destI : Nat)
    (swapIfNeeded : Bool) : Prop :=
  swapIfNeeded = true ∧ cell slots dest destI = none ∧
    ∃ old, cell slots this i = some old ∧ old.count.toNat ≠ 0

section

variable {defs : ItemDefManager} {slots slots' : ι → List ItemStack} {this dest : ι}
variable {i destI : Nat} {count : UInt32} {swapIfNeeded didSwap : Bool} {moved : ItemStack}

theorem amount_eq_zero {s : ItemStack} (hs : s.count.toNat = 0) (kind : Bytes × Metadata) :
    ItemStack.amount kind s = 0 := by
  rw [ItemStack.amount, hs, ite_self]

section

variable (h : MoveOutcome defs slots this i dest destI count swapIfNeeded moved didSwap slots')

include h

theorem MoveOutcome.tally_eq (kind : Bytes × Metadata) :
    tally (ItemStack.amount kind) (bothLists this dest) slots' =
      tally (ItemStack.amount kind) (bothLists this dest) slots := by
  have hthis : this ∈ bothLists this dest := Finset.mem_insert_self _ _
  have hdest : dest ∈ bothLists this dest := Finset.mem_insert_of_mem (Finset.mem_singleton_self _)
  -- what two changes of cells do to the tally
  have htwo : ∀ {old other x y : ItemStack}, ¬ (this = dest ∧ i = destI) →
      cell slots this i = some old → cell slots dest destI = some other →
      ItemStack.amount kind x + ItemStack.amount kind y =
        ItemStack.amount kind old + ItemStack.amount kind other →
      tally (ItemStack.amount kind) (bothLists this dest)
        (setCell (setCell slots this i x) dest destI y) =
          tally (ItemStack.amount kind) (bothLists this dest) slots := by
    intro old other x y hne hsrc hdst hsum
    have hdst' : cell (setCell slots this i x) dest destI = some other := by
      rw [cell_setCell_of_ne fun heq => hne ⟨heq.1.symm, heq.2.symm⟩]
      exact hdst
    have hfirst := tally_setCell (w := ItemStack.amount kind) (x := x) hthis hsrc
    have hsecond := tally_setCell (w := ItemStack.amount kind) (x := y) hdest hdst'
    omega
  cases h with
  | same _ => rfl
  | noSource _ _ => rfl
  | @empty old _ hsrc hold =>
    have hset := tally_setCell (w := ItemStack.amount kind) (x := (taken old count).2) hthis hsrc
    rw [amount_eq_zero hold, amount_eq_zero (taken_of_empty hold).2] at hset
    exact hset
  | @moved old other n m hne hsrc hdst _ hnle hm hrest =>
    refine htwo hne hsrc hdst ?_
    have hadd := ItemStack.amount_addItem kind defs other (old.withCount n)
    rw [hrest, ItemStack.amount_withCount, ItemStack.amount_withCount] at hadd
    have hnm : (n - m).toNat = n.toNat - m.toNat := ItemStack.toNat_sub_of_le' hm.le
    have hrem : (old.count - (n - m)).toNat = old.count.toNat - (n.toNat - m.toNat) := by
      rw [ItemStack.toNat_sub_of_le' (by omega), hnm]
    rw [ItemStack.amount_withCount, hrem, ItemStack.amount.eq_1 kind old]
    split at hadd <;> rename_i hkind
    · rw [if_pos hkind, if_pos hkind]
      omega
    · rw [if_neg hkind, if_neg hkind]
      omega
  | stuck _ _ _ _ _ _ _ => rfl
  | swapped hne hsrc _ hdst _ _ _ => exact htwo hne hsrc hdst (Nat.add_comm _ _)
  | nowhere _ _ _ => rfl

theorem MoveOutcome.frame {a : ι} {j : Nat} (hsrc : ¬ (a = this ∧ j = i))
    (hdst : ¬ (a = dest ∧ j = destI)) : cell slots' a j = cell slots a j := by
  cases h with
  | same _ => rfl
  | noSource _ _ => rfl
  | empty _ _ _ => exact cell_setCell_of_ne hsrc
  | moved _ _ _ _ _ _ _ => rw [cell_setCell_of_ne hdst, cell_setCell_of_ne hsrc]
  | stuck _ _ _ _ _ _ _ => rfl
  | swapped _ _ _ _ _ _ _ => rw [cell_setCell_of_ne hdst, cell_setCell_of_ne hsrc]
  | nowhere _ _ _ => rfl

/-- The stack that `moveItem` returns is the one that left the source slot, unless it was to be
swapped with a slot that does not exist. -/
theorem MoveOutcome.leftSource_iff :
    LeftSource slots slots' this i dest destI moved ↔
      ¬ SwapsWithNowhere slots this i dest destI swapIfNeeded := by
  constructor
  · rintro hleft ⟨rfl, hnone, old, hsrc, hold⟩
    cases hleft with
    | nothing hmoved _ =>
      cases h with
      | same heq =>
        rw [heq.1, heq.2] at hsrc
        cases hsrc.symm.trans hnone
      | noSource _ hsrc' => cases hsrc.symm.trans hsrc'
      | empty _ hsrc' hempty =>
        cases hsrc.symm.trans hsrc'
        exact hold hempty
      | moved _ _ hdst _ _ _ _ => cases hdst.symm.trans hnone
      | stuck _ _ _ hdst _ _ _ => cases hdst.symm.trans hnone
      | swapped _ _ _ hdst _ _ _ => cases hdst.symm.trans hnone
      | nowhere hsrc' hold' _ => exact hold' hmoved
    | part _ _ _ _ _ hdst _ _ => cases hdst.symm.trans hnone
    | swap _ hdst _ _ => cases hdst.symm.trans hnone
  · intro hnot
    cases h with
    | same _ => exact .nothing rfl (.inl rfl)
    | noSource _ _ => exact .nothing rfl (.inl rfl)
    | empty _ hsrc hold =>
      have htaken : (taken _ count).1.count.toNat = 0 ∧ (taken _ count).2.count.toNat = 0 :=
        taken_of_empty hold
      exact .nothing htaken.1 (.inr ⟨_, _, hsrc, hold, cell_setCell_self hsrc, htaken.2⟩)
    | @moved old other n m hne hsrc hdst _ hnle hm hrest =>
      have hne' : ¬ (dest = this ∧ destI = i) := fun heq => hne ⟨heq.1.symm, heq.2.symm⟩
      have hnm : (n - m).toNat = n.toNat - m.toNat := ItemStack.toNat_sub_of_le' hm.le
      have hcount := ItemStack.count_addItem defs other (old.withCount n)
      rw [hrest, ItemStack.count_withCount, ItemStack.count_withCount] at hcount
      have hsrc' : cell (setCell (setCell slots this i (old.withCount (old.count - (n - m)))) dest
          destI (other.addItem defs (old.withCount n)).1) this i =
            some (old.withCount (old.count - (n - m))) := by
        rw [cell_setCell_of_ne hne]
        exact cell_setCell_self hsrc
      have hdst' : cell (setCell (setCell slots this i (old.withCount (old.count - (n - m)))) dest
          destI (other.addItem defs (old.withCount n)).1) dest destI =
            some (other.addItem defs (old.withCount n)).1 := by
        refine cell_setCell_self (y := other) ?_
        rw [cell_setCell_of_ne hne']
        exact hdst
      exact .part hsrc (by omega) (by omega) rfl hsrc' hdst hdst' (by omega)
    | stuck _ _ _ _ _ _ _ => exact .nothing rfl (.inl rfl)
    | @swapped old other n hne hsrc _ hdst _ _ _ =>
      have hne' : ¬ (dest = this ∧ destI = i) := fun heq => hne ⟨heq.1.symm, heq.2.symm⟩
      refine .swap hsrc hdst ?_ ?_
      · rw [cell_setCell_of_ne hne]
        exact cell_setCell_self hsrc
      · refine cell_setCell_self (y := other) ?_
        rw [cell_setCell_of_ne hne']
        exact hdst
    | @nowhere old hsrc hold hnone =>
      cases swapIfNeeded with
      | false => exact .nothing rfl (.inl rfl)
      | true => exact absurd ⟨rfl, hnone, old, hsrc, hold⟩ hnot

end

/-- An addition to the destination leaves in the source slot what was there, or more of the stack
that is added; with what is left over it is not more than the stack was. -/
theorem call_addItem_shares (defs : ItemDefManager) {h : Heap ι} {old : ItemStack} {n : UInt16}
    (dest : ι) (hsrc : cell h.slots this i = some (old.withCount (old.count - n))) (hnpos : n.toNat ≠ 0)
    (hn : n.toNat ≤ old.count.toNat) :
    ∃ (m : UInt16) (rest : ItemStack),
      (h.call dest fun l => l.addItem defs (old.withCount n)).1 = old.withCount m ∧
      cell (h.call dest fun l => l.addItem defs (old.withCount n)).2.slots this i = some rest ∧
      (rest.count.toNat = 0 ∨ rest.name = old.name ∧ rest.metadata = old.metadata) ∧
      m.toNat + rest.count.toNat ≤ old.count.toNat := by
  have hcount : (old.withCount n).count.toNat ≠ 0 := by
    rw [ItemStack.count_withCount]
    exact hnpos
  have hkind : (old.withCount (old.count - n)).count.toNat = 0 ∨
      (old.withCount (old.count - n)).name = old.name ∧
        (old.withCount (old.count - n)).metadata = old.metadata := by
    by_cases hzero : (old.count - n).toNat = 0
    · rw [ItemStack.count_withCount]
      exact .inl hzero
    · rw [ItemStack.withCount_of_ne hzero]
      exact .inr ⟨rfl, rfl⟩
  have hrem : (old.withCount (old.count - n)).count.toNat = old.count.toNat - n.toNat := by
    rw [ItemStack.count_withCount, ItemStack.toNat_sub_of_le' hn]
  by_cases hsame : this = dest
  · subst hsame
    -- the items may come back to the source slot
    have hshares : InventoryList.Shares (old.withCount n) i old.count.toNat (old.withCount n)
        (h this) := by
      refine ⟨⟨n, ?_, ?_⟩, _, hsrc, ?_, ?_⟩
      · rw [ItemStack.count_withCount]
      · rw [ItemStack.withCount_withCount hnpos]
      · rw [ItemStack.withCount_of_ne hnpos]
        exact hkind
      · rw [hrem, ItemStack.count_withCount]
        omega
    rcases InventoryList.shares_addItem defs hshares with
      ⟨⟨m, hm, hleft⟩, rest, hrest, hrestKind, hsum⟩
    rw [ItemStack.withCount_withCount hnpos] at hleft
    rw [hleft, ItemStack.count_withCount] at hsum
    rw [ItemStack.withCount_of_ne hnpos] at hrestKind
    refine ⟨m, rest, hleft, ?_, hrestKind, by omega⟩
    simpa [Heap.call, cell, Heap.slots] using hrest
  · rcases InventoryList.rest_addItem (l := h dest) defs hcount with ⟨m, hm, hleft⟩
    rw [ItemStack.withCount_withCount hnpos] at hleft
    rw [ItemStack.count_withCount] at hm
    refine ⟨m, _, hleft, ?_, hkind, by omega⟩
    rw [Heap.call, slots_update, cell, Function.update_of_ne hsame]
    exact hsrc

theorem moveItemSomewhere_tally (defs : ItemDefManager) (h : Heap ι) (this : ι) (i : Nat)
    (dest : ι) (count : UInt32) :
    ∃ h', moveItemSomewhere defs h this i dest count = some h' ∧ ∀ kind,
      tally (ItemStack.amount kind) (bothLists this dest) h'.slots =
        tally (ItemStack.amount kind) (bothLists this dest) h.slots := by
  have hthis : this ∈ bothLists this dest := Finset.mem_insert_self _ _
  have hdest : dest ∈ bothLists this dest := Finset.mem_insert_of_mem (Finset.mem_singleton_self _)
  rw [moveItemSomewhere]
  cases hsrc : cell h.slots this i with
  | none =>
    rw [takeFrom_of_none hsrc]
    exact ⟨h, rfl, fun _ => rfl⟩
  | some old =>
    rcases takeFrom_of_some hsrc count with ⟨htaken, hslots⟩
    generalize takeFrom h this i count = step₁ at htaken hslots
    rcases step₁ with ⟨item1, h₁⟩
    simp only at htaken hslots ⊢
    subst htaken
    by_cases hold : old.count.toNat = 0
    · have hempty : (taken old count).1.isEmpty = true :=
        ItemStack.isEmpty_iff.2 (taken_of_empty hold).1
      refine ⟨h₁, if_pos hempty, ?_⟩
      intro kind
      have hset := tally_setCell (w := ItemStack.amount kind) (x := (taken old count).2)
        hthis hsrc
      rw [amount_eq_zero hold, amount_eq_zero (taken_of_empty hold).2] at hset
      rw [hslots]
      exact hset
    · rcases taken_of_pos hold count with ⟨n, -, hnpos, hnle, htaken⟩
      rw [htaken] at hslots ⊢
      simp only at hslots ⊢
      have hnonempty : ¬ (old.withCount n).isEmpty = true := by
        rw [ItemStack.isEmpty_iff, ItemStack.count_withCount]
        exact hnpos
      have hcell : cell h₁.slots this i = some (old.withCount (old.count - n)) := by
        rw [hslots]
        exact cell_setCell_self hsrc
      -- the taken items leave the source, and those that are added reach the destination
      have hadded : ∀ kind, tally (ItemStack.amount kind) (bothLists this dest)
            (h₁.call dest fun l => l.addItem defs (old.withCount n)).2.slots +
          ItemStack.amount kind (h₁.call dest fun l => l.addItem defs (old.withCount n)).1 =
            tally (ItemStack.amount kind) (bothLists this dest) h.slots := by
        intro kind
        have hset := tally_setCell (w := ItemStack.amount kind)
          (x := old.withCount (old.count - n)) hthis hsrc
        rw [← hslots, ItemStack.amount_withCount, ItemStack.toNat_sub_of_le' hnle] at hset
        have htotal := InventoryList.total_addItem kind defs (h₁ dest) (old.withCount n)
        rw [InventoryList.total, InventoryList.total, ItemStack.amount_withCount] at htotal
        have hupdate := tally_update (w := ItemStack.amount kind) (s := h₁.slots) hdest
          ((h₁ dest).addItem defs (old.withCount n)).2.items
        rw [ItemStack.amount.eq_1 kind old] at hset
        simp only [Heap.slots] at hupdate hset
        rw [Heap.call, slots_update]
        simp only
        split at hset <;> rename_i hkind
        · rw [if_pos hkind] at htotal
          omega
        · rw [if_neg hkind] at htotal
          omega
      rcases call_addItem_shares defs dest hcell hnpos hnle with
        ⟨m, rest, hleft, hrest, hkind, hsum⟩
      rw [if_neg hnonempty]
      generalize h₁.call dest (fun l => l.addItem defs (old.withCount n)) = step₂
        at hadded hleft hrest
      rcases step₂ with ⟨leftover, h₂⟩
      simp only at hadded hleft hrest ⊢
      subst hleft
      by_cases hm : m.toNat = 0
      · have hempty : (old.withCount m).isEmpty = true := by
          rw [ItemStack.isEmpty_iff, ItemStack.count_withCount]
          exact hm
        refine ⟨h₂, if_pos hempty, ?_⟩
        intro kind
        have hkind := hadded kind
        rw [amount_eq_zero (ItemStack.isEmpty_iff.1 hempty)] at hkind
        exact hkind
      · -- what is left over goes back to the source slot
        have hleftNonempty : ¬ (old.withCount m).isEmpty = true := by
          rw [ItemStack.isEmpty_iff, ItemStack.count_withCount]
          exact hm
        have hget : (h₂ this).getItem i = some rest := hrest
        rw [if_neg hleftNonempty, hget]
        refine ⟨_, rfl, ?_⟩
        intro kind
        have hset := tally_setCell (w := ItemStack.amount kind)
          (x := (old.withCount m).add rest.count) hthis hrest
        rw [← (call_changeItem_of_some hrest _).2, ItemStack.amount_add kind] at hset
        · have htotal := hadded kind
          omega
        · rw [ItemStack.withCount_of_ne hm]
          exact hkind
        · rw [ItemStack.count_withCount]
          have hbound := old.count.toNat_lt
          omega

end

/-- `addItem`, `moveItemSomewhere` and `moveItem` never look at a slot that does not exist, and
keep the number of items of each kind.  The numbers are sums of naturals, so a count that wrapped
would show.  `moveItem` changes no other slot, and it returns the stack that left the source slot,
unless it was to swap with a slot that does not exist. -/
theorem items_conserved (defs : ItemDefManager) (h : Heap ι) (this : ι) (i : Nat) (dest : ι)
    (destI : Nat) (count : UInt32) (swapIfNeeded : Bool) (newitem : ItemStack) :
    (∀ kind, InventoryList.total kind ((h this).addItem defs newitem).2 +
        ItemStack.amount kind ((h this).addItem defs newitem).1 =
          InventoryList.total kind (h this) + ItemStack.amount kind newitem) ∧
      (∃ h', moveItemSomewhere defs h this i dest count = some h' ∧ ∀ kind,
        tally (ItemStack.amount kind) (bothLists this dest) h'.slots =
          tally (ItemStack.amount kind) (bothLists this dest) h.slots) ∧
      ∃ r, moveItem defs h this i dest destI count swapIfNeeded = some r ∧
        (∀ kind, tally (ItemStack.amount kind) (bothLists this dest) r.heap.slots =
          tally (ItemStack.amount kind) (bothLists this dest) h.slots) ∧
        (∀ a j, ¬ (a = this ∧ j = i) → ¬ (a = dest ∧ j = destI) →
          cell r.heap.slots a j = cell h.slots a j) ∧
        (LeftSource h.slots r.heap.slots this i dest destI r.moved ↔
          ¬ SwapsWithNowhere h.slots this i dest destI swapIfNeeded) := by
  rcases moveItem_outcome defs h this i dest destI count swapIfNeeded with ⟨r, hr, houtcome⟩
  refine ⟨fun kind => InventoryList.total_addItem kind defs (h this) newitem,
    moveItemSomewhere_tally defs h this i dest count, r, hr, houtcome.tally_eq, ?_,
    houtcome.leftSource_iff⟩
  intro a j hsrc hdst
  exact houtcome.frame hsrc hdst

def apples (count : UInt16) : ItemStack :=
  { name := ascii "default:apple", count := count, wear := 0, metadata := ∅ }

theorem length_apples : [apples 5].length < 2 ^ 32 := by decide

/-- A list with five apples in its only slot. -/
def fiveApples : Heap Unit := fun _ =>
  { name := ascii "main", items := [apples 5], length_lt := length_apples }

/-- Five apples are moved to slot 7 of a list with one slot: they stay, and come back as moved. -/
theorem moveItem_returns_what_stayed :
    ∃ r, moveItem .builtin fiveApples () 0 () 7 0 true = some r ∧ r.moved = apples 5 ∧
      r.didSwap = true ∧ cell r.heap.slots () 0 = some (apples 5) ∧
      ¬ LeftSource fiveApples.slots r.heap.slots () 0 () 7 r.moved := by
  rcases moveItem_outcome .builtin fiveApples () 0 () 7 0 true with ⟨r, hr, houtcome⟩
  have hnowhere : SwapsWithNowhere fiveApples.slots () 0 () 7 true :=
    ⟨rfl, rfl, apples 5, rfl, by decide⟩
  have hleft := fun hleft => houtcome.leftSource_iff.1 hleft hnowhere
  cases hr
  exact ⟨_, rfl, by decide, rfl, by decide, hleft⟩

end Inventory
end AxisEngine
