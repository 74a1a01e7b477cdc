import AxisEngine.Inventory.ItemStack
import AxisEngine.Lib.Slots

/-!
# InventoryList — a list of slots

The operations of `InventoryList` (`inventory.cpp`) on one list.  A slot index is a natural number
here, in or out of range.  Resize locks are held only while a script callback runs and are left
out.

* `changeItem`, `addItemAt`, `addItem`, `takeItem` — the operations of the source;
* `Mutated` — what every operation on slots keeps: the name, the size and the width, and that a
  list that is not flagged as modified is unchanged.
-/

namespace AxisEngine
namespace Inventory

open Lib

/-- `m_size` is the length of `items`. -/
structure InventoryList where
  name : Bytes
  items : List ItemStack
  width : UInt32 := 0
  dirty : Bool := true
  length_lt : items.length < 2 ^ 32

namespace InventoryList

/-! ## Operations -/

/-- The constructor. -/
def create (name : Bytes) (size : UInt32) : InventoryList :=
  { name := name
    items := List.replicate size.toNat .cleared
    length_lt := by
      rw [List.length_replicate]
      exact size.toNat_lt }

variable (l : InventoryList)

def getSize : UInt32 :=
  UInt32.ofNat l.items.length

/-- `none` is the failed assertion `i < m_size`. -/
def getItem (i : Nat) : Option ItemStack :=
  l.items[i]?

def setModified (dirty : Bool) : InventoryList :=
  { l with dirty := dirty }

def clearItems : InventoryList :=
  { l with
    items := l.items.map fun _ => .cleared
    dirty := true
    length_lt := by
      rw [List.length_map]
      exact l.length_lt }

def setSize (newsize : UInt32) : InventoryList :=
  if newsize.toNat = l.items.length then l
  else
    { l with
      items := (l.items ++ List.replicate (newsize.toNat - l.items.length) ItemStack.cleared).take newsize.toNat
      dirty := true
      length_lt := (List.length_take_le _ _).trans_lt newsize.toNat_lt }

def setWidth (newwidth : UInt32) : InventoryList :=
  { l with width := newwidth, dirty := true }

/-- The list with another stack in a slot; the flag stays. -/
def setItem (i : Nat) (s : ItemStack) : InventoryList :=
  { l with
    items := l.items.set i s
    length_lt := by
      rw [List.length_set]
      exact l.length_lt }

/-- The old item comes back, or the new one when the slot does not exist. -/
def changeItem (i : Nat) (newitem : ItemStack) : ItemStack × InventoryList :=
  match l.items[i]? with
  | none => (newitem, l)
  | some olditem =>
    if olditem ≠ newitem then (olditem, (l.setItem i newitem).setModified true)
    else (olditem, l)

variable (defs : ItemDefManager) (l : InventoryList)

/-- `addItem` with a slot: the leftover comes back. -/
def addItemAt (i : Nat) (newitem : ItemStack) : ItemStack × InventoryList :=
  match l.items[i]? with
  | none => (newitem, l)
  | some s =>
    let (s, leftover) := s.addItem defs newitem
    let l := l.setItem i s
    (leftover, if leftover ≠ newitem then l.setModified true else l)

/-- One of the two loops of `addItem`, over the slots that are empty or over those that are not. -/
def addItemLoop (defs : ItemDefManager) (empty : Bool) :
    List Nat → ItemStack → InventoryList → ItemStack × InventoryList
  | [], newitem, l => (newitem, l)
  | i :: is, newitem, l =>
    if (l.items[i]?.all fun s => s.isEmpty = empty) = false then
      addItemLoop defs empty is newitem l
    else
      let (newitem, l) := l.addItemAt defs i newitem
      if newitem.isEmpty then (newitem, l) else addItemLoop defs empty is newitem l

/-- The leftover comes back. -/
def addItem (newitem : ItemStack) : ItemStack × InventoryList :=
  if newitem.isEmpty then (newitem, l)
  else
    let slots := List.range l.items.length
    let (newitem, l) := addItemLoop defs false slots newitem l
    if newitem.isEmpty then (newitem, l) else addItemLoop defs true slots newitem l

/-- Whether all of `newitem` fits into a slot, and what would be left over. -/
def itemFits (i : Nat) (newitem : ItemStack) : Bool × ItemStack :=
  match l.items[i]? with
  | none => (false, newitem)
  | some s => s.itemFits defs newitem

def takeItem (i : Nat) (takecount : UInt32) : ItemStack × InventoryList :=
  match l.items[i]? with
  | none => (.cleared, l)
  | some s =>
    let (taken, s) := s.takeItem takecount
    let l := l.setItem i s
    (taken, if taken.isEmpty then l else l.setModified true)

/-- What `operator ==` compares. -/
def contents : UInt32 × Bytes × List ItemStack :=
  (l.width, l.name, l.items)

/-! ## What the operations do to the slots -/

section

variable {defs : ItemDefManager} {l l' : InventoryList} {i : Nat} {s newitem : ItemStack}

/-- An operation on slots keeps the name, the size and the width, and raises the flag unless the
list is as it was. -/
structure Mutated (l l' : InventoryList) : Prop where
  name_eq : l'.name = l.name
  width_eq : l'.width = l.width
  length_eq : l'.items.length = l.items.length
  flagged : l' = l ∨ l'.dirty = true

theorem Mutated.refl (l : InventoryList) : Mutated l l :=
  ⟨rfl, rfl, rfl, .inl rfl⟩

theorem Mutated.trans {l'' : InventoryList} (h : Mutated l l') (h' : Mutated l' l'') :
    Mutated l l'' where
  name_eq := h'.name_eq.trans h.name_eq
  width_eq := h'.width_eq.trans h.width_eq
  length_eq := h'.length_eq.trans h.length_eq
  flagged := by
    rcases h'.flagged with rfl | hdirty
    · exact h.flagged
    · exact .inr hdirty

theorem toNat_getSize (l : InventoryList) : l.getSize.toNat = l.items.length := by
  rw [getSize, UInt32.toNat_ofNat']
  exact Nat.mod_eq_of_lt l.length_lt

theorem setItem_self (h : l.items[i]? = some s) : l.setItem i s = l := by
  rcases List.getElem?_eq_some_iff.1 h with ⟨hlt, rfl⟩
  simp only [setItem, List.set_getElem_self]

theorem mutated_setItem : Mutated l ((l.setItem i s).setModified true) :=
  ⟨rfl, rfl, List.length_set, .inr rfl⟩

theorem changeItem_of_none (h : l.items[i]? = none) : l.changeItem i newitem = (newitem, l) := by
  rw [changeItem, h]

/-- In range, `changeItem` gives the old stack and puts the new one. -/
theorem changeItem_of_some (h : l.items[i]? = some s) (newitem : ItemStack) :
    (l.changeItem i newitem).1 = s ∧ (l.changeItem i newitem).2.items = l.items.set i newitem := by
  rw [changeItem, h]
  simp only
  split
  · exact ⟨rfl, rfl⟩
  · rename_i hsame
    have heq : s = newitem := not_not.1 hsame
    subst heq
    refine ⟨rfl, ?_⟩
    exact (congrArg items (setItem_self h)).symm

theorem mutated_changeItem : Mutated l (l.changeItem i newitem).2 := by
  rw [changeItem]
  split
  · exact .refl l
  · split
    · exact mutated_setItem
    · exact .refl l

theorem addItemAt_of_none (h : l.items[i]? = none) :
    l.addItemAt defs i newitem = (newitem, l) := by
  rw [addItemAt, h]

theorem addItemAt_of_some (defs : ItemDefManager) (h : l.items[i]? = some s) (newitem : ItemStack) :
    (l.addItemAt defs i newitem).1 = (s.addItem defs newitem).2 ∧
      (l.addItemAt defs i newitem).2.items = l.items.set i (s.addItem defs newitem).1 := by
  rw [addItemAt, h]
  refine ⟨rfl, ?_⟩
  simp only
  split
  · rfl
  · rfl

/-- When all of the new item is left over, the stack is as it was. -/
theorem addItem_eq_of_leftover (h : (s.addItem defs newitem).2 = newitem) :
    (s.addItem defs newitem).1 = s := by
  have hcases := ItemStack.addItem_cases defs s newitem
  generalize s.addItem defs newitem = r at hcases h
  cases hcases with
  | nothing => rfl
  | fill _ hnew =>
    have hnone : newitem.count = 0 := by rw [← h]; rfl
    exact absurd (congrArg UInt16.toNat hnone) hnew
  | @some k _ _ _ hpos hle _ =>
    have hcount := congrArg ItemStack.count h
    rw [ItemStack.withCount] at hcount
    split at hcount
    · -- all of it was added, but nothing was there
      have hzero : newitem.count.toNat = 0 := by rw [← hcount]; rfl
      omega
    · have hk := congrArg UInt16.toNat hcount
      rw [ItemStack.toNat_sub_of_le' hle] at hk
      omega

theorem mutated_addItemAt : Mutated l (l.addItemAt defs i newitem).2 := by
  rw [addItemAt]
  split
  · exact .refl l
  · rename_i s hs
    simp only
    split
    · exact mutated_setItem
    · rename_i hsame
      rw [addItem_eq_of_leftover (not_not.1 hsame), setItem_self hs]
      exact .refl l

/-- Adding nothing changes nothing. -/
theorem addItemAt_of_isEmpty (h : newitem.isEmpty = true) :
    l.addItemAt defs i newitem = (newitem, l) := by
  rw [addItemAt]
  split
  · rfl
  · rename_i s hs
    have hadd : s.addItem defs newitem = (s, newitem) := by
      rw [ItemStack.addItem, if_pos h]
    simp only [hadd, ne_eq, not_true_eq_false, if_false, setItem_self hs]

variable {takecount : UInt32} (kind : Bytes × Metadata) {P : ItemStack → InventoryList → Prop}

theorem takeItem_of_none (h : l.items[i]? = none) : l.takeItem i takecount = (.cleared, l) := by
  rw [takeItem, h]

theorem takeItem_of_some (h : l.items[i]? = some s) (takecount : UInt32) :
    (l.takeItem i takecount).1 = (s.takeItem takecount).1 ∧
      (l.takeItem i takecount).2.items = l.items.set i (s.takeItem takecount).2 := by
  rw [takeItem, h]
  refine ⟨rfl, ?_⟩
  simp only
  split
  · rfl
  · rfl

theorem mutated_takeItem : Mutated l (l.takeItem i takecount).2 := by
  rw [takeItem]
  split
  · exact .refl l
  · rename_i s hs
    have hcases := s.takeItem_cases takecount
    generalize s.takeItem takecount = r at hcases
    cases hcases with
    | nothing _ =>
      simp only [ItemStack.isEmpty_cleared, if_true, setItem_self hs]
      exact .refl l
    | @some k htake hcount hk =>
      have hne : ItemStack.isEmpty { s with count := k } = false := by
        rw [← Bool.not_eq_true, ItemStack.isEmpty_iff]
        simp only
        omega
      simp only [hne, Bool.false_eq_true, if_false]
      exact mutated_setItem

theorem mutated_addItemLoop {empty : Bool} {is : List Nat} :
    Mutated l (addItemLoop defs empty is newitem l).2 := by
  induction is generalizing newitem l with
  | nil => exact .refl l
  | cons i is ih =>
    rw [addItemLoop]
    split
    · exact ih
    · have hadd : Mutated l (l.addItemAt defs i newitem).2 := mutated_addItemAt
      simp only
      split
      · exact hadd
      · exact hadd.trans ih

theorem mutated_addItem : Mutated l (l.addItem defs newitem).2 := by
  rw [addItem]
  split
  · exact .refl l
  · simp only
    split
    · exact mutated_addItemLoop
    · exact mutated_addItemLoop.trans mutated_addItemLoop

/-! ## Adding to the whole list -/

section

variable
  (hstep : ∀ i newitem l, P newitem l → P (l.addItemAt defs i newitem).1 (l.addItemAt defs i newitem).2)
  (h : P newitem l)

include hstep h

/-- What every addition to a slot keeps, `addItem` keeps. -/
theorem addItemLoop_invariant {empty : Bool} {is : List Nat} :
    P (addItemLoop defs empty is newitem l).1 (addItemLoop defs empty is newitem l).2 := by
  induction is generalizing newitem l with
  | nil => exact h
  | cons i is ih =>
    rw [addItemLoop]
    split
    · exact ih h
    · have hadd := hstep i newitem l h
      simp only
      split
      · exact hadd
      · exact ih hadd

theorem addItem_invariant : P (l.addItem defs newitem).1 (l.addItem defs newitem).2 := by
  rw [addItem]
  split
  · exact h
  · have hfirst : P (addItemLoop defs false (List.range l.items.length) newitem l).1
        (addItemLoop defs false (List.range l.items.length) newitem l).2 :=
      addItemLoop_invariant hstep h
    simp only
    split
    · exact hfirst
    · exact addItemLoop_invariant hstep hfirst

end

/-- How many items of a kind are in the list. -/
def total (kind : Bytes × Metadata) (l : InventoryList) : Nat :=
  (l.items.map (ItemStack.amount kind)).sum

theorem total_addItemAt :
    total kind (l.addItemAt defs i newitem).2 +
        ItemStack.amount kind (l.addItemAt defs i newitem).1 =
      total kind l + ItemStack.amount kind newitem := by
  cases hs : l.items[i]? with
  | none => rw [addItemAt_of_none hs]
  | some s =>
    rcases addItemAt_of_some defs hs newitem with ⟨hleft, hitems⟩
    have hamount := ItemStack.amount_addItem kind defs s newitem
    have hset := sum_map_set (w := ItemStack.amount kind) (x := (s.addItem defs newitem).1) hs
    rw [total, total, hleft, hitems]
    omega

/-- No item is lost or made by `addItem`. -/
theorem total_addItem (defs : ItemDefManager) (l : InventoryList) (newitem : ItemStack) :
    total kind (l.addItem defs newitem).2 + ItemStack.amount kind (l.addItem defs newitem).1 =
      total kind l + ItemStack.amount kind newitem := by
  refine addItem_invariant (P := fun rest l' => total kind l' + ItemStack.amount kind rest =
    total kind l + ItemStack.amount kind newitem) ?_ rfl
  intro i rest l' h
  rw [← h]
  exact total_addItemAt kind

/-- A slot that holds items of the new kind, or none, together with what is left to add: the sum of
the two does not grow. -/
structure Shares (base : ItemStack) (i bound : Nat) (rest : ItemStack) (l : InventoryList) :
    Prop where
  rest_eq : ∃ m : UInt16, m.toNat ≤ base.count.toNat ∧ rest = base.withCount m
  slot : ∃ s, l.items[i]? = some s ∧
    (s.count.toNat = 0 ∨ s.name = base.name ∧ s.metadata = base.metadata) ∧
    s.count.toNat + rest.count.toNat ≤ bound

/-- Some number of the stack that was added is left over. -/
theorem rest_addItemAt {base : ItemStack}
    (h : ∃ m : UInt16, m.toNat ≤ base.count.toNat ∧ newitem = base.withCount m) :
    ∃ m : UInt16, m.toNat ≤ base.count.toNat ∧
      (l.addItemAt defs i newitem).1 = base.withCount m := by
  rcases h with ⟨m, hm, rfl⟩
  by_cases hzero : m.toNat = 0
  · have hempty : (base.withCount m).isEmpty = true := by
      rw [ItemStack.isEmpty_iff, ItemStack.count_withCount]
      exact hzero
    rw [addItemAt_of_isEmpty hempty]
    exact ⟨m, hm, rfl⟩
  · cases hs : l.items[i]? with
    | none =>
      rw [addItemAt_of_none hs]
      exact ⟨m, hm, rfl⟩
    | some s =>
      rw [(addItemAt_of_some defs hs _).1]
      have hcount : (base.withCount m).count.toNat ≠ 0 := by
        rw [ItemStack.count_withCount]
        exact hzero
      rcases ItemStack.addItem_rest defs s hcount with hall | ⟨k, hk, hrest⟩
      · exact ⟨m, hm, by rw [hall]⟩
      · rw [ItemStack.count_withCount] at hk
        exact ⟨k, by omega, by rw [hrest, ItemStack.withCount_withCount hzero]⟩

theorem rest_addItem (defs : ItemDefManager) {base : ItemStack} (hbase : base.count.toNat ≠ 0) :
    ∃ m : UInt16, m.toNat ≤ base.count.toNat ∧ (l.addItem defs base).1 = base.withCount m := by
  refine addItem_invariant (P := fun rest _ => ∃ m : UInt16, m.toNat ≤ base.count.toNat ∧
    rest = base.withCount m) ?_ ⟨base.count, le_rfl, (ItemStack.withCount_self hbase).symm⟩
  intro i rest l' h
  exact rest_addItemAt h

theorem shares_addItem (defs : ItemDefManager) {base : ItemStack} {bound : Nat}
    (h : Shares base i bound base l) :
    Shares base i bound (l.addItem defs base).1 (l.addItem defs base).2 := by
  refine addItem_invariant ?_ h
  intro j rest l' hl
  refine ⟨rest_addItemAt hl.rest_eq, ?_⟩
  rcases hl.rest_eq with ⟨m, hm, rfl⟩
  rcases hl.slot with ⟨s, hs, hkind, hsum⟩
  cases hj : l'.items[j]? with
  | none =>
    rw [addItemAt_of_none hj]
    exact ⟨s, hs, hkind, hsum⟩
  | some t =>
    rcases addItemAt_of_some defs hj (base.withCount m) with ⟨hleft, hitems⟩
    have hcount := ItemStack.count_addItem defs t (base.withCount m)
    have hle := ItemStack.count_rest_le defs t (base.withCount m)
    rw [hleft, hitems]
    by_cases hij : j = i
    · -- the slot itself is added to
      subst hij
      have hst : s = t := Option.some.inj (hs.symm.trans hj)
      subst hst
      have hlt : j < l'.items.length := (List.getElem?_eq_some_iff.1 hs).1
      refine ⟨(s.addItem defs (base.withCount m)).1, List.getElem?_set_self hlt, ?_, by omega⟩
      rcases ItemStack.kind_addItem defs s (base.withCount m) with hsame | ⟨hname, hmeta⟩
      · rw [hsame]
        exact hkind
      · by_cases hzero : m.toNat = 0
        · have hempty : (base.withCount m).isEmpty = true := by
            rw [ItemStack.isEmpty_iff, ItemStack.count_withCount]
            exact hzero
          rw [ItemStack.addItem, if_pos hempty]
          exact hkind
        · rw [ItemStack.withCount_of_ne hzero] at hname hmeta ⊢
          exact .inr ⟨hname, hmeta⟩
    · rw [List.getElem?_set_ne hij]
      exact ⟨s, hs, hkind, by omega⟩

end

end InventoryList

end Inventory
end AxisEngine
