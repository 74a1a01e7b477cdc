import Mathlib.Data.Finmap
import AxisEngine.Lib.Bytes

/-!
# ItemStack — items, their definitions and what stacks do

A stack has a name, a `u16` count, a wear and metadata (`inventory.h`, `inventory.cpp`).  The
item definition manager knows how many items of a name stack (`itemdef.cpp`).  What the metadata
overrides (tool capabilities, wear bar) is computed from its strings and is not stored here.

* `ItemStack.addItem`, `itemFits`, `takeItem` — the operations of the source;
* `addItem_cases` — what adding does, in natural numbers;
* `amount` — how many items of one name and metadata a stack holds.
-/

namespace AxisEngine
namespace Inventory

open Lib

/-! ## Item definitions -/

inductive ItemType
  | none
  | node
  | craft
  | tool
  deriving DecidableEq, Repr

/-- What inventories and crafting read of an item definition. -/
structure ItemDefinition where
  type : ItemType := .none
  stackMax : UInt16 := 99
  groups : Finmap (fun _ : Bytes => Int) := ∅

/-- `CItemDefManager`; the builtin item "unknown" is always there. -/
structure ItemDefManager where
  definitions : Finmap (fun _ : Bytes => ItemDefinition)
  aliases : Finmap (fun _ : Bytes => Bytes)
  unknown_mem : ascii "unknown" ∈ definitions

namespace ItemDefManager

variable (defs : ItemDefManager) (name : Bytes)

def getAlias : Bytes :=
  (defs.aliases.lookup name).getD name

def get : ItemDefinition :=
  match defs.definitions.lookup (defs.getAlias name) with
  | some definition => definition
  | none =>
    (defs.definitions.lookup (ascii "unknown")).get (Finmap.lookup_isSome.2 defs.unknown_mem)

def isKnown : Bool :=
  (defs.definitions.lookup (defs.getAlias name)).isSome

/-- The four builtin items. -/
def builtin : ItemDefManager where
  definitions := Finmap.singleton (ascii "") {}
    |>.insert (ascii "unknown") { type := .node }
    |>.insert (ascii "air") { type := .node }
    |>.insert (ascii "ignore") { type := .node }
  aliases := ∅
  unknown_mem := by simp

end ItemDefManager

/-! ## Stacks -/

abbrev Metadata := Finmap (fun _ : Bytes => Bytes)

structure ItemStack where
  name : Bytes
  count : UInt16
  wear : UInt16
  metadata : Metadata
  deriving DecidableEq

namespace ItemStack

/-- `ItemStack()`, and what `clear` leaves. -/
def cleared : ItemStack :=
  { name := [], count := 0, wear := 0, metadata := ∅ }

def isEmpty (s : ItemStack) : Bool :=
  s.count = 0

def add (s : ItemStack) (n : UInt16) : ItemStack :=
  { s with count := s.count + n }

/-- The caller sees to it that there are `n` items. -/
def remove (s : ItemStack) (n : UInt16) : ItemStack :=
  let rest := s.count - n
  if rest = 0 then .cleared else { s with count := rest }

variable (defs : ItemDefManager)

def getStackMax (s : ItemStack) : UInt16 :=
  (defs.get s.name).stackMax

def freeSpace (s : ItemStack) : UInt16 :=
  let max := s.getStackMax defs
  if s.count ≥ max then 0 else max - s.count

/-- The new stack, and what is left of `newitem`. -/
def addItem (s newitem : ItemStack) : ItemStack × ItemStack :=
  if newitem.isEmpty then (s, newitem)
  else if s.isEmpty then (newitem, .cleared)
  else if s.name ≠ newitem.name ∨ s.metadata ≠ newitem.metadata then (s, newitem)
  else if newitem.count ≤ s.freeSpace defs then (s.add newitem.count, .cleared)
  else
    let freespace := s.freeSpace defs
    (s.add freespace, newitem.remove freespace)

/-- Whether all of `newitem` could be added, and what would be left over. -/
def itemFits (s newitem : ItemStack) : Bool × ItemStack :=
  let rest :=
    if newitem.isEmpty then newitem
    else if s.isEmpty then .cleared
    else if s.name ≠ newitem.name ∨ s.metadata ≠ newitem.metadata then newitem
    else if newitem.count ≤ s.freeSpace defs then .cleared
    else newitem.remove (s.freeSpace defs)
  (rest.isEmpty, rest)

/-- The stack that is taken, and what is left. -/
def takeItem (s : ItemStack) (takecount : UInt32) : ItemStack × ItemStack :=
  if takecount = 0 ∨ s.count = 0 then (.cleared, s)
  else if takecount.toNat ≥ s.count.toNat then (s, .cleared)
  else
    let n := UInt16.ofNat takecount.toNat
    ({ s with count := n }, s.remove n)

/-- An empty stack is a cleared one: every stack the game makes is of this kind. -/
def Clean (s : ItemStack) : Prop :=
  s.count = 0 → s = .cleared

/-- How many items of a name and metadata the stack holds. -/
def amount (kind : Bytes × Metadata) (s : ItemStack) : Nat :=
  if (s.name, s.metadata) = kind then s.count.toNat else 0

/-! ## Counts as natural numbers -/

section

variable {defs : ItemDefManager} {s newitem : ItemStack} {n : UInt16}

theorem isEmpty_iff : s.isEmpty = true ↔ s.count.toNat = 0 := by
  rw [isEmpty, decide_eq_true_eq, ← UInt16.toNat_inj]
  rfl

@[simp] theorem isEmpty_cleared : ItemStack.cleared.isEmpty = true := rfl

variable (kind : Bytes × Metadata)

@[simp] theorem amount_cleared : amount kind .cleared = 0 := by
  simp [amount, cleared]

theorem clean_cleared : Clean .cleared := fun _ => rfl

/-- The stack with `n` of its items; without any it is cleared. -/
def withCount (s : ItemStack) (n : UInt16) : ItemStack :=
  if n = 0 then .cleared else { s with count := n }

theorem amount_withCount :
    amount kind (s.withCount n) = if (s.name, s.metadata) = kind then n.toNat else 0 := by
  rw [withCount]
  split
  · rename_i hn
    simp [hn]
  · rfl

@[simp] theorem count_withCount : (s.withCount n).count = n := by
  rw [withCount]
  split
  · rename_i hn
    exact hn.symm
  · rfl

@[simp] theorem withCount_withCount {m : UInt16} (hm : m.toNat ≠ 0) :
    (s.withCount m).withCount n = s.withCount n := by
  have hne : m ≠ 0 := by
    rintro rfl
    exact hm rfl
  rw [withCount, withCount, withCount, if_neg hne]

theorem withCount_of_ne (hn : n.toNat ≠ 0) : s.withCount n = { s with count := n } := by
  have hne : n ≠ 0 := by
    rintro rfl
    exact hn rfl
  rw [withCount, if_neg hne]

theorem remove_eq : s.remove n = s.withCount (s.count - n) := rfl

theorem isEmpty_withCount : (s.withCount n).isEmpty = decide (n = 0) := by
  rw [withCount]
  split
  · rename_i hn
    simp [hn]
  · rfl

theorem toNat_sub_of_le' {m n : UInt16} (h : n.toNat ≤ m.toNat) :
    (m - n).toNat = m.toNat - n.toNat :=
  UInt16.toNat_sub_of_le m n (UInt16.le_iff_toNat_le.2 h)

/-- The free space and the count together do not go past `u16`. -/
theorem count_add_freeSpace_lt (defs : ItemDefManager) (s : ItemStack) :
    s.count.toNat + (s.freeSpace defs).toNat < 65536 := by
  have hcount := s.count.toNat_lt
  have hmax := (s.getStackMax defs).toNat_lt
  rw [freeSpace]
  split
  · simpa using hcount
  · rename_i hlt
    have hle : s.count.toNat ≤ (s.getStackMax defs).toNat :=
      (UInt16.lt_iff_toNat_lt.1 (UInt16.not_le.1 hlt)).le
    rw [toNat_sub_of_le' hle]
    omega

theorem withCount_self (h : s.count.toNat ≠ 0) : s.withCount s.count = s :=
  withCount_of_ne h

/-! ## What the operations do -/

/-- Adding does nothing, fills an empty stack, or moves `k` items of the same kind. -/
inductive Added (s newitem : ItemStack) : ItemStack × ItemStack → Prop
  | nothing : Added s newitem (s, newitem)
  | fill : s.count.toNat = 0 → newitem.count.toNat ≠ 0 → Added s newitem (newitem, .cleared)
  | some {k : UInt16} :
      s.count.toNat ≠ 0 → s.name = newitem.name → s.metadata = newitem.metadata →
      k.toNat ≠ 0 → k.toNat ≤ newitem.count.toNat → s.count.toNat + k.toNat < 65536 →
      Added s newitem (s.add k, newitem.withCount (newitem.count - k))

theorem addItem_cases (defs : ItemDefManager) (s newitem : ItemStack) :
    Added s newitem (s.addItem defs newitem) := by
  have hroom := count_add_freeSpace_lt defs s
  rw [addItem]
  split_ifs with hnew hempty hother hfits
  · exact .nothing
  · exact .fill (isEmpty_iff.1 hempty) (mt isEmpty_iff.2 hnew)
  · exact .nothing
  · -- all of it fits
    rcases not_or.1 hother with ⟨hname, hmeta⟩
    have hle := UInt16.le_iff_toNat_le.1 hfits
    have hrest : newitem.withCount (newitem.count - newitem.count) = .cleared := by
      simp [withCount]
    rw [← hrest]
    exact .some (mt isEmpty_iff.2 hempty) (not_not.1 hname) (not_not.1 hmeta)
      (mt isEmpty_iff.2 hnew) le_rfl (by omega)
  · rcases not_or.1 hother with ⟨hname, hmeta⟩
    have hlt := UInt16.lt_iff_toNat_lt.1 (UInt16.not_le.1 hfits)
    by_cases hfull : (s.freeSpace defs).toNat = 0
    · -- the stack is full
      have hzero : s.freeSpace defs = 0 := UInt16.toNat_inj.1 hfull
      have hsame : newitem.remove 0 = newitem := by
        rw [remove_eq, UInt16.sub_zero, withCount_self (mt isEmpty_iff.2 hnew)]
      have hadd : s.add 0 = s := by
        rw [add, UInt16.add_zero]
      simp only [hzero, hsame, hadd]
      exact .nothing
    · exact .some (mt isEmpty_iff.2 hempty) (not_not.1 hname) (not_not.1 hmeta) hfull hlt.le hroom

/-- Of a stack that is added some number is left over, at most all of it. -/
theorem addItem_rest (defs : ItemDefManager) (s : ItemStack) (h : newitem.count.toNat ≠ 0) :
    s.addItem defs newitem = (s, newitem) ∨
      ∃ m : UInt16, m.toNat < newitem.count.toNat ∧
        (s.addItem defs newitem).2 = newitem.withCount m := by
  have hcases := addItem_cases defs s newitem
  generalize s.addItem defs newitem = r at hcases
  cases hcases with
  | nothing => exact .inl rfl
  | fill _ _ => exact .inr ⟨0, Nat.pos_of_ne_zero h, rfl⟩
  | @some k _ _ _ hk hle _ =>
    refine .inr ⟨newitem.count - k, ?_, rfl⟩
    rw [toNat_sub_of_le' hle]
    omega

/-- How many items like `newitem` the stack can take. -/
def room (defs : ItemDefManager) (s newitem : ItemStack) : Nat :=
  if s.isEmpty then 65535
  else if s.name ≠ newitem.name ∨ s.metadata ≠ newitem.metadata then 0
  else (s.freeSpace defs).toNat

theorem room_le_freeSpace (hs : ¬ s.isEmpty = true) :
    room defs s newitem ≤ (s.freeSpace defs).toNat := by
  rw [room, if_neg hs]
  split
  · exact Nat.zero_le _
  · exact le_rfl

/-- The stack with `k` more items like `newitem`. -/
def receive (s newitem : ItemStack) (k : UInt16) : ItemStack :=
  if k = 0 then s else if s.isEmpty then newitem.withCount k else s.add k

theorem room_withCount (hn : n.toNat ≠ 0) :
    room defs s (newitem.withCount n) = room defs s newitem := by
  rw [withCount_of_ne hn]
  rfl

theorem receive_withCount {k : UInt16} (hn : n.toNat ≠ 0) :
    receive s (newitem.withCount n) k = receive s newitem k := by
  rw [receive, receive, withCount_withCount hn]

/-- An addition takes as many items as there is room for. -/
theorem addItem_eq (defs : ItemDefManager) (s : ItemStack) (h : newitem.count.toNat ≠ 0)
    {k : UInt16} (hk : k.toNat = min newitem.count.toNat (room defs s newitem)) :
    s.addItem defs newitem = (s.receive newitem k, newitem.withCount (newitem.count - k)) := by
  have hnew : ¬ newitem.isEmpty = true := mt isEmpty_iff.1 h
  have hbound := newitem.count.toNat_lt
  rw [addItem, if_neg hnew]
  by_cases hempty : s.isEmpty = true
  · -- everything goes into an empty stack
    rw [room, if_pos hempty] at hk
    have hall : k = newitem.count := UInt16.toNat_inj.1 (by omega)
    have hne : newitem.count ≠ 0 := fun h0 => h (by rw [h0]; rfl)
    rw [if_pos hempty, hall, receive, if_neg hne, if_pos hempty, withCount_self h, UInt16.sub_self]
    rfl
  · rw [if_neg hempty]
    rw [room, if_neg hempty] at hk
    by_cases hother : s.name ≠ newitem.name ∨ s.metadata ≠ newitem.metadata
    · rw [if_pos hother] at hk
      have hzero : k = 0 := UInt16.toNat_inj.1 (by rw [hk]; simp)
      rw [if_pos hother, hzero, receive, if_pos rfl, UInt16.sub_zero, withCount_self h]
    · rw [if_neg hother] at hk
      have hadd : s.add k = s.receive newitem k := by
        rw [receive, if_neg hempty]
        split
        · rename_i hzero
          rw [hzero, add, UInt16.add_zero]
        · rfl
      rw [if_neg hother, ← hadd]
      split
      · rename_i hfits
        have hle := UInt16.le_iff_toNat_le.1 hfits
        have hall : k = newitem.count := UInt16.toNat_inj.1 (by omega)
        rw [hall, UInt16.sub_self]
        rfl
      · rename_i hfits
        have hlt := UInt16.lt_iff_toNat_lt.1 (UInt16.not_le.1 hfits)
        have hfree : k = s.freeSpace defs := UInt16.toNat_inj.1 (by omega)
        rw [hfree]
        rfl

/-- No item is lost in an addition. -/
theorem count_addItem (defs : ItemDefManager) (s newitem : ItemStack) :
    (s.addItem defs newitem).1.count.toNat + (s.addItem defs newitem).2.count.toNat =
      s.count.toNat + newitem.count.toNat := by
  have hcases := addItem_cases defs s newitem
  generalize s.addItem defs newitem = r at hcases
  cases hcases with
  | nothing => rfl
  | fill hempty _ =>
    have hcleared : cleared.count.toNat = 0 := rfl
    simp only
    omega
  | @some k _ _ _ _ hle hlt =>
    have hsum : (s.add k).count.toNat = s.count.toNat + k.toNat := by
      rw [add, UInt16.toNat_add]
      omega
    simp only
    rw [hsum, count_withCount, toNat_sub_of_le' hle]
    omega

theorem count_rest_le (defs : ItemDefManager) (s newitem : ItemStack) :
    (s.addItem defs newitem).2.count.toNat ≤ newitem.count.toNat := by
  by_cases hempty : newitem.count.toNat = 0
  · rw [addItem, if_pos (isEmpty_iff.2 hempty)]
  · rcases addItem_rest defs s hempty with hall | ⟨m, hm, hrest⟩
    · rw [hall]
    · rw [hrest, count_withCount]
      exact hm.le

/-- What is there after an addition is of the old or of the new kind. -/
theorem kind_addItem (defs : ItemDefManager) (s newitem : ItemStack) :
    (s.addItem defs newitem).1 = s ∨
      ((s.addItem defs newitem).1.name = newitem.name ∧
        (s.addItem defs newitem).1.metadata = newitem.metadata) := by
  have hcases := addItem_cases defs s newitem
  generalize s.addItem defs newitem = r at hcases
  cases hcases with
  | nothing => exact .inl rfl
  | fill _ _ => exact .inr ⟨rfl, rfl⟩
  | some _ hname hmeta _ _ _ => exact .inr ⟨hname, hmeta⟩

theorem itemFits_eq (defs : ItemDefManager) (s newitem : ItemStack) :
    s.itemFits defs newitem = ((s.addItem defs newitem).2.isEmpty, (s.addItem defs newitem).2) := by
  rw [itemFits, addItem]
  split_ifs <;> rfl

/-- Taking does nothing, or moves `k` items out of the stack. -/
inductive Taken (s : ItemStack) (takecount : Nat) : ItemStack × ItemStack → Prop
  | nothing : takecount = 0 ∨ s.count.toNat = 0 → Taken s takecount (.cleared, s)
  | some {k : UInt16} :
      takecount ≠ 0 → s.count.toNat ≠ 0 → k.toNat = min takecount s.count.toNat →
      Taken s takecount ({ s with count := k }, s.withCount (s.count - k))

theorem takeItem_cases (s : ItemStack) (takecount : UInt32) :
    Taken s takecount.toNat (s.takeItem takecount) := by
  have hzero : takecount = 0 ↔ takecount.toNat = 0 := UInt32.toNat_inj.symm
  have hempty : s.count = 0 ↔ s.count.toNat = 0 := UInt16.toNat_inj.symm
  simp only [takeItem, hzero, hempty]
  split_ifs with hnothing hall
  · exact .nothing hnothing
  · rcases not_or.1 hnothing with ⟨htake, hcount⟩
    have hrest : s.withCount (s.count - s.count) = .cleared := by
      simp [withCount]
    rw [← hrest]
    exact .some htake hcount (min_eq_right hall).symm
  · rcases not_or.1 hnothing with ⟨htake, hcount⟩
    have hbound := s.count.toNat_lt
    refine .some htake hcount ?_
    rw [UInt16.toNat_ofNat']
    omega

theorem amount_addItem (defs : ItemDefManager) (s newitem : ItemStack) :
    amount kind (s.addItem defs newitem).1 + amount kind (s.addItem defs newitem).2 =
      amount kind s + amount kind newitem := by
  generalize hadd : s.addItem defs newitem = r
  have hcases := addItem_cases defs s newitem
  rw [hadd] at hcases
  cases hcases with
  | nothing => rfl
  | fill hempty _ => simp [amount, hempty, cleared]
  | @some k _ hname hmeta _ hle hlt =>
    have hsum : (s.count + k).toNat = s.count.toNat + k.toNat := by
      rw [UInt16.toNat_add]
      omega
    rw [amount_withCount, toNat_sub_of_le' hle]
    simp only [add, amount, hname, hmeta, hsum]
    split <;> omega

/-- Counts of one kind may be added when the sum fits. -/
theorem amount_add {rest : ItemStack}
    (hkind : rest.count.toNat = 0 ∨ rest.name = s.name ∧ rest.metadata = s.metadata)
    (hlt : s.count.toNat + rest.count.toNat < 65536) :
    amount kind (s.add rest.count) = amount kind s + amount kind rest := by
  have hsum : (s.count + rest.count).toNat = s.count.toNat + rest.count.toNat := by
    rw [UInt16.toNat_add]
    omega
  simp only [amount, add, hsum]
  rcases hkind with hzero | ⟨hname, hmeta⟩
  · rw [hzero]
    split <;> simp
  · rw [hname, hmeta]
    split <;> rfl

end

end ItemStack

end Inventory
end AxisEngine
