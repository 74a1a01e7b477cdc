import AxisEngine.Inventory.Prediction

/-!
# Queries — asking a list before changing it

`InventoryList::roomForItem`, `containsItem` and `removeItem` (`inventory.cpp`).

* `roomLoop_iff`, `addItem_isEmpty_iff` — the query and the operation look for the same room;
* `removeLoop_spec` — what is taken out of which slots;
* `queries_agree` — the queries say what the operations will do.
-/

namespace AxisEngine
namespace Inventory

open Lib

/-- Whether a slot holds items that are asked for. -/
def ItemStack.matchesItem (item : ItemStack) (matchMeta : Bool) (s : ItemStack) : Bool :=
  decide (s.name = item.name) && (!matchMeta || decide (s.metadata = item.metadata))

namespace InventoryList

/-- The loop of `roomForItem`, over the slots that are left. -/
def roomLoop (defs : ItemDefManager) : List ItemStack → ItemStack → Bool
  | [], _ => false
  | s :: items, item =>
    let (fits, leftover) := s.itemFits defs item
    if fits then true else roomLoop defs items leftover

def roomForItem (defs : ItemDefManager) (l : InventoryList) (item : ItemStack) : Bool :=
  roomLoop defs l.items item

/-- The loop of `containsItem`; the slots come from the last one on. -/
def containsLoop (item : ItemStack) (matchMeta : Bool) : List ItemStack → UInt32 → Bool
  | [], _ => false
  | s :: items, count =>
    if count = 0 then false
    else if item.matchesItem matchMeta s then
      if UInt32.ofNat s.count.toNat ≥ count then true
      else containsLoop item matchMeta items (count - UInt32.ofNat s.count.toNat)
    else containsLoop item matchMeta items count

def containsItem (l : InventoryList) (item : ItemStack) (matchMeta : Bool) : Bool :=
  let count := UInt32.ofNat item.count.toNat
  if count = 0 then true else containsLoop item matchMeta l.items.reverse count

/-- The loop of `removeItem`, with the slots from the last one on: what is removed, and what the
slots hold afterwards. -/
def removeLoop (defs : ItemDefManager) (item : ItemStack) (matchMeta : Bool) :
    List ItemStack → ItemStack → ItemStack × List ItemStack
  | [], removed => (removed, [])
  | s :: items, removed =>
    if item.matchesItem matchMeta s then
      let stillToRemove := UInt32.ofInt ((item.count.toNat : Int) - removed.count.toNat)
      let (taken, s) := s.takeItem stillToRemove
      let (removed, leftover) := removed.addItem defs taken
      -- "Allow oversized stacks"
      let removed := removed.add leftover.count
      if removed.count = item.count then (removed, s :: items)
      else
        let (removed, items) := removeLoop defs item matchMeta items removed
        (removed, s :: items)
    else
      let (removed, items) := removeLoop defs item matchMeta items removed
      (removed, s :: items)

theorem length_removeLoop (defs : ItemDefManager) (item : ItemStack) (matchMeta : Bool)
    (items : List ItemStack) (removed : ItemStack) :
    (removeLoop defs item matchMeta items removed).2.length = items.length := by
  induction items generalizing removed with
  | nil => rfl
  | cons s items ih =>
    rw [removeLoop]
    split
    · dsimp only
      split
      · rfl
      · exact congrArg Nat.succ (ih _)
    · exact congrArg Nat.succ (ih _)

def removeItem (defs : ItemDefManager) (l : InventoryList) (item : ItemStack) (matchMeta : Bool) :
    ItemStack × InventoryList :=
  let r := removeLoop defs item matchMeta l.items.reverse .cleared
  let l' :=
    { l with
      items := r.2.reverse
      length_lt := by
        rw [List.length_reverse, length_removeLoop, List.length_reverse]
        exact l.length_lt }
  (r.1, if r.1.isEmpty then l' else l'.setModified true)

end InventoryList

/-! ## Room -/

section

variable {defs : ItemDefManager} {old s : ItemStack} {empty : Bool} {is : List Nat} {i : Nat}
variable {items : List ItemStack} {m : UInt16}

/-- The query is answered by the room of all slots together. -/
theorem roomLoop_iff (defs : ItemDefManager) (old : ItemStack) (items : List ItemStack)
    (hm : m.toNat ≠ 0) :
    InventoryList.roomLoop defs items (old.withCount m) = true ↔
      m.toNat ≤ (items.map fun s => ItemStack.room defs s old).sum := by
  induction items generalizing m with
  | nil =>
    simp only [InventoryList.roomLoop, Bool.false_eq_true, List.map_nil, List.sum_nil, false_iff]
    omega
  | cons s items ih =>
    have hcount : (old.withCount m).count.toNat ≠ 0 := by
      rw [ItemStack.count_withCount]
      exact hm
    have hk : (fillCount defs old s m).toNat =
        min (old.withCount m).count.toNat (ItemStack.room defs s (old.withCount m)) := by
      rw [ItemStack.count_withCount, ItemStack.room_withCount hm, toNat_fillCount]
    have hfits : s.itemFits defs (old.withCount m) =
        (decide (m - fillCount defs old s m = 0), old.withCount (m - fillCount defs old s m)) := by
      rw [ItemStack.itemFits_eq, ItemStack.addItem_eq defs s hcount hk,
        ItemStack.count_withCount, ItemStack.withCount_withCount hm, ItemStack.isEmpty_withCount]
    have hleft := toNat_sub_fillCount defs old s m
    rw [InventoryList.roomLoop, hfits, List.map_cons, List.sum_cons]
    by_cases hall : m - fillCount defs old s m = 0
    · rw [hall] at hleft
      simp only [hall, decide_true, if_true, true_iff]
      have hzero : (0 : UInt16).toNat = 0 := rfl
      omega
    · have hne : (m - fillCount defs old s m).toNat ≠ 0 := fun h0 => hall (UInt16.toNat_inj.1 h0)
      simp only [hall, decide_false, Bool.false_eq_true, if_false]
      rw [ih hne]
      omega

/-- How much room one of the loops of `addItem` finds in a slot. -/
def roomAt (defs : ItemDefManager) (old : ItemStack) (empty : Bool) (items : List ItemStack)
    (i : Nat) : Nat :=
  items[i]?.elim 0 fun s => if s.isEmpty = empty then ItemStack.room defs s old else 0

/-- A loop leaves over what it finds no room for. -/
theorem toNat_fill (defs : ItemDefManager) (old : ItemStack) (empty : Bool) (hnodup : is.Nodup)
    (m : UInt16) (items : List ItemStack) :
    (fill defs old empty is m items).1.toNat =
      m.toNat - (is.map (roomAt defs old empty items)).sum := by
  induction is generalizing m items with
  | nil => rfl
  | cons i is ih =>
    rcases List.nodup_cons.1 hnodup with ⟨hi, his⟩
    rw [fill, List.map_cons, List.sum_cons]
    by_cases hm0 : m = 0
    · have hzero : (0 : UInt16).toNat = 0 := rfl
      rw [if_pos hm0, hm0, hzero, Nat.zero_sub]
    · rw [if_neg hm0]
      cases hs : items[i]? with
      | none =>
        have hroom : roomAt defs old empty items i = 0 := by rw [roomAt, hs]; rfl
        rw [hroom, Nat.zero_add]
        exact ih his m items
      | some s =>
        dsimp only
        split
        · rename_i hempty
          have hroom : roomAt defs old empty items i = ItemStack.room defs s old := by
            rw [roomAt, hs]
            exact if_pos hempty
          -- the slots that follow are still what they were
          have hlater : is.map (roomAt defs old empty
              (items.set i (s.receive old (fillCount defs old s m)))) =
                is.map (roomAt defs old empty items) := by
            refine List.map_congr_left fun j hj => ?_
            have hne : i ≠ j := fun hij => hi (hij ▸ hj)
            rw [roomAt, roomAt, List.getElem?_set_ne hne]
          have hsub := toNat_sub_fillCount defs old s m
          rw [ih his, hlater, hroom]
          omega
        · rename_i hother
          have hroom : roomAt defs old empty items i = 0 := by
            rw [roomAt, hs]
            exact if_neg hother
          rw [hroom, Nat.zero_add]
          exact ih his m items

theorem isEmpty_receive (hs : s.isEmpty = false) :
    (s.receive old (fillCount defs old s m)).isEmpty = false := by
  have hne : ¬ s.isEmpty = true := Bool.eq_false_iff.1 hs
  have hcount := toNat_fillCount defs old s m
  have hroom : ItemStack.room defs s old ≤ (s.freeSpace defs).toNat :=
    ItemStack.room_le_freeSpace hne
  -- the count does not wrap
  have hspace := ItemStack.count_add_freeSpace_lt defs s
  have hpos : s.count.toNat ≠ 0 := mt ItemStack.isEmpty_iff.2 hne
  rw [ItemStack.receive]
  split
  · exact hs
  · rw [Bool.eq_false_iff, ne_eq, ItemStack.isEmpty_iff]
    show ¬ (s.count + fillCount defs old s m).toNat = 0
    rw [UInt16.toNat_add]
    omega

/-- The first loop leaves empty slots empty, and the others not empty. -/
theorem isEmpty_fill (j : Nat) :
    (fill defs old false is m items).2[j]?.map ItemStack.isEmpty =
      items[j]?.map ItemStack.isEmpty := by
  induction is generalizing m items with
  | nil => rfl
  | cons i is ih =>
    rw [fill]
    split
    · rfl
    · split
      · exact ih
      · rename_i s hs
        split
        · rename_i hempty
          rw [ih]
          by_cases hij : i = j
          · subst hij
            rw [hs, List.getElem?_set_self (List.getElem?_eq_some_iff.1 hs).1, Option.map_some,
              Option.map_some, isEmpty_receive hempty, hempty]
          · rw [List.getElem?_set_ne hij]
        · exact ih

/-- The second loop finds as much room as it would have found at first. -/
theorem roomAt_fill (i : Nat) :
    roomAt defs old true (fill defs old false is m items).2 i = roomAt defs old true items i := by
  have hroom : ∀ items : List ItemStack, roomAt defs old true items i =
      if items[i]?.map ItemStack.isEmpty = some true then 65535 else 0 := by
    intro items
    rw [roomAt]
    cases items[i]? with
    | none => rfl
    | some s =>
      simp only [Option.elim_some, Option.map_some, Option.some.injEq]
      split
      · rename_i hempty
        rw [ItemStack.room, if_pos hempty]
      · rfl
  rw [hroom, hroom, isEmpty_fill]

theorem sum_roomAt (defs : ItemDefManager) (old : ItemStack) (items : List ItemStack) :
    ((List.range items.length).map (roomAt defs old false items)).sum +
        ((List.range items.length).map (roomAt defs old true items)).sum =
      (items.map fun s => ItemStack.room defs s old).sum := by
  induction items with
  | nil => rfl
  | cons s items ih =>
    have htail : ∀ empty, (roomAt defs old empty (s :: items) ∘ Nat.succ) =
        roomAt defs old empty items := fun empty => rfl
    have hhead : roomAt defs old false (s :: items) 0 + roomAt defs old true (s :: items) 0 =
        ItemStack.room defs s old := by
      simp only [roomAt, List.getElem?_cons_zero, Option.elim_some]
      cases s.isEmpty with
      | false => simp
      | true => simp
    rw [List.length_cons, List.range_succ_eq_map, List.map_cons, List.map_cons, List.map_map,
      List.map_map, htail, htail, List.sum_cons, List.sum_cons, List.map_cons, List.sum_cons]
    omega

/-- The operation leaves nothing over when all slots together have the room. -/
theorem addItem_isEmpty_iff (old : ItemStack) (defs : ItemDefManager) (l : InventoryList) (hm : m.toNat ≠ 0) :
    (l.addItem defs (old.withCount m)).1.isEmpty = true ↔
      m.toNat ≤ (l.items.map fun s => ItemStack.room defs s old).sum := by
  have hnodup : (List.range l.items.length).Nodup := List.nodup_range
  have hfirst := toNat_fill defs old false hnodup m l.items
  have hsecond := toNat_fill defs old true hnodup
    (fill defs old false (List.range l.items.length) m l.items).1
    (fill defs old false (List.range l.items.length) m l.items).2
  have hsame : (List.range l.items.length).map (roomAt defs old true
      (fill defs old false (List.range l.items.length) m l.items).2) =
        (List.range l.items.length).map (roomAt defs old true l.items) :=
    List.map_congr_left fun i _ => roomAt_fill i
  rw [hsame] at hsecond
  have hsum := sum_roomAt defs old l.items
  rw [(addItem_fillAll defs old l hm).1, ItemStack.isEmpty_iff, ItemStack.count_withCount, fillAll]
  dsimp only
  omega

end

/-! ## Removing -/

section

variable {defs : ItemDefManager} {item s removed : ItemStack} {matchMeta : Bool}
variable {items : List ItemStack}

def itemCount (items : List ItemStack) : Nat :=
  (items.map fun s => s.count.toNat).sum

/-- The number of items that are asked for and there. -/
def matchingCount (item : ItemStack) (matchMeta : Bool) (items : List ItemStack) : Nat :=
  itemCount (items.filter (item.matchesItem matchMeta))

/-- A slot without matching items stays, and another one loses some of its items. -/
def Lessened (item : ItemStack) (matchMeta : Bool) (s s' : ItemStack) : Prop :=
  s' = s ∨ (item.matchesItem matchMeta s = true ∧
    ∃ k : UInt16, k.toNat ≤ s.count.toNat ∧ s' = s.withCount (s.count - k))

/-- What a loop over `items` does when `removed` is there already. -/
structure RemovesFrom (item : ItemStack) (matchMeta : Bool) (items : List ItemStack)
    (removed : ItemStack) (r : ItemStack × List ItemStack) : Prop where
  count_eq : r.1.count.toNat =
    min item.count.toNat (removed.count.toNat + matchingCount item matchMeta items)
  itemCount_eq : itemCount r.2 + r.1.count.toNat = itemCount items + removed.count.toNat
  slots : List.Forall₂ (Lessened item matchMeta) items r.2

theorem itemCount_cons (s : ItemStack) (items : List ItemStack) :
    itemCount (s :: items) = s.count.toNat + itemCount items :=
  List.sum_cons

theorem matchingCount_cons (hs : item.matchesItem matchMeta s = true) (items : List ItemStack) :
    matchingCount item matchMeta (s :: items) =
      s.count.toNat + matchingCount item matchMeta items := by
  rw [matchingCount, List.filter_cons_of_pos hs]
  exact itemCount_cons s _

theorem take_step (defs : ItemDefManager) (s : ItemStack)
    (hle : removed.count.toNat ≤ item.count.toNat) :
    ∃ r, s.takeItem (UInt32.ofInt ((item.count.toNat : Int) - removed.count.toNat)) = r ∧
      ∃ t, t = min (item.count.toNat - removed.count.toNat) s.count.toNat ∧
        ((removed.addItem defs r.1).1.add (removed.addItem defs r.1).2.count).count.toNat =
          removed.count.toNat + t ∧
        r.2.count.toNat + t = s.count.toNat ∧
        (r.2 = s ∨ ∃ k : UInt16, k.toNat ≤ s.count.toNat ∧ r.2 = s.withCount (s.count - k)) := by
  have hbound := item.count.toNat_lt
  have hstill : (UInt32.ofInt ((item.count.toNat : Int) - removed.count.toNat)).toNat =
      item.count.toNat - removed.count.toNat := by
    rw [UInt32.ofInt, UInt32.toNat_ofNat']
    omega
  have hcases := s.takeItem_cases (UInt32.ofInt ((item.count.toNat : Int) - removed.count.toNat))
  refine ⟨_, rfl, ?_⟩
  rw [hstill] at hcases
  generalize s.takeItem (UInt32.ofInt ((item.count.toNat : Int) - removed.count.toNat)) = r at hcases
  -- adding keeps the number of items, and the rest that does not fit is counted in
  have hadd := ItemStack.count_addItem defs removed r.1
  have hsum : (removed.count.toNat + r.1.count.toNat < 2 ^ 16) →
      ((removed.addItem defs r.1).1.add (removed.addItem defs r.1).2.count).count.toNat =
        removed.count.toNat + r.1.count.toNat := by
    intro hsmall
    show ((removed.addItem defs r.1).1.count + (removed.addItem defs r.1).2.count).toNat = _
    rw [UInt16.toNat_add]
    omega
  cases hcases with
  | nothing hnothing =>
    have hnone : ItemStack.cleared.count.toNat = 0 := rfl
    refine ⟨0, by omega, ?_, rfl, .inl rfl⟩
    rw [hsum (by simp only; omega)]
    rfl
  | @some k htake hs hk =>
    have hks : k.toNat ≤ s.count.toNat := by omega
    refine ⟨k.toNat, hk, ?_, ?_, .inr ⟨k, hks, rfl⟩⟩
    · rw [hsum (by simp only; omega)]
    · dsimp only
      rw [ItemStack.count_withCount, ItemStack.toNat_sub_of_le' hks]
      omega

theorem removeLoop_spec (defs : ItemDefManager) (item : ItemStack) (matchMeta : Bool)
    (items : List ItemStack) (hle : removed.count.toNat ≤ item.count.toNat) :
    RemovesFrom item matchMeta items removed
      (InventoryList.removeLoop defs item matchMeta items removed) := by
  induction items generalizing removed with
  | nil =>
    have hnone : matchingCount item matchMeta [] = 0 := rfl
    refine ⟨?_, rfl, .nil⟩
    rw [hnone]
    exact (min_eq_right hle).symm
  | cons s items ih =>
    rw [InventoryList.removeLoop]
    by_cases hs : item.matchesItem matchMeta s = true
    · rw [if_pos hs]
      rcases take_step defs s hle with ⟨⟨taken, s'⟩, hr, t, ht, hnow, hleft, hslot⟩
      dsimp only
      rw [hr]
      have hlessened : Lessened item matchMeta s s' := hslot.imp_right fun h => ⟨hs, h⟩
      have hmatching := matchingCount_cons hs items
      dsimp only at hnow hleft ⊢
      generalize (removed.addItem defs taken).1.add (removed.addItem defs taken).2.count =
        removed' at hnow
      by_cases hall : removed'.count = item.count
      · -- nothing more is asked for
        have hcount := congrArg UInt16.toNat hall
        rw [if_pos hall]
        refine ⟨?_, ?_, .cons hlessened ?_⟩
        · rw [hmatching]
          dsimp only
          omega
        · rw [itemCount_cons, itemCount_cons]
          dsimp only
          omega
        · exact List.forall₂_same.2 fun s _ => .inl rfl
      · rw [if_neg hall]
        have hnext : removed'.count.toNat ≤ item.count.toNat := by omega
        have hrest := ih hnext
        refine ⟨?_, ?_, .cons hlessened hrest.slots⟩
        · have hcount := hrest.count_eq
          rw [hmatching]
          dsimp only
          have hne : removed'.count.toNat ≠ item.count.toNat := fun h =>
            hall (UInt16.toNat_inj.1 h)
          omega
        · have hcounts := hrest.itemCount_eq
          rw [itemCount_cons, itemCount_cons]
          dsimp only
          omega
    · rw [if_neg hs]
      have hrest := ih hle
      refine ⟨?_, ?_, .cons (.inl rfl) hrest.slots⟩
      · rw [matchingCount, List.filter_cons_of_neg hs]
        exact hrest.count_eq
      · have hcounts := hrest.itemCount_eq
        rw [itemCount_cons, itemCount_cons]
        dsimp only
        omega

theorem containsLoop_iff (item : ItemStack) (matchMeta : Bool) (items : List ItemStack)
    {count : UInt32} (hcount : count.toNat ≠ 0) :
    InventoryList.containsLoop item matchMeta items count = true ↔
      count.toNat ≤ matchingCount item matchMeta items := by
  induction items generalizing count with
  | nil =>
    have hnone : matchingCount item matchMeta [] = 0 := rfl
    rw [hnone]
    simp only [InventoryList.containsLoop, Bool.false_eq_true, false_iff]
    omega
  | cons s items ih =>
    have hne : ¬ count = 0 := fun h0 => hcount (by rw [h0]; rfl)
    rw [InventoryList.containsLoop, if_neg hne]
    by_cases hs : item.matchesItem matchMeta s = true
    · have hmatching := matchingCount_cons hs items
      have hthere := toNat_ofNat_count s.count
      rw [if_pos hs, hmatching]
      by_cases henough : UInt32.ofNat s.count.toNat ≥ count
      · have hle := UInt32.le_iff_toNat_le.1 henough
        rw [if_pos henough]
        refine iff_of_true rfl ?_
        omega
      · have hlt := UInt32.lt_iff_toNat_lt.1 (UInt32.not_le.1 henough)
        have hsub : (count - UInt32.ofNat s.count.toNat).toNat = count.toNat - s.count.toNat := by
          rw [UInt32.toNat_sub_of_le _ _ (UInt32.le_iff_toNat_le.2 (by omega)), hthere]
        rw [if_neg henough, ih (by omega), hsub]
        omega
    · rw [if_neg hs, matchingCount, List.filter_cons_of_neg hs]
      exact ih hcount

end

/-! ## What the queries say -/

section

variable {defs : ItemDefManager} {l : InventoryList} {item : ItemStack} {matchMeta : Bool}

theorem roomForItem_iff (defs : ItemDefManager) (l : InventoryList) (hitem : item.isEmpty = false) :
    l.roomForItem defs item = true ↔ (l.addItem defs item).1.isEmpty = true := by
  have hcount : item.count.toNat ≠ 0 := fun h0 =>
    Bool.eq_false_iff.1 hitem (ItemStack.isEmpty_iff.2 h0)
  have hself := ItemStack.withCount_self hcount
  calc
    l.roomForItem defs item = true
        ↔ item.count.toNat ≤ (l.items.map fun s => ItemStack.room defs s item).sum := by
      have hquery := roomLoop_iff defs item l.items hcount
      rwa [hself] at hquery
    _ ↔ (l.addItem defs item).1.isEmpty = true := by
      have hadd := addItem_isEmpty_iff item defs l hcount
      rw [hself] at hadd
      exact hadd.symm

theorem containsItem_iff (l : InventoryList) (item : ItemStack) (matchMeta : Bool) :
    l.containsItem item matchMeta = true ↔
      item.count.toNat ≤ matchingCount item matchMeta l.items := by
  have hreverse : matchingCount item matchMeta l.items.reverse =
      matchingCount item matchMeta l.items := by
    rw [matchingCount, matchingCount, List.filter_reverse, itemCount, itemCount, List.map_reverse,
      List.sum_reverse]
  have hcount := toNat_ofNat_count item.count
  rw [InventoryList.containsItem]
  split
  · rename_i hzero
    rw [hzero] at hcount
    have h0 : (0 : UInt32).toNat = 0 := rfl
    refine iff_of_true rfl ?_
    omega
  · rename_i hne
    have hpos : (UInt32.ofNat item.count.toNat).toNat ≠ 0 := fun h0 => hne (UInt32.toNat_inj.1 h0)
    rw [containsLoop_iff item matchMeta _ hpos, hcount, hreverse]

/-- What `removeItem` gives and what it leaves: as many of the items asked for as there are, from
slots that hold such items. -/
structure Removes (item : ItemStack) (matchMeta : Bool) (l : InventoryList)
    (r : ItemStack × InventoryList) : Prop where
  count_eq : r.1.count.toNat = min item.count.toNat (matchingCount item matchMeta l.items)
  itemCount_eq : itemCount r.2.items + r.1.count.toNat = itemCount l.items
  slots : List.Forall₂ (Lessened item matchMeta) l.items r.2.items

theorem removeItem_spec (defs : ItemDefManager) (l : InventoryList) (item : ItemStack)
    (matchMeta : Bool) : Removes item matchMeta l (l.removeItem defs item matchMeta) := by
  have hreverse : ∀ items : List ItemStack, itemCount items.reverse = itemCount items := by
    intro items
    rw [itemCount, itemCount, List.map_reverse, List.sum_reverse]
  have hnothing : ItemStack.cleared.count.toNat ≤ item.count.toNat := Nat.zero_le _
  have hspec := removeLoop_spec defs item matchMeta l.items.reverse hnothing
  have hitems : (l.removeItem defs item matchMeta).2.items =
      (InventoryList.removeLoop defs item matchMeta l.items.reverse .cleared).2.reverse := by
    rw [InventoryList.removeItem]
    dsimp only
    split
    · rfl
    · rfl
  refine ⟨?_, ?_, ?_⟩
  · have hcount := hspec.count_eq
    have hnone : ItemStack.cleared.count.toNat = 0 := rfl
    rw [hnone, Nat.zero_add, matchingCount, List.filter_reverse, hreverse] at hcount
    exact hcount
  · rw [hitems, hreverse, ← hreverse l.items]
    exact hspec.itemCount_eq
  · have hslots := List.forall₂_reverse_iff.2 hspec.slots
    rw [List.reverse_reverse] at hslots
    rw [hitems]
    exact hslots

/-- The queries say what the operations will do: room is found exactly when nothing is left over,
and items are contained exactly when all of them can be removed. -/
theorem queries_agree (defs : ItemDefManager) (l : InventoryList) (item wanted : ItemStack)
    (matchMeta : Bool) (hitem : item.isEmpty = false) :
    (l.roomForItem defs item = true ↔ (l.addItem defs item).1.isEmpty = true) ∧
      Removes wanted matchMeta l (l.removeItem defs wanted matchMeta) ∧
      (l.containsItem wanted matchMeta = true ↔
        (l.removeItem defs wanted matchMeta).1.count = wanted.count) := by
  have hremoves := removeItem_spec defs l wanted matchMeta
  refine ⟨roomForItem_iff defs l hitem, hremoves, ?_⟩
  have hcount := hremoves.count_eq
  rw [containsItem_iff, ← UInt16.toNat_inj]
  omega

end

theorem queries_agree_apples :
    ((tenApples.heap ()).roomForItem .builtin (apples 3) = true ↔
        ((tenApples.heap ()).addItem .builtin (apples 3)).1.isEmpty = true) ∧
      Removes (apples 4) true (tenApples.heap ())
        ((tenApples.heap ()).removeItem .builtin (apples 4) true) ∧
      ((tenApples.heap ()).containsItem (apples 4) true = true ↔
        ((tenApples.heap ()).removeItem .builtin (apples 4) true).1.count = (apples 4).count) :=
  queries_agree .builtin (tenApples.heap ()) (apples 3) (apples 4) true (by decide)

end Inventory
end AxisEngine
