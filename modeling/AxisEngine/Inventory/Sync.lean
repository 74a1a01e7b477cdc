import AxisEngine.Inventory.MoveItem
import AxisEngine.Inventory.RoundTrip
import AxisEngine.Lib.Transition

/-!
# Sync — a client that is sent what has changed

The server changes its inventory, and sends it from time to time: every list, or only the flagged
ones.  The client reads each text into the inventory it has.

* `Op`, `Step` — the operations on the server, and the sends;
* `InSync` — every list that is not flagged is on the client;
* `incremental_sync` — after every send the client has the lists of the server.
-/

namespace AxisEngine
namespace Inventory

open Lib Util

/-! ## What a client has after a text -/

/-- What the client has after the lists `done`, with `todo` still to come. -/
structure Received (incremental : Bool) (done todo : List InventoryList)
    (state : Inventory × List Nat) : Prop where
  nodup : (state.1.lists.map InventoryList.name).Nodup
  received : ∀ l ∈ done, ∃ i ∈ state.2, ∃ l', state.1.lists[i]? = some l' ∧ l'.contents = l.contents
  only : ∀ i ∈ state.2, ∃ l ∈ done, ∃ l', state.1.lists[i]? = some l' ∧ l'.contents = l.contents
  kept : ∀ l ∈ todo, isSent incremental l = false → ∃ l' ∈ state.1.lists, l'.contents = l.contents

section

variable {inv server : Inventory} {l l' : InventoryList} {done todo lists : List InventoryList}
variable {state : Inventory × List Nat} {incremental : Bool} {name : Bytes} {i j : Nat}

theorem name_of_contents (h : l'.contents = l.contents) : l'.name = l.name :=
  congrArg (fun c => c.2.1) h

/-- A name stands at one index only. -/
theorem index_unique (hnodup : (lists.map InventoryList.name).Nodup) (hi : lists[i]? = some l)
    (hj : lists[j]? = some l') (hname : l.name = l'.name) : i = j := by
  have hlt : i < (lists.map InventoryList.name).length := by
    rw [List.length_map]
    exact (List.getElem?_eq_some_iff.1 hi).1
  refine (List.getElem?_inj hlt hnodup).1 ?_
  rw [List.getElem?_map, List.getElem?_map, hi, hj, Option.map_some, Option.map_some, hname]

theorem getListIndex_of_mem (hnodup : (inv.lists.map InventoryList.name).Nodup)
    (hl : l ∈ inv.lists) : ∃ i, inv.getListIndex l.name = some i ∧ inv.lists[i]? = some l := by
  rcases List.mem_iff_getElem?.1 hl with ⟨j, hj⟩
  cases hindex : inv.getListIndex l.name with
  | none => exact absurd rfl (getListIndex_eq_none hindex l hl)
  | some i =>
    rcases getListIndex_eq_some hindex with ⟨l', hl', hname⟩
    have hij := index_unique hnodup hl' hj hname
    exact ⟨i, rfl, hij ▸ hj⟩

/-- A list that comes replaces the one of its name; what is at another index stays. -/
theorem receive_spec (hnodup : (inv.lists.map InventoryList.name).Nodup) :
    ((receive inv l).1.lists.map InventoryList.name).Nodup ∧
      (receive inv l).1.lists[(receive inv l).2]? = some (l.setModified true) ∧
      ∀ (j : Nat) (l' : InventoryList), inv.lists[j]? = some l' → l'.name ≠ l.name →
        (receive inv l).1.lists[j]? = some l' := by
  rw [receive]
  cases hindex : inv.getListIndex l.name with
  | none =>
    have hnew := getListIndex_eq_none hindex
    refine ⟨?_, ?_, ?_⟩
    · rw [List.map_append, List.nodup_append]
      refine ⟨hnodup, List.nodup_singleton _, ?_⟩
      rintro a ha b hb rfl
      rcases List.mem_map.1 ha with ⟨l', hl', rfl⟩
      exact hnew l' hl' (List.mem_singleton.1 hb)
    · exact List.getElem?_concat_length
    · intro j l' hl' _
      exact List.getElem?_append_left (List.getElem?_eq_some_iff.1 hl').1 ▸ hl'
  | some i =>
    rcases getListIndex_eq_some hindex with ⟨old, hold, hname⟩
    have hlt := (List.getElem?_eq_some_iff.1 hold).1
    refine ⟨?_, List.getElem?_set_self hlt, ?_⟩
    · have hname' : (l.setModified true).name = old.name := hname.symm
      simp only [names_setListAt hold hname']
      exact hnodup
    · intro j l' hl' hother
      have hij : i ≠ j := by
        rintro rfl
        exact hother ((Option.some.inj (hl'.symm.trans hold)) ▸ hname)
      exact (List.getElem?_set_ne hij).trans hl'

theorem Received.step (h : Received incremental done (l :: todo) state)
    (hnodup : ((done ++ l :: todo).map InventoryList.name).Nodup) :
    Received incremental (done ++ [l]) todo (receiveOne incremental state l) := by
  -- the name is not one of those that came before or are still to come
  rw [List.map_append, List.map_cons, List.nodup_append, List.nodup_cons] at hnodup
  have hdone : ∀ l' ∈ done, l'.name ≠ l.name := fun l' hl' =>
    hnodup.2.2 _ (List.mem_map_of_mem hl') _ (List.mem_cons_self ..)
  have htodo : ∀ l' ∈ todo, l'.name ≠ l.name := fun l' hl' hsame =>
    hnodup.2.1.1 (hsame ▸ List.mem_map_of_mem hl')
  rw [receiveOne]
  by_cases hsent : isSent incremental l = true
  · rw [if_pos hsent]
    rcases receive_spec (l := l) h.nodup with ⟨hnames, hnew, hother⟩
    constructor
    · exact hnames
    · intro l₁ hl₁
      rcases List.mem_append.1 hl₁ with hl₁ | hl₁
      · rcases h.received l₁ hl₁ with ⟨i, hi, l', hl', hsame⟩
        have hne := hdone l₁ hl₁
        rw [← name_of_contents hsame] at hne
        exact ⟨i, List.mem_append_left _ hi, l', hother i l' hl' hne, hsame⟩
      · rw [List.mem_singleton.1 hl₁]
        exact ⟨_, List.mem_append_right _ (List.mem_singleton.2 rfl), _, hnew, rfl⟩
    · intro i hi
      rcases List.mem_append.1 hi with hi | hi
      · rcases h.only i hi with ⟨l₁, hl₁, l', hl', hsame⟩
        have hne := hdone l₁ hl₁
        rw [← name_of_contents hsame] at hne
        exact ⟨l₁, List.mem_append_left _ hl₁, l', hother i l' hl' hne, hsame⟩
      · rw [List.mem_singleton.1 hi]
        exact ⟨l, List.mem_append_right _ (List.mem_singleton.2 rfl), _, hnew, rfl⟩
    · intro l₁ hl₁ hkeep
      rcases h.kept l₁ (List.mem_cons_of_mem l hl₁) hkeep with ⟨l', hl', hsame⟩
      have hne := htodo l₁ hl₁
      rw [← name_of_contents hsame] at hne
      rcases List.mem_iff_getElem?.1 hl' with ⟨j, hj⟩
      exact ⟨l', List.mem_of_getElem? (hother j l' hj hne), hsame⟩
  · rw [if_neg hsent]
    rw [Bool.not_eq_true] at hsent
    rcases h.kept l (List.mem_cons_self ..) hsent with ⟨old, hold, hsame⟩
    rcases getListIndex_of_mem h.nodup hold with ⟨i, hindex, hi⟩
    rw [name_of_contents hsame] at hindex
    rw [hindex, Option.toList_some]
    constructor
    · exact h.nodup
    · intro l₁ hl₁
      rcases List.mem_append.1 hl₁ with hl₁ | hl₁
      · rcases h.received l₁ hl₁ with ⟨j, hj, hrest⟩
        exact ⟨j, List.mem_append_left _ hj, hrest⟩
      · rw [List.mem_singleton.1 hl₁]
        exact ⟨i, List.mem_append_right _ (List.mem_singleton.2 rfl), old, hi, hsame⟩
    · intro j hj
      rcases List.mem_append.1 hj with hj | hj
      · rcases h.only j hj with ⟨l₁, hl₁, hrest⟩
        exact ⟨l₁, List.mem_append_left _ hl₁, hrest⟩
      · rw [List.mem_singleton.1 hj]
        exact ⟨l, List.mem_append_right _ (List.mem_singleton.2 rfl), old, hi, hsame⟩
    · exact fun l₁ hl₁ => h.kept l₁ (List.mem_cons_of_mem l hl₁)

theorem Received.foldl (h : Received incremental done todo state)
    (hnodup : ((done ++ todo).map InventoryList.name).Nodup) :
    Received incremental (done ++ todo) [] (todo.foldl (receiveOne incremental) state) := by
  induction todo generalizing done state with
  | nil => simpa using h
  | cons l todo ih =>
    have hstep := h.step hnodup
    have hrest := ih hstep (by simpa using hnodup)
    simpa using hrest

theorem mem_removeOthers {newLists : List Nat} :
    l ∈ (inv.removeOthers newLists).lists ↔ ∃ i ∈ newLists, inv.lists[i]? = some l := by
  rw [removeOthers]
  simp only [List.mem_map, List.mem_filter, decide_eq_true_eq]
  constructor
  · rintro ⟨⟨l', i⟩, ⟨hmem, hi⟩, rfl⟩
    exact ⟨i, hi, List.mk_mem_zipIdx_iff_getElem?.1 hmem⟩
  · rintro ⟨i, hi, hl⟩
    exact ⟨(l, i), ⟨List.mk_mem_zipIdx_iff_getElem?.2 hl, hi⟩, rfl⟩

theorem names_removeOthers (hnodup : (inv.lists.map InventoryList.name).Nodup)
    (newLists : List Nat) :
    ((inv.removeOthers newLists).lists.map InventoryList.name).Nodup := by
  have hsub : ((inv.lists.zipIdx.filter fun e => decide (e.2 ∈ newLists)).map Prod.fst).Sublist
      (inv.lists.zipIdx.map Prod.fst) := List.filter_sublist.map _
  rw [List.zipIdx_map_fst] at hsub
  exact hnodup.sublist (hsub.map _)

theorem nodup_contents (hnodup : (inv.lists.map InventoryList.name).Nodup) :
    inv.contents.Nodup := by
  refine List.Nodup.of_map (fun c => c.2.1) ?_
  rw [contents, List.map_map]
  exact hnodup

/-- A client that had every list that was not sent has exactly the lists of the server. -/
theorem receiveAll_spec (hclient : (inv.lists.map InventoryList.name).Nodup)
    (hserver : (server.lists.map InventoryList.name).Nodup)
    (hkept : ∀ l ∈ server.lists, isSent incremental l = false →
      ∃ l' ∈ inv.lists, l'.contents = l.contents) :
    ((receiveAll incremental server.lists inv).lists.map InventoryList.name).Nodup ∧
      (receiveAll incremental server.lists inv).contents.Perm server.contents := by
  have hstart : Received incremental [] server.lists (inv, []) :=
    ⟨hclient, fun l hl => (List.not_mem_nil hl).elim, fun i hi => (List.not_mem_nil hi).elim, hkept⟩
  have hall := hstart.foldl hserver
  rw [List.nil_append] at hall
  rw [receiveAll]
  generalize server.lists.foldl (receiveOne incremental) (inv, []) = state at hall
  rcases state with ⟨inv, newLists⟩
  have hnames := names_removeOthers hall.nodup newLists
  refine ⟨hnames, (List.perm_ext_iff_of_nodup (nodup_contents hnames)
    (nodup_contents hserver)).2 fun c => ?_⟩
  simp only [contents, List.mem_map, mem_removeOthers]
  constructor
  · rintro ⟨l', ⟨i, hi, hl'⟩, rfl⟩
    rcases hall.only i hi with ⟨l, hl, l₁, hl₁, hsame⟩
    have heq : l₁ = l' := Option.some.inj (hl₁.symm.trans hl')
    exact ⟨l, hl, heq ▸ hsame.symm⟩
  · rintro ⟨l, hl, rfl⟩
    rcases hall.received l hl with ⟨i, hi, l', hl', hsame⟩
    exact ⟨l', ⟨i, hi, hl'⟩, hsame⟩

end

/-! ## Stacks that reach the client as they are -/

/-- A stack whose text can be read back, and of which the operations make no other stack: a tool is
alone, and does not stack. -/
structure ItemStack.Sound (r : Reader) (defs : ItemDefManager) (s : ItemStack) : Prop where
  sendable : s.Sendable (some defs)
  readable : s.readable r = true
  single : s.count ≠ 0 → (defs.get s.name).type = .tool → (s.getStackMax defs).toNat ≤ 1

namespace ItemStack

section

variable {r : Reader} {defs : ItemDefManager} {s newitem : ItemStack} {k : UInt16}

theorem sound_cleared (r : Reader) (defs : ItemDefManager) : Sound r defs .cleared where
  sendable := ⟨fun _ => rfl, fun h => absurd rfl h⟩
  readable := rfl
  single h := absurd rfl h

/-- Another count of the same items, as long as a tool stays alone. -/
theorem Sound.withCount (hs : s.Sound r defs) (hne : s.count ≠ 0)
    (htool : (defs.get s.name).type = .tool → k ≠ 0 → k = 1) : (s.withCount k).Sound r defs := by
  rw [ItemStack.withCount]
  split
  · exact sound_cleared r defs
  · rename_i hk
    have hplain := hs.sendable.plain hne
    refine ⟨⟨fun hzero => absurd hzero hk, fun _ => ⟨hplain.name_ne, hplain.alias_eq,
      hplain.not_keyword, ?_, hplain.sanitized⟩⟩, ?_, fun _ => hs.single hne⟩
    · rintro defs' hdefs htype
      cases hdefs
      exact htool htype hk
    · have hempty : s.isEmpty = false := by simpa [isEmpty] using hne
      have hreadable := hs.readable
      rw [ItemStack.readable, hempty, Bool.false_or] at hreadable
      rw [ItemStack.readable]
      exact Bool.or_eq_true_iff.2 (.inr hreadable)

/-- Fewer items of the same kind. -/
theorem Sound.fewer (hs : s.Sound r defs) (hk : k.toNat ≤ s.count.toNat) :
    (s.withCount k).Sound r defs := by
  by_cases hzero : s.count = 0
  · have hk0 : k = 0 := by
      refine UInt16.toNat_inj.1 (Nat.le_zero.1 ?_)
      rw [hzero] at hk
      exact hk
    rw [ItemStack.withCount, if_pos hk0]
    exact sound_cleared r defs
  · refine hs.withCount hzero fun htool hne => UInt16.toNat_inj.1 ?_
    have hone := (hs.sendable.plain hzero).tool_count defs rfl htool
    have hpos : k.toNat ≠ 0 := fun h0 => hne (UInt16.toNat_inj.1 h0)
    rw [hone] at hk
    have hone' : (1 : UInt16).toNat = 1 := rfl
    omega

theorem sound_addItem (hs : s.Sound r defs) (hnew : newitem.Sound r defs) :
    (s.addItem defs newitem).1.Sound r defs ∧ (s.addItem defs newitem).2.Sound r defs := by
  by_cases hempty : newitem.count.toNat = 0
  · rw [ItemStack.addItem, if_pos (isEmpty_iff.2 hempty)]
    exact ⟨hs, hnew⟩
  · have hbound := newitem.count.toNat_lt
    have hk : (UInt16.ofNat (min newitem.count.toNat (room defs s newitem))).toNat =
        min newitem.count.toNat (room defs s newitem) := by
      rw [UInt16.toNat_ofNat']
      omega
    rw [addItem_eq defs s hempty hk]
    generalize UInt16.ofNat (min newitem.count.toNat (room defs s newitem)) = k at hk
    constructor
    · rw [receive]
      split
      · exact hs
      · rename_i hne
        split
        · exact hnew.fewer (by omega)
        · rename_i hfull
          have hcount : s.count.toNat ≠ 0 := mt isEmpty_iff.2 hfull
          have hcount' : s.count ≠ 0 := fun h0 => hcount (congrArg UInt16.toNat h0)
          have hpos : k.toNat ≠ 0 := fun h0 => hne (UInt16.toNat_inj.1 h0)
          have hroom : room defs s newitem ≤ _ := room_le_freeSpace hfull
          have hfree := count_add_freeSpace_lt defs s
          have hsum : (s.count + k).toNat = s.count.toNat + k.toNat := by
            rw [UInt16.toNat_add]
            omega
          have hadd : s.add k = s.withCount (s.count + k) := by
            rw [withCount_of_ne (by omega)]
            rfl
          rw [hadd]
          refine hs.withCount hcount' fun htool _ => ?_
          -- there is no room for a second tool
          have hmax := hs.single hcount' htool
          have hnone : (s.freeSpace defs).toNat = 0 := by
            rw [freeSpace, if_pos]
            · rfl
            · exact UInt16.le_iff_toNat_le.2 (by omega)
          omega
    · refine hnew.fewer ?_
      rw [toNat_sub_of_le' (by omega)]
      omega

theorem sound_takeItem (hs : s.Sound r defs) (takecount : UInt32) :
    (s.takeItem takecount).2.Sound r defs := by
  have hcases := takeItem_cases s takecount
  generalize s.takeItem takecount = r at hcases
  cases hcases with
  | nothing _ => exact hs
  | @some k _ _ hk =>
    refine hs.fewer ?_
    rw [toNat_sub_of_le' (by omega)]
    omega

end

end ItemStack

/-! ## Operations on lists -/

/-- What every operation on one list does: the name stays, a list that is not as it was is flagged,
and no stack is made that does not reach the client. -/
structure Handled (r : Reader) (defs : ItemDefManager) (l l' : InventoryList) : Prop where
  name_eq : l'.name = l.name
  flagged : l' = l ∨ l'.dirty = true
  sound : (∀ s ∈ l.items, s.Sound r defs) → ∀ s ∈ l'.items, s.Sound r defs

section

variable {r : Reader} {defs : ItemDefManager} {l l' : InventoryList} {s newitem : ItemStack}
variable {i : Nat}

theorem Handled.refl (r : Reader) (defs : ItemDefManager) (l : InventoryList) :
    Handled r defs l l :=
  ⟨rfl, .inl rfl, id⟩

theorem Handled.of_mutated (h : InventoryList.Mutated l l')
    (hsound : (∀ s ∈ l.items, s.Sound r defs) → ∀ s ∈ l'.items, s.Sound r defs) :
    Handled r defs l l' :=
  ⟨h.name_eq, h.flagged, hsound⟩

theorem sound_set (hl : ∀ s ∈ l.items, s.Sound r defs) (hnew : newitem.Sound r defs) :
    ∀ s ∈ l.items.set i newitem, s.Sound r defs := by
  intro s hs
  rcases List.mem_or_eq_of_mem_set hs with hs | rfl
  · exact hl s hs
  · exact hnew

theorem handled_changeItem (hnew : newitem.Sound r defs) :
    Handled r defs l (l.changeItem i newitem).2 := by
  refine .of_mutated InventoryList.mutated_changeItem fun hl => ?_
  cases hs : l.items[i]? with
  | none =>
    rw [InventoryList.changeItem_of_none hs]
    exact hl
  | some s =>
    rw [(InventoryList.changeItem_of_some hs newitem).2]
    exact sound_set hl hnew

theorem sound_addItemAt (hl : ∀ s ∈ l.items, s.Sound r defs) (hnew : newitem.Sound r defs) :
    (l.addItemAt defs i newitem).1.Sound r defs ∧
      ∀ s ∈ (l.addItemAt defs i newitem).2.items, s.Sound r defs := by
  cases hs : l.items[i]? with
  | none =>
    rw [InventoryList.addItemAt_of_none hs]
    exact ⟨hnew, hl⟩
  | some s =>
    rcases InventoryList.addItemAt_of_some defs hs newitem with ⟨hleft, hitems⟩
    rcases ItemStack.sound_addItem (hl s (List.mem_of_getElem? hs)) hnew with ⟨hfirst, hrest⟩
    rw [hleft, hitems]
    exact ⟨hrest, sound_set hl hfirst⟩

theorem handled_addItemAt (hnew : newitem.Sound r defs) :
    Handled r defs l (l.addItemAt defs i newitem).2 :=
  .of_mutated InventoryList.mutated_addItemAt fun hl => (sound_addItemAt hl hnew).2

theorem handled_addItem (hnew : newitem.Sound r defs) :
    Handled r defs l (l.addItem defs newitem).2 := by
  refine .of_mutated InventoryList.mutated_addItem fun hl => ?_
  have hstep : ∀ i (rest : ItemStack) (l' : InventoryList),
      (rest.Sound r defs ∧ ∀ s ∈ l'.items, s.Sound r defs) →
        (l'.addItemAt defs i rest).1.Sound r defs ∧
          ∀ s ∈ (l'.addItemAt defs i rest).2.items, s.Sound r defs :=
    fun i rest l' h => sound_addItemAt h.2 h.1
  have hall := InventoryList.addItem_invariant
    (P := fun rest l' => rest.Sound r defs ∧ ∀ s ∈ l'.items, s.Sound r defs) hstep ⟨hnew, hl⟩
  exact hall.2

theorem handled_takeItem (takecount : UInt32) :
    Handled r defs l (l.takeItem i takecount).2 := by
  refine .of_mutated InventoryList.mutated_takeItem fun hl => ?_
  cases hs : l.items[i]? with
  | none =>
    rw [InventoryList.takeItem_of_none hs]
    exact hl
  | some s =>
    rw [(InventoryList.takeItem_of_some hs takecount).2]
    exact sound_set hl (ItemStack.sound_takeItem (hl s (List.mem_of_getElem? hs)) takecount)

theorem handled_clearItems (r : Reader) (defs : ItemDefManager) (l : InventoryList) :
    Handled r defs l l.clearItems := by
  refine ⟨rfl, .inr rfl, fun _ s hs => ?_⟩
  rcases List.mem_map.1 hs with ⟨_, _, rfl⟩
  exact ItemStack.sound_cleared r defs

theorem handled_setSize (r : Reader) (defs : ItemDefManager) (l : InventoryList)
    (newsize : UInt32) : Handled r defs l (l.setSize newsize) := by
  rw [InventoryList.setSize]
  split
  · exact .refl r defs l
  · refine ⟨rfl, .inr rfl, fun hl s hs => ?_⟩
    rcases List.mem_append.1 (List.mem_of_mem_take hs) with hs | hs
    · exact hl s hs
    · rw [List.eq_of_mem_replicate hs]
      exact ItemStack.sound_cleared r defs

theorem handled_setWidth (r : Reader) (defs : ItemDefManager) (l : InventoryList)
    (newwidth : UInt32) : Handled r defs l (l.setWidth newwidth) :=
  ⟨rfl, .inr rfl, id⟩

end

section

variable {ι : Type} [DecidableEq ι] {r : Reader} {defs : ItemDefManager} {h : Heap ι}
variable {this dest : ι} {i destI : Nat} {count : UInt32} {swapIfNeeded : Bool} {moved : Moved ι}

/-- A move makes only stacks that reach the client. -/
theorem sound_moveItem (hh : ∀ a, ∀ s ∈ h.slots a, s.Sound r defs)
    (hmove : moveItem defs h this i dest destI count swapIfNeeded = some moved) :
    ∀ a, ∀ s ∈ moved.heap.slots a, s.Sound r defs := by
  rcases moveItem_outcome defs h this i dest destI count swapIfNeeded with ⟨r', hr', houtcome⟩
  have hsame : moved = r' := Option.some.inj (hmove.symm.trans hr')
  subst hsame
  have hcell : ∀ {a j s}, cell h.slots a j = some s → s.Sound r defs := fun hs =>
    hh _ _ (List.mem_of_getElem? hs)
  generalize moved.moved = stack at houtcome
  generalize moved.didSwap = swapped at houtcome
  generalize moved.heap.slots = slots at houtcome
  cases houtcome with
  | same _ => exact hh
  | noSource _ _ => exact hh
  | @empty old _ hold hzero =>
    have hclean : old = .cleared := (hcell hold).sendable.clean (UInt16.toNat_inj.1 hzero)
    have hrest : (taken old count).2 = .cleared := by
      rw [taken]
      split
      · rfl
      · rw [hclean, ItemStack.takeItem, if_pos (.inr rfl)]
    refine forall_setCell hh ?_ this i
    rw [hrest]
    exact ItemStack.sound_cleared r defs
  | @moved old other n m _ hold hother _ hle hlt _ =>
    have hleft : (old.withCount (old.count - (n - m))).Sound r defs := by
      refine (hcell hold).fewer ?_
      have hnm := ItemStack.toNat_sub_of_le' hlt.le
      rw [ItemStack.toNat_sub_of_le' (by omega)]
      omega
    have hadded := ItemStack.sound_addItem (hcell hother) ((hcell hold).fewer hle)
    exact forall_setCell (forall_setCell hh hleft this i) hadded.1 dest destI
  | stuck _ _ _ _ _ _ _ => exact hh
  | swapped _ hold _ hother _ _ _ =>
    exact forall_setCell (forall_setCell hh (hcell hother) this i) (hcell hold) dest destI
  | nowhere _ _ _ => exact hh

theorem handled_moveItem (hh : ∀ a, ∀ s ∈ h.slots a, s.Sound r defs)
    (hmove : moveItem defs h this i dest destI count swapIfNeeded = some moved) (a : ι) :
    Handled r defs (h a) (moved.heap a) :=
  .of_mutated (mutated_moveItem hmove a) fun _ => sound_moveItem hh hmove a

end

/-! ## Operations on the inventory -/

/-- The operations, each on the list of a name; `moveItem` also takes a list of another inventory,
at the place of a name that is not given. -/
inductive Op where
  | addItem (name : Bytes) (newitem : ItemStack)
  | addItemAt (name : Bytes) (i : Nat) (newitem : ItemStack)
  | takeItem (name : Bytes) (i : Nat) (takecount : UInt32)
  | changeItem (name : Bytes) (i : Nat) (newitem : ItemStack)
  | moveItem (this : Option Bytes) (i : Nat) (dest : Option Bytes) (destI : Nat) (count : UInt32)
      (swapIfNeeded : Bool) (other : InventoryList)
  | clearItems (name : Bytes)
  | setSize (name : Bytes) (newsize : UInt32)
  | setWidth (name : Bytes) (newwidth : UInt32)
  | addList (name : Bytes) (size : UInt32)
  | deleteList (name : Bytes)

variable (inv : Inventory)

/-- A call on the list of a name; `none` when there is no such list. -/
def updateList (name : Bytes) (f : InventoryList → InventoryList) : Option Inventory := do
  let i ← inv.getListIndex name
  let l ← inv.lists[i]?
  some (inv.setListAt i (f l))

/-- The lists that a move can reach: those of the inventory, and one other. -/
def heap (other : InventoryList) : Heap (Option Nat)
  | none => other
  | some i => inv.lists[i]?.getD other

def withHeap (h : Heap (Option Nat)) : Inventory :=
  { inv with lists := inv.lists.mapIdx fun i _ => h (some i) }

def pointer : Option Bytes → Option (Option Nat)
  | none => some none
  | some name => (inv.getListIndex name).map some

def Op.apply : Op → Option Inventory
  | .addItem name newitem => inv.updateList name fun l => (l.addItem inv.itemdef newitem).2
  | .addItemAt name i newitem => inv.updateList name fun l => (l.addItemAt inv.itemdef i newitem).2
  | .takeItem name i takecount => inv.updateList name fun l => (l.takeItem i takecount).2
  | .changeItem name i newitem => inv.updateList name fun l => (l.changeItem i newitem).2
  | .moveItem this i dest destI count swapIfNeeded other => do
      let this ← inv.pointer this
      let dest ← inv.pointer dest
      let moved ← Inventory.moveItem inv.itemdef (inv.heap other) this i dest destI count
        swapIfNeeded
      some (inv.withHeap moved.heap)
  | .clearItems name => inv.updateList name fun l => l.clearItems
  | .setSize name newsize => inv.updateList name fun l => l.setSize newsize
  | .setWidth name newwidth => inv.updateList name fun l => l.setWidth newwidth
  | .addList name size => some (inv.addList name size)
  | .deleteList name => some (inv.deleteList name)

/-- What an operation is given can be sent: the stacks, and the name of a new list. -/
def Op.Sound (r : Reader) (defs : ItemDefManager) : Op → Prop
  | .addItem _ newitem | .addItemAt _ _ newitem | .changeItem _ _ newitem => newitem.Sound r defs
  | .moveItem _ _ _ _ _ _ other => ∀ s ∈ other.items, s.Sound r defs
  | .addList name _ => (10 : UInt8) ∉ name
  | _ => True

/-- All of the inventory can be sent. -/
structure Whole (r : Reader) (inv : Inventory) : Prop where
  named : inv.Named
  noNewline : inv.NoNewline
  sound : ∀ l ∈ inv.lists, ∀ s ∈ l.items, s.Sound r inv.itemdef

/-- What every operation does to an inventory: a list that is not flagged was there before. -/
structure Tracked (r : Reader) (inv inv' : Inventory) : Prop where
  itemdef_eq : inv'.itemdef = inv.itemdef
  whole : inv'.Whole r
  unflagged : ∀ l ∈ inv'.lists, l.dirty = false → l ∈ inv.lists

section

variable {r : Reader} {inv inv' : Inventory} {name : Bytes} {f : InventoryList → InventoryList}
variable {op : Op} {l l' : InventoryList} {i : Nat}

section

variable (hinv : inv.Whole r)

include hinv

theorem tracked_of_handled (hdef : inv'.itemdef = inv.itemdef)
    (hlength : inv'.lists.length = inv.lists.length)
    (hall : ∀ (i : Nat) (l l' : InventoryList), inv.lists[i]? = some l →
      inv'.lists[i]? = some l' → Handled r inv.itemdef l l') : Tracked r inv inv' := by
  have hold : ∀ l' ∈ inv'.lists, ∃ l ∈ inv.lists, Handled r inv.itemdef l l' := by
    intro l' hl'
    rcases List.mem_iff_getElem?.1 hl' with ⟨i, hi⟩
    have hlt : i < inv.lists.length := hlength ▸ (List.getElem?_eq_some_iff.1 hi).1
    have hget := List.getElem?_eq_getElem hlt
    exact ⟨inv.lists[i], List.getElem_mem hlt, hall i _ l' hget hi⟩
  have hnames : inv'.lists.map InventoryList.name = inv.lists.map InventoryList.name := by
    refine List.ext_getElem (by simpa using hlength) fun i hi' hi => ?_
    rw [List.length_map] at hi hi'
    rw [List.getElem_map, List.getElem_map]
    exact (hall i _ _ (List.getElem?_eq_getElem hi) (List.getElem?_eq_getElem hi')).name_eq
  refine ⟨hdef, ⟨hinv.named.of_names hnames, ?_, ?_⟩, ?_⟩
  · intro l' hl'
    rcases hold l' hl' with ⟨l, hl, hhandled⟩
    rw [hhandled.name_eq]
    exact hinv.noNewline l hl
  · intro l' hl'
    rcases hold l' hl' with ⟨l, hl, hhandled⟩
    rw [hdef]
    exact hhandled.sound (hinv.sound l hl)
  · intro l' hl' hclean
    rcases hold l' hl' with ⟨l, hl, hhandled⟩
    rcases hhandled.flagged with rfl | hdirty
    · exact hl
    · rw [hdirty] at hclean
      cases hclean

theorem tracked_setListAt (hl : inv.lists[i]? = some l) (h : Handled r inv.itemdef l l') :
    Tracked r inv (inv.setListAt i l') := by
  refine tracked_of_handled hinv rfl List.length_set fun j l₁ l₂ h₁ h₂ => ?_
  by_cases hij : i = j
  · subst hij
    have hlt := (List.getElem?_eq_some_iff.1 hl).1
    have hset : (inv.setListAt i l').lists[i]? = some l' := List.getElem?_set_self hlt
    rw [hset] at h₂
    rw [hl] at h₁
    cases h₁
    cases h₂
    exact h
  · have hset : (inv.setListAt i l').lists[j]? = inv.lists[j]? := List.getElem?_set_ne hij
    rw [hset, h₁] at h₂
    cases h₂
    exact .refl r inv.itemdef l₁

theorem tracked_updateList (hf : ∀ l, Handled r inv.itemdef l (f l))
    (h : inv.updateList name f = some inv') : Tracked r inv inv' := by
  simp only [updateList, Option.bind_eq_bind, Option.bind_eq_some_iff, Option.some.injEq] at h
  rcases h with ⟨i, -, l, hl, rfl⟩
  exact tracked_setListAt hinv hl (hf l)

theorem tracked_moveItem {this dest : Option Nat} {destI : Nat} {count : UInt32} {swap : Bool}
    {other : InventoryList} {moved : Moved (Option Nat)}
    (hother : ∀ s ∈ other.items, s.Sound r inv.itemdef)
    (h : moveItem inv.itemdef (inv.heap other) this i dest destI count swap = some moved) :
    Tracked r inv (inv.withHeap moved.heap) := by
  have hheap : ∀ a, ∀ s ∈ (inv.heap other).slots a, s.Sound r inv.itemdef := by
    intro a
    rw [Heap.slots]
    cases a with
    | none => exact hother
    | some j =>
      rw [heap]
      cases hj : inv.lists[j]? with
      | none => exact hother
      | some l => exact hinv.sound l (List.mem_of_getElem? hj)
  refine tracked_of_handled hinv rfl List.length_mapIdx fun j l l' hl hl' => ?_
  have hmove := handled_moveItem hheap h (some j)
  have hsource : inv.heap other (some j) = l := by
    rw [heap, hl, Option.getD_some]
  have htarget : moved.heap (some j) = l' := by
    rw [withHeap, List.getElem?_mapIdx, hl] at hl'
    exact Option.some.inj hl'
  rwa [hsource, htarget] at hmove

theorem Tracked.of_setModified
    (h : (inv.setModified true).Whole r → Tracked r (inv.setModified true) inv') :
    Tracked r inv inv' := by
  have htracked := h ⟨hinv.named.of_names rfl, hinv.noNewline, hinv.sound⟩
  exact ⟨htracked.itemdef_eq, htracked.whole, htracked.unflagged⟩

theorem tracked_addList (hname : (10 : UInt8) ∉ name) (size : UInt32) :
    Tracked r inv (inv.addList name size) := by
  have hnamed := hinv.named.addList name size
  rw [addList] at hnamed ⊢
  refine .of_setModified hinv fun hinv' => ?_
  cases hindex : (inv.setModified true).getListIndex name with
  | some i =>
    rcases getListIndex_eq_some hindex with ⟨l, hl, -⟩
    have hsize := handled_setSize r inv.itemdef l size
    have hclear := handled_clearItems r inv.itemdef (l.setSize size)
    simp only [hl]
    exact tracked_setListAt hinv' hl
      ⟨hclear.name_eq.trans hsize.name_eq, .inr rfl, fun hs => hclear.sound (hsize.sound hs)⟩
  | none =>
    simp only [hindex] at hnamed ⊢
    split
    · exact ⟨rfl, hinv', fun l hl _ => hl⟩
    · rename_i hblank
      rw [if_neg hblank] at hnamed
      -- the new list is flagged
      refine ⟨rfl, ⟨hnamed, ?_, ?_⟩, ?_⟩
      · intro l hl
        rcases List.mem_append.1 hl with hl | hl
        · exact hinv.noNewline l hl
        · rw [List.mem_singleton.1 hl]
          exact hname
      · intro l hl s hs
        rcases List.mem_append.1 hl with hl | hl
        · exact hinv.sound l hl s hs
        · rw [List.mem_singleton.1 hl] at hs
          rw [List.eq_of_mem_replicate hs]
          exact ItemStack.sound_cleared r inv.itemdef
      · intro l hl hclean
        rcases List.mem_append.1 hl with hl | hl
        · exact hl
        · rw [List.mem_singleton.1 hl] at hclean
          cases hclean

theorem tracked_deleteList (name : Bytes) : Tracked r inv (inv.deleteList name) := by
  have hnamed := hinv.named.deleteList name
  rw [deleteList] at hnamed ⊢
  cases hindex : inv.getListIndex name with
  | none => exact ⟨rfl, hinv, fun l hl _ => hl⟩
  | some i =>
    simp only [hindex] at hnamed
    have hsub : ∀ l ∈ inv.lists.eraseIdx i, l ∈ inv.lists := fun l hl =>
      (List.eraseIdx_sublist _ _).subset hl
    exact ⟨rfl, ⟨hnamed, fun l hl => hinv.noNewline l (hsub l hl),
      fun l hl => hinv.sound l (hsub l hl)⟩, fun l hl _ => hsub l hl⟩

/-- No operation forgets the flag of a list it changes. -/
theorem tracked_apply (hop : op.Sound r inv.itemdef) (h : op.apply inv = some inv') :
    Tracked r inv inv' := by
  cases op with
  | addItem name newitem => exact tracked_updateList hinv (fun _ => handled_addItem hop) h
  | addItemAt name i newitem => exact tracked_updateList hinv (fun _ => handled_addItemAt hop) h
  | takeItem name i takecount =>
    exact tracked_updateList hinv (fun _ => handled_takeItem takecount) h
  | changeItem name i newitem => exact tracked_updateList hinv (fun _ => handled_changeItem hop) h
  | moveItem this i dest destI count swap other =>
    simp only [Op.apply, Option.bind_eq_bind, Option.bind_eq_some_iff, Option.some.injEq] at h
    rcases h with ⟨this, -, dest, -, moved, hmove, rfl⟩
    exact tracked_moveItem hinv hop hmove
  | clearItems name => exact tracked_updateList hinv (handled_clearItems r inv.itemdef) h
  | setSize name newsize =>
    exact tracked_updateList hinv (fun l => handled_setSize r inv.itemdef l newsize) h
  | setWidth name newwidth =>
    exact tracked_updateList hinv (fun l => handled_setWidth r inv.itemdef l newwidth) h
  | addList name size =>
    cases h
    exact tracked_addList hinv hop size
  | deleteList name =>
    cases h
    exact tracked_deleteList hinv name

end

end

/-! ## Runs -/

/-- The inventory on the server, and the one the client has. -/
structure Sync where
  server : Inventory
  client : Inventory

inductive Label where
  | mutate (op : Op)
  | send (incremental : Bool)

/-- A text that cannot be read leaves anything on the client. -/
inductive Step (r : Reader) : Sync → Label → Sync → Prop
  | mutate {state : Sync} {op : Op} {server : Inventory} :
      op.apply state.server = some server →
      Step r state (.mutate op) { state with server := server }
  | send {state : Sync} {incremental : Bool} {order : MapOrder} {client : Inventory}
      {is : IStream} :
      state.client.deSerialize r { rest := state.server.serialize order incremental } =
        .ok (client, is) →
      Step r state (.send incremental) { server := state.server.setModified false, client := client }
  | broken {state : Sync} {incremental : Bool} {order : MapOrder} {client : Inventory}
      {e : Exception} :
      state.client.deSerialize r { rest := state.server.serialize order incremental } = .error e →
      Step r state (.send incremental) { server := state.server.setModified false, client := client }

/-- What a send leads to whose text can be read. -/
def Sync.sent (incremental : Bool) (state : Sync) : Sync :=
  { server := state.server.setModified false
    client := receiveAll incremental state.server.lists state.client }

/-- The condition on the operations. -/
def Label.Sound (r : Reader) (state : Sync) : Label → Prop
  | .mutate op => op.Sound r state.server.itemdef
  | .send _ => True

/-- The client can be sent to: it has the definitions of the server, and no name twice. -/
structure Connected (r : Reader) (state : Sync) : Prop where
  whole : state.server.Whole r
  itemdef_eq : state.client.itemdef = state.server.itemdef
  nodup : (state.client.lists.map InventoryList.name).Nodup

/-- Every list that is not flagged is on the client. -/
def InSync (state : Sync) : Prop :=
  ∀ l ∈ state.server.lists, l.dirty = false → ∃ l' ∈ state.client.lists, l'.contents = l.contents

section

variable {r : Reader} {state state' : Sync} {label : Label} {incremental : Bool}
variable {labels : List Label}

@[simp] theorem itemdef_receiveAll (incremental : Bool) (lists : List InventoryList)
    (inv : Inventory) : (receiveAll incremental lists inv).itemdef = inv.itemdef := by
  have hfold : ∀ (lists : List InventoryList) (state : Inventory × List Nat),
      (lists.foldl (receiveOne incremental) state).1.itemdef = state.1.itemdef := by
    intro lists
    induction lists with
    | nil => exact fun _ => rfl
    | cons l lists ih =>
      intro state
      rw [List.foldl_cons, ih, receiveOne]
      split
      · exact itemdef_receive state.1 l
      · rfl
  exact hfold lists (inv, [])

theorem whole_setModified {inv : Inventory} (hinv : inv.Whole r) :
    (inv.setModified false).Whole r := by
  have hold : ∀ l ∈ (inv.setModified false).lists, ∃ l' ∈ inv.lists,
      l.name = l'.name ∧ l.items = l'.items := by
    intro l hl
    rcases List.mem_map.1 hl with ⟨l', hl', rfl⟩
    exact ⟨l', hl', rfl, rfl⟩
  refine ⟨hinv.named.of_names ?_, fun l hl => ?_, fun l hl => ?_⟩
  · simp [setModified, InventoryList.setModified, Function.comp_def]
  · rcases hold l hl with ⟨l', hl', hname, -⟩
    rw [hname]
    exact hinv.noNewline l' hl'
  · rcases hold l hl with ⟨l', hl', -, hitems⟩
    rw [hitems]
    exact hinv.sound l' hl'

section

variable (hstate : Connected r state)

include hstate

/-- The client reads the whole text. -/
theorem deSerialize_connected (order : MapOrder) (incremental : Bool) :
    state.client.deSerialize r { rest := state.server.serialize order incremental } =
      .ok (receiveAll incremental state.server.lists state.client, { rest := [] }) := by
  have hlists : ∀ l ∈ state.server.lists, GoodList state.client.itemdef l := by
    intro l hl
    rw [hstate.itemdef_eq]
    exact ⟨⟨hstate.whole.named.no_blank l hl, hstate.whole.noNewline l hl⟩,
      fun s hs => (hstate.whole.sound l hl s hs).sendable⟩
  have hreadable : sentReadable r incremental state.server.lists = true := by
    refine List.all_eq_true.2 fun l hl => Bool.or_eq_true_iff.2 (.inr ?_)
    exact List.all_eq_true.2 fun s hs => (hstate.whole.sound l hl s hs).readable
  have htext := deSerialize_serialize r order incremental hlists []
  rw [List.append_nil, if_pos hreadable] at htext
  exact htext

theorem step_sent (order : MapOrder) (incremental : Bool) :
    Step r state (.send incremental) (state.sent incremental) :=
  .send (deSerialize_connected hstate order incremental)

/-- What a send does: the client has the lists of the server, and nothing is flagged any more. -/
theorem step_send
    (hkept : ∀ l ∈ state.server.lists, isSent incremental l = false →
      ∃ l' ∈ state.client.lists, l'.contents = l.contents)
    (hstep : Step r state (.send incremental) state') :
    Connected r state' ∧ InSync state' ∧ state'.client.contents.Perm state'.server.contents := by
  rcases receiveAll_spec hstate.nodup hstate.whole.named.nodup hkept with ⟨hnodup, hperm⟩
  have hserver : (state.server.setModified false).contents = state.server.contents := by
    simp [contents, setModified, InventoryList.contents, InventoryList.setModified,
      Function.comp_def]
  have hstate' : state' = state.sent incremental := by
    cases hstep with
    | send hok =>
      rw [deSerialize_connected hstate] at hok
      cases hok
      rfl
    | broken herror =>
      rw [deSerialize_connected hstate] at herror
      cases herror
  subst hstate'
  refine ⟨⟨whole_setModified hstate.whole, ?_, hnodup⟩, ?_, ?_⟩
  · exact (itemdef_receiveAll _ _ _).trans hstate.itemdef_eq
  · intro l hl _
    have hmem : l.contents ∈ (state.server.setModified false).contents := List.mem_map_of_mem hl
    rw [hserver] at hmem
    exact List.mem_map.1 (hperm.mem_iff.2 hmem)
  · exact hserver ▸ hperm

/-- An operation leaves the client alone, and flags what it changes. -/
theorem step_mutate (hsync : InSync state) {op : Op} (hop : op.Sound r state.server.itemdef)
    (hstep : Step r state (.mutate op) state') : Connected r state' ∧ InSync state' := by
  cases hstep with
  | mutate happly =>
    have htracked := tracked_apply hstate.whole hop happly
    refine ⟨⟨htracked.whole, hstate.itemdef_eq.trans htracked.itemdef_eq.symm, hstate.nodup⟩, ?_⟩
    exact fun l hl hclean => hsync l (htracked.unflagged l hl hclean) hclean

end

theorem kept_of_inSync (hsync : InSync state) (incremental : Bool) :
    ∀ l ∈ state.server.lists, isSent incremental l = false →
      ∃ l' ∈ state.client.lists, l'.contents = l.contents := by
  intro l hl hsent
  rw [isSent, Bool.or_eq_false_iff] at hsent
  exact hsync l hl hsent.2

theorem inSync_step (hstate : Connected r state) (hsync : InSync state)
    (hlabel : label.Sound r state) (hstep : Step r state label state') :
    Connected r state' ∧ InSync state' := by
  cases label with
  | mutate op => exact step_mutate hstate hsync hlabel hstep
  | send incremental =>
    rcases step_send hstate (kept_of_inSync hsync incremental) hstep with ⟨hstate', hsync', -⟩
    exact ⟨hstate', hsync'⟩

/-- In a run that starts with a full send, and in which the operations are given only what can be
sent, the client has after every send the lists of the server, each as it is there. -/
theorem incremental_sync (r : Reader) (state state' : Sync) (labels : List Label)
    (incremental : Bool) (hstate : Connected r state)
    (hlast : (Label.send false :: labels).getLast? = some (.send incremental))
    (hrun : Run.Guarded (fun s a => Label.Sound r s a) (Step r) state (.send false :: labels)
      state') :
    state'.client.contents.Perm state'.server.contents := by
  cases hrun with
  | cons hfirst hrest =>
    rcases step_send hstate (fun l _ hsent => absurd hsent (by simp [isSent])) hfirst.2 with
      ⟨hstate₁, hsync₁, hperm₁⟩
    rcases List.eq_nil_or_concat labels with rfl | ⟨before, last, rfl⟩
    · rw [← Run.eq_of_nil hrest]
      exact hperm₁
    · -- the last step is a send, from a state in which nothing has drifted
      rw [List.concat_eq_append] at hlast hrest
      rw [← List.cons_append, List.getLast?_concat, Option.some.injEq] at hlast
      subst hlast
      rcases Run.split hrest with ⟨m, hbefore, hsend⟩
      have hm := Run.guarded_invariant (P := fun s => Connected r s ∧ InSync s)
        (fun s a t hs ha hst => inSync_step hs.1 hs.2 ha hst) hbefore ⟨hstate₁, hsync₁⟩
      cases hsend with
      | cons hstep hnil =>
        rw [← Run.eq_of_nil hnil]
        exact (step_send hm.1 (kept_of_inSync hm.2 incremental) hstep.2).2.2

end

/-- Nothing was made and nothing was sent. -/
def atFirst : Sync :=
  { server := { itemdef := .builtin }, client := { itemdef := .builtin } }

theorem connected_atFirst (r : Reader) : Connected r atFirst where
  whole := by
    refine ⟨.empty _, ?_, ?_⟩
    · exact fun _ hl => (List.not_mem_nil hl).elim
    · exact fun _ hl => (List.not_mem_nil hl).elim
  itemdef_eq := rfl
  nodup := List.nodup_nil

theorem connected_described : Connected strict { atFirst with server := oneDescribed } where
  whole := by
    have hnewline : ∀ l ∈ oneDescribed.lists, (10 : UInt8) ∉ l.name := by decide
    refine ⟨⟨by decide, by decide⟩, hnewline, fun l hl s hs => ?_⟩
    rw [List.mem_singleton.1 hl] at hs
    rcases List.mem_cons.1 hs with rfl | hs
    · exact ⟨sendable_described, by decide, fun _ htool => absurd htool (by decide)⟩
    · rw [List.mem_singleton.1 hs]
      exact ItemStack.sound_cleared strict .builtin
  itemdef_eq := rfl
  nodup := List.nodup_nil

theorem incremental_sync_described :
    ∃ state, Run.Guarded (fun s a => Label.Sound strict s a) (Step strict)
        { atFirst with server := oneDescribed }
        [.send false, .mutate (.takeItem (ascii "main") 0 2), .send true] state ∧
      state.client.contents.Perm state.server.contents := by
  have hfirst := step_sent connected_described someOrder false
  have hstart := step_send connected_described
    (fun _ _ hsent => absurd hsent (by simp [isSent])) hfirst
  rcases (⟨_, rfl⟩ : ∃ server, Op.apply (Sync.sent false { atFirst with server := oneDescribed }).server
    (.takeItem (ascii "main") 0 2) = some server) with ⟨server, happly⟩
  have htake := Step.mutate (r := strict) happly
  have hsound : Label.Sound strict (Sync.sent false { atFirst with server := oneDescribed })
      (.mutate (.takeItem (ascii "main") 0 2)) := trivial
  have hmiddle := inSync_step hstart.1 hstart.2.1 hsound htake
  have hlast := step_sent hmiddle.1 someOrder true
  have hrun : Run.Guarded (fun s a => Label.Sound strict s a) (Step strict)
      { atFirst with server := oneDescribed }
      [.send false, .mutate (.takeItem (ascii "main") 0 2), .send true] _ :=
    .cons ⟨trivial, hfirst⟩ (.cons ⟨hsound, htake⟩ (.cons ⟨trivial, hlast⟩ (.nil _)))
  exact ⟨_, hrun, incremental_sync strict _ _ _ true connected_described rfl hrun⟩

/-- A reader for which the size that was never read is 1. -/
def lucky : Reader :=
  { strict with uninitialized := 1 }

theorem read_of_two_lines :
    ((Inventory.deSerialize lucky { rest := twoLines.serialize someOrder true }
      { itemdef := .builtin }).toOption.map fun result => result.1.lists.map InventoryList.name) =
        some [ascii "a"] := by
  decide

/-- A list is added between two sends, and the client has another one. -/
theorem name_of_two_lines_drifts :
    ∃ state, Run (Step lucky) atFirst
        [.send false, .mutate (.addList (ascii "a\nb") 1), .send true] state ∧
      state.server.lists.map InventoryList.name = [ascii "a\nb"] ∧
      state.client.lists.map InventoryList.name = [ascii "a"] ∧
      ¬ state.client.contents.Perm state.server.contents := by
  have hfirst := step_sent (connected_atFirst lucky) someOrder false
  have hadd : Step lucky (atFirst.sent false) (.mutate (.addList (ascii "a\nb") 1))
      { atFirst with server := twoLines } := .mutate rfl
  have hnames := read_of_two_lines
  cases hread : Inventory.deSerialize lucky { rest := twoLines.serialize someOrder true }
      { itemdef := .builtin } with
  | error e =>
    rw [hread] at hnames
    cases hnames
  | ok result =>
    rcases result with ⟨client, is⟩
    rw [hread] at hnames
    have hclient : client.lists.map InventoryList.name = [ascii "a"] := Option.some.inj hnames
    have hlast : Step lucky { atFirst with server := twoLines } (.send true)
        { server := twoLines.setModified false, client := client } := .send hread
    have hserver : (twoLines.setModified false).lists.map InventoryList.name =
        [ascii "a\nb"] := by decide
    refine ⟨_, .cons hfirst (.cons hadd (.cons hlast (.nil _))), hserver, hclient, ?_⟩
    intro hperm
    -- the two have no name in common
    have hmem : ascii "a" ∈ client.contents.map fun c => c.2.1 := by
      simp only [contents, List.map_map]
      exact hclient ▸ List.mem_singleton.2 rfl
    have hother : ascii "a" ∉ (twoLines.setModified false).contents.map fun c => c.2.1 := by
      decide
    exact hother ((hperm.map fun c => c.2.1).mem_iff.1 hmem)

end Inventory
end AxisEngine
