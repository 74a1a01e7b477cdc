import AxisEngine.Inventory.ListText

/-!
# InventoryText — the text of an inventory is read

* `receive` — what one list of the text does to the inventory that is read into;
* `readList_serialize`, `readLists_list`, `readLists_keep` — one list, and one round of the loop;
* `deSerialize_serialize` — reading the text of an inventory, full or incremental, into another.
-/

namespace AxisEngine
namespace Inventory

open Lib Util

/-! ## What is received -/

/-- A list that was sent replaces the one of its name, or is a new one. -/
def receive (inv : Inventory) (l : InventoryList) : Inventory × Nat :=
  match inv.getListIndex l.name with
  | none => ({ inv with lists := inv.lists ++ [l.setModified true] }, inv.lists.length)
  | some i => (inv.setListAt i (l.setModified true), i)

/-- Whether a list itself is in the text. -/
def isSent (incremental : Bool) (l : InventoryList) : Bool :=
  !incremental || l.dirty

/-- One list of the text, or the line that says to keep it. -/
def receiveOne (incremental : Bool) (state : Inventory × List Nat) (l : InventoryList) :
    Inventory × List Nat :=
  if isSent incremental l then
    ((receive state.1 l).1, state.2 ++ [(receive state.1 l).2])
  else (state.1, state.2 ++ (state.1.getListIndex l.name).toList)

/-- All that the text does to an inventory. -/
def receiveAll (incremental : Bool) (lists : List InventoryList) (inv : Inventory) : Inventory :=
  let (inv, newLists) := lists.foldl (receiveOne incremental) (inv, [])
  inv.removeOthers newLists

/-- A name that fits on its line. -/
structure GoodName (name : Bytes) : Prop where
  no_blank : (32 : UInt8) ∉ name
  no_newline : (10 : UInt8) ∉ name

/-- All that is to be written about a list can be read back. -/
structure GoodList (itemdef : ItemDefManager) (l : InventoryList) : Prop where
  name : GoodName l.name
  items : ∀ s ∈ l.items, s.Sendable (some itemdef)

/-- Reading the stacks of a list does not throw. -/
def listReadable (r : Reader) (l : InventoryList) : Bool :=
  l.items.all (ItemStack.readable r)

section

variable {r : Reader} {order : MapOrder} {inv : Inventory} {newLists : List Nat}
variable {l : InventoryList} {lists : List InventoryList} {name line rest : Bytes}
variable {fuel i : Nat} {incremental : Bool}

theorem getListIndex_eq_some (h : inv.getListIndex name = some i) :
    ∃ l, inv.lists[i]? = some l ∧ l.name = name := by
  rcases List.findIdx?_eq_some_iff_getElem.1 h with ⟨hlt, hname, -⟩
  exact ⟨inv.lists[i], List.getElem?_eq_getElem hlt, by simpa using hname⟩

theorem getListIndex_eq_none (h : inv.getListIndex name = none) : ∀ l ∈ inv.lists, l.name ≠ name := by
  intro l hl
  have hnot := List.findIdx?_eq_none_iff.1 h l hl
  simpa using hnot

/-! ## One line -/

/-- The first line of a list. -/
def listLine (l : InventoryList) : Bytes :=
  ascii "List " ++ l.name ++ 32 :: decimal l.getSize.toNat

theorem newline_not_mem_listLine (h : GoodName l.name) : (10 : UInt8) ∉ listLine l := by
  rw [listLine, List.mem_append, List.mem_append, List.mem_cons, not_or, not_or, not_or]
  exact ⟨⟨by decide, h.no_newline⟩, by decide, ItemStack.newline_not_mem_decimal _⟩

theorem length_setSize (l : InventoryList) (newsize : UInt32) :
    (l.setSize newsize).items.length = newsize.toNat := by
  rw [InventoryList.setSize]
  split
  · rename_i hsame
    exact hsame.symm
  · simp only [List.length_take, List.length_append, List.length_replicate]
    omega

theorem name_setSize (l : InventoryList) (newsize : UInt32) : (l.setSize newsize).name = l.name := by
  rw [InventoryList.setSize]
  split
  · rfl
  · rfl

theorem readList_serialize (r : Reader) (order : MapOrder) (inv : Inventory) (newLists : List Nat)
    (hl : GoodList inv.itemdef l) (rest : Bytes) :
    readList r { rest := l.name ++ 32 :: decimal l.getSize.toNat }
        { rest := l.serialize order ++ rest } inv newLists =
      if listReadable r l then
        .ok ((receive inv l).1, newLists ++ [(receive inv l).2], { rest := rest })
      else .error .jsonError := by
  have hname := InventoryList.getline_word hl.name.no_blank (decimal l.getSize.toNat)
  have hle : l.getSize.toNat ≤ 4294967295 := Nat.le_of_lt_succ l.getSize.toNat_lt
  have hsize := IStream.extract_decimal hle noDigit_nil
  rw [List.append_nil] at hsize
  rw [readList, hname]
  simp only [hsize, Option.getD_some, UInt32.ofNat_toNat]
  cases hindex : inv.getListIndex l.name with
  | none =>
    have hlength : (InventoryList.create l.name l.getSize).items.length = l.items.length :=
      List.length_replicate.trans l.toNat_getSize
    have hreceive : receive inv l =
        ({ inv with lists := inv.lists ++ [l.setModified true] }, inv.lists.length) := by
      rw [receive, hindex]
    rw [hreceive]
    simp only [InventoryList.deSerialize_serialize r order hl.items hlength rest]
    rw [← listReadable]
    split
    · rfl
    · rfl
  | some i =>
    rcases getListIndex_eq_some hindex with ⟨l', hl', hsame⟩
    have hlength : (l'.setSize l.getSize).items.length = l.items.length :=
      (length_setSize l' l.getSize).trans l.toNat_getSize
    have hreceive : receive inv l = (inv.setListAt i (l.setModified true), i) := by
      rw [receive, hindex]
    rw [hreceive]
    simp only [hl', Option.getD_some,
      InventoryList.deSerialize_serialize r order hl.items hlength rest]
    rw [← listReadable, name_setSize, hsame]
    split
    · rfl
    · rfl

theorem readLists_line (hline : (10 : UInt8) ∉ line) (rest : Bytes) (inv : Inventory)
    (newLists : List Nat) :
    readLists r (fuel + 1) { rest := line ++ 10 :: rest } inv newLists =
      let (name, iss) := ({ rest := line } : IStream).getline 32
      if name = ascii "EndInventory" ∨ name = ascii "end" then
        .ok (inv.removeOthers newLists, { rest := rest })
      else if name = ascii "List" then do
        let (inv, newLists, is) ← readList r iss { rest := rest } inv newLists
        readLists r fuel is inv newLists
      else if name = ascii "KeepList" then
        let (listname, _) := iss.getline 32
        match inv.getListIndex listname with
        | some i => readLists r fuel { rest := rest } inv (newLists ++ [i])
        | none => readLists r fuel { rest := rest } inv newLists
      else readLists r fuel { rest := rest } inv newLists := by
  have hgood : ¬ (!({ rest := line ++ 10 :: rest } : IStream).good) = true := by simp
  rewrite [readLists, if_neg hgood, IStream.getline_cons hline]
  rfl

theorem readLists_list (order : MapOrder) (hl : GoodList inv.itemdef l)
    (hsent : isSent incremental l = true) (newLists : List Nat) (rest : Bytes) :
    readLists r (fuel + 1) { rest := serializeList order incremental l ++ rest } inv newLists =
      if listReadable r l then
        readLists r fuel { rest := rest } (receive inv l).1 (newLists ++ [(receive inv l).2])
      else .error .jsonError := by
  have htext : serializeList order incremental l ++ rest =
      listLine l ++ 10 :: (l.serialize order ++ rest) := by
    rw [serializeList, ← isSent, if_pos hsent]
    simp [listLine]
  have hword : ({ rest := listLine l } : IStream).getline 32 =
      (ascii "List", { rest := l.name ++ 32 :: decimal l.getSize.toNat }) := by
    have htext : listLine l = ascii "List" ++ 32 :: (l.name ++ 32 :: decimal l.getSize.toNat) := by
      rw [listLine, List.append_assoc]
      rfl
    rw [htext]
    exact InventoryList.getline_word (by decide) _
  rw [htext, readLists_line (newline_not_mem_listLine hl.name), hword]
  simp only
  rw [if_neg (by decide), if_true, readList_serialize r order inv newLists hl rest]
  split
  · rfl
  · rfl

theorem readLists_keep (order : MapOrder) (hname : GoodName l.name)
    (hsent : isSent incremental l = false) (newLists : List Nat) (rest : Bytes) :
    readLists r (fuel + 1) { rest := serializeList order incremental l ++ rest } inv newLists =
      readLists r fuel { rest := rest } inv (newLists ++ (inv.getListIndex l.name).toList) := by
  have htext : serializeList order incremental l ++ rest =
      (ascii "KeepList " ++ l.name) ++ 10 :: rest := by
    rw [serializeList, ← isSent, if_neg (Bool.not_eq_true _ ▸ hsent)]
    simp
  have hline : (10 : UInt8) ∉ ascii "KeepList " ++ l.name := by
    rw [List.mem_append, not_or]
    exact ⟨by decide, hname.no_newline⟩
  have hword : ({ rest := ascii "KeepList " ++ l.name } : IStream).getline 32 =
      (ascii "KeepList", { rest := l.name }) :=
    InventoryList.getline_word (show (32 : UInt8) ∉ ascii "KeepList" by decide) _
  rw [htext, readLists_line hline, hword]
  simp only
  rw [if_neg (by decide), if_neg (by decide), if_true, IStream.getline_end hname.no_blank]
  cases hindex : inv.getListIndex l.name with
  | none => simp only [Option.toList_none, List.append_nil]
  | some i => rfl

theorem readLists_end (inv : Inventory) (newLists : List Nat) (rest : Bytes) :
    readLists r (fuel + 1) { rest := ascii "EndInventory\n" ++ rest } inv newLists =
      .ok (inv.removeOthers newLists, { rest := rest }) := by
  have htext : ascii "EndInventory\n" ++ rest = ascii "EndInventory" ++ 10 :: rest := rfl
  have hword : (({ rest := ascii "EndInventory" } : IStream).getline 32).1 =
      ascii "EndInventory" := by decide
  rw [htext, readLists_line (by decide)]
  simp only [hword, true_or, if_true]

/-! ## All lines -/

@[simp] theorem itemdef_receive (inv : Inventory) (l : InventoryList) :
    (receive inv l).1.itemdef = inv.itemdef := by
  rw [receive]
  split
  · rfl
  · rfl

/-- Reading the stacks of the lists that are in the text does not throw. -/
def sentReadable (r : Reader) (incremental : Bool) (lists : List InventoryList) : Bool :=
  lists.all fun l => !isSent incremental l || listReadable r l

/-- The lists are received one after the other, unless reading throws. -/
theorem readLists_serialize (order : MapOrder) (hlists : ∀ l ∈ lists, GoodList inv.itemdef l)
    (hfuel : lists.length < fuel) (newLists : List Nat) (rest : Bytes) :
    readLists r fuel
        { rest := lists.flatMap (serializeList order incremental) ++
            (ascii "EndInventory\n" ++ rest) } inv newLists =
      if sentReadable r incremental lists then
        let (inv, newLists) := lists.foldl (receiveOne incremental) (inv, newLists)
        .ok (inv.removeOthers newLists, { rest := rest })
      else .error .jsonError := by
  induction lists generalizing inv newLists fuel with
  | nil =>
    cases fuel with
    | zero => cases hfuel
    | succ fuel => exact readLists_end inv newLists rest
  | cons l lists ih =>
    cases fuel with
    | zero => cases hfuel
    | succ fuel =>
      have hl := hlists l (List.mem_cons_self ..)
      have hothers : ∀ l' ∈ lists, GoodList inv.itemdef l' := fun l' hl' =>
        hlists l' (List.mem_cons_of_mem l hl')
      have hfuel : lists.length < fuel := Nat.lt_of_succ_lt_succ hfuel
      rw [List.flatMap_cons, List.append_assoc, List.foldl_cons, sentReadable, List.all_cons,
        ← sentReadable, receiveOne]
      by_cases hsent : isSent incremental l = true
      · rw [readLists_list order hl hsent, hsent, if_pos rfl, Bool.not_true, Bool.false_or]
        by_cases hreadable : listReadable r l = true
        · rw [if_pos hreadable, hreadable, Bool.true_and]
          exact ih (by rwa [itemdef_receive]) hfuel _
        · rw [if_neg hreadable, Bool.not_eq_true] at *
          rw [hreadable]
          rfl
      · rw [Bool.not_eq_true] at hsent
        rw [readLists_keep order hl.name hsent, hsent, if_neg Bool.false_ne_true, Bool.not_false,
          Bool.true_or, Bool.true_and]
        exact ih hothers hfuel _

theorem length_le_flatMap_serializeList (order : MapOrder) (incremental : Bool)
    (lists : List InventoryList) :
    lists.length ≤ (lists.flatMap (serializeList order incremental)).length := by
  induction lists with
  | nil => exact le_rfl
  | cons l lists ih =>
    have hline : 0 < (serializeList order incremental l).length := by
      rw [serializeList]
      split
      · simp [ascii]
      · simp [ascii]
    rw [List.flatMap_cons, List.length_append, List.length_cons]
    omega

theorem deSerialize_serialize (r : Reader) (order : MapOrder) (incremental : Bool)
    {server : Inventory} (hlists : ∀ l ∈ server.lists, GoodList inv.itemdef l) (rest : Bytes) :
    inv.deSerialize r { rest := server.serialize order incremental ++ rest } =
      if sentReadable r incremental server.lists then
        .ok (receiveAll incremental server.lists inv, { rest := rest })
      else .error .jsonError := by
  have hlength := length_le_flatMap_serializeList order incremental server.lists
  rw [deSerialize, serialize, List.append_assoc]
  refine readLists_serialize order hlists ?_ [] rest
  rw [List.length_append]
  omega

end

end Inventory
end AxisEngine
