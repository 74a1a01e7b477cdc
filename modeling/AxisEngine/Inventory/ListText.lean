import AxisEngine.Inventory.Inventory

/-!
# ListText — a list is read back from its text

* `Sendable` — the stacks whose text tells everything about them;
* `readLine_item`, `readLine_empty` — one line of a list.
-/

namespace AxisEngine
namespace Inventory

open Lib Util

/-- A stack whose text tells everything about it: an empty one is cleared. -/
structure ItemStack.Sendable (itemdef : Option ItemDefManager) (s : ItemStack) : Prop where
  clean : s.Clean
  plain : s.count ≠ 0 → s.Plain itemdef

/-- Reading the metadata of a stack does not throw. -/
def ItemStack.readable (r : Reader) (s : ItemStack) : Bool :=
  s.isEmpty || s.metadata.readable r

namespace InventoryList

/-- The list with other items. -/
def withItems (l : InventoryList) (items : List ItemStack) (h : items.length < 2 ^ 32) :
    InventoryList :=
  { l with items := items, length_lt := h }

section

variable {r : Reader} {order : MapOrder} {itemdef : Option ItemDefManager}
variable {l l' : InventoryList} {s : ItemStack} {items : List ItemStack} {i fuel : Nat}
variable {line rest : Bytes}

theorem eq_of_fields (hname : l.name = l'.name) (hitems : l.items = l'.items)
    (hwidth : l.width = l'.width) (hdirty : l.dirty = l'.dirty) : l = l' := by
  cases l
  cases l'
  simp only at hname hitems hwidth hdirty
  subst hname hitems hwidth hdirty
  rfl

/-! ## One line -/

theorem getline_word {word : Bytes} (hword : (32 : UInt8) ∉ word) (rest : Bytes) :
    ({ rest := word ++ 32 :: rest } : IStream).getline 32 = (word, { rest := rest }) :=
  IStream.getline_cons hword rest

theorem readLine_width (n : UInt32) (l : InventoryList) (i : Nat) :
    readLine r itemdef (ascii "Width " ++ decimal n.toNat) l i =
      .ok (.next { l with width := n } i) := by
  have hline : ({ rest := ascii "Width " ++ decimal n.toNat } : IStream).getline 32 =
      (ascii "Width", { rest := decimal n.toNat }) :=
    getline_word (show (32 : UInt8) ∉ ascii "Width" by decide) _
  have hn := n.toNat_lt
  have hle : n.toNat ≤ 4294967295 := by omega
  have hnumber := IStream.extract_decimal hle noDigit_nil
  rw [List.append_nil] at hnumber
  have hkeyword : ¬ (ascii "Width" = ascii "EndInventoryList" ∨ ascii "Width" = ascii "end") := by
    decide
  rw [readLine, hline]
  simp only [if_neg hkeyword, if_true, hnumber, Bool.false_eq_true, if_false, Option.getD_some,
    UInt32.ofNat_toNat]

theorem readLine_empty (hi : i < l.items.length) :
    readLine r itemdef (ascii "Empty") l i = .ok (.next (l.setItem i .cleared) (i + 1)) := by
  have hline : (({ rest := ascii "Empty" } : IStream).getline 32).1 = ascii "Empty" := by decide
  have hsize : ¬ l.getSize.toNat ≤ i := by
    rw [toNat_getSize]
    omega
  rw [readLine]
  simp only [hline]
  rw [if_neg (by decide), if_neg (by decide), if_neg (by decide), if_true, if_neg hsize]

theorem readLine_item (hi : i < l.items.length) (text : Bytes) :
    readLine r itemdef (ascii "Item " ++ text) l i =
      (ItemStack.deSerialize r itemdef { rest := text }).map
        fun item => .next (l.setItem i item) (i + 1) := by
  have hline : ({ rest := ascii "Item " ++ text } : IStream).getline 32 =
      (ascii "Item", { rest := text }) :=
    getline_word (show (32 : UInt8) ∉ ascii "Item" by decide) _
  have hsize : ¬ l.getSize.toNat ≤ i := by
    rw [toNat_getSize]
    omega
  rw [readLine, hline]
  simp only
  rw [if_neg (by decide), if_neg (by decide), if_true, if_neg hsize]
  rfl

theorem readLine_end (l : InventoryList) (i : Nat) :
    readLine r itemdef (ascii "EndInventoryList") l i = .ok (.stop (l.clearFrom i)) := by
  have hline : (({ rest := ascii "EndInventoryList" } : IStream).getline 32).1 =
      ascii "EndInventoryList" := by decide
  rw [readLine]
  simp only [hline, true_or, if_true]

/-- A line without its newline. -/
def itemLine (order : MapOrder) (s : ItemStack) : Bytes :=
  if s.isEmpty then ascii "Empty" else ascii "Item " ++ s.serialize order

/-- The line of a stack puts it into its slot. -/
theorem readLine_itemLine (hs : s.Sendable itemdef) (hi : i < l.items.length) :
    readLine r itemdef (itemLine order s) l i =
      if s.readable r then .ok (.next (l.setItem i s) (i + 1)) else .error .jsonError := by
  rw [itemLine, ItemStack.readable]
  by_cases hempty : s.isEmpty = true
  · have hcleared : s = .cleared := hs.clean (by simpa [ItemStack.isEmpty] using hempty)
    rw [if_pos hempty, readLine_empty hi, hempty, Bool.true_or, if_pos rfl, hcleared]
  · have hcount : s.count ≠ 0 := by simpa [ItemStack.isEmpty] using hempty
    rw [if_neg hempty, readLine_item hi,
      ItemStack.deSerialize_serialize r order (hs.plain hcount) hcount]
    rw [Bool.not_eq_true] at hempty
    rw [hempty, Bool.false_or]
    split
    · rfl
    · rfl

theorem newline_not_mem_itemLine (order : MapOrder) (s : ItemStack) :
    (10 : UInt8) ∉ itemLine order s := by
  rw [itemLine]
  split
  · decide
  · rw [List.mem_append, not_or]
    exact ⟨by decide, ItemStack.newline_not_mem_serialize order s⟩

/-! ## All lines -/

theorem readLines_line (hline : (10 : UInt8) ∉ line) (rest : Bytes) (l : InventoryList) (i : Nat) :
    readLines r itemdef (fuel + 1) { rest := line ++ 10 :: rest } l i =
      (readLine r itemdef line l i).bind fun
        | .stop l => .ok (l, { rest := rest })
        | .next l i => readLines r itemdef fuel { rest := rest } l i := by
  rw [readLines]
  simp only [IStream.good_rest, Bool.not_true, Bool.false_eq_true, if_false,
    IStream.getline_cons hline]
  rfl

theorem take_set_succ (hi : i < items.length) (s : ItemStack) :
    (items.set i s).take (i + 1) = items.take i ++ [s] := by
  rw [List.take_add_one, List.getElem?_set_self hi, List.take_set_of_le le_rfl]
  rfl

/-- The items that are still to come are read into the slots from `i` on. -/
theorem readLines_items (hitems : ∀ s ∈ items, s.Sendable itemdef)
    (hlength : i + items.length = l.items.length) (hfuel : items.length < fuel) (rest : Bytes) :
    readLines r itemdef fuel
        { rest := items.flatMap (serializeItem order) ++ (ascii "EndInventoryList\n" ++ rest) }
        l i =
      if items.all (ItemStack.readable r) then
        .ok (l.withItems (l.items.take i ++ items) (by
          rw [List.length_append, List.length_take, min_eq_left (by omega), hlength]
          exact l.length_lt), { rest := rest })
      else .error .jsonError := by
  induction items generalizing l i fuel with
  | nil =>
    cases fuel with
    | zero => cases hfuel
    | succ fuel =>
      have htext : [].flatMap (serializeItem order) ++ (ascii "EndInventoryList\n" ++ rest) =
          ascii "EndInventoryList" ++ 10 :: rest := rfl
      rw [htext, readLines_line (by decide), readLine_end]
      simp only [List.all_nil, if_true]
      refine congrArg (fun l => Except.ok (l, ({ rest := rest } : IStream))) ?_
      refine eq_of_fields rfl ?_ rfl rfl
      -- no item is left over
      have hall : l.items.drop i = [] := List.drop_eq_nil_of_le (by simpa using hlength.ge)
      simp only [clearFrom, withItems, hall, List.map_nil, List.append_nil]
  | cons s items ih =>
    cases fuel with
    | zero => cases hfuel
    | succ fuel =>
      rw [List.length_cons] at hlength hfuel
      have hs := hitems s (List.mem_cons_self ..)
      have hi : i < l.items.length := by omega
      have htext : (s :: items).flatMap (serializeItem order) ++
          (ascii "EndInventoryList\n" ++ rest) = itemLine order s ++ 10 ::
            (items.flatMap (serializeItem order) ++ (ascii "EndInventoryList\n" ++ rest)) := by
        simp [serializeItem, itemLine]
      rw [htext, readLines_line (newline_not_mem_itemLine order s), readLine_itemLine hs hi,
        List.all_cons]
      by_cases hreadable : s.readable r = true
      · have hlength' : i + 1 + items.length = (l.setItem i s).items.length := by
          simp only [setItem, List.length_set]
          omega
        have hfuel' : items.length < fuel := by omega
        have hrest := ih (fun s' hs' => hitems s' (List.mem_cons_of_mem s hs')) hlength' hfuel'
        rw [if_pos hreadable, hreadable, Bool.true_and]
        refine hrest.trans ?_
        split
        · refine congrArg (fun l => Except.ok (l, ({ rest := rest } : IStream))) ?_
          refine eq_of_fields rfl ?_ rfl rfl
          simp only [withItems, setItem, take_set_succ hi, List.append_assoc, List.cons_append,
            List.nil_append]
        · rfl
      · rw [if_neg hreadable, Bool.not_eq_true] at *
        rw [hreadable]
        rfl

theorem length_le_flatMap (order : MapOrder) (items : List ItemStack) :
    items.length ≤ (items.flatMap (serializeItem order)).length := by
  induction items with
  | nil => exact le_rfl
  | cons s items ih =>
    have hline : 0 < (serializeItem order s).length := by
      rw [serializeItem, List.length_append]
      exact Nat.lt_of_lt_of_le Nat.zero_lt_one (Nat.le_add_left _ _)
    rw [List.flatMap_cons, List.length_append, List.length_cons]
    omega

/-- A list of the same size takes everything but the name from the text. -/
theorem deSerialize_serialize (r : Reader) (order : MapOrder)
    (hitems : ∀ s ∈ l.items, s.Sendable itemdef) (hlength : l'.items.length = l.items.length)
    (rest : Bytes) :
    l'.deSerialize r itemdef { rest := l.serialize order ++ rest } =
      if l.items.all (ItemStack.readable r) then
        .ok ({ l with name := l'.name, dirty := true }, { rest := rest })
      else .error .jsonError := by
  have htext : l.serialize order ++ rest = (ascii "Width " ++ decimal l.width.toNat) ++ 10 ::
      (l.items.flatMap (serializeItem order) ++ (ascii "EndInventoryList\n" ++ rest)) := by
    simp [serialize]
  have hline : (10 : UInt8) ∉ ascii "Width " ++ decimal l.width.toNat := by
    rw [List.mem_append, not_or]
    exact ⟨by decide, ItemStack.newline_not_mem_decimal _⟩
  have hcount := length_le_flatMap order l.items
  rw [deSerialize, htext, readLines_line hline, readLine_width]
  refine (readLines_items hitems (by simpa using hlength.symm) ?_ rest).trans ?_
  · simp only [List.length_append, List.length_cons]
    omega
  · split
    · refine congrArg (fun l => Except.ok (l, ({ rest := rest } : IStream))) ?_
      exact eq_of_fields rfl (by simp [withItems]) rfl rfl
    · rfl

end

end InventoryList

end Inventory
end AxisEngine
