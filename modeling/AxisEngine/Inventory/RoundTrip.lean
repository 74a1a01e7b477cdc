import AxisEngine.Inventory.InventoryText

/-!
# RoundTrip — when an inventory is read back from its text

* `Named` — what `addList` checks, in every inventory that is made with it;
* `receiveAll_new` — a new inventory receives every list as it was sent;
* `NoNewline.deSerialize` — no name that was read has a newline in it;
* `roundTrip_iff` — a new inventory comes out equal exactly when the lines of the text are not
  broken by a name, and reading the metadata does not throw.
-/

namespace AxisEngine
namespace Inventory

open Lib Util

/-- The names of the lists: `addList` finds an old list by its name, and looks for blanks. -/
structure Named (inv : Inventory) : Prop where
  nodup : (inv.lists.map InventoryList.name).Nodup
  no_blank : ∀ l ∈ inv.lists, (32 : UInt8) ∉ l.name

section

variable {r : Reader} {order : MapOrder} {itemdef : Option ItemDefManager}
variable {inv inv' : Inventory} {newLists newLists' : List Nat}
variable {l l' : InventoryList} {lists : List InventoryList} {name : Bytes} {size : UInt32}
variable {is is' iss : IStream} {fuel i j : Nat}

/-! ## The names -/

theorem names_setListAt (h : inv.lists[i]? = some l) (hname : l'.name = l.name) :
    (inv.setListAt i l').lists.map InventoryList.name = inv.lists.map InventoryList.name := by
  rcases List.getElem?_eq_some_iff.1 h with ⟨hi, hget⟩
  rw [setListAt, List.map_set, hname, ← hget]
  refine List.ext_getElem? fun k => ?_
  rw [List.getElem?_set]
  split
  · rename_i hk
    subst hk
    simp [hi]
  · rfl

theorem Named.of_names (hinv : inv.Named)
    (h : inv'.lists.map InventoryList.name = inv.lists.map InventoryList.name) : inv'.Named where
  nodup := h ▸ hinv.nodup
  no_blank l hl := by
    have hname : l.name ∈ inv.lists.map InventoryList.name := h ▸ List.mem_map_of_mem hl
    rcases List.mem_map.1 hname with ⟨l', hl', hsame⟩
    exact hsame ▸ hinv.no_blank l' hl'

theorem Named.empty (itemdef : ItemDefManager) : Named { itemdef := itemdef } where
  nodup := List.nodup_nil
  no_blank l hl := by cases hl

theorem Named.addList (hinv : inv.Named) (name : Bytes) (size : UInt32) :
    (inv.addList name size).Named := by
  rw [Inventory.addList]
  cases hindex : (inv.setModified true).getListIndex name with
  | some i =>
    rcases getListIndex_eq_some hindex with ⟨l, hl, -⟩
    simp only [hl]
    exact hinv.of_names (names_setListAt hl (name_setSize l size))
  | none =>
    simp only
    split
    · exact hinv.of_names rfl
    · rename_i hblank
      have hnew := getListIndex_eq_none hindex
      constructor
      · rw [List.map_append, List.nodup_append]
        refine ⟨hinv.nodup, List.nodup_singleton _, ?_⟩
        rintro a ha b hb rfl
        rcases List.mem_map.1 ha with ⟨l, hl, rfl⟩
        exact hnew l hl (List.mem_singleton.1 hb)
      · intro l hl
        rcases List.mem_append.1 hl with hl | hl
        · exact hinv.no_blank l hl
        · rw [List.mem_singleton.1 hl]
          exact hblank

theorem Named.deleteList (hinv : inv.Named) (name : Bytes) : (inv.deleteList name).Named := by
  rw [Inventory.deleteList]
  split
  · exact hinv
  · constructor
    · exact hinv.nodup.sublist ((List.eraseIdx_sublist _ _).map _)
    · exact fun l hl => hinv.no_blank l ((List.eraseIdx_sublist _ _).subset hl)

/-! ## A new inventory -/

/-- Every list of a full text is appended, when no name was there before. -/
theorem foldl_receiveOne_new (inv : Inventory) (front lists : List InventoryList)
    (hnodup : ((front ++ lists).map InventoryList.name).Nodup) :
    lists.foldl (receiveOne false) ({ inv with lists := front }, List.range front.length) =
      ({ inv with lists := front ++ lists.map fun l => l.setModified true },
        List.range (front.length + lists.length)) := by
  induction lists generalizing front with
  | nil => simp only [List.foldl_nil, List.map_nil, List.append_nil, List.length_nil, Nat.add_zero]
  | cons l lists ih =>
    have hnew : ({ inv with lists := front } : Inventory).getListIndex l.name = none := by
      refine List.findIdx?_eq_none_iff.2 fun l' hl' => decide_eq_false fun hsame => ?_
      rw [List.map_append, List.nodup_append] at hnodup
      exact hnodup.2.2 _ (List.mem_map_of_mem hl') _ (List.mem_map_of_mem (List.mem_cons_self ..))
        hsame
    have hstep : receiveOne false ({ inv with lists := front }, List.range front.length) l =
        ({ inv with lists := front ++ [l.setModified true] },
          List.range (front ++ [l.setModified true]).length) := by
      have hsent : isSent false l = true := rfl
      rw [receiveOne, if_pos hsent, receive, hnew, List.length_append, List.length_singleton,
        List.range_succ]
    rw [List.foldl_cons, hstep, ih]
    · simp only [List.append_assoc, List.singleton_append, List.map_cons, List.length_append,
        List.length_cons, List.length_nil, Nat.zero_add, Nat.add_assoc, Nat.add_comm 1]
    · simpa [InventoryList.setModified] using hnodup

theorem removeOthers_range (inv : Inventory) : inv.removeOthers (List.range inv.lists.length) = inv := by
  have hall : inv.lists.zipIdx.filter (fun e => decide (e.2 ∈ List.range inv.lists.length)) =
      inv.lists.zipIdx := by
    refine List.filter_eq_self.2 fun e he => decide_eq_true (List.mem_range.2 ?_)
    have hlt := List.snd_lt_of_mem_zipIdx he
    simpa using hlt
  rw [removeOthers, hall]
  simp

theorem receiveAll_new (itemdef : ItemDefManager) (hnodup : (lists.map InventoryList.name).Nodup) :
    receiveAll false lists { itemdef := itemdef } =
      { itemdef := itemdef, lists := lists.map fun l => l.setModified true } := by
  have hall := foldl_receiveOne_new { itemdef := itemdef } [] lists (by simpa using hnodup)
  simp only [List.nil_append, List.length_nil, Nat.zero_add, List.range_zero] at hall
  have hremove := removeOthers_range
    { itemdef := itemdef, lists := lists.map fun l => l.setModified true }
  rw [List.length_map] at hremove
  rw [receiveAll, hall]
  exact hremove

/-! ## Names that were read -/

/-- The list a line leads to. -/
def InventoryList.Line.list : InventoryList.Line → InventoryList
  | .stop l => l
  | .next l _ => l

theorem name_readLine {line : Bytes} {step : InventoryList.Line}
    (h : InventoryList.readLine r itemdef line l i = .ok step) : step.list.name = l.name := by
  rw [InventoryList.readLine] at h
  simp only at h
  split at h
  · cases h
    rfl
  split at h
  · split at h
    · cases h
    · cases h
      rfl
  split at h
  · split at h
    · cases h
    · rcases bind_eq_ok.1 h with ⟨item, -, hstep⟩
      cases hstep
      rfl
  split at h
  · split at h
    · cases h
    · cases h
      rfl
  split at h
  · cases h
    rfl
  · cases h
    rfl

theorem name_readLines (h : InventoryList.readLines r itemdef fuel is l i = .ok (l', is')) :
    l'.name = l.name := by
  induction fuel generalizing is l i with
  | zero => cases h
  | succ fuel ih =>
    rw [InventoryList.readLines] at h
    split at h
    · cases h
    · rcases bind_eq_ok.1 h with ⟨step, hstep, hnext⟩
      have hname := name_readLine hstep
      cases step with
      | stop l =>
        cases hnext
        exact hname
      | next l i => exact (ih hnext).trans hname

theorem name_deSerialize (h : l.deSerialize r itemdef is = .ok (l', is')) : l'.name = l.name := by
  rw [InventoryList.deSerialize] at h
  have hname := name_readLines h
  exact hname

/-- No list has a newline in its name. -/
def NoNewline (inv : Inventory) : Prop :=
  ∀ l ∈ inv.lists, (10 : UInt8) ∉ l.name

theorem NoNewline.readList (hinv : inv.NoNewline) (hline : (10 : UInt8) ∉ iss.rest)
    (h : Inventory.readList r iss is inv newLists = .ok (inv', newLists', is')) :
    inv'.NoNewline := by
  have hnew : (10 : UInt8) ∉ (iss.getline 32).1 := fun hmem =>
    hline (IStream.mem_of_mem_getline hmem)
  rw [Inventory.readList] at h
  simp only at h
  split at h
  · rcases bind_eq_ok.1 h with ⟨⟨l, is⟩, hread, hinv'⟩
    cases hinv'
    intro l' hl'
    rcases List.mem_append.1 hl' with hl' | hl'
    · exact hinv l' hl'
    · rw [List.mem_singleton.1 hl', name_deSerialize hread]
      exact hnew
  · rename_i i hindex
    rcases bind_eq_ok.1 h with ⟨⟨l, is⟩, hread, hinv'⟩
    rcases getListIndex_eq_some hindex with ⟨l₀, hl₀, hname⟩
    cases hinv'
    intro l' hl'
    rcases List.mem_or_eq_of_mem_set hl' with hl' | rfl
    · exact hinv l' hl'
    · rw [name_deSerialize hread, name_setSize, hl₀, Option.getD_some, hname]
      exact hnew

theorem NoNewline.removeOthers (hinv : inv.NoNewline) (newLists : List Nat) :
    (inv.removeOthers newLists).NoNewline := by
  intro l hl
  rcases List.mem_map.1 hl with ⟨e, he, rfl⟩
  exact hinv e.1 (List.fst_mem_of_mem_zipIdx (List.mem_of_mem_filter he))

theorem NoNewline.readLists (hinv : inv.NoNewline)
    (h : Inventory.readLists r fuel is inv newLists = .ok (inv', is')) : inv'.NoNewline := by
  induction fuel generalizing is inv newLists with
  | zero => cases h
  | succ fuel ih =>
    rw [Inventory.readLists] at h
    split at h
    · cases h
    have hline : (10 : UInt8) ∉ (is.getline 10).1 := IStream.not_mem_getline is 10
    simp only at h
    split at h
    · cases h
      exact hinv.removeOthers newLists
    split at h
    · rcases bind_eq_ok.1 h with ⟨⟨inv₁, newLists₁, is₁⟩, hread, hnext⟩
      have hrest : (10 : UInt8) ∉ (({ rest := (is.getline 10).1 } : IStream).getline 32).2.rest :=
        fun hmem => hline (IStream.mem_of_mem_rest_getline hmem)
      exact ih (hinv.readList hrest hread) hnext
    split at h
    · split at h
      · exact ih hinv h
      · exact ih hinv h
    · exact ih hinv h

theorem NoNewline.empty (itemdef : ItemDefManager) :
    ({ itemdef := itemdef } : Inventory).NoNewline :=
  fun l hl => by cases hl

theorem NoNewline.deSerialize (hinv : inv.NoNewline) (h : inv.deSerialize r is = .ok (inv', is')) :
    inv'.NoNewline := by
  rw [Inventory.deSerialize] at h
  exact hinv.readLists h

/-! ## Round trip -/

/-- What can be read back comes back as it was. -/
theorem deSerialize_new (r : Reader) (order : MapOrder) (hnamed : inv.Named)
    (hlists : ∀ l ∈ inv.lists, GoodList inv.itemdef l) (rest : Bytes) :
    Inventory.deSerialize r { rest := inv.serialize order false ++ rest }
        { itemdef := inv.itemdef } =
      if inv.lists.all (listReadable r) then
        .ok ({ itemdef := inv.itemdef, lists := inv.lists.map fun l => l.setModified true },
          { rest := rest })
      else .error .jsonError := by
  have hall : sentReadable r false inv.lists = inv.lists.all (listReadable r) := rfl
  have hread : Inventory.deSerialize r { rest := inv.serialize order false ++ rest }
      { itemdef := inv.itemdef } = _ :=
    @deSerialize_serialize { itemdef := inv.itemdef } r order false inv hlists rest
  rw [hread, hall, receiveAll_new _ hnamed.nodup]

/-- An inventory is read back, whatever comes after its text, exactly when no name has a newline in
it and no metadata makes reading throw. -/
theorem roundTrip_iff (r : Reader) (order : MapOrder) (inv : Inventory) (hnamed : inv.Named)
    (hstacks : ∀ l ∈ inv.lists, ∀ s ∈ l.items, s.Sendable (some inv.itemdef)) :
    (∀ rest, ∃ inv', Inventory.deSerialize r { rest := inv.serialize order false ++ rest }
        { itemdef := inv.itemdef } = .ok (inv', { rest := rest }) ∧
        inv'.contents = inv.contents) ↔
      ∀ l ∈ inv.lists, (10 : UInt8) ∉ l.name ∧ listReadable r l = true := by
  constructor
  · intro h
    rcases h [] with ⟨inv', hread, hcontents⟩
    -- the names that were read are the names that were sent
    have hnames : inv'.lists.map InventoryList.name = inv.lists.map InventoryList.name := by
      have hnames := congrArg (List.map fun c : UInt32 × Bytes × List ItemStack => c.2.1) hcontents
      simpa [contents, InventoryList.contents, Function.comp_def] using hnames
    have hnew : inv'.NoNewline := (NoNewline.empty inv.itemdef).deSerialize hread
    have hnoNewline : ∀ l ∈ inv.lists, (10 : UInt8) ∉ l.name := by
      intro l hl
      have hname : l.name ∈ inv'.lists.map InventoryList.name := hnames ▸ List.mem_map_of_mem hl
      rcases List.mem_map.1 hname with ⟨l', hl', hsame⟩
      exact hsame ▸ hnew l' hl'
    have hlists : ∀ l ∈ inv.lists, GoodList inv.itemdef l := fun l hl =>
      ⟨⟨hnamed.no_blank l hl, hnoNewline l hl⟩, hstacks l hl⟩
    rw [deSerialize_new r order hnamed hlists] at hread
    split at hread
    · rename_i hall
      exact fun l hl => ⟨hnoNewline l hl, List.all_eq_true.1 hall l hl⟩
    · cases hread
  · intro h rest
    have hlists : ∀ l ∈ inv.lists, GoodList inv.itemdef l := fun l hl =>
      ⟨⟨hnamed.no_blank l hl, (h l hl).1⟩, hstacks l hl⟩
    refine ⟨_, (deSerialize_new r order hnamed hlists rest).trans (if_pos ?_), ?_⟩
    · exact List.all_eq_true.2 fun l hl => (h l hl).2
    · simp [contents, InventoryList.contents, InventoryList.setModified, Function.comp_def]

end

/-- A stack with every field, and a value that has to be quoted. -/
def described : ItemStack :=
  { name := ascii "air", count := 5, wear := 3,
    metadata := Metadata.setString ∅ (ascii "description") (ascii "two \"lines\"\n") }

/-- One list, with the stack in its first slot. -/
def oneDescribed : Inventory where
  itemdef := .builtin
  lists := [{ name := ascii "main", items := [described, .cleared], length_lt := by decide }]

/-- No text is accepted for a key that is not there. -/
def strict : Reader :=
  { toolCapabilities := fun _ => false, wearBarParams := fun _ => false, uninitialized := 0 }

noncomputable def someOrder : MapOrder where
  list m := m.entries.toList
  list_eq m := m.entries.coe_toList

theorem sendable_described : described.Sendable (some .builtin) where
  clean h := absurd h (by decide)
  plain _ := {
    name_ne := by decide
    alias_eq := rfl
    not_keyword := by decide
    tool_count := by
      rintro defs hdefs htool
      cases hdefs
      exact absurd htool (by decide)
    sanitized := Metadata.sanitized_setString Metadata.sanitized_empty _ _ }

theorem roundTrip_iff_described :
    (∀ rest, ∃ inv', Inventory.deSerialize strict
        { rest := oneDescribed.serialize someOrder false ++ rest } { itemdef := .builtin } =
          .ok (inv', { rest := rest }) ∧ inv'.contents = oneDescribed.contents) ∧
      ∀ l ∈ oneDescribed.lists, (10 : UInt8) ∉ l.name ∧ listReadable strict l = true := by
  have hnamed : oneDescribed.Named := ⟨by decide, by decide⟩
  have hgood : ∀ l ∈ oneDescribed.lists, (10 : UInt8) ∉ l.name ∧ listReadable strict l = true := by
    decide
  refine ⟨(roundTrip_iff strict someOrder oneDescribed hnamed ?_).2 hgood, hgood⟩
  intro l hl s hs
  rw [List.mem_singleton.1 hl] at hs
  rcases List.mem_cons.1 hs with rfl | hs
  · exact sendable_described
  · rw [List.mem_singleton.1 hs]
    exact ⟨fun _ => rfl, fun h => absurd rfl h⟩

/-- `addList` takes a name of two lines. -/
def twoLines : Inventory :=
  Inventory.addList { itemdef := .builtin } (ascii "a\nb") 1

/-- The list of two lines is made, it is empty, and no reading of its text gives it back. -/
theorem name_of_two_lines :
    twoLines.lists.map InventoryList.name = [ascii "a\nb"] ∧
      (∀ l ∈ twoLines.lists, ∀ s ∈ l.items, s = .cleared) ∧
      ∀ r inv' is, Inventory.deSerialize r { rest := twoLines.serialize someOrder false }
        { itemdef := .builtin } = .ok (inv', is) → inv'.contents ≠ twoLines.contents := by
  refine ⟨by decide, by decide, ?_⟩
  intro r inv' is hread hcontents
  have hnew : inv'.NoNewline := (NoNewline.empty .builtin).deSerialize hread
  have hname : ascii "a\nb" ∈ inv'.contents.map fun c => c.2.1 := by
    rw [hcontents]
    decide
  rcases List.mem_map.1 hname with ⟨c, hc, hcname⟩
  rcases List.mem_map.1 hc with ⟨l, hl, rfl⟩
  have hnewline : (10 : UInt8) ∈ l.contents.2.1 := by
    rw [hcname]
    decide
  exact hnew l hl hnewline

end Inventory
end AxisEngine
