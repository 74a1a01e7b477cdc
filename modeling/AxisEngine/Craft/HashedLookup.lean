import AxisEngine.Craft.CraftDefManager
import AxisEngine.Craft.Grid
import AxisEngine.Inventory.RoundTrip
import AxisEngine.Lib.FirstMax

/-!
# HashedLookup — finding a definition by hash, and by going through all of them

* `hashed_eq_scan_iff` — when it finds what a scan of all definitions finds;
* `exact_fuel_hides_group` — group fuel that was registered later is not found.
-/

namespace AxisEngine
namespace Craft

open Lib Util Inventory

section

variable {r : Reader} {order : MapOrder} {idef : ItemDefManager} {hash : Bytes → UInt64}
variable {input : CraftInput} {names recNames : List Bytes} {name recName : Bytes}
variable {d d' : CraftDefinition} {recipe : Recipe}

/-! ## Names in order -/

theorem sorted_sortNames (names : List Bytes) : (sortNames names).Pairwise fun a b => a ≤ b := by
  have htrans : ∀ a b c : Bytes, decide (a ≤ b) = true → decide (b ≤ c) = true →
      decide (a ≤ c) = true := fun a b c hab hbc =>
    decide_eq_true (List.le_trans (of_decide_eq_true hab) (of_decide_eq_true hbc))
  have htotal : ∀ a b : Bytes, (decide (a ≤ b) || decide (b ≤ a)) = true :=
    fun a b => by simpa using List.le_total a b
  exact (List.pairwise_mergeSort htrans htotal names).imp of_decide_eq_true

theorem eq_of_sorted {names recNames : List Bytes} (hsorted : names.Pairwise fun a b => a ≤ b)
    (hsorted' : recNames.Pairwise fun a b => a ≤ b) (h : names.Perm recNames) : names = recNames :=
  h.eq_of_pairwise (fun _ _ _ _ => List.le_antisymm) hsorted hsorted'

theorem perm_sortNames (names : List Bytes) : (sortNames names).Perm names :=
  List.mergeSort_perm ..

/-- What is hashed depends on the items only, not on their order. -/
theorem getHashForGrid_congr (hash : Bytes → UInt64)
    (h : (names.filter fun name => decide (name ≠ [])).Perm
      (recNames.filter fun name => decide (name ≠ []))) :
    getHashForGrid hash .itemNames (sortNames names) =
      getHashForGrid hash .itemNames (sortNames recNames) := by
  have hsame : (sortNames names).filter (fun name => decide (name ≠ [])) =
      (sortNames recNames).filter fun name => decide (name ≠ []) := by
    refine eq_of_sorted ((sorted_sortNames names).filter _) ((sorted_sortNames recNames).filter _) ?_
    exact ((perm_sortNames names).filter _).trans
      (h.trans ((perm_sortNames recNames).filter _).symm)
  rw [getHashForGrid, getHashForGrid, hsame]

/-! ## A match without groups -/

theorem eq_of_matches (hmatch : inputItemMatchesRecipe idef name recName = true)
    (hgroup : isGroupRecipeStr recName = false) : name = recName := by
  simpa [inputItemMatchesRecipe, hgroup] using hmatch

theorem filter_padRows (names : List Bytes) (width : Nat) :
    (padRows names width).filter (fun name => decide (name ≠ [])) =
      names.filter fun name => decide (name ≠ []) := by
  have hpad : ∀ n, (List.replicate n ([] : Bytes)).filter (fun name => decide (name ≠ [])) = [] := by
    intro n
    refine List.filter_eq_nil_iff.2 fun name hname => ?_
    rw [List.eq_of_mem_replicate hname]
    simp
  rw [padRows, List.filter_append, hpad, List.append_nil]

/-- Two boxes that match without groups hold the same items. -/
theorem items_of_boxesMatch {inpWidth recWidth : Nat} {inp rec : Bounds} (hinp : 0 < inpWidth)
    (hrec : 0 < recWidth) (hinpBounds : craftGetBounds names inpWidth = some inp)
    (hrecBounds : craftGetBounds recNames recWidth = some rec)
    (hgroup : ∀ name ∈ recNames, isGroupRecipeStr name = false)
    (hmatch : boxesMatch idef names recNames inpWidth recWidth inp rec = true) :
    (names.filter fun name => decide (name ≠ [])).Perm
      (recNames.filter fun name => decide (name ≠ [])) := by
  rw [boxesMatch] at hmatch
  split at hmatch
  · cases hmatch
  · rename_i hsize
    rcases not_or.1 hsize with ⟨hx, hy⟩
    have hx := not_not.1 hx
    have hy := not_not.1 hy
    rw [List.all_eq_true] at hmatch
    have hcell : ∀ x y, x < inp.maxX - inp.minX + 1 → y < inp.maxY - inp.minY + 1 →
        cellAt names inpWidth (inp.minX + x) (inp.minY + y) =
          cellAt recNames recWidth (rec.minX + x) (rec.minY + y) := by
      intro x y hx hy
      have hrow := hmatch y (List.mem_range.2 hy)
      rw [List.all_eq_true] at hrow
      refine eq_of_matches (hrow x (List.mem_range.2 hx)) ?_
      rw [cellAt]
      cases hget : recNames[(rec.minY + y) * recWidth + (rec.minX + x)]? with
      | none => rfl
      | some name => exact hgroup name (List.mem_of_getElem? hget)
    refine Multiset.coe_eq_coe.1 ?_
    rw [items_eq_box hinp hinpBounds, items_eq_box hrec hrecBounds]
    have hcells : boxCells names inpWidth inp = boxCells recNames recWidth rec := by
      rw [boxCells, boxCells, ← hx, ← hy]
      refine Finset.filter_congr fun p hp => ?_
      rcases Finset.mem_product.1 hp with ⟨hpx, hpy⟩
      rw [hcell p.1 p.2 (Finset.mem_range.1 hpx) (Finset.mem_range.1 hpy)]
    rw [hcells]
    refine Multiset.map_congr rfl fun p hp => ?_
    have hbox := (Finset.mem_filter.1 (Finset.mem_def.2 (hcells ▸ hp))).1
    rcases Finset.mem_product.1 hbox with ⟨hpx, hpy⟩
    exact hcell p.1 p.2 (Finset.mem_range.1 hpx) (Finset.mem_range.1 hpy)

/-- A shapeless match without groups is a permutation. -/
theorem perm_of_namesMatch (hgroup : ∀ name ∈ recNames, isGroupRecipeStr name = false)
    (hlength : names.length = recNames.length) (hmatch : namesMatch idef names recNames = true) :
    names.Perm recNames := by
  have hnogroup : recNames.filter (fun name => !isGroupRecipeStr name) = recNames := by
    refine List.filter_eq_self.2 fun name hname => ?_
    rw [hgroup name hname]
    rfl
  rw [namesMatch, hnogroup] at hmatch
  split at hmatch
  · cases hmatch
  · rename_i hall
    have hdiff : names.diff recNames = [] := by
      refine List.eq_nil_of_length_eq_zero ?_
      have hall := not_not.1 hall
      have hle : (names.diff recNames).length ≤ names.length :=
        (List.diff_sublist names recNames).length_le
      omega
    have hsub : names.Subperm recNames := by
      refine List.subperm_ext_iff.2 fun name _ => ?_
      have hcount := List.count_diff name names recNames
      rw [hdiff, List.count_nil] at hcount
      omega
    exact hsub.perm_of_length_le hlength.ge

/-! ## Names that were read -/

/-- What `initHash` does to a definition that was just constructed. -/
theorem initHash_spec (hfresh : d.recipeNames = none) (h : d.initHash r idef = .ok d') :
    d'.recipe = d.recipe ∧ d'.priority = d.priority ∧ d'.pointer = d.pointer ∧
      ∃ names, readNames r idef d.recipe = .ok names ∧ d'.names r idef = .ok names ∧
        d'.recipeNames.getD [] = names ∧
        (d'.hashType = .itemNames ∧ (∀ name ∈ names, isGroupRecipeStr name = false) ∧
            (∀ wear, d.recipe ≠ .toolRepair wear) ∨
          d'.hashType = .count) := by
  have hread : ∀ names, ((if hasGroupItem names = true then CraftHashType.count else .itemNames) =
      .itemNames ∧ (∀ name ∈ names, isGroupRecipeStr name = false)) ∨
      (if hasGroupItem names = true then CraftHashType.count else .itemNames) = .count := by
    intro names
    split
    · exact .inr rfl
    · rename_i hgroup
      refine .inl ⟨rfl, fun name hname => ?_⟩
      rw [hasGroupItem, Bool.not_eq_true, List.any_eq_false] at hgroup
      exact Bool.not_eq_true _ ▸ hgroup name hname
  rw [CraftDefinition.initHash] at h
  split at h
  · rename_i wear hrecipe
    cases h
    refine ⟨rfl, rfl, rfl, [], by rw [hrecipe]; rfl, ?_, by rw [hfresh]; rfl, .inr rfl⟩
    rw [CraftDefinition.names, hfresh, hrecipe]
    rfl
  · rename_i hother
    rw [hfresh] at h
    rcases bind_eq_ok.1 h with ⟨names, hnames, heq⟩
    cases heq
    refine ⟨rfl, rfl, rfl, names, hnames, rfl, rfl, ?_⟩
    rcases hread names with ⟨htype, hgroup⟩ | htype
    · exact .inl ⟨htype, hgroup, hother⟩
    · exact .inr htype

theorem check_congr (hrecipe : d'.recipe = d.recipe) (hnames : d'.names r idef = d.names r idef) :
    d'.check r idef input = d.check r idef input := by
  rw [CraftDefinition.check, CraftDefinition.check, hrecipe, hnames]

theorem getOutput_congr (hrecipe : d'.recipe = d.recipe) :
    d'.getOutput order idef input = d.getOutput order idef input := by
  rw [CraftDefinition.getOutput, CraftDefinition.getOutput, hrecipe]

/-- `initHash` does not change what a definition matches. -/
theorem check_initHash (hfresh : d.recipeNames = none) (h : d.initHash r idef = .ok d') :
    d'.check r idef input = d.check r idef input := by
  rcases initHash_spec hfresh h with ⟨hrecipe, -, -, names, hread, hnames, -, -⟩
  refine check_congr hrecipe ?_
  rw [hnames, CraftDefinition.names, hfresh, hread]

/-- Once the names were read, `check` does not throw. -/
theorem check_ok (hfresh : d.recipeNames = none) (h : readNames r idef d.recipe = .ok names) :
    ∃ matched, d.check r idef input = .ok matched := by
  have hnames : d.names r idef = .ok names := by
    rw [CraftDefinition.names, hfresh]
    exact h
  have hsingle : ∀ method recipe, readNames r idef (.cooking [] recipe 0 []) = .ok names →
      ∃ matched, checkSingle r idef method input recipe = .ok matched := by
    intro method recipe hread
    rcases bind_eq_ok.1 hread with ⟨name, hname, -⟩
    rw [checkSingle, hname]
    split
    · exact ⟨_, rfl⟩
    · split
      · exact ⟨_, rfl⟩
      · exact ⟨_, rfl⟩
  rw [CraftDefinition.check]
  cases hrecipe : d.recipe with
  | shaped output width recipe replacements =>
    simp only [hnames, checkShaped, ok_bind]
    repeat' split
    all_goals exact ⟨_, rfl⟩
  | shapeless output recipe replacements =>
    simp only [hnames, checkShapeless, ok_bind]
    split
    · exact ⟨_, rfl⟩
    · exact ⟨_, rfl⟩
  | toolRepair wear =>
    simp only
    repeat' split
    all_goals exact ⟨_, rfl⟩
  | cooking output recipe cooktime replacements =>
    rw [hrecipe] at h
    exact hsingle .cooking recipe h
  | fuel recipe burntime replacements =>
    rw [hrecipe] at h
    exact hsingle .fuel recipe h

theorem length_of_craftGetItemNames {itemstrings : List Bytes}
    (h : craftGetItemNames r idef itemstrings = .ok names) : names.length = itemstrings.length :=
  (mapM_eq_ok.1 h).length_eq.symm

theorem filter_filtered (input : CraftInput) :
    input.filtered.filter (fun name => decide (name ≠ [])) = input.filtered := by
  rw [CraftInput.filtered, List.filter_filter]
  simp

/-- A single name, as it is hashed in a grid. -/
theorem getHashForGrid_single (hash : Bytes → UInt64) (h : input.filtered = [name]) :
    getHashForGrid hash .itemNames (sortNames input.names) = hash name := by
  have hperm : ((sortNames input.names).filter fun name => decide (name ≠ [])).Perm [name] := by
    rw [← h]
    exact (perm_sortNames input.names).filter _
  rw [getHashForGrid, List.perm_singleton.1 hperm]
  simp

/-- A definition that is filed under its names has the names of every input it matches. -/
theorem itemNames_of_check (hfresh : d.recipeNames = none) (h : d.initHash r idef = .ok d')
    (htype : d'.hashType = .itemNames) (hcheck : d'.check r idef input = .ok true) :
    d'.getHash hash .itemNames = getHashForGrid hash .itemNames (sortNames input.names) := by
  rcases initHash_spec hfresh h with ⟨hrecipe, -, -, names, hread, hnames, hstored, hcases⟩
  rcases hcases with ⟨-, hgroup, hother⟩ | hcount
  swap
  · rw [htype] at hcount
    cases hcount
  have hsingle : ∀ method recipe, readNames r idef (.cooking [] recipe 0 []) = .ok names →
      checkSingle r idef method input recipe = .ok true →
        hash names.flatten = getHashForGrid hash .itemNames (sortNames input.names) := by
    intro method recipe hread hcheck
    rcases bind_eq_ok.1 hread with ⟨recName, hname, heq⟩
    cases heq
    rw [checkSingle, hname] at hcheck
    split at hcheck
    · cases hcheck
    · split at hcheck
      · rename_i name hfiltered
        have hmatch : inputItemMatchesRecipe idef name recName = true := Except.ok.inj hcheck
        have hsame := eq_of_matches hmatch (hgroup recName (List.mem_singleton.2 rfl))
        rw [getHashForGrid_single hash hfiltered, hsame]
        simp
      · cases hcheck
  rw [CraftDefinition.getHash, hstored, hrecipe]
  rw [CraftDefinition.check, hrecipe, hnames] at hcheck
  cases hclass : d.recipe with
  | shaped output width recipe replacements =>
    rw [hclass] at hcheck
    simp only [checkShaped, ok_bind] at hcheck
    refine (getHashForGrid_congr hash ?_).symm
    split at hcheck
    · cases hcheck
    rename_i hinput
    split at hcheck
    · cases hcheck
    rename_i inp hinp
    split at hcheck
    · cases hcheck
    rename_i hwidth
    split at hcheck
    · cases hcheck
    rename_i rec hrec
    have hpos : 0 < input.width.toNat := by
      refine Nat.pos_of_ne_zero fun hzero => hinput (.inr (UInt32.toNat_inj.1 hzero))
    have hpos' : 0 < width.toNat :=
      Nat.pos_of_ne_zero fun hzero => hwidth (UInt32.toNat_inj.1 hzero)
    have hpad : ∀ name ∈ padRows names width.toNat, isGroupRecipeStr name = false := by
      intro name hname
      rcases List.mem_append.1 hname with hname | hname
      · exact hgroup name hname
      · rw [List.eq_of_mem_replicate hname]
        rfl
    have hperm := items_of_boxesMatch hpos hpos' hinp hrec hpad (Except.ok.inj hcheck)
    rwa [filter_padRows, filter_padRows] at hperm
  | shapeless output recipe replacements =>
    rw [hclass] at hcheck hread
    simp only [checkShapeless, ok_bind] at hcheck
    split at hcheck
    · cases hcheck
    rename_i hinput
    rcases bind_eq_ok.1 hread with ⟨unsorted, hunsorted, heq⟩
    cases heq
    have hlength : (sortNames input.filtered).length = (sortNames unsorted).length := by
      rw [(perm_sortNames _).length_eq, (perm_sortNames _).length_eq,
        length_of_craftGetItemNames hunsorted]
      exact not_not.1 (not_or.1 hinput).2
    have hperm := perm_of_namesMatch hgroup hlength (Except.ok.inj hcheck)
    have hperm' : input.filtered.Perm unsorted :=
      (perm_sortNames _).symm.trans (hperm.trans (perm_sortNames _))
    have hsame : (input.names.filter fun name => decide (name ≠ [])).Perm
        (unsorted.filter fun name => decide (name ≠ [])) := by
      rw [← CraftInput.filtered, ← filter_filtered]
      exact hperm'.filter _
    exact (getHashForGrid_congr hash hsame).symm
  | toolRepair wear => exact absurd hclass (hother wear)
  | cooking output recipe cooktime replacements =>
    rw [hclass] at hcheck hread
    exact hsingle .cooking recipe hread hcheck
  | fuel recipe burntime replacements =>
    rw [hclass] at hcheck hread
    exact hsingle .fuel recipe hread hcheck

end

/-! ## Where the definitions are filed -/

/-- The definitions of one bucket. -/
def filed (hash : Bytes → UInt64) (type : CraftHashType) (value : UInt64)
    (ds : List CraftDefinition) : List CraftDefinition :=
  ds.filter fun d => decide (d.hashType = type ∧ d.getHash hash d.hashType = value)

variable (r : Reader) (order : MapOrder) (idef : ItemDefManager)

/-- The constructors and `registerCraft`, one after the other. -/
def registerAll (recipes : List Recipe) : Except Exception CraftDefManager :=
  (recipes.mapIdx construct).foldlM (CraftDefManager.registerCraft r order idef) {}

section

variable {r : Reader} {order : MapOrder} {idef : ItemDefManager} {hash : Bytes → UInt64}
variable {m m' : CraftDefManager} {type type' : CraftHashType} {value value' : UInt64}
variable {ds ds' : List CraftDefinition} {d : CraftDefinition} {recipes : List Recipe}

theorem craftDefs_push (m : CraftDefManager) (type type' : CraftHashType) (value value' : UInt64)
    (d : CraftDefinition) : (m.push type value d).craftDefs type' value' =
      m.craftDefs type' value' ++ if type = type' ∧ value = value' then [d] else [] := by
  rw [CraftDefManager.push]
  by_cases htype : type = type'
  · subst htype
    by_cases hvalue : value = value'
    · subst hvalue
      simp
    · have hne : value' ≠ value := fun h => hvalue h.symm
      simp [hvalue, hne]
  · have hne : type' ≠ type := fun h => htype h.symm
    simp [htype, hne]

theorem craftDefs_register (h : ds.foldlM (CraftDefManager.registerCraft r order idef) m = .ok m') :
    m'.craftDefs type value =
      m.craftDefs type value ++ if .unhashed = type ∧ 0 = value then ds else [] := by
  induction ds generalizing m with
  | nil =>
    cases h
    split <;> simp
  | cons d ds ih =>
    rw [List.foldlM_cons] at h
    rcases bind_eq_ok.1 h with ⟨m₁, hfirst, hrest⟩
    rcases bind_eq_ok.1 hfirst with ⟨outputName, -, heq⟩
    cases heq
    rw [ih hrest]
    simp only [craftDefs_push, List.append_assoc]
    split
    · simp
    · simp

theorem craftDefs_enter (h : ds.foldlM (CraftDefManager.enter r idef hash) m = .ok m') :
    ∃ ds', ds.mapM (CraftDefinition.initHash r idef) = .ok ds' ∧ ∀ type value,
      m'.craftDefs type value = m.craftDefs type value ++ filed hash type value ds' := by
  induction ds generalizing m with
  | nil =>
    cases h
    exact ⟨[], rfl, fun _ _ => (List.append_nil _).symm⟩
  | cons d ds ih =>
    rw [List.foldlM_cons] at h
    rcases bind_eq_ok.1 h with ⟨m₁, hfirst, hrest⟩
    rcases bind_eq_ok.1 hfirst with ⟨d', hd', heq⟩
    cases heq
    rcases ih hrest with ⟨ds', hds', hfiled⟩
    refine ⟨d' :: ds', ?_, fun type value => ?_⟩
    · rw [List.mapM_cons]
      exact bind_eq_ok.2 ⟨d', hd', bind_eq_ok.2 ⟨ds', hds', rfl⟩⟩
    · rw [hfiled, craftDefs_push, List.append_assoc, filed, filed, List.filter_cons]
      simp only [decide_eq_true_eq]
      split
      · simp
      · simp

theorem unhashed_register (h : registerAll r order idef recipes = .ok m) :
    m.unhashed = recipes.mapIdx construct ∧
      ∀ type value, type ≠ .unhashed → m.craftDefs type value = [] := by
  constructor
  · rw [CraftDefManager.unhashed, craftDefs_register h]
    simp
  · intro type value htype
    rw [craftDefs_register h, if_neg fun hsame => htype hsame.1.symm]
    rfl

/-- After `initHashes` every definition is in the bucket of its hash, and none is unhashed. -/
theorem craftDefs_initHashes (hregister : registerAll r order idef recipes = .ok m)
    (hinit : m.initHashes r idef hash = .ok m') :
    ∃ ds, (recipes.mapIdx construct).mapM (CraftDefinition.initHash r idef) = .ok ds ∧
      (∀ type value, type ≠ .unhashed → m'.craftDefs type value = filed hash type value ds) ∧
      m'.craftDefs .unhashed 0 = [] := by
  rcases unhashed_register hregister with ⟨hunhashed, hempty⟩
  rcases bind_eq_ok.1 hinit with ⟨m₁, henter, heq⟩
  rw [hunhashed] at henter
  rcases craftDefs_enter henter with ⟨ds, hds, hfiled⟩
  cases heq
  refine ⟨ds, hds, fun type value htype => ?_, ?_⟩
  · simp only [Function.update_of_ne htype]
    rw [hfiled, hempty type value htype, List.nil_append]
  · simp

end

/-! ## The search -/

namespace CraftDefinition

def rank (d : CraftDefinition) : Nat :=
  d.priority.toNat

/-- The definition matches, and its output is known. -/
def fits (r : Reader) (order : MapOrder) (idef : ItemDefManager) (input : CraftInput)
    (d : CraftDefinition) : Bool :=
  match d.check r idef input with
  | .ok true =>
    match ItemStack.deSerialize r (some idef) { rest := (d.getOutput order idef input).item } with
    | .ok is => idef.isKnown is.name
    | .error _ => false
  | _ => false

/-- Nothing throws while the definition is tried. -/
def Tried (r : Reader) (order : MapOrder) (idef : ItemDefManager) (input : CraftInput)
    (d : CraftDefinition) : Prop :=
  (∃ matched, d.check r idef input = .ok matched) ∧
    ∃ is, ItemStack.deSerialize r (some idef) { rest := (d.getOutput order idef input).item } =
      .ok is

end CraftDefinition

/-- All definitions in the order of their registration: of those that match and have a known output
the one with the highest priority, and among equals the last. -/
def scan (input : CraftInput) (ds : List CraftDefinition) : Option CraftDefinition :=
  lastMax CraftDefinition.rank (CraftDefinition.fits r order idef input) ds

section

variable {r : Reader} {order : MapOrder} {idef : ItemDefManager} {hash : Bytes → UInt64}
variable {input : CraftInput} {m m' : CraftDefManager} {ds : List CraftDefinition}
variable {d : CraftDefinition} {best : Option CraftDefinition} {recipes : List Recipe}

/-- A definition with its output. -/
def withOutput (order : MapOrder) (idef : ItemDefManager) (input : CraftInput)
    (d : CraftDefinition) : CraftDefinition × CraftOutput :=
  (d, d.getOutput order idef input)

theorem tryDefinition_eq (hd : d.Tried r order idef input) :
    CraftDefManager.tryDefinition r order idef input (best.map (withOutput order idef input)) d =
      .ok ((if best.elim 0 CraftDefinition.rank < d.rank ∧ d.fits r order idef input = true then
        some d else best).map (withOutput order idef input)) := by
  rcases hd with ⟨⟨matched, hmatched⟩, is, his⟩
  have hrank : ((best.map (withOutput order idef input)).elim RecipePriority.noRecipe
      fun b => b.1.priority).toNat = best.elim 0 CraftDefinition.rank := by
    cases best with
    | none => rfl
    | some b => rfl
  rw [CraftDefManager.tryDefinition, hrank, CraftDefinition.fits, hmatched]
  by_cases hlt : best.elim 0 CraftDefinition.rank < d.rank
  · have hlt' : best.elim 0 CraftDefinition.rank < d.priority.toNat := hlt
    rw [if_pos hlt']
    cases matched with
    | false => simp
    | true =>
      simp only [ok_bind, his, if_true, hlt, true_and]
      split
      · rfl
      · rfl
  · have hlt' : ¬ best.elim 0 CraftDefinition.rank < d.priority.toNat := hlt
    rw [if_neg hlt', if_neg fun h => hlt h.1]

theorem foldlM_tryDefinition (hds : ∀ d ∈ ds, d.Tried r order idef input) :
    ds.foldlM (CraftDefManager.tryDefinition r order idef input)
        (best.map (withOutput order idef input)) =
      .ok ((firstMax CraftDefinition.rank (CraftDefinition.fits r order idef input) ds best).map
        (withOutput order idef input)) := by
  induction ds generalizing best with
  | nil => rfl
  | cons d ds ih =>
    have hrest := fun best => @ih best fun d' hd' => hds d' (List.mem_cons_of_mem d hd')
    rw [List.foldlM_cons, tryDefinition_eq (hds d (List.mem_cons_self ..)), ok_bind, hrest,
      firstMax]
    split
    · rfl
    · rfl

/-- What `getCraftResult` searches: the bucket of the names, then the bucket of the count, each from
the last definition to the first. -/
theorem findCraft_eq (hds : ∀ d ∈ ds, d.Tried r order idef input)
    (hfiled : ∀ type value, type ≠ .unhashed → m.craftDefs type value = filed hash type value ds)
    (hunhashed : m.craftDefs .unhashed 0 = []) :
    m.findCraft r order idef hash input =
      .ok ((firstMax CraftDefinition.rank (CraftDefinition.fits r order idef input)
        (filed hash .itemNames (getHashForGrid hash .itemNames (sortNames input.names)) ds.reverse ++
          filed hash .count (getHashForGrid hash .count (sortNames input.names)) ds.reverse)
        none).map (withOutput order idef input)) := by
  have hbucket : ∀ type, type ≠ .unhashed →
      (m.craftDefs type (getHashForGrid hash type (sortNames input.names))).reverse =
        filed hash type (getHashForGrid hash type (sortNames input.names)) ds.reverse := by
    intro type htype
    rw [hfiled type _ htype, filed, filed, List.filter_reverse]
  have htried : ∀ type value, ∀ d ∈ filed hash type value ds.reverse, d.Tried r order idef input :=
    fun type value d hd => hds d (List.mem_reverse.1 (List.mem_of_mem_filter hd))
  have hlast : getHashForGrid hash .unhashed (sortNames input.names) = 0 := rfl
  have hnone : (none : Option (CraftDefinition × CraftOutput)) =
      (none : Option CraftDefinition).map (withOutput order idef input) := rfl
  rw [CraftDefManager.findCraft]
  simp only [List.foldlM_cons, List.foldlM_nil, hbucket .itemNames (by decide),
    hbucket .count (by decide), hlast, hunhashed, List.reverse_nil]
  rw [hnone, foldlM_tryDefinition (htried _ _), ok_bind, foldlM_tryDefinition (htried _ _), ok_bind,
    firstMax_append]
  rfl

end

/-! ## Hashed and not hashed -/

/-- The definition that should be found is filed under its names, or under its count with as many
items as the input has and with no match of its priority that is filed under its names; and the
input is not empty. -/
def Findable (hash : Bytes → UInt64) (input : CraftInput) (ds : List CraftDefinition) : Prop :=
  ∀ d, IsFirstMax CraftDefinition.rank (CraftDefinition.fits r order idef input) ds.reverse d →
    input.empty = false ∧
      (d.hashType = .itemNames ∨
        d.hashType = .count ∧ d.getHash hash .count = getHashForGrid hash .count input.names ∧
          ∀ e ∈ ds, e.fits r order idef input = true → e.hashType = .itemNames →
            e.priority ≠ d.priority)

inductive CraftClass
  | shaped
  | shapeless
  | toolRepair
  | cooking
  | fuel
  deriving DecidableEq

def Recipe.craftClass : Recipe → CraftClass
  | .shaped _ _ _ _ => .shaped
  | .shapeless _ _ _ => .shapeless
  | .toolRepair _ => .toolRepair
  | .cooking _ _ _ _ => .cooking
  | .fuel _ _ _ => .fuel

/-- The recipe names a group item. -/
def Recipe.namesGroup : Recipe → Bool
  | .shaped _ _ recipe _ | .shapeless _ recipe _ => hasGroupItem recipe
  | .toolRepair _ => false
  | .cooking _ recipe _ _ | .fuel recipe _ _ => isGroupRecipeStr recipe

section

variable {r : Reader} {order : MapOrder} {idef : ItemDefManager} {hash : Bytes → UInt64}
variable {input : CraftInput} {m m' : CraftDefManager} {ds : List CraftDefinition}
variable {d d' e : CraftDefinition} {recipes : List Recipe}

/-- In every class but fuel a recipe with a group comes after one without. -/
theorem priority_lt_iff {g e : Recipe} (hclass : g.craftClass = e.craftClass)
    (hg : g.namesGroup = true) (he : e.namesGroup = false) :
    g.priority.toNat < e.priority.toNat ↔ g.craftClass ≠ .fuel := by
  cases g <;> cases e <;> simp only [Recipe.craftClass, reduceCtorEq] at hclass <;>
    simp only [Recipe.namesGroup, Bool.false_eq_true] at hg he <;>
    simp [Recipe.priority, Recipe.craftClass, RecipePriority.toNat, hg, he]

theorem toNat_priority_pos (recipe : Recipe) : 0 < recipe.priority.toNat := by
  cases recipe <;> simp only [Recipe.priority] <;> (try split) <;> decide

theorem toNat_injective {p q : RecipePriority} (h : p.toNat = q.toNat) : p = q := by
  cases p <;> cases q <;> first | rfl | exact absurd h (by decide)

theorem exists_recipe
    (hds : (recipes.mapIdx construct).mapM (CraftDefinition.initHash r idef) = .ok ds)
    (hd : d' ∈ ds) : ∃ d ∈ recipes.mapIdx construct, ∃ recipe ∈ recipes,
      d.recipe = recipe ∧ d.priority = recipe.priority ∧ d.recipeNames = none ∧
        d.initHash r idef = .ok d' := by
  rcases mem_of_mapM hds hd with ⟨d, hd, hinit⟩
  rcases List.mem_mapIdx.1 hd with ⟨i, hi, hconstruct⟩
  refine ⟨d, hd, recipes[i], List.getElem_mem hi, ?_⟩
  rw [← hconstruct]
  exact ⟨rfl, rfl, rfl, hconstruct ▸ hinit⟩

/-- `registerCraft` has read every output. -/
theorem output_of_register (h : ds.foldlM (CraftDefManager.registerCraft r order idef) m = .ok m')
    (hd : d ∈ ds) : ∃ is, ItemStack.deSerialize r (some idef)
      { rest := (d.getOutput order idef {}).item } = .ok is := by
  induction ds generalizing m with
  | nil => exact (List.not_mem_nil hd).elim
  | cons d' ds ih =>
    rw [List.foldlM_cons] at h
    rcases bind_eq_ok.1 h with ⟨m₁, hfirst, hrest⟩
    rcases List.mem_cons.1 hd with rfl | hd
    · rcases bind_eq_ok.1 hfirst with ⟨outputName, hname, -⟩
      rcases bind_eq_ok.1 hname with ⟨is, his, -⟩
      exact ⟨is, his⟩
    · exact ih hrest hd

theorem tried_of_register (hregister : registerAll r order idef recipes = .ok m)
    (hrepair : ∀ wear, Recipe.toolRepair wear ∈ recipes → ∃ is, ItemStack.deSerialize r (some idef)
      { rest := ((construct 0 (.toolRepair wear)).getOutput order idef input).item } = .ok is)
    (hds : (recipes.mapIdx construct).mapM (CraftDefinition.initHash r idef) = .ok ds) :
    ∀ d ∈ ds, d.Tried r order idef input := by
  intro d' hd'
  rcases exists_recipe hds hd' with ⟨d, hd, recipe, hrecipe, hsame, -, hfresh, hinit⟩
  rcases initHash_spec hfresh hinit with ⟨hrecipe', -, -, names, hread, -⟩
  refine ⟨?_, ?_⟩
  · rw [check_initHash hfresh hinit]
    exact check_ok hfresh hread
  · rw [getOutput_congr hrecipe']
    have houtput := output_of_register hregister hd
    rw [CraftDefinition.getOutput, hsame] at houtput ⊢
    cases recipe with
    | toolRepair wear => exact hrepair wear hrecipe
    | shaped _ _ _ _ => exact houtput
    | shapeless _ _ _ => exact houtput
    | cooking _ _ _ _ => exact houtput
    | fuel _ _ _ => exact houtput

theorem check_of_fits (h : d.fits r order idef input = true) : d.check r idef input = .ok true := by
  rw [CraftDefinition.fits] at h
  split at h
  · assumption
  · cases h

theorem count_sortNames (hash : Bytes → UInt64) (names : List Bytes) :
    getHashForGrid hash .count (sortNames names) = getHashForGrid hash .count names := by
  rw [getHashForGrid, getHashForGrid]
  simp only [((perm_sortNames names).filter _).length_eq]

theorem definition_getCraftResult {best : Option CraftDefinition} (hempty : ¬ input.empty = true)
    (hfind : m.findCraft r order idef hash input = .ok (best.map (withOutput order idef input))) :
    (m.getCraftResult r order idef hash input false).map
      (Option.map CraftDefManager.CraftResult.definition) = .ok best := by
  rw [CraftDefManager.getCraftResult, if_neg hempty, hfind]
  cases best with
  | none => rfl
  | some d => rfl

/-- The lookup by hash finds what a scan of all definitions finds exactly when it is filed where the
lookup comes first.  Fuel is the class in which a recipe with a group does not come after the exact
one. -/
theorem hashed_eq_scan_iff (r : Reader) (order : MapOrder) (idef : ItemDefManager)
    (hash : Bytes → UInt64) (recipes : List Recipe) (m m' : CraftDefManager) (input : CraftInput)
    (hregister : registerAll r order idef recipes = .ok m)
    (hinit : m.initHashes r idef hash = .ok m')
    (hrepair : ∀ wear, Recipe.toolRepair wear ∈ recipes → ∃ is, ItemStack.deSerialize r (some idef)
      { rest := ((construct 0 (.toolRepair wear)).getOutput order idef input).item } = .ok is) :
    (∃ ds, (recipes.mapIdx construct).mapM (CraftDefinition.initHash r idef) = .ok ds ∧
      ((m'.getCraftResult r order idef hash input false).map
          (Option.map CraftDefManager.CraftResult.definition) = .ok (scan r order idef input ds) ↔
        Findable r order idef hash input ds)) ∧
      ∀ g e : Recipe, g.craftClass = e.craftClass → g.namesGroup = true → e.namesGroup = false →
        (g.priority.toNat < e.priority.toNat ↔ g.craftClass ≠ .fuel) := by
  refine ⟨?_, fun g e => priority_lt_iff⟩
  rcases craftDefs_initHashes hregister hinit with ⟨ds, hds, hfiled, hunhashed⟩
  refine ⟨ds, hds, ?_⟩
  have htried := tried_of_register hregister hrepair hds
  have hpos : ∀ d ∈ ds, 0 < d.rank := by
    intro d' hd'
    rcases exists_recipe hds hd' with ⟨d, -, recipe, -, -, hpriority, hfresh, hinit⟩
    rw [CraftDefinition.rank, (initHash_spec hfresh hinit).2.1, hpriority]
    exact toNat_priority_pos recipe
  have hposr : ∀ d ∈ ds.reverse, 0 < d.rank := fun d hd => hpos d (List.mem_reverse.1 hd)
  rw [scan, lastMax_eq hpos]
  -- what is filed under its names is filed under the names of the input
  have hnames : ∀ d ∈ ds, d.fits r order idef input = true → d.hashType = .itemNames →
      d.getHash hash .itemNames = getHashForGrid hash .itemNames (sortNames input.names) := by
    intro d' hd' hfits htype
    rcases exists_recipe hds hd' with ⟨d, -, recipe, -, -, -, hfresh, hinit⟩
    exact itemNames_of_check hfresh hinit htype (check_of_fits hfits)
  by_cases hempty : input.empty = true
  · -- nothing is looked for
    rw [CraftDefManager.getCraftResult, if_pos hempty]
    constructor
    · intro h d hd
      have hnone : firstMax CraftDefinition.rank (CraftDefinition.fits r order idef input)
          ds.reverse none = none := (Except.ok.inj h).symm
      rw [(firstMax_eq_some_iff hposr).2 hd] at hnone
      cases hnone
    · intro h
      rcases firstMax_none (CraftDefinition.fits r order idef input) hposr with
        ⟨hnone, -⟩ | ⟨d, -, hd⟩
      · rw [hnone]
        rfl
      · have hfalse := (h d hd).1
        rw [hempty] at hfalse
        cases hfalse
  · rw [definition_getCraftResult hempty (findCraft_eq htried hfiled hunhashed), Except.ok.injEq,
      filed, filed, firstMax_buckets_iff hposr]
    refine forall_congr' fun d => forall_congr' fun hd => ?_
    have hmem : d ∈ ds := List.mem_reverse.1 hd.mem
    simp only [decide_eq_true_eq, Bool.not_eq_true _ ▸ hempty, true_and, List.mem_reverse]
    constructor
    · rintro (⟨htype, -⟩ | ⟨⟨htype, hcount⟩, hother⟩)
      · exact .inl htype
      · rw [htype, count_sortNames] at hcount
        refine .inr ⟨htype, hcount, fun e he hfits htype' hsame => ?_⟩
        have hvalue := hnames e he hfits htype'
        refine hother e he hfits ⟨htype', htype' ▸ hvalue⟩ ?_
        rw [CraftDefinition.rank, CraftDefinition.rank, hsame]
    · rintro (htype | ⟨htype, hcount, hother⟩)
      · exact .inl ⟨htype, htype ▸ hnames d hmem hd.fits htype⟩
      · refine .inr ⟨⟨htype, ?_⟩, fun e he hfits hp hsame => ?_⟩
        · rw [htype, count_sortNames]
          exact hcount
        · exact hother e he hfits hp.1 (toNat_injective hsame)

end

/-! ## Two fuels -/

/-- One node, in one group. -/
def forest : ItemDefManager where
  definitions := ItemDefManager.builtin.definitions.insert (ascii "default:tree")
    { type := .node, groups := Finmap.singleton (ascii "tree") 1 }
  aliases := ∅
  unknown_mem := Finmap.mem_insert.2 (.inr ItemDefManager.builtin.unknown_mem)

/-- The node is fuel, and so is its group. -/
def treeFuel : List Recipe :=
  [.fuel (ascii "default:tree") 30 [], .fuel (ascii "group:tree") 15 []]

def oneTree : CraftInput where
  method := .fuel
  width := 1
  items := [{ name := ascii "default:tree", count := 1, wear := 0, metadata := ∅ }]

def byLength (name : Bytes) : UInt64 :=
  UInt64.ofNat name.length

/-- The two definitions once they are filed.  The constructor gave both the same priority. -/
def treeDefs : List CraftDefinition :=
  [{ pointer := 0, recipe := .fuel (ascii "default:tree") 30 [], priority := .shapeless,
     hashType := .itemNames, recipeNames := some [ascii "default:tree"] },
   { pointer := 1, recipe := .fuel (ascii "group:tree") 15 [], priority := .shapeless,
     hashType := .count, recipeNames := some [ascii "group:tree"] }]

theorem initHash_treeFuel :
    (treeFuel.mapIdx construct).mapM (CraftDefinition.initHash strict forest) = .ok treeDefs :=
  rfl

set_option maxRecDepth 20000 in
theorem registered_treeFuel : ∃ m m', registerAll strict someOrder forest treeFuel = .ok m ∧
    m.initHashes strict forest byLength = .ok m' := by
  have hisSome : ((registerAll strict someOrder forest treeFuel).bind fun m =>
      m.initHashes strict forest byLength).toOption.isSome = true := by decide
  cases hregister : registerAll strict someOrder forest treeFuel with
  | error e =>
    rw [hregister] at hisSome
    cases hisSome
  | ok m =>
    rw [hregister] at hisSome
    cases hinit : m.initHashes strict forest byLength with
    | error e =>
      have hnone : ((Except.ok m).bind fun m =>
          m.initHashes strict forest byLength).toOption.isSome = false := by
        rw [Except.bind, hinit]
        rfl
      rw [hnone] at hisSome
      cases hisSome
    | ok m' => exact ⟨m, m', rfl, hinit⟩

theorem treeFuel_repair : ∀ wear, Recipe.toolRepair wear ∈ treeFuel →
    ∃ is, ItemStack.deSerialize strict (some forest)
      { rest := ((construct 0 (.toolRepair wear)).getOutput someOrder forest oneTree).item } =
        .ok is := by
  intro wear hwear
  simp [treeFuel] at hwear

theorem hashed_eq_scan_iff_treeFuel : ∃ m m',
    registerAll strict someOrder forest treeFuel = .ok m ∧
      m.initHashes strict forest byLength = .ok m' ∧
      (∃ ds, (treeFuel.mapIdx construct).mapM (CraftDefinition.initHash strict forest) = .ok ds ∧
        ((m'.getCraftResult strict someOrder forest byLength oneTree false).map
            (Option.map CraftDefManager.CraftResult.definition) =
              .ok (scan strict someOrder forest oneTree ds) ↔
          Findable strict someOrder forest byLength oneTree ds)) := by
  rcases registered_treeFuel with ⟨m, m', hregister, hinit⟩
  exact ⟨m, m', hregister, hinit, (hashed_eq_scan_iff strict someOrder forest byLength treeFuel m m'
    oneTree hregister hinit treeFuel_repair).1⟩

set_option maxRecDepth 20000 in
/-- The scan takes the group fuel, which was registered last; the lookup by hash comes to the exact
one first and stays there. -/
theorem exact_fuel_hides_group : ∃ m m',
    registerAll strict someOrder forest treeFuel = .ok m ∧
      m.initHashes strict forest byLength = .ok m' ∧
      (treeFuel.mapIdx construct).mapM (CraftDefinition.initHash strict forest) = .ok treeDefs ∧
      (scan strict someOrder forest oneTree treeDefs).map CraftDefinition.pointer = some 1 ∧
      (m'.getCraftResult strict someOrder forest byLength oneTree false).map
        (Option.map fun c => c.definition.pointer) = .ok (some 0) ∧
      Recipe.namesGroup (.fuel (ascii "group:tree") 15 []) = true ∧
      Recipe.priority (.fuel (ascii "group:tree") 15 []) =
        Recipe.priority (.fuel (ascii "default:tree") 30 []) := by
  rcases registered_treeFuel with ⟨m, m', hregister, hinit⟩
  rcases craftDefs_initHashes hregister hinit with ⟨ds, hds, hfiled, hunhashed⟩
  have hsame : treeDefs = ds := Except.ok.inj (initHash_treeFuel.symm.trans hds)
  subst hsame
  have htried := tried_of_register hregister treeFuel_repair hds
  have hne : ¬ oneTree.empty = true := by decide
  have hfound := definition_getCraftResult hne (findCraft_eq htried hfiled hunhashed)
  refine ⟨m, m', hregister, hinit, initHash_treeFuel, by decide, ?_, by decide, by decide⟩
  have hmap : ∀ x : Except Exception (Option CraftDefManager.CraftResult),
      x.map (Option.map fun c => c.definition.pointer) =
        (x.map (Option.map CraftDefManager.CraftResult.definition)).map
          (Option.map CraftDefinition.pointer) := by
    intro x
    cases x with
    | error e => rfl
    | ok best => cases best <;> rfl
  have hsorted : sortNames oneTree.names = oneTree.names := List.mergeSort_singleton _
  rw [hmap, hfound, hsorted]
  have hfirst : (firstMax CraftDefinition.rank (CraftDefinition.fits strict someOrder forest oneTree)
      (filed byLength .itemNames (getHashForGrid byLength .itemNames oneTree.names)
          treeDefs.reverse ++
        filed byLength .count (getHashForGrid byLength .count oneTree.names) treeDefs.reverse)
      none).map CraftDefinition.pointer = some 0 := by decide
  exact congrArg Except.ok hfirst

end Craft
end AxisEngine
