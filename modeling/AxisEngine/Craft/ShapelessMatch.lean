import AxisEngine.Craft.Augmenting
import AxisEngine.Craft.HashedLookup

/-!
# ShapelessMatch — a shapeless recipe matches what can be arranged along it

* `matchGraph` — which of some names each item matches;
* `shapeless_check_iff` — the whole of `check`.
-/

namespace AxisEngine
namespace Craft

open Lib Util Inventory

/-- An item fits a name of a recipe. -/
def Fits (idef : ItemDefManager) (item name : Bytes) : Prop :=
  inputItemMatchesRecipe idef item name = true

/-- The names that each item fits, without any filtering. -/
def matchGraph (idef : ItemDefManager) (items names : List Bytes) : List (List Nat) :=
  items.map fun item =>
    (List.range names.length).filter fun j =>
      inputItemMatchesRecipe idef item (names[j]?.getD [])

section

variable {idef : ItemDefManager} {items names : List Bytes}

theorem edge_matchGraph {i j : Nat} (hi : i < items.length) :
    Edge (matchGraph idef items names) i j ↔
      j < names.length ∧ Fits idef (items[i]?.getD []) (names[j]?.getD []) := by
  rw [Edge, matchGraph, List.getElem?_map, List.getElem?_eq_getElem hi]
  constructor
  · rintro ⟨vs, hvs, hj⟩
    cases hvs
    rcases List.mem_filter.1 hj with ⟨hlt, hfits⟩
    exact ⟨List.mem_range.1 hlt, hfits⟩
  · rintro ⟨hlt, hfits⟩
    exact ⟨_, rfl, List.mem_filter.2 ⟨List.mem_range.2 hlt, hfits⟩⟩

/-- The items are matched with the names exactly when they can be arranged along them. -/
theorem canMatchAll_matchGraph (hlength : items.length = names.length)
    (hsmall : names.length ≤ 30000) :
    hopcroftKarpCanMatchAll (matchGraph idef items names) = true ↔
      Arrangeable (Fits idef) items names := by
  have hsize : (matchGraph idef items names).length = names.length := by
    rw [matchGraph, List.length_map, hlength]
  have hrange : ∀ vs ∈ matchGraph idef items names, ∀ v ∈ vs,
      v < (matchGraph idef items names).length := by
    intro vs hvs v hv
    rcases List.mem_map.1 hvs with ⟨item, -, rfl⟩
    rw [hsize]
    exact List.mem_range.1 (List.mem_filter.1 hv).1
  rw [hopcroftKarpCanMatchAll_iff (by omega) hrange, hsize]
  -- the nodes are the places of the items and of the names
  have hplaces := arrangeable_map (R := Fits idef) (fun i => items[i]?.getD [])
    (fun j => names[j]?.getD []) (List.range items.length) (List.range names.length)
  rw [map_range_getD, map_range_getD, hlength] at hplaces
  rw [hplaces]
  constructor
  · intro h
    refine h.mono fun i hi j _ hedge => ?_
    have hi := List.mem_range.1 hi
    exact ((edge_matchGraph (by omega)).1 hedge).2
  · intro h
    refine h.mono fun i hi j hj hfits => ?_
    have hi := List.mem_range.1 hi
    exact (edge_matchGraph (by omega)).2 ⟨List.mem_range.1 hj, hfits⟩

/-! ## Names that are no groups -/

theorem perm_of_arrangeable (hgroup : ∀ name ∈ names, isGroupRecipeStr name = false)
    (h : Arrangeable (Fits idef) items names) : items.Perm names := by
  rcases h with ⟨arranged, hall, hperm⟩
  have hsame : items = arranged := by
    refine List.forall₂_eq_eq_eq ▸ ?_
    refine List.forall₂_iff_get.2 ⟨hall.length_eq, fun i hi hi' => ?_⟩
    refine eq_of_matches ((List.forall₂_iff_get.1 hall).2 i hi hi') ?_
    exact hgroup _ (hperm.subset (List.get_mem arranged ⟨i, hi'⟩))
  rw [hsame]
  exact hperm

/-- As only items of the same name fit a name that is no group, it may take any of them: what remains
can be arranged along the groups whenever all can be arranged. -/
theorem arrangeable_iff_rest {nogroup onlygroup : List Bytes}
    (hgroup : ∀ name ∈ nogroup, isGroupRecipeStr name = false) :
    Arrangeable (Fits idef) items (nogroup ++ onlygroup) ↔
      items.Perm (nogroup ++ items.diff nogroup) ∧
        Arrangeable (Fits idef) (items.diff nogroup) onlygroup := by
  constructor
  · intro h
    rcases h.split with ⟨same, rest, hitems, hsame, hrest⟩
    have hparts : items.Perm (nogroup ++ rest) :=
      hitems.trans ((perm_of_arrangeable hgroup hsame).append_right rest)
    have hsub : nogroup.Subperm items :=
      (List.sublist_append_left nogroup rest).subperm.trans hparts.symm.subperm
    have hdiff : (nogroup ++ items.diff nogroup).Perm items :=
      List.subperm_append_diff_self_of_count_le (List.subperm_ext_iff.1 hsub)
    refine ⟨hdiff.symm, hrest.perm_left ?_⟩
    exact (List.perm_append_left_iff nogroup).1 (hparts.symm.trans hdiff.symm)
  · rintro ⟨hitems, hrest⟩
    have hsame : Arrangeable (Fits idef) nogroup nogroup := by
      refine ⟨nogroup, List.forall₂_same.2 fun name _ => ?_, .refl nogroup⟩
      simp [Fits, inputItemMatchesRecipe]
    exact (hsame.append hrest).perm_left hitems.symm

/-- All names that are no groups are found among the items when as many items are left out. -/
theorem perm_append_diff_iff {nogroup : List Bytes} :
    items.length - (items.diff nogroup).length = nogroup.length ↔
      items.Perm (nogroup ++ items.diff nogroup) := by
  have hle : (items.diff nogroup).length ≤ items.length :=
    (List.diff_sublist items nogroup).length_le
  constructor
  · intro hlength
    have hsub : items.Subperm (nogroup ++ items.diff nogroup) := by
      refine List.subperm_ext_iff.2 fun name _ => ?_
      rw [List.count_append, List.count_diff]
      omega
    refine hsub.perm_of_length_le ?_
    rw [List.length_append]
    omega
  · intro hperm
    have hlength := hperm.length_eq
    rw [List.length_append] at hlength
    omega

/-- Leaving out names first does not change what is found. -/
theorem namesMatch_iff (hlength : items.length = names.length) (hsmall : names.length ≤ 30000) :
    namesMatch idef items names = true ↔ Arrangeable (Fits idef) items names := by
  have hparts : (names.filter (fun name => !isGroupRecipeStr name) ++
      names.filter isGroupRecipeStr).Perm names :=
    List.perm_append_comm.trans (List.filter_append_perm isGroupRecipeStr names)
  have hcount := hparts.length_eq
  rw [List.length_append] at hcount
  have hnogroup : ∀ name ∈ names.filter (fun name => !isGroupRecipeStr name),
      isGroupRecipeStr name = false := by
    intro name hname
    simpa using (List.mem_filter.1 hname).2
  rw [← arrangeable_congr (.refl items) hparts, arrangeable_iff_rest hnogroup,
    ← perm_append_diff_iff, namesMatch]
  dsimp only
  split
  · -- "All non-group slots must be satisfied"
    rename_i hmissing
    exact iff_of_false Bool.false_ne_true fun h => hmissing h.1
  · rename_i hfound
    have hfound := not_not.1 hfound
    have hrest : (items.diff (names.filter fun name => !isGroupRecipeStr name)).length =
        (names.filter isGroupRecipeStr).length := by
      have hle := (List.diff_sublist items
        (names.filter fun name => !isGroupRecipeStr name)).length_le
      omega
    rw [if_neg (by rw [shapelessGroupsMax]; omega), ← hrest, List.take_length]
    rw [and_iff_right hfound, ← canMatchAll_matchGraph hrest (by omega), matchGraph, hrest]

/-! ## The whole check -/

theorem length_readNames {r : Reader} {output : Bytes} {recipe : List Bytes}
    {replacements : CraftReplacements}
    (h : readNames r idef (.shapeless output recipe replacements) = .ok names) :
    names.length = recipe.length := by
  rcases bind_eq_ok.1 h with ⟨read, hread, hsorted⟩
  cases hsorted
  rw [(perm_sortNames read).length_eq]
  exact (mapM_eq_ok.1 hread).length_eq.symm

end

/-- A shapeless recipe of at most 30000 entries matches exactly when the items can be arranged along
its names, each one fitting its name; the matching that decides it is a maximum, and leaving out names
that are no groups first makes no difference. -/
theorem shapeless_check_iff (r : Reader) (idef : ItemDefManager) (d : CraftDefinition)
    (output : Bytes) (recipe : List Bytes) (replacements : CraftReplacements)
    (hd : d.recipe = .shapeless output recipe replacements) (hsmall : recipe.length ≤ 30000)
    (hstored : ∀ names, d.recipeNames = some names →
      ∃ r' idef', readNames r' idef' d.recipe = .ok names) (input : CraftInput) :
    (d.check r idef input = .ok true ↔ input.method = .normal ∧
      ∃ names, d.names r idef = .ok names ∧ Arrangeable (Fits idef) input.filtered names) ∧
    (∀ graph : List (List Nat), graph.length ≤ 30000 →
      (∀ vs ∈ graph, ∀ v ∈ vs, v < graph.length) → ∀ fuel, graph.length + 2 ≤ fuel →
        ∃ m M, numMatched? graph fuel = some m ∧ IsMaximum (Edge graph) M ∧ M.card = m ∧
          hopcroftKarpCanMatchAll graph = decide (m = graph.length)) ∧
    ∀ items names : List Bytes, items.length = names.length → names.length ≤ 30000 →
      namesMatch idef items names = hopcroftKarpCanMatchAll (matchGraph idef items names) := by
  refine ⟨?_, fun graph hgraph hrange fuel hfuel => ?_, fun items names hlength hnames => ?_⟩
  · have hcheck : d.check r idef input =
        checkShapeless idef input recipe.length (d.names r idef) := by
      rw [CraftDefinition.check, hd]
    have hnames : ∀ names, d.names r idef = .ok names → names.length = recipe.length := by
      intro names h
      rw [CraftDefinition.names] at h
      cases hrecipeNames : d.recipeNames with
      | none =>
        rw [hrecipeNames, hd] at h
        exact length_readNames h
      | some stored =>
        rw [hrecipeNames] at h
        cases h
        rcases hstored _ hrecipeNames with ⟨r', idef', hread⟩
        rw [hd] at hread
        exact length_readNames hread
    rw [hcheck, checkShapeless]
    split
    · rename_i hother
      refine iff_of_false (fun h => by cases h) ?_
      rintro ⟨hnormal, names, hok, harranged⟩
      rcases hother with hother | hother
      · exact hother hnormal
      · exact hother (harranged.length_eq.trans (hnames names hok))
    · rename_i hsame
      rcases not_or.1 hsame with ⟨hnormal, hlength⟩
      have hnormal := not_not.1 hnormal
      have hlength := not_not.1 hlength
      cases hread : d.names r idef with
      | error e =>
        refine iff_of_false (fun h => by cases h) ?_
        rintro ⟨-, names, h, -⟩
        cases h
      | ok names =>
        have hcount := hnames names hread
        have hsorted := perm_sortNames input.filtered
        have hiff : namesMatch idef (sortNames input.filtered) names = true ↔
            Arrangeable (Fits idef) (sortNames input.filtered) names :=
          namesMatch_iff (by rw [hsorted.length_eq]; omega) (by omega)
        rw [arrangeable_congr hsorted (.refl names)] at hiff
        constructor
        · intro h
          exact ⟨hnormal, names, rfl, hiff.1 (Except.ok.inj h)⟩
        · rintro ⟨-, names', hsame, h⟩
          cases hsame
          exact congrArg Except.ok (hiff.2 h)
  · rcases numMatched?_spec hgraph hrange hfuel with ⟨m, M, hm, hmax, hcard⟩
    rcases numMatched?_spec hgraph hrange le_rfl with ⟨m', M', hm', hmax', hcard'⟩
    -- all maximum matchings have one size
    have hsize : m' = m := by
      rw [← hcard, ← hcard']
      exact le_antisymm (hmax.le M' hmax'.toIsMatching) (hmax'.le M hmax.toIsMatching)
    refine ⟨m, M, hm, hmax, hcard, ?_⟩
    rw [hopcroftKarpCanMatchAll_of_numMatched? hm', hsize]
  · rw [Bool.eq_iff_iff, namesMatch_iff hlength hnames, canMatchAll_matchGraph hlength hnames]

/-- A tree, wherever it lies, makes wood. -/
def wood : CraftDefinition :=
  construct 0 (.shapeless (ascii "default:wood") [ascii "default:tree"] [])

/-- A tree in a furnace. -/
def treeToCook : CraftInput where
  method := .cooking
  width := 1
  items := [{ name := ascii "default:tree", count := 1, wear := 0, metadata := ∅ }]

/-- What is cooked does not match, although it could be arranged. -/
theorem shapeless_check_cooking : ¬(wood.check strict .builtin treeToCook = .ok true ↔
    ∃ names, wood.names strict .builtin = .ok names ∧
      Arrangeable (Fits .builtin) treeToCook.filtered names) := by
  intro h
  have hnames : wood.names strict .builtin = .ok [ascii "default:tree"] := by decide +kernel
  have hfits : Arrangeable (Fits .builtin) treeToCook.filtered [ascii "default:tree"] := by
    refine ⟨[ascii "default:tree"], .cons ?_ .nil, .refl _⟩
    simp [Fits, inputItemMatchesRecipe]
  have hcheck : wood.check strict .builtin treeToCook = .ok false := rfl
  have hmatch := h.2 ⟨_, hnames, hfits⟩
  rw [hcheck] at hmatch
  cases hmatch

theorem shapeless_check_iff_wood :
    (wood.check strict .builtin treeToCook = .ok true ↔ treeToCook.method = .normal ∧
      ∃ names, wood.names strict .builtin = .ok names ∧
        Arrangeable (Fits .builtin) treeToCook.filtered names) ∧
    (∀ graph : List (List Nat), graph.length ≤ 30000 →
      (∀ vs ∈ graph, ∀ v ∈ vs, v < graph.length) → ∀ fuel, graph.length + 2 ≤ fuel →
        ∃ m M, numMatched? graph fuel = some m ∧ IsMaximum (Edge graph) M ∧ M.card = m ∧
          hopcroftKarpCanMatchAll graph = decide (m = graph.length)) ∧
    ∀ items names : List Bytes, items.length = names.length → names.length ≤ 30000 →
      namesMatch .builtin items names = hopcroftKarpCanMatchAll (matchGraph .builtin items names) :=
  shapeless_check_iff strict .builtin wood (ascii "default:wood") [ascii "default:tree"] [] rfl
    (by decide) (fun names h => by cases h) treeToCook

end Craft
end AxisEngine
