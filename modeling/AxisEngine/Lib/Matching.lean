import Mathlib.Data.Finset.Card
import Mathlib.Data.Finset.Prod
import Mathlib.Data.List.Perm.Basic
import Mathlib.Data.List.Perm.Subperm
import Mathlib.Data.List.Nodup
import Mathlib.Data.List.Range

/-!
# Matching — matchings of a bipartite graph

* `IsMatching`, `IsMaximum` — matchings as sets of edges;
* `isMaximum_of_closed` — a matching is a maximum when the nodes that are reached from the unmatched
  ones lead only to partners of such nodes;
* `Arrangeable` — two lists, one of which can be rearranged to fit the other item by item.
-/

namespace AxisEngine
namespace Lib

section

variable {α β : Type}

/-- Edges of which no two share a node. -/
structure IsMatching (E : α → β → Prop) (M : Finset (α × β)) : Prop where
  edge : ∀ a b, (a, b) ∈ M → E a b
  left : ∀ a b b', (a, b) ∈ M → (a, b') ∈ M → b = b'
  right : ∀ a a' b, (a, b) ∈ M → (a', b) ∈ M → a = a'

/-- No matching has more edges. -/
structure IsMaximum (E : α → β → Prop) (M : Finset (α × β)) : Prop extends IsMatching E M where
  le : ∀ M', IsMatching E M' → M'.card ≤ M.card

variable {E : α → β → Prop} {M M' : Finset (α × β)}

theorem IsMatching.mono (h : IsMatching E M) (hsub : M' ⊆ M) : IsMatching E M' where
  edge a b hab := h.edge a b (hsub hab)
  left a b b' hab hab' := h.left a b b' (hsub hab) (hsub hab')
  right a a' b hab hab' := h.right a a' b (hsub hab) (hsub hab')

variable [DecidableEq α] [DecidableEq β]

omit [DecidableEq β] in
/-- A matching has as many edges as left nodes. -/
theorem IsMatching.card_fst (h : IsMatching E M) : (M.image Prod.fst).card = M.card := by
  refine Finset.card_image_of_injOn ?_
  rintro ⟨a, b⟩ hab ⟨a', b'⟩ hab' rfl
  rw [h.left _ _ _ hab hab']

omit [DecidableEq α] in
theorem IsMatching.card_snd (h : IsMatching E M) : (M.image Prod.snd).card = M.card := by
  refine Finset.card_image_of_injOn ?_
  rintro ⟨a, b⟩ hab ⟨a', b'⟩ hab' rfl
  rw [h.right _ _ _ hab hab']

/-- When every left node outside of `Z` is matched, and every edge from `Z` leads to the partner of
a node of `Z`, then there is no larger matching. -/
theorem isMaximum_of_closed (A Z : Finset α) (hM : IsMatching E M) (hA : ∀ a b, E a b → a ∈ A)
    (hmatched : ∀ a ∈ A, a ∉ Z → ∃ b, (a, b) ∈ M)
    (hclosed : ∀ a ∈ Z, ∀ b, E a b → ∃ a' ∈ Z, (a', b) ∈ M) : IsMaximum E M := by
  refine ⟨hM, fun M' hM' => ?_⟩
  have hsplit : ∀ N : Finset (α × β), (N.filter fun p => p.1 ∈ Z).card +
      (N.filter fun p => p.1 ∉ Z).card = N.card := fun N =>
    Finset.card_filter_add_card_filter_not (s := N) (fun p => p.1 ∈ Z)
  -- from `Z` the other matching reaches only what this one reaches from there
  have hinside : (M'.filter fun p => p.1 ∈ Z).card ≤ (M.filter fun p => p.1 ∈ Z).card := by
    rw [← (hM'.mono (Finset.filter_subset _ M')).card_snd,
      ← (hM.mono (Finset.filter_subset _ M)).card_snd]
    refine Finset.card_le_card fun b hb => ?_
    rcases Finset.mem_image.1 hb with ⟨⟨a, b'⟩, hab, rfl⟩
    rcases Finset.mem_filter.1 hab with ⟨hab, ha⟩
    rcases hclosed a ha _ (hM'.edge a _ hab) with ⟨a', ha', hab'⟩
    exact Finset.mem_image.2 ⟨(a', b'), Finset.mem_filter.2 ⟨hab', ha'⟩, rfl⟩
  -- all other left nodes are matched
  have houtside : (M'.filter fun p => p.1 ∉ Z).card ≤ (M.filter fun p => p.1 ∉ Z).card := by
    rw [← (hM'.mono (Finset.filter_subset _ M')).card_fst,
      ← (hM.mono (Finset.filter_subset _ M)).card_fst]
    refine Finset.card_le_card fun a ha => ?_
    rcases Finset.mem_image.1 ha with ⟨⟨a', b⟩, hab, rfl⟩
    rcases Finset.mem_filter.1 hab with ⟨hab, hout⟩
    rcases hmatched a' (hA _ _ (hM'.edge _ _ hab)) hout with ⟨b', hab'⟩
    exact Finset.mem_image.2 ⟨(a', b'), Finset.mem_filter.2 ⟨hab', hout⟩, rfl⟩
  have hM'split := hsplit M'
  have hMsplit := hsplit M
  omega

end

/-! ## Arrangements -/

section

variable {α β : Type} {R : α → β → Prop}

/-- There is a bijection between the places of two lists along `R`: the second list can be
rearranged so that it fits the first one item by item. -/
def Arrangeable (R : α → β → Prop) (as : List α) (bs : List β) : Prop :=
  ∃ arranged, List.Forall₂ R as arranged ∧ arranged.Perm bs

variable {as as' : List α} {bs bs' : List β}

theorem Arrangeable.length_eq (h : Arrangeable R as bs) : as.length = bs.length := by
  rcases h with ⟨arranged, hall, hperm⟩
  exact hall.length_eq.trans hperm.length_eq

theorem Arrangeable.perm_left (h : Arrangeable R as bs) (hperm : as.Perm as') :
    Arrangeable R as' bs := by
  rcases h with ⟨arranged, hall, harranged⟩
  rcases List.perm_comp_forall₂ hperm.symm hall with ⟨arranged', hall', hperm'⟩
  exact ⟨arranged', hall', hperm'.trans harranged⟩

theorem Arrangeable.perm_right (h : Arrangeable R as bs) (hperm : bs.Perm bs') :
    Arrangeable R as bs' := by
  rcases h with ⟨arranged, hall, harranged⟩
  exact ⟨arranged, hall, harranged.trans hperm⟩

theorem arrangeable_congr (has : as.Perm as') (hbs : bs.Perm bs') :
    Arrangeable R as bs ↔ Arrangeable R as' bs' :=
  ⟨fun h => (h.perm_left has).perm_right hbs, fun h => (h.perm_left has.symm).perm_right hbs.symm⟩

/-- Only what the relation says about the items of the two lists matters. -/
theorem Arrangeable.mono {S : α → β → Prop} (h : Arrangeable R as bs)
    (himp : ∀ a ∈ as, ∀ b ∈ bs, R a b → S a b) : Arrangeable S as bs := by
  rcases h with ⟨arranged, hall, hperm⟩
  refine ⟨arranged, List.forall₂_iff_get.2 ⟨hall.length_eq, fun i hi hi' => ?_⟩, hperm⟩
  refine himp _ (List.get_mem as ⟨i, hi⟩) _ (hperm.subset (List.get_mem arranged ⟨i, hi'⟩)) ?_
  exact (List.forall₂_iff_get.1 hall).2 i hi hi'

theorem Arrangeable.append (h : Arrangeable R as bs) (h' : Arrangeable R as' bs') :
    Arrangeable R (as ++ as') (bs ++ bs') := by
  rcases h with ⟨arranged, hall, hperm⟩
  rcases h' with ⟨arranged', hall', hperm'⟩
  exact ⟨arranged ++ arranged', List.rel_append hall hall', hperm.append hperm'⟩

/-- The items that go to the places of one part, and those that go to the other part. -/
theorem Arrangeable.split (h : Arrangeable R as (bs ++ bs')) :
    ∃ cs cs', as.Perm (cs ++ cs') ∧ Arrangeable R cs bs ∧ Arrangeable R cs' bs' := by
  rcases h with ⟨arranged, hall, hperm⟩
  rcases List.perm_comp_forall₂ hperm.symm hall.flip with ⟨as'', hall', has⟩
  have hparts : List.Forall₂ R as'' (bs ++ bs') := hall'.flip
  refine ⟨as''.take bs.length, as''.drop bs.length, ?_, ?_, ?_⟩
  · rw [List.take_append_drop]
    exact has.symm
  · exact ⟨bs, List.forall₂_take_append _ _ _ hparts, .refl bs⟩
  · exact ⟨bs', List.forall₂_drop_append _ _ _ hparts, .refl bs'⟩

/-- Items may be given by their places. -/
theorem arrangeable_map {γ δ : Type} (f : γ → α) (g : δ → β) (cs : List γ) (ds : List δ) :
    Arrangeable R (cs.map f) (ds.map g) ↔ Arrangeable (fun c d => R (f c) (g d)) cs ds := by
  constructor
  · rintro ⟨arranged, hall, hperm⟩
    -- a rearrangement of the images is the image of a rearrangement
    have himage := congrFun (congrFun (List.eq_map_comp_perm g) arranged) ds
    rcases himage.mpr hperm with ⟨arranged', rfl, hperm'⟩
    rw [List.forall₂_map_left_iff, List.forall₂_map_right_iff] at hall
    exact ⟨arranged', hall, hperm'⟩
  · rintro ⟨arranged, hall, hperm⟩
    refine ⟨arranged.map g, ?_, hperm.map g⟩
    rw [List.forall₂_map_left_iff, List.forall₂_map_right_iff]
    exact hall

/-- A matching of all nodes arranges the one side along the other. -/
theorem arrangeable_range_iff {E : ℕ → ℕ → Prop} {n : ℕ} (hE : ∀ a b, E a b → a < n ∧ b < n) :
    Arrangeable E (List.range n) (List.range n) ↔ ∃ M, IsMatching E M ∧ M.card = n := by
  constructor
  · rintro ⟨arranged, hall, hperm⟩
    have hlength : arranged.length = n := by rw [hperm.length_eq, List.length_range]
    have hnodup : arranged.Nodup := hperm.symm.nodup List.nodup_range
    have hmem : ∀ a b, (a, b) ∈ (Finset.range n).image (fun a => (a, arranged.getD a 0)) ↔
        a < n ∧ arranged[a]? = some b := by
      intro a b
      simp only [Finset.mem_image, Finset.mem_range, Prod.mk.injEq]
      constructor
      · rintro ⟨a, ha, rfl, rfl⟩
        refine ⟨ha, ?_⟩
        rw [List.getD_eq_getElem?_getD, List.getElem?_eq_getElem (by omega)]
        rfl
      · rintro ⟨ha, hb⟩
        refine ⟨a, ha, rfl, ?_⟩
        rw [List.getD_eq_getElem?_getD, hb]
        rfl
    refine ⟨(Finset.range n).image fun a => (a, arranged.getD a 0), ⟨?_, ?_, ?_⟩, ?_⟩
    · intro a b hab
      rcases (hmem a b).1 hab with ⟨ha, hb⟩
      rcases List.getElem?_eq_some_iff.1 hb with ⟨hlt, rfl⟩
      have hedge := (List.forall₂_iff_get.1 hall).2 a (by simpa using ha) hlt
      simpa using hedge
    · intro a b b' hab hab'
      have hb := ((hmem a b).1 hab).2
      rw [((hmem a b').1 hab').2] at hb
      exact (Option.some.inj hb).symm
    · intro a a' b hab hab'
      rcases (hmem a b).1 hab with ⟨ha, hb⟩
      rcases (hmem a' b).1 hab' with ⟨ha', hb'⟩
      exact (List.getElem?_inj (by omega) hnodup).1 (hb.trans hb'.symm)
    · rw [Finset.card_image_of_injOn, Finset.card_range]
      intro a _ a' _ h
      exact congrArg Prod.fst h
  · rintro ⟨M, hM, hcard⟩
    have hfst : M.image Prod.fst = Finset.range n := by
      refine Finset.eq_of_subset_of_card_le (fun a ha => ?_) ?_
      · rcases Finset.mem_image.1 ha with ⟨⟨a, b⟩, hab, rfl⟩
        exact Finset.mem_range.2 (hE a b (hM.edge a b hab)).1
      · rw [hM.card_fst, hcard, Finset.card_range]
    have hpartner : ∀ a, ∃ b, a < n → (a, b) ∈ M := by
      intro a
      by_cases ha : a < n
      · have hmem : a ∈ M.image Prod.fst := by
          rw [hfst]
          exact Finset.mem_range.2 ha
        rcases Finset.mem_image.1 hmem with ⟨⟨a, b⟩, hab, rfl⟩
        exact ⟨b, fun _ => hab⟩
      · exact ⟨0, fun h => absurd h ha⟩
    choose f hf using hpartner
    refine ⟨(List.range n).map f, ?_, ?_⟩
    · rw [List.forall₂_map_right_iff, List.forall₂_same]
      intro a ha
      exact hM.edge _ _ (hf a (List.mem_range.1 ha))
    · have hnodup : ((List.range n).map f).Nodup := by
        refine List.Nodup.map_on ?_ List.nodup_range
        intro a ha a' ha' heq
        refine hM.right a a' (f a) (hf a (List.mem_range.1 ha)) ?_
        rw [heq]
        exact hf a' (List.mem_range.1 ha')
      refine (List.subperm_of_subset hnodup fun b hb => ?_).perm_of_length_le ?_
      · rcases List.mem_map.1 hb with ⟨a, ha, rfl⟩
        exact List.mem_range.2 (hE _ _ (hM.edge _ _ (hf a (List.mem_range.1 ha)))).2
      · rw [List.length_map]

end

end Lib
end AxisEngine
