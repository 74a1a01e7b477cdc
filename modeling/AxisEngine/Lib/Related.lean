import Mathlib.Data.List.Forall2
import Mathlib.Tactic.Basic

/-!
# Related — lists that are related place by place

What `List.Forall₂` gives for sorted lists, and for lists that a partial function made.

* `forall₂_mergeSort` — related lists stay related when both are sorted alike;
* `forall₂_mapM` — a partial function that is defined along a related list;
* `forall₂_iff_of_iff` — a relation that is a property of the left side.
-/

namespace AxisEngine
namespace Lib

variable {α β γ : Type*} {R : α → β → Prop} {as : List α} {bs : List β}

section

variable (h : List.Forall₂ R as bs)

include h

theorem map_fst_zip : (as.zip bs).map Prod.fst = as :=
  List.map_fst_zip (Nat.le_of_eq h.length_eq)

theorem map_snd_zip : (as.zip bs).map Prod.snd = bs :=
  List.map_snd_zip (Nat.le_of_eq h.length_eq.symm)

theorem forall₂_mergeSort {r : α → α → Bool} {s : β → β → Bool}
    (hrs : ∀ a b a' b', R a b → R a' b' → r a a' = s b b') :
    List.Forall₂ R (as.mergeSort r) (bs.mergeSort s) := by
  -- both are sides of one sorted list of pairs
  let pairs := (as.zip bs).mergeSort fun x y => r x.1 y.1
  have hrel : ∀ x ∈ as.zip bs, R x.1 x.2 := fun x hx => List.forall₂_zip h hx
  have hleft : pairs.map Prod.fst = as.mergeSort r := by
    rw [List.map_mergeSort (s := r) fun x _ y _ => rfl, map_fst_zip h]
  have hright : pairs.map Prod.snd = bs.mergeSort s := by
    have horder : ∀ x ∈ as.zip bs, ∀ y ∈ as.zip bs, r x.1 y.1 = s x.2 y.2 :=
      fun x hx y hy => hrs _ _ _ _ (hrel x hx) (hrel y hy)
    rw [List.map_mergeSort (s := s) horder, map_snd_zip h]
  rw [← hleft, ← hright, List.forall₂_map_left_iff, List.forall₂_map_right_iff, List.forall₂_same]
  intro x hx
  exact hrel x (List.mem_mergeSort.1 hx)

theorem forall₂_mapM {T : α → γ → Prop} {f : β → Option γ}
    (hf : ∀ a b, R a b → ∃ c, f b = some c ∧ T a c) :
    ∃ cs, bs.mapM f = some cs ∧ List.Forall₂ T as cs := by
  induction h with
  | nil => exact ⟨[], rfl, .nil⟩
  | cons hab _ ih =>
    rcases hf _ _ hab with ⟨c, hc, hT⟩
    rcases ih with ⟨cs, hcs, hTs⟩
    exact ⟨c :: cs, by simp [List.mapM_cons, hc, hcs], .cons hT hTs⟩

end

theorem forall₂_iff_of_iff {S : α → β → Prop} {P : α → Prop}
    (h : List.Forall₂ (fun a b => S a b ↔ P a) as bs) : List.Forall₂ S as bs ↔ ∀ a ∈ as, P a := by
  induction h with
  | nil => simp
  | cons hab _ ih => rw [List.forall₂_cons, hab, ih, List.forall_mem_cons]

end Lib
end AxisEngine
