import Mathlib.Data.List.Infix
import Mathlib.Data.List.Induction

/-!
# SplitOn — the parts of a list between separators

What `List.splitOn` gives, for a list that ends in a separator and for one part.

* `flatMap_eq_intercalate`, `flatMap_splitOn` — the parts with a separator behind each;
* `splitOn_cons_of_not_mem` — the first part;
* `mem_splitOn` — a part is a prefix, or stands behind a separator.
-/

namespace AxisEngine
namespace Lib

variable {α : Type*} {a : α} {l part : List α} {parts : List (List α)}

theorem flatMap_eq_intercalate (h : parts ≠ []) :
    (parts.flatMap fun part => part ++ [a]) = [a].intercalate parts ++ [a] := by
  induction parts with
  | nil => exact absurd rfl h
  | cons part parts ih =>
    cases parts with
    | nil => simp
    | cons part' parts =>
      rw [List.flatMap_cons, ih (List.cons_ne_nil _ _), List.intercalate_cons_cons]
      simp

/-- An empty part at the end leaves a separator at the end. -/
theorem intercalate_concat_nil (h : parts ≠ []) :
    [a].intercalate (parts ++ [[]]) = [a].intercalate parts ++ [a] := by
  have hne : parts ++ [[]] ≠ [] := List.append_ne_nil_of_left_ne_nil h _
  have hflat := flatMap_eq_intercalate (a := a) hne
  rw [List.flatMap_append, flatMap_eq_intercalate h] at hflat
  exact (List.append_cancel_right hflat).symm

theorem mem_intercalate {b : α} (h : b ∈ [a].intercalate parts) :
    b = a ∨ ∃ part ∈ parts, b ∈ part := by
  by_cases hne : parts = []
  · subst hne
    cases h
  · have hmem : b ∈ parts.flatMap fun part => part ++ [a] := by
      rw [flatMap_eq_intercalate hne]
      exact List.mem_append_left _ h
    rcases List.mem_flatMap.1 hmem with ⟨part, hpart, hb⟩
    rcases List.mem_append.1 hb with hb | hb
    · exact .inr ⟨part, hpart, hb⟩
    · exact .inl (List.mem_singleton.1 hb)

theorem mem_intercalate_of_mem {b : α} (hpart : part ∈ parts) (hb : b ∈ part) :
    b ∈ [a].intercalate parts := by
  induction parts with
  | nil => cases hpart
  | cons first parts ih =>
    cases parts with
    | nil =>
      rw [List.mem_singleton.1 hpart] at hb
      rwa [List.intercalate_singleton]
    | cons second parts =>
      rw [List.intercalate_cons_cons]
      rcases List.mem_cons.1 hpart with rfl | hpart
      · exact List.mem_append_left _ (List.mem_append_left _ hb)
      · exact List.mem_append_right _ (ih hpart)

variable [BEq α] [LawfulBEq α]

theorem splitOn_cons_of_not_mem (h : a ∉ part) (l : List α) :
    (part ++ a :: l).splitOn a = part :: l.splitOn a := by
  rw [List.splitOn_append_cons_self, List.splitOn_eq_singleton h, List.singleton_append]

theorem flatMap_splitOn (l : List α) :
    ((l.splitOn a).flatMap fun part => part ++ [a]) = l ++ [a] := by
  rw [flatMap_eq_intercalate (List.splitOn_ne_nil a l), List.intercalate_splitOn]

/-- A part has no separator in it, and it is where the list begins or behind a separator. -/
theorem mem_splitOn (h : part ∈ l.splitOn a) : a ∉ part ∧ (part <+: l ∨ a :: part <:+: l) := by
  induction hn : l.length using Nat.strong_induction_on generalizing l with
  | _ n ih =>
    by_cases hmem : a ∈ l
    · rcases List.eq_append_cons_of_mem hmem with ⟨first, rest, rfl, hfirst⟩
      rw [splitOn_cons_of_not_mem hfirst, List.mem_cons] at h
      rcases h with rfl | h
      · exact ⟨hfirst, .inl (List.prefix_append _ _)⟩
      · have hlt : rest.length < n := by
          rw [← hn, List.length_append, List.length_cons]
          omega
        have hsuffix : a :: rest <:+ first ++ a :: rest := List.suffix_append _ _
        rcases ih _ hlt h rfl with ⟨hnot, hfront | hinner⟩
        · rcases hfront with ⟨tail, rfl⟩
          exact ⟨hnot, .inr ⟨first, tail, by simp⟩⟩
        · exact ⟨hnot, .inr (hinner.trans ((List.suffix_cons a rest).trans hsuffix).isInfix)⟩
    · rw [List.splitOn_eq_singleton hmem, List.mem_singleton] at h
      subst h
      exact ⟨hmem, .inl (List.prefix_refl _)⟩

end Lib
end AxisEngine
