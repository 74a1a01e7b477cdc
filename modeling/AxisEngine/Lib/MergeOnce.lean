import Mathlib.Data.List.Induction
import Mathlib.Data.List.Nodup
import Mathlib.Data.List.Sort

/-!
# MergeOnce — what is not there yet goes to the end

Elements are taken over one after the other, and those that are there already are passed by.  Of
several lists each element stays where it was met first.

* `mergeOnce`, `mergeAll` — a list taken over into another, and several lists into none;
* `mem_mergeOnce`, `nodup_mergeOnce` — each element is there, once;
* `pairwise_mergeOnce` — what holds between each element and those behind it;
* `pairwise_mergeAll` — the elements are in the order of the lists.
-/

namespace AxisEngine
namespace Lib

variable {α : Type*} [DecidableEq α]

def mergeOnce (l xs : List α) : List α :=
  xs.foldl (fun l x => if x ∈ l then l else l ++ [x]) l

def mergeAll (lists : List (List α)) : List α :=
  lists.foldl mergeOnce []

section

variable {l xs ys : List α} {x a : α}

@[simp] theorem mergeOnce_nil (l : List α) : mergeOnce l [] = l :=
  rfl

theorem mergeOnce_cons (l : List α) (x : α) (xs : List α) :
    mergeOnce l (x :: xs) = mergeOnce (if x ∈ l then l else l ++ [x]) xs :=
  rfl

theorem mergeOnce_append (l xs ys : List α) :
    mergeOnce l (xs ++ ys) = mergeOnce (mergeOnce l xs) ys :=
  List.foldl_append

theorem mem_insertLast : a ∈ (if x ∈ l then l else l ++ [x]) ↔ a ∈ l ∨ a = x := by
  by_cases hx : x ∈ l
  · rw [if_pos hx]
    refine ⟨Or.inl, fun h => h.elim id ?_⟩
    rintro rfl
    exact hx
  · rw [if_neg hx, List.mem_append, List.mem_singleton]

theorem mem_mergeOnce : a ∈ mergeOnce l xs ↔ a ∈ l ∨ a ∈ xs := by
  induction xs generalizing l with
  | nil => simp
  | cons x xs ih => rw [mergeOnce_cons, ih, mem_insertLast, List.mem_cons, or_assoc]

theorem nodup_mergeOnce (h : l.Nodup) : (mergeOnce l xs).Nodup := by
  induction xs generalizing l with
  | nil => exact h
  | cons x xs ih =>
    rw [mergeOnce_cons]
    by_cases hx : x ∈ l
    · rw [if_pos hx]
      exact ih h
    · rw [if_neg hx]
      exact ih (List.nodup_append.2 ⟨h, List.nodup_singleton x, by
        rintro a ha b hb rfl
        exact hx (List.mem_singleton.1 hb ▸ ha)⟩)

theorem mergeOnce_of_subset (h : ∀ x ∈ xs, x ∈ l) : mergeOnce l xs = l := by
  induction xs with
  | nil => rfl
  | cons x xs ih =>
    rw [mergeOnce_cons, if_pos (h x List.mem_cons_self)]
    exact ih fun y hy => h y (List.mem_cons_of_mem x hy)

theorem mergeOnce_mergeOnce_self (l xs : List α) :
    mergeOnce (mergeOnce l xs) xs = mergeOnce l xs :=
  mergeOnce_of_subset fun _ hx => mem_mergeOnce.2 (.inr hx)

theorem mergeOnce_of_nodup (h : (l ++ xs).Nodup) : mergeOnce l xs = l ++ xs := by
  induction xs generalizing l with
  | nil => rw [mergeOnce_nil, List.append_nil]
  | cons x xs ih =>
    have hx : x ∉ l := fun hmem =>
      List.disjoint_of_nodup_append h hmem List.mem_cons_self
    rw [mergeOnce_cons, if_neg hx, ih (by rwa [List.append_assoc]), List.append_assoc]
    rfl

theorem mergeOnce_ne_nil_of_right (h : xs ≠ []) : mergeOnce l xs ≠ [] := by
  rcases List.exists_mem_of_ne_nil xs h with ⟨a, ha⟩
  exact List.ne_nil_of_mem (mem_mergeOnce.2 (.inr ha))

/-- The new elements are related to those in front of them. -/
theorem pairwise_mergeOnce {R : α → α → Prop} (h : l.Pairwise R)
    (hold : ∀ a ∈ l, ∀ x ∈ xs, x ∉ l → R a x) (hnew : ∀ a ∈ xs, ∀ x ∈ xs, x ∉ l → R a x) :
    (mergeOnce l xs).Pairwise R := by
  induction xs generalizing l with
  | nil => exact h
  | cons x xs ih =>
    have hrest : ∀ a ∈ xs, ∀ y ∈ xs, y ∉ l → R a y := fun a ha y hy =>
      hnew a (List.mem_cons_of_mem x ha) y (List.mem_cons_of_mem x hy)
    rw [mergeOnce_cons]
    by_cases hx : x ∈ l
    · rw [if_pos hx]
      exact ih h (fun a ha y hy => hold a ha y (List.mem_cons_of_mem x hy)) hrest
    · rw [if_neg hx]
      refine ih ?_ ?_ fun a ha y hy hnot => hrest a ha y hy fun hmem =>
        hnot (List.mem_append_left _ hmem)
      · refine List.pairwise_append.2 ⟨h, List.pairwise_singleton R x, fun a ha y hy => ?_⟩
        rw [List.mem_singleton.1 hy]
        exact hold a ha x List.mem_cons_self hx
      · intro a ha y hy hnot
        rw [List.mem_append, List.mem_singleton] at ha hnot
        rcases ha with ha | rfl
        · exact hold a ha y (List.mem_cons_of_mem x hy) fun hmem => hnot (.inl hmem)
        · exact hnew a List.mem_cons_self y (List.mem_cons_of_mem a hy) fun hmem =>
            hnot (.inl hmem)

end

section

variable {lists : List (List α)} {a : α}

theorem mergeAll_concat (lists : List (List α)) (xs : List α) :
    mergeAll (lists ++ [xs]) = mergeOnce (mergeAll lists) xs := by
  rw [mergeAll, List.foldl_append]
  rfl

theorem mem_mergeAll : a ∈ mergeAll lists ↔ ∃ xs ∈ lists, a ∈ xs := by
  induction lists using List.reverseRecOn with
  | nil => simp [mergeAll]
  | append_singleton lists xs ih =>
    rw [mergeAll_concat, mem_mergeOnce, ih]
    constructor
    · rintro (⟨ys, hys, ha⟩ | ha)
      · exact ⟨ys, List.mem_append_left _ hys, ha⟩
      · exact ⟨xs, List.mem_append_right _ (List.mem_singleton_self xs), ha⟩
    · rintro ⟨ys, hys, ha⟩
      rcases List.mem_append.1 hys with hys | hys
      · exact .inl ⟨ys, hys, ha⟩
      · rw [List.mem_singleton.1 hys] at ha
        exact .inr ha

theorem nodup_mergeAll (lists : List (List α)) : (mergeAll lists).Nodup := by
  induction lists using List.reverseRecOn with
  | nil => exact List.nodup_nil
  | append_singleton lists xs ih =>
    rw [mergeAll_concat]
    exact nodup_mergeOnce ih

/-- The second is in no list that comes before all those with the first. -/
def NotAfter (lists : List (List α)) (a b : α) : Prop :=
  ∀ (i : ℕ) (ys : List α), lists[i]? = some ys → b ∈ ys →
    ∃ j ≤ i, ∃ xs, lists[j]? = some xs ∧ a ∈ xs

theorem pairwise_mergeAll_take (lists : List (List α)) (k : ℕ) :
    (mergeAll (lists.take k)).Pairwise (NotAfter lists) := by
  induction k with
  | zero => exact List.Pairwise.nil
  | succ k ih =>
    cases hk : lists[k]? with
    | none =>
      have hlength : lists.length ≤ k := List.getElem?_eq_none_iff.1 hk
      rw [List.take_of_length_le (Nat.le_succ_of_le hlength)]
      rwa [List.take_of_length_le hlength] at ih
    | some xs =>
      -- what was not met among the first lists is first met here
      have hlate : ∀ x, x ∉ mergeAll (lists.take k) →
          ∀ i ys, lists[i]? = some ys → x ∈ ys → k ≤ i := by
        intro x hx i ys hi hmem
        by_contra hlt
        refine hx (mem_mergeAll.2 ⟨ys, ?_, hmem⟩)
        rw [← List.getElem?_take_of_lt (not_le.1 hlt)] at hi
        exact List.mem_of_getElem? hi
      rw [List.take_add_one, hk]
      change (mergeAll (lists.take k ++ [xs])).Pairwise (NotAfter lists)
      rw [mergeAll_concat]
      refine pairwise_mergeOnce ih ?_ ?_
      · intro a ha x _ hx i ys hi hmem
        rcases mem_mergeAll.1 ha with ⟨zs, hzs, hazs⟩
        rcases List.mem_iff_getElem?.1 hzs with ⟨j, hj⟩
        have hlt : j < k := by
          by_contra hge
          rw [List.getElem?_take_eq_none (not_lt.1 hge)] at hj
          cases hj
        rw [List.getElem?_take_of_lt hlt] at hj
        exact ⟨j, hlt.le.trans (hlate x hx i ys hi hmem), zs, hj, hazs⟩
      · intro a ha x _ hx i ys hi hmem
        exact ⟨k, hlate x hx i ys hi hmem, xs, hk, ha⟩

theorem pairwise_mergeAll (lists : List (List α)) : (mergeAll lists).Pairwise (NotAfter lists) := by
  have h := pairwise_mergeAll_take lists lists.length
  rwa [List.take_length] at h

end

end Lib
end AxisEngine
