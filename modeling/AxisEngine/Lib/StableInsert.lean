import Mathlib.Data.List.Sort
import Mathlib.Data.List.TakeWhile

/-!
# StableInsert — insertion behind the elements with the same key

A list that is built so is sorted, and elements with one key stand in the order in which they came.

* `insertLast` — the insertion;
* `InOrder` — sorted by a key, not strictly;
* `filter_insertLast` — the elements with a given key, of which the new one is the last;
* `append_insertLast` — what is not above the new element may stand in front.
-/

namespace AxisEngine
namespace Lib

variable {α κ : Type*} [LinearOrder κ] {key : α → κ} {l front : List α} {x y : α}

def InOrder (key : α → κ) (l : List α) : Prop :=
  l.Pairwise fun a b => key a ≤ key b

def insertLast (key : α → κ) (x : α) (l : List α) : List α :=
  l.takeWhile (fun y => key y ≤ key x) ++ x :: l.dropWhile fun y => key y ≤ key x

theorem mem_takeWhile_le (h : y ∈ l.takeWhile fun y => key y ≤ key x) : key y ≤ key x := by
  have hle := List.mem_takeWhile_imp h
  exact of_decide_eq_true hle

/-- Where the scan ends all keys are larger. -/
theorem lt_of_mem_dropWhile (h : InOrder key l) (hy : y ∈ l.dropWhile fun y => key y ≤ key x) :
    key x < key y := by
  have hsub := h.sublist (List.dropWhile_sublist fun y => decide (key y ≤ key x))
  cases hdrop : l.dropWhile fun y => key y ≤ key x with
  | nil =>
    rw [hdrop] at hy
    cases hy
  | cons z rest =>
    rw [hdrop] at hy hsub
    have hz : key x < key z := by
      have hnot := List.dropWhile_get_zero_not (fun y => decide (key y ≤ key x)) l (by simp [hdrop])
      simpa [hdrop] using hnot
    rcases List.mem_cons.1 hy with rfl | hy
    · exact hz
    · exact hz.trans_le ((List.pairwise_cons.1 hsub).1 y hy)

theorem perm_insertLast (key : α → κ) (x : α) (l : List α) :
    (insertLast key x l).Perm (x :: l) := by
  refine List.perm_middle.trans (.of_eq ?_)
  rw [List.takeWhile_append_dropWhile]

theorem InOrder.insertLast (h : InOrder key l) : InOrder key (insertLast key x l) := by
  rw [Lib.insertLast, InOrder, List.pairwise_append, List.pairwise_cons]
  refine ⟨h.sublist (List.takeWhile_sublist _), ⟨fun y hy => (lt_of_mem_dropWhile h hy).le,
    h.sublist (List.dropWhile_sublist _)⟩, fun y hy z hz => ?_⟩
  rcases List.mem_cons.1 hz with rfl | hz
  · exact mem_takeWhile_le hy
  · exact (mem_takeWhile_le hy).trans (lt_of_mem_dropWhile h hz).le

theorem filter_insertLast (h : InOrder key l) (k : κ) :
    (insertLast key x l).filter (fun y => key y = k)
      = l.filter (fun y => key y = k) ++ [x].filter fun y => key y = k := by
  have hl := List.takeWhile_append_dropWhile (p := fun y => decide (key y ≤ key x)) (l := l)
  rw [insertLast, List.filter_append, List.filter_cons]
  by_cases hk : key x = k
  · -- nothing behind the new element has its key
    have hnone : (l.dropWhile fun y => key y ≤ key x).filter (fun y => key y = k) = [] := by
      rw [List.filter_eq_nil_iff]
      intro y hy hkey
      have hlt := lt_of_mem_dropWhile h hy
      rw [of_decide_eq_true hkey, hk] at hlt
      exact lt_irrefl k hlt
    have hfilter := congrArg (List.filter fun y => decide (key y = k)) hl
    rw [List.filter_append, hnone, List.append_nil] at hfilter
    rw [hnone, hfilter]
    simp [hk]
  · rw [if_neg (by simpa using hk), ← List.filter_append, hl]
    simp [hk]

theorem append_insertLast (hfront : ∀ y ∈ front, key y ≤ key x) :
    insertLast key x (front ++ l) = front ++ insertLast key x l := by
  have hpos : ∀ y ∈ front, decide (key y ≤ key x) = true := fun y hy =>
    decide_eq_true (hfront y hy)
  rw [insertLast, List.takeWhile_append_of_pos hpos, List.dropWhile_append_of_pos hpos,
    List.append_assoc]
  rfl

end Lib
end AxisEngine
