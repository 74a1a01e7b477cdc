import Mathlib.Data.List.Count
import Mathlib.Data.List.Nodup

/-!
# CountP — lists without duplicates

* `countP_of_flip` — one more when one element begins to satisfy the predicate;
* `nodup_flatMap_of_key` — lists that can be told apart by a key of their members.
-/

namespace AxisEngine
namespace Lib

variable {α : Type*} {l : List α} {a : α} {p p' : α → Bool}

/-- In a list without duplicates, one element that did not satisfy the predicate does now. -/
theorem countP_of_flip (hl : l.Nodup) (ha : a ∈ l) (hold : p a = false) (hnew : p' a = true)
    (hrest : ∀ b ∈ l, b ≠ a → p' b = p b) : l.countP p' = l.countP p + 1 := by
  induction l with
  | nil => exact absurd ha List.not_mem_nil
  | cons b l ih =>
    rw [List.nodup_cons] at hl
    rw [List.countP_cons, List.countP_cons]
    by_cases hb : b = a
    · subst hb
      have htail : l.countP p' = l.countP p := by
        refine List.countP_congr fun c hc => ?_
        have hne : c ≠ b := by
          rintro rfl
          exact hl.1 hc
        rw [hrest c (List.mem_cons_of_mem _ hc) hne]
      simp [hold, hnew, htail]
    · have ha : a ∈ l := (List.mem_cons.1 ha).resolve_left (Ne.symm hb)
      have htail := ih hl.2 ha fun c hc => hrest c (List.mem_cons_of_mem _ hc)
      rw [htail, hrest b (List.mem_cons_self ..) hb]
      omega

theorem nodup_flatMap_of_key {β : Type*} {xs : List α} {f : α → List β} (key : β → α)
    (hxs : xs.Nodup) (hf : ∀ x ∈ xs, (f x).Nodup) (hkey : ∀ x ∈ xs, ∀ y ∈ f x, key y = x) :
    (xs.flatMap f).Nodup := by
  rw [List.nodup_flatMap]
  refine ⟨hf, hxs.imp_of_mem fun hx hx' hne => ?_⟩
  intro y hy hy'
  exact hne ((hkey _ hx y hy).symm.trans (hkey _ hx' y hy'))

end Lib
end AxisEngine
