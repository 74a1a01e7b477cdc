import Mathlib.Data.Finset.Basic
import Mathlib.Logic.Function.Basic

/-!
# Collect — gathering the parts of several wholes

Wholes `ι` consist of numbered parts; the parts arrive one at a time, in any order, interleaved and
repeated.  A whole is complete when all its parts have arrived since it was last complete; then it
is given out and gathering starts over.

* `collect parts held d` — what is held after the part `d`;
* `collectAll parts ds` — what is held after the parts `ds`;
* `Completes parts held d` — the part `d` is the last missing one;
* `collect_ssubset` — between two arrivals no whole is complete.
-/

namespace AxisEngine
namespace Lib

variable {ι κ : Type*} [DecidableEq κ]
variable {parts held : ι → Finset κ} {d : ι × κ}

/-- The part `d` is missing and every other part of its whole is held. -/
def Completes (parts held : ι → Finset κ) (d : ι × κ) : Prop :=
  d.2 ∉ held d.1 ∧ ∀ k ∈ parts d.1, k = d.2 ∨ k ∈ held d.1

instance : Decidable (Completes parts held d) :=
  inferInstanceAs (Decidable (_ ∧ _))

/-- A part completes its whole exactly when it fills the set of the parts held. -/
theorem completes_iff_insert_eq (hheld : held d.1 ⊂ parts d.1) (hd : d.2 ∈ parts d.1) :
    Completes parts held d ↔ insert d.2 (held d.1) = parts d.1 := by
  constructor
  · rintro ⟨-, hall⟩
    refine Finset.Subset.antisymm (Finset.insert_subset hd hheld.subset) ?_
    intro k hk
    exact Finset.mem_insert.2 (hall k hk)
  · intro heq
    refine ⟨?_, fun k hk => Finset.mem_insert.1 (heq ▸ hk)⟩
    intro hmem
    rw [Finset.insert_eq_of_mem hmem] at heq
    exact hheld.ne heq

variable [DecidableEq ι]

/-- What is held after one more part: a complete whole is given out. -/
def collect (parts held : ι → Finset κ) (d : ι × κ) : ι → Finset κ :=
  Function.update held d.1 (if Completes parts held d then ∅ else insert d.2 (held d.1))

/-- What is held after the parts `ds`, beginning with nothing. -/
def collectAll (parts : ι → Finset κ) (ds : List (ι × κ)) : ι → Finset κ :=
  ds.foldl (collect parts) fun _ => ∅

theorem collect_of_ne {i : ι} (h : i ≠ d.1) : collect parts held d i = held i :=
  Function.update_of_ne h _ _

theorem collect_of_completes (h : Completes parts held d) : collect parts held d d.1 = ∅ := by
  simp [collect, h]

theorem collect_of_not_completes (h : ¬ Completes parts held d) :
    collect parts held d d.1 = insert d.2 (held d.1) := by
  simp [collect, h]

theorem collect_ssubset {i : ι} (hne : (parts d.1).Nonempty) (hd : d.2 ∈ parts d.1)
    (hheld : held d.1 ⊂ parts d.1) (hi : held i ⊂ parts i) : collect parts held d i ⊂ parts i := by
  by_cases heq : i = d.1
  · subst heq
    by_cases hc : Completes parts held d
    · rw [collect_of_completes hc]
      exact Finset.empty_ssubset.2 hne
    · rw [collect_of_not_completes hc]
      refine lt_of_le_of_ne (Finset.insert_subset hd hheld.subset) ?_
      exact fun hfull => hc ((completes_iff_insert_eq hheld hd).2 hfull)
  · rw [collect_of_ne heq]
    exact hi

end Lib
end AxisEngine
