import Mathlib.Algebra.BigOperators.Group.Finset.Basic
import Mathlib.Algebra.GroupWithZero.Nat

/-!
# Slots — families of lists, cell by cell

A family `s : ι → List α` of lists, whose cells are addressed by a list and a position.  Two
references may name the same list, so a change of one cell is a change of the family.

* `cell s a i` — the content of a cell, if there is one;
* `setCell s a i x` — the family with another content in one cell;
* `tally w S s` — the weight of all cells of the lists in `S`;
* `tally_setCell` — what a change of one cell does to it.
-/

namespace AxisEngine
namespace Lib

variable {ι α : Type*} [DecidableEq ι]

section

variable {M : Type*} [AddCommMonoid M] {w : α → M} {l : List α} {i : Nat} {x y : α}

/-- Exchanging one element exchanges its weight. -/
theorem sum_map_set (h : l[i]? = some y) : ((l.set i x).map w).sum + w y = (l.map w).sum + w x := by
  induction l generalizing i with
  | nil => cases h
  | cons z zs ih =>
    cases i with
    | zero =>
      cases h
      simp only [List.set_cons_zero, List.map_cons, List.sum_cons]
      rw [add_right_comm, add_comm (w x), add_right_comm]
    | succ i =>
      have hrest := ih h
      simp only [List.set_cons_succ, List.map_cons, List.sum_cons]
      rw [add_assoc, hrest, add_assoc]

end

def cell (s : ι → List α) (a : ι) (i : Nat) : Option α :=
  (s a)[i]?

def setCell (s : ι → List α) (a : ι) (i : Nat) (x : α) : ι → List α :=
  Function.update s a ((s a).set i x)

def tally (w : α → Nat) (S : Finset ι) (s : ι → List α) : Nat :=
  ∑ a ∈ S, ((s a).map w).sum

section

variable {w : α → Nat} {S : Finset ι} {s : ι → List α} {a b : ι} {i j : Nat} {x y : α}

/-! ## Cells -/

/-- What holds of every element still holds of every element when it holds of the new one. -/
theorem forall_setCell {P : α → Prop} (h : ∀ a, ∀ y ∈ s a, P y) (hx : P x) (a : ι) (i : Nat) :
    ∀ b, ∀ y ∈ setCell s a i x b, P y := by
  intro b y hy
  by_cases hb : b = a
  · subst hb
    rw [setCell, Function.update_self] at hy
    rcases List.mem_or_eq_of_mem_set hy with hold | rfl
    · exact h b y hold
    · exact hx
  · rw [setCell, Function.update_of_ne hb] at hy
    exact h b y hy

theorem cell_setCell_self (h : cell s a i = some y) : cell (setCell s a i x) a i = some x := by
  have hlt : i < (s a).length := (List.getElem?_eq_some_iff.1 h).1
  simp [cell, setCell, hlt]

theorem cell_setCell_of_ne (h : ¬ (b = a ∧ j = i)) :
    cell (setCell s a i x) b j = cell s b j := by
  by_cases hb : b = a
  · subst hb
    have hj : i ≠ j := fun hij => h ⟨rfl, hij.symm⟩
    simp [cell, setCell, List.getElem?_set_ne hj]
  · simp [cell, setCell, Function.update_of_ne hb]

theorem setCell_eq_self (h : cell s a i = some x) : setCell s a i x = s := by
  rcases List.getElem?_eq_some_iff.1 h with ⟨hlt, rfl⟩
  have hset : (s a).set i ((s a)[i]) = s a := List.set_getElem_self hlt
  rw [setCell, hset, Function.update_eq_self]

theorem setCell_setCell : setCell (setCell s a i x) a i y = setCell s a i y := by
  simp [setCell]

theorem setCell_comm (h : ¬ (a = b ∧ i = j)) :
    setCell (setCell s a i x) b j y = setCell (setCell s b j y) a i x := by
  by_cases hab : a = b
  · subst hab
    have hij : i ≠ j := fun hij => h ⟨rfl, hij⟩
    simp [setCell, List.set_comm _ _ hij]
  · have hba : b ≠ a := fun hba => hab hba.symm
    simp only [setCell, Function.update_of_ne hab, Function.update_of_ne hba]
    exact Function.update_comm hab _ _ _

/-! ## Weights -/

theorem tally_update (ha : a ∈ S) (l : List α) :
    tally w S (Function.update s a l) + ((s a).map w).sum = tally w S s + (l.map w).sum := by
  have hrest : ∑ b ∈ S.erase a, ((Function.update s a l b).map w).sum =
      ∑ b ∈ S.erase a, ((s b).map w).sum := by
    refine Finset.sum_congr rfl ?_
    intro b hb
    rw [Function.update_of_ne (Finset.ne_of_mem_erase hb)]
  have hnew := Finset.add_sum_erase S (fun b => ((Function.update s a l b).map w).sum) ha
  have hold := Finset.add_sum_erase S (fun b => ((s b).map w).sum) ha
  simp only [Function.update_self] at hnew
  simp only [tally]
  omega

/-- Another content in one cell exchanges the weights of the two contents. -/
theorem tally_setCell (ha : a ∈ S) (h : cell s a i = some y) :
    tally w S (setCell s a i x) + w y = tally w S s + w x := by
  have hupdate := tally_update (w := w) (s := s) ha ((s a).set i x)
  have hset := sum_map_set (w := w) (x := x) h
  simp only [setCell]
  omega

end

end Lib
end AxisEngine
