import AxisEngine.Craft.CraftDefinition
import Mathlib.Data.Finset.Prod
import Mathlib.Data.Multiset.Filter
import Mathlib.Data.Fintype.Card

/-!
# Grid — the items of a grid are those in its bounding box

* `boundsLoop_spec` — the box covers every item that the loop went over;
* `craftGetBounds_spec` — and lies within the grid;
* `items_eq_box` — the items of the grid, cell by cell of the box.
-/

namespace AxisEngine
namespace Craft

open Lib Util Inventory

/-- A cell lies in a box. -/
structure Bounds.Covers (b : Bounds) (x y : Nat) : Prop where
  minX_le : b.minX ≤ x
  le_maxX : x ≤ b.maxX
  minY_le : b.minY ≤ y
  le_maxY : y ≤ b.maxY

/-- A box of which a cell lies in the rows. -/
structure Bounds.Within (width : Nat) (b : Bounds) : Prop where
  minX_le : b.minX ≤ b.maxX
  maxX_lt : b.maxX < width
  minY_le : b.minY ≤ b.maxY

section

variable {width x y x' y' : Nat} {items names : List Bytes} {bounds : Option Bounds} {b b' : Bounds}

theorem Bounds.covers_extend (x y : Nat) (bounds : Option Bounds) :
    (Bounds.extend x y bounds).Covers x y := by
  cases bounds with
  | none => exact ⟨le_rfl, le_rfl, le_rfl, le_rfl⟩
  | some b =>
    simp only [Bounds.extend]
    constructor <;> simp only <;> split <;> omega

theorem Bounds.covers_extend_of (h : b.Covers x' y') (x y : Nat) :
    (Bounds.extend x y (some b)).Covers x' y' := by
  rcases h with ⟨hminX, hmaxX, hminY, hmaxY⟩
  simp only [Bounds.extend]
  constructor <;> simp only <;> split <;> omega

theorem Bounds.within_extend (hx : x < width) (y : Nat)
    (hb : ∀ b, bounds = some b → b.Within width) : (Bounds.extend x y bounds).Within width := by
  cases bounds with
  | none => exact ⟨le_rfl, hx, le_rfl⟩
  | some b =>
    rcases hb b rfl with ⟨hminX, hmaxX, hminY⟩
    simp only [Bounds.extend]
    constructor <;> simp only <;> split <;> (try split) <;> omega

theorem cell_index (hx : x < width) (y : Nat) :
    (y * width + x) % width = x ∧ (y * width + x) / width = y := by
  have hpos : 0 < width := by omega
  constructor
  · rw [Nat.mul_comm, Nat.mul_add_mod, Nat.mod_eq_of_lt hx]
  · rw [Nat.mul_comm, Nat.mul_add_div hpos, Nat.div_eq_of_lt hx, Nat.add_zero]

theorem step_index (width x y : Nat) :
    (if x + 1 = width then (y + 1) * width + 0 else y * width + (x + 1)) = y * width + x + 1 := by
  split
  · rename_i hlast
    rw [Nat.add_mul, Nat.one_mul]
    omega
  · omega

/-- The loop goes on at the next cell, in this row or in the next one. -/
theorem boundsLoop_next (hx : x < width) (items : List Bytes) (y : Nat) (bounds : Option Bounds) :
    ∃ x₁ y₁, x₁ < width ∧ y₁ * width + x₁ = y * width + x + 1 ∧
      (if x + 1 = width then boundsLoop width items 0 (y + 1) bounds
        else boundsLoop width items (x + 1) y bounds) = boundsLoop width items x₁ y₁ bounds := by
  have hstep := step_index width x y
  split at hstep
  · rename_i hlast
    exact ⟨0, y + 1, by omega, hstep, if_pos hlast⟩
  · rename_i hlast
    exact ⟨x + 1, y, by omega, hstep, if_neg hlast⟩

variable (items y) in
/-- From the cell `(x, y)` on, the loop covers what was covered, and every item it comes to. -/
theorem boundsLoop_spec (hx : x < width) (hbounds : ∀ b, bounds = some b → b.Within width) :
    (∀ b, boundsLoop width items x y bounds = some b → b.Within width ∧
      (∀ b', bounds = some b' → ∀ x' y', b'.Covers x' y' → b.Covers x' y') ∧
      ∀ j item, items[j]? = some item → item ≠ [] →
        b.Covers ((y * width + x + j) % width) ((y * width + x + j) / width)) ∧
    (boundsLoop width items x y bounds = none → bounds = none ∧ ∀ item ∈ items, item = []) := by
  induction items generalizing x y bounds with
  | nil =>
    refine ⟨fun b hb => ⟨hbounds b hb, ?_, ?_⟩, fun hnone => ⟨hnone, ?_⟩⟩
    · intro b' hb' x' y' hcovers
      rw [boundsLoop, hb'] at hb
      exact Option.some.inj hb ▸ hcovers
    · intro j item hitem
      cases hitem
    · exact fun item hitem => (List.not_mem_nil hitem).elim
  | cons first items ih =>
    rcases cell_index hx y with ⟨hmod, hdiv⟩
    -- the bounds after this cell
    have hnext : ∀ b, (if first ≠ [] then some (Bounds.extend x y bounds) else bounds) = some b →
        b.Within width := by
      intro b hb
      split at hb
      · cases hb
        exact Bounds.within_extend hx y hbounds
      · exact hbounds b hb
    have hold : ∀ b', bounds = some b' → ∃ b'',
        (if first ≠ [] then some (Bounds.extend x y bounds) else bounds) = some b'' ∧
          ∀ x' y', b'.Covers x' y' → b''.Covers x' y' := by
      rintro b' rfl
      split
      · exact ⟨_, rfl, fun x' y' h => Bounds.covers_extend_of h x y⟩
      · exact ⟨b', rfl, fun _ _ h => h⟩
    rw [boundsLoop]
    generalize hbounds' :
      (if first ≠ [] then some (Bounds.extend x y bounds) else bounds) = bounds' at hnext hold
    rcases boundsLoop_next hx items y bounds' with ⟨x₁, y₁, hx₁, hindex, hloop⟩
    rw [hloop]
    rcases ih (x := x₁) (y := y₁) hx₁ hnext with ⟨hsome, hnone⟩
    constructor
    · intro b hb
      rcases hsome b hb with ⟨hmax, hkeep, hcovers⟩
      refine ⟨hmax, ?_, ?_⟩
      · intro b' hb' x' y' h
        rcases hold b' hb' with ⟨b'', hb'', himp⟩
        exact hkeep b'' hb'' x' y' (himp x' y' h)
      · intro j item hitem hne
        cases j with
        | zero =>
          have hfirst : first = item := Option.some.inj hitem
          rw [Nat.add_zero, hmod, hdiv]
          rw [if_pos (hfirst ▸ hne)] at hbounds'
          exact hkeep _ hbounds'.symm x y (Bounds.covers_extend x y bounds)
        | succ j =>
          have hj := hcovers j item hitem hne
          rw [hindex] at hj
          have heq : y * width + x + 1 + j = y * width + x + (j + 1) := by omega
          rwa [heq] at hj
    · intro hnone'
      rcases hnone hnone' with ⟨hb, hall⟩
      by_cases hfirst : first = []
      · rw [if_neg (not_not.2 hfirst)] at hbounds'
        refine ⟨hbounds'.trans hb, fun item hitem => ?_⟩
        rcases List.mem_cons.1 hitem with rfl | hitem
        · exact hfirst
        · exact hall item hitem
      · rw [if_pos hfirst, hb] at hbounds'
        cases hbounds'

/-- The box lies within the rows, and every item lies in it. -/
theorem craftGetBounds_spec (hwidth : 0 < width) (h : craftGetBounds names width = some b) :
    b.Within width ∧ ∀ (k : Nat) (item : Bytes), names[k]? = some item → item ≠ [] →
      b.Covers (k % width) (k / width) := by
  have hnone : ∀ b, (none : Option Bounds) = some b → b.Within width := fun b hb => by cases hb
  rcases (boundsLoop_spec 0 names hwidth hnone).1 b h with ⟨hwithin, -, hcovers⟩
  refine ⟨hwithin, fun k item hitem hne => ?_⟩
  have hk := hcovers k item hitem hne
  simpa using hk

theorem craftGetBounds_none (hwidth : 0 < width) (h : craftGetBounds names width = none) :
    ∀ item ∈ names, item = [] := by
  have hnone : ∀ b, (none : Option Bounds) = some b → b.Within width := fun b hb => by cases hb
  exact ((boundsLoop_spec 0 names hwidth hnone).2 h).2

/-! ## The items of a grid -/

/-- The cells of a box that hold an item. -/
def boxCells (names : List Bytes) (width : Nat) (b : Bounds) : Finset (Nat × Nat) :=
  (Finset.range (b.maxX - b.minX + 1) ×ˢ Finset.range (b.maxY - b.minY + 1)).filter fun p =>
    cellAt names width (b.minX + p.1) (b.minY + p.2) ≠ []

theorem map_range_getD (names : List Bytes) :
    (List.range names.length).map (fun k => (names[k]?).getD []) = names := by
  refine List.ext_getElem (by simp) fun k hk hk' => ?_
  simp [List.getElem?_eq_getElem hk']

theorem items_eq_indices (names : List Bytes) :
    ((names.filter fun name => decide (name ≠ []) : List Bytes) : Multiset Bytes) =
      (((Finset.range names.length).filter fun k => (names[k]?).getD [] ≠ []).val.map
        fun k => (names[k]?).getD []) := by
  conv_lhs => rw [← map_range_getD names, List.filter_map]
  rfl

/-- The items of a grid are those in the cells of its bounding box. -/
theorem items_eq_box (hwidth : 0 < width) (h : craftGetBounds names width = some b) :
    ((names.filter fun name => decide (name ≠ []) : List Bytes) : Multiset Bytes) =
      (boxCells names width b).val.map fun p =>
        cellAt names width (b.minX + p.1) (b.minY + p.2) := by
  rcases craftGetBounds_spec hwidth h with ⟨hwithin, hcovers⟩
  have hcovers' : ∀ k, (names[k]?).getD [] ≠ [] → b.Covers (k % width) (k / width) := by
    intro k hk
    cases hget : names[k]? with
    | none => simp [hget] at hk
    | some item => exact hcovers k item hget (by simpa [hget] using hk)
  have hcell : ∀ k, cellAt names width (k % width) (k / width) = (names[k]?).getD [] := by
    intro k
    rw [cellAt, Nat.div_add_mod']
  rw [items_eq_indices]
  refine Multiset.map_eq_map_of_bij_of_nodup _ _ (Finset.nodup _) (Finset.nodup _)
    (fun k _ => (k % width - b.minX, k / width - b.minY)) ?_ ?_ ?_ ?_
  · intro k hk
    have hne := (Finset.mem_filter.1 (Finset.mem_def.2 hk)).2
    rcases hcovers' k hne with ⟨hminX, hmaxX, hminY, hmaxY⟩
    refine Finset.mem_def.1 (Finset.mem_filter.2 ⟨Finset.mem_product.2 ⟨?_, ?_⟩, ?_⟩)
    · exact Finset.mem_range.2 (by simp only; omega)
    · exact Finset.mem_range.2 (by simp only; omega)
    · simp only
      rw [Nat.add_sub_cancel' hminX, Nat.add_sub_cancel' hminY, hcell]
      exact hne
  · intro k hk k' hk' hsame
    have hk := hcovers' k (Finset.mem_filter.1 (Finset.mem_def.2 hk)).2
    have hk' := hcovers' k' (Finset.mem_filter.1 (Finset.mem_def.2 hk')).2
    have hx := congrArg Prod.fst hsame
    have hy := congrArg Prod.snd hsame
    simp only at hx hy
    have hmod : k % width = k' % width := by
      have h₁ := hk.minX_le
      have h₂ := hk'.minX_le
      omega
    have hdiv : k / width = k' / width := by
      have h₁ := hk.minY_le
      have h₂ := hk'.minY_le
      omega
    rw [← Nat.div_add_mod' k width, ← Nat.div_add_mod' k' width, hmod, hdiv]
  · rintro ⟨px, py⟩ hp
    rcases Finset.mem_filter.1 (Finset.mem_def.2 hp) with ⟨hbox, hne⟩
    rcases Finset.mem_product.1 hbox with ⟨hpx, hpy⟩
    rw [Finset.mem_range] at hpx hpy
    have hlt : b.minX + px < width := by
      have hmin := hwithin.minX_le
      have hmax := hwithin.maxX_lt
      omega
    rcases cell_index hlt (b.minY + py) with ⟨hmod, hdiv⟩
    refine ⟨(b.minY + py) * width + (b.minX + px),
      Finset.mem_def.1 (Finset.mem_filter.2 ⟨?_, hne⟩), ?_⟩
    · refine Finset.mem_range.2 ?_
      by_contra hout
      rw [cellAt, List.getElem?_eq_none (not_lt.1 hout)] at hne
      exact hne rfl
    · rw [hmod, hdiv, Nat.add_sub_cancel_left, Nat.add_sub_cancel_left]
  · intro k hk
    rcases hcovers' k (Finset.mem_filter.1 (Finset.mem_def.2 hk)).2 with ⟨hminX, -, hminY, -⟩
    simp only
    rw [Nat.add_sub_cancel' hminX, Nat.add_sub_cancel' hminY, hcell]

end

end Craft
end AxisEngine
