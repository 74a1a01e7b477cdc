import Mathlib.Order.Basic
import Mathlib.Algebra.Order.Group.Int

/-!
# Patterns — cells of the plane, up to translation

A pattern gives every cell of the plane a value; one value stands for an empty cell.

* `IsBox` — the smallest rectangle around the cells that are not empty;
* `PatternsMatch` — the boxes of two patterns have one size, and the cells in them match;
* `patternsMatch_shift` — this does not depend on where the pattern is.
-/

namespace AxisEngine
namespace Lib

structure Rect where
  minX : ℤ
  maxX : ℤ
  minY : ℤ
  maxY : ℤ

/-- The smallest rectangle around the cells that are not empty. -/
structure IsBox {α : Type} (empty : α) (p : ℤ → ℤ → α) (b : Rect) : Prop where
  covers : ∀ x y, p x y ≠ empty → (b.minX ≤ x ∧ x ≤ b.maxX) ∧ b.minY ≤ y ∧ y ≤ b.maxY
  left : ∃ y, p b.minX y ≠ empty
  right : ∃ y, p b.maxX y ≠ empty
  top : ∃ x, p x b.minY ≠ empty
  bottom : ∃ x, p x b.maxY ≠ empty

/-- The pattern moved by `dx` and `dy`. -/
def shift {α : Type} (dx dy : ℤ) (p : ℤ → ℤ → α) : ℤ → ℤ → α :=
  fun x y => p (x - dx) (y - dy)

def Rect.shift (dx dy : ℤ) (b : Rect) : Rect :=
  { minX := b.minX + dx, maxX := b.maxX + dx, minY := b.minY + dy, maxY := b.maxY + dy }

/-- The cells of one box match those of the other, one by one. -/
structure CellsMatch {α β : Type} (r : α → β → Prop) (p : ℤ → ℤ → α) (q : ℤ → ℤ → β)
    (a b : Rect) : Prop where
  width_eq : a.maxX - a.minX = b.maxX - b.minX
  height_eq : a.maxY - a.minY = b.maxY - b.minY
  cells : ∀ x y, 0 ≤ x → x ≤ a.maxX - a.minX → 0 ≤ y → y ≤ a.maxY - a.minY →
    r (p (a.minX + x) (a.minY + y)) (q (b.minX + x) (b.minY + y))

def PatternsMatch {α β : Type} (r : α → β → Prop) (empty : α) (empty' : β) (p : ℤ → ℤ → α)
    (q : ℤ → ℤ → β) : Prop :=
  ∃ a b, IsBox empty p a ∧ IsBox empty' q b ∧ CellsMatch r p q a b

section

variable {α β : Type} {r : α → β → Prop} {empty : α} {empty' : β} {p : ℤ → ℤ → α} {q : ℤ → ℤ → β}
variable {a b : Rect}

/-- There is one smallest rectangle at most. -/
theorem IsBox.unique (h : IsBox empty p a) (h' : IsBox empty p b) : a = b := by
  rcases h.left with ⟨y₁, hleft⟩
  rcases h'.left with ⟨y₁', hleft'⟩
  rcases h.right with ⟨y₂, hright⟩
  rcases h'.right with ⟨y₂', hright'⟩
  rcases h.top with ⟨x₁, htop⟩
  rcases h'.top with ⟨x₁', htop'⟩
  rcases h.bottom with ⟨x₂, hbottom⟩
  rcases h'.bottom with ⟨x₂', hbottom'⟩
  -- each side is covered by the other rectangle
  have hminX : a.minX = b.minX :=
    le_antisymm (h.covers _ _ hleft').1.1 (h'.covers _ _ hleft).1.1
  have hmaxX : a.maxX = b.maxX :=
    le_antisymm (h'.covers _ _ hright).1.2 (h.covers _ _ hright').1.2
  have hminY : a.minY = b.minY :=
    le_antisymm (h.covers _ _ htop').2.1 (h'.covers _ _ htop).2.1
  have hmaxY : a.maxY = b.maxY :=
    le_antisymm (h'.covers _ _ hbottom).2.2 (h.covers _ _ hbottom').2.2
  cases a
  cases b
  simp only at hminX hmaxX hminY hmaxY
  rw [hminX, hmaxX, hminY, hmaxY]

theorem shift_shift (dx dy : ℤ) (p : ℤ → ℤ → α) : shift (-dx) (-dy) (shift dx dy p) = p := by
  funext x y
  simp only [shift, sub_neg_eq_add, add_sub_cancel_right]

theorem IsBox.shift (h : IsBox empty p b) (dx dy : ℤ) :
    IsBox empty (Lib.shift dx dy p) (b.shift dx dy) := by
  have hx : ∀ x, x + dx - dx = x := fun x => add_sub_cancel_right x dx
  have hy : ∀ y, y + dy - dy = y := fun y => add_sub_cancel_right y dy
  refine ⟨fun x y hne => ?_, ?_, ?_, ?_, ?_⟩
  · rcases h.covers _ _ hne with ⟨⟨hminX, hmaxX⟩, hminY, hmaxY⟩
    simp only [Rect.shift]
    omega
  · rcases h.left with ⟨y, hne⟩
    refine ⟨y + dy, ?_⟩
    simpa only [Lib.shift, Rect.shift, hx, hy] using hne
  · rcases h.right with ⟨y, hne⟩
    refine ⟨y + dy, ?_⟩
    simpa only [Lib.shift, Rect.shift, hx, hy] using hne
  · rcases h.top with ⟨x, hne⟩
    refine ⟨x + dx, ?_⟩
    simpa only [Lib.shift, Rect.shift, hx, hy] using hne
  · rcases h.bottom with ⟨x, hne⟩
    refine ⟨x + dx, ?_⟩
    simpa only [Lib.shift, Rect.shift, hx, hy] using hne

/-- For the boxes of two patterns, only their cells are left to compare. -/
theorem patternsMatch_iff (ha : IsBox empty p a) (hb : IsBox empty' q b) :
    PatternsMatch r empty empty' p q ↔ CellsMatch r p q a b := by
  constructor
  · rintro ⟨a', b', ha', hb', hcells⟩
    rwa [ha.unique ha', hb.unique hb']
  · intro hcells
    exact ⟨a, b, ha, hb, hcells⟩

theorem PatternsMatch.shift (h : PatternsMatch r empty empty' p q) (dx dy : ℤ) :
    PatternsMatch r empty empty' (Lib.shift dx dy p) q := by
  rcases h with ⟨a, b, ha, hb, hcells⟩
  refine ⟨a.shift dx dy, b, ha.shift dx dy, hb, ?_, ?_, fun x y hx hx' hy hy' => ?_⟩
  · have hwidth := hcells.width_eq
    simp only [Rect.shift]
    omega
  · have hheight := hcells.height_eq
    simp only [Rect.shift]
    omega
  · have hmatch := hcells.cells x y hx (by simp only [Rect.shift] at hx'; omega) hy
      (by simp only [Rect.shift] at hy'; omega)
    have hx'' : a.minX + dx + x - dx = a.minX + x := by omega
    have hy'' : a.minY + dy + y - dy = a.minY + y := by omega
    simpa only [Lib.shift, Rect.shift, hx'', hy''] using hmatch

theorem patternsMatch_shift (dx dy : ℤ) :
    PatternsMatch r empty empty' (shift dx dy p) q ↔ PatternsMatch r empty empty' p q := by
  constructor
  · intro h
    have hback := h.shift (-dx) (-dy)
    rwa [shift_shift] at hback
  · exact fun h => h.shift dx dy

end

end Lib
end AxisEngine
