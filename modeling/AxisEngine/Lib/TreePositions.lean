import Mathlib.Tactic.Linarith
import Mathlib.Tactic.Ring

/-!
# Positions of a binary tree kept in an array

The root is at `0` and the children of the node at `r` are at `2 * r + 1` and `2 * r + 2`.

* `Under r i`: position `i` belongs to the subtree that starts at `r`; the subtrees of two siblings
  share no position.
* `Fits cap r m`: a subtree of `m` nodes that starts at `r` has its place in an array of `cap` cells,
  and so has each half when the nodes without the root are halved, left half first.
-/

namespace AxisEngine
namespace Lib

/-! ## Subtrees -/

inductive Under (r : ℕ) : ℕ → Prop where
  | root : Under r r
  | left {i : ℕ} : Under r i → Under r (2 * i + 1)
  | right {i : ℕ} : Under r i → Under r (2 * i + 2)

namespace Under

variable {r i j : ℕ}

theorem le (h : Under r i) : r ≤ i := by
  induction h with
  | root => exact le_rfl
  | left _ ih => omega
  | right _ ih => omega

theorem trans (h : Under r i) (h' : Under i j) : Under r j := by
  induction h' with
  | root => exact h
  | left _ ih => exact ih.left
  | right _ ih => exact ih.right

theorem ofLeft (h : Under (2 * r + 1) i) : Under r i :=
  root.left.trans h

theorem ofRight (h : Under (2 * r + 2) i) : Under r i :=
  root.right.trans h

/-- Siblings: walking up from a position one meets only one of them. -/
theorem siblings_disjoint (h : Under (2 * r + 1) i) (h' : Under (2 * r + 2) i) : False := by
  induction h with
  | root => exact absurd h'.le (by omega)
  | @left i h ih =>
    generalize hj : 2 * i + 1 = j at h'
    cases h' with
    | root => omega
    | @left i' h' => exact ih (by rwa [show i = i' by omega])
    | @right i' h' => omega
  | @right i h ih =>
    generalize hj : 2 * i + 2 = j at h'
    cases h' with
    | root =>
      -- `i` would be the common parent, which is under neither of them
      have hi : i = r := by omega
      exact absurd h.le (by omega)
    | @left i' h' => omega
    | @right i' h' => exact ih (by rwa [show i = i' by omega])

end Under

/-! ## The place that a subtree needs -/

/-- `chain`: all positions above are first children, and the subtree has a power of two of nodes.
`full`: some position above is a second child, and the subtree is complete.
`past`: nothing is left to place. -/
inductive Fits (cap : ℕ) : ℕ → ℕ → Prop where
  | chain {r h : ℕ} : (r + 1) * 2 ^ h = cap → Fits cap r (2 ^ h)
  | full {r h : ℕ} : cap < (r + 1) * 2 ^ h → (r + 2) * 2 ^ h ≤ 2 * cap → Fits cap r (2 ^ h - 1)
  | past {r : ℕ} : cap ≤ r → Fits cap r 0

namespace Fits

variable {cap r m : ℕ}

theorem start (h : ℕ) : Fits (2 ^ h) 0 (2 ^ h) :=
  .chain (by simp)

theorem lt (h : Fits cap r m) (hm : 0 < m) : r < cap := by
  cases h with
  | @chain h heq =>
    have hpos : 0 < 2 ^ h := by positivity
    nlinarith
  | @full h _ hle =>
    have htwo : 2 ≤ 2 ^ h := by omega
    nlinarith
  | past _ => exact absurd hm (by simp)

/-- A subtree without nodes starts behind the array. -/
theorem le (h : Fits cap r 0) : cap ≤ r := by
  generalize hm : 0 = m at h
  cases h with
  | @chain h _ =>
    have hpos : 0 < 2 ^ h := by positivity
    omega
  | @full h hlt _ =>
    have hpos : 0 < 2 ^ h := by positivity
    have hone : 2 ^ h = 1 := by omega
    rw [hone, Nat.mul_one] at hlt
    omega
  | past hle => exact hle

theorem ofFull {h : ℕ} (hlt : cap < (r + 1) * 2 ^ h) (hle : (r + 2) * 2 ^ h ≤ 2 * cap)
    (hm : m = 2 ^ h - 1) : Fits cap r m := by
  rw [hm]
  exact .full hlt hle

theorem left (h : Fits cap r m) (hm : 0 < m) : Fits cap (2 * r + 1) (m / 2) := by
  cases h with
  | @chain h heq =>
    cases h with
    | zero =>
      -- a single node, whose children both lie behind the array
      rw [pow_zero, Nat.mul_one] at heq
      exact .past (by omega)
    | succ h =>
      rw [pow_succ, Nat.mul_div_cancel _ two_pos]
      refine .chain ?_
      rw [← heq, pow_succ]
      ring
  | @full h hlt hle =>
    cases h with
    | zero => exact absurd hm (by simp)
    | succ h =>
      have hpos : 0 < 2 ^ h := by positivity
      rw [pow_succ] at hlt hle ⊢
      exact ofFull (h := h) (by nlinarith) (by nlinarith) (by omega)
  | past _ => exact absurd hm (by simp)

theorem right (h : Fits cap r m) (hm : 0 < m) : Fits cap (2 * r + 2) (m - m / 2 - 1) := by
  cases h with
  | @chain h heq =>
    cases h with
    | zero =>
      rw [pow_zero, Nat.mul_one] at heq
      exact .past (by omega)
    | succ h =>
      have hpos : 0 < 2 ^ h := by positivity
      rw [pow_succ] at heq ⊢
      exact ofFull (h := h) (by nlinarith) (by nlinarith) (by omega)
  | @full h hlt hle =>
    cases h with
    | zero => exact absurd hm (by simp)
    | succ h =>
      have hpos : 0 < 2 ^ h := by positivity
      rw [pow_succ] at hlt hle ⊢
      exact ofFull (h := h) (by nlinarith) (by nlinarith) (by omega)
  | past _ => exact absurd hm (by simp)

end Fits

end Lib
end AxisEngine
