import Mathlib.Algebra.Order.Floor.Semiring
import Mathlib.Algebra.Order.Field.Basic
import Mathlib.Tactic.Ring
import Mathlib.Tactic.Positivity

/-!
# FixedSteps — time cut into steps of one length

Time comes in pieces of any length.  From each piece, and from what is left of those before, as many
whole steps are taken as there are.

* `steps`, `remainder` — the whole steps of a time, and what is left of it;
* `steps_add`, `remainder_add` — a time in two pieces has the steps of both together.
-/

namespace AxisEngine
namespace Lib

variable {K : Type*} [Field K] [LinearOrder K] [IsStrictOrderedRing K] [FloorSemiring K]
  {h t d : K}

def steps (h t : K) : ℕ :=
  ⌊t / h⌋₊

def remainder (h t : K) : K :=
  t - steps h t * h

theorem remainder_nonneg (hh : 0 < h) (ht : 0 ≤ t) : 0 ≤ remainder h t := by
  have hle : (steps h t : K) ≤ t / h := Nat.floor_le (div_nonneg ht hh.le)
  rw [remainder, sub_nonneg]
  exact (le_div_iff₀ hh).1 hle

theorem remainder_lt (hh : 0 < h) : remainder h t < h := by
  have hlt : t / h < steps h t + 1 := Nat.lt_floor_add_one _
  rw [div_lt_iff₀ hh, add_mul, one_mul] at hlt
  rw [remainder, sub_lt_iff_lt_add, add_comm]
  exact hlt

theorem steps_of_lt (hh : 0 < h) (ht : t < h) : steps h t = 0 :=
  Nat.floor_eq_zero.2 ((div_lt_one hh).2 ht)

theorem remainder_of_lt (hh : 0 < h) (ht : t < h) : remainder h t = t := by
  rw [remainder, steps_of_lt hh ht, Nat.cast_zero, zero_mul, sub_zero]

/-- The steps of a piece, and then those of what is left together with the next piece. -/
theorem steps_add (hh : 0 < h) (hd : 0 ≤ d) :
    steps h (t + d) = steps h t + steps h (remainder h t + d) := by
  have hrest : (remainder h t + d) / h = (t + d) / h - steps h t := by
    rw [remainder, div_eq_iff hh.ne', sub_mul, div_mul_cancel₀ _ hh.ne']
    ring
  have hle : steps h t ≤ steps h (t + d) :=
    Nat.floor_mono (div_le_div_of_nonneg_right (le_add_of_nonneg_right hd) hh.le)
  have hsecond : steps h (remainder h t + d) = steps h (t + d) - steps h t := by
    rw [steps, hrest, Nat.floor_sub_natCast, ← steps]
  omega

theorem remainder_add (hh : 0 < h) (hd : 0 ≤ d) :
    remainder h (t + d) = remainder h (remainder h t + d) := by
  rw [remainder, steps_add hh hd, remainder, remainder, Nat.cast_add]
  ring

end Lib
end AxisEngine
