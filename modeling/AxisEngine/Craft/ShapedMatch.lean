import AxisEngine.Craft.Grid
import AxisEngine.Inventory.RoundTrip
import AxisEngine.Lib.Patterns
import AxisEngine.Util.StringFields

/-!
# ShapedMatch — shaped crafting up to translation

`CraftDefinitionShaped::check` compares two grids that are stored row by row, with their own widths
and perhaps an incomplete last row.

* `pattern` — the grid as a pattern of the plane;
* `isBox_craftGetBounds` — the bounds are the smallest rectangle;
* `shaped_check_iff` — the check holds exactly when the patterns match, wherever they are.
-/

namespace AxisEngine
namespace Craft

open Lib Util Inventory

/-- The names of a grid as a pattern; "" is the empty cell. -/
def pattern (names : List Bytes) (width : Nat) (x y : ℤ) : Bytes :=
  if 0 ≤ x ∧ x < width ∧ 0 ≤ y then cellAt names width x.toNat y.toNat else []

def Bounds.toRect (b : Bounds) : Rect :=
  { minX := b.minX, maxX := b.maxX, minY := b.minY, maxY := b.maxY }

/-- Every side of the box is at a cell of `P`. -/
structure Bounds.Tight (P : Nat → Nat → Prop) (b : Bounds) : Prop where
  left : ∃ y, P b.minX y
  right : ∃ y, P b.maxX y
  top : ∃ x, P x b.minY
  bottom : ∃ x, P x b.maxY

section

variable {width x y : Nat} {items names : List Bytes} {bounds : Option Bounds} {b : Bounds}
variable {P : Nat → Nat → Prop}

theorem Bounds.tight_extend (h : P x y) (hbounds : ∀ b, bounds = some b → b.Tight P) :
    (Bounds.extend x y bounds).Tight P := by
  cases bounds with
  | none => exact ⟨⟨y, h⟩, ⟨y, h⟩, ⟨x, h⟩, ⟨x, h⟩⟩
  | some b =>
    rcases hbounds b rfl with ⟨hleft, hright, htop, hbottom⟩
    simp only [Bounds.extend]
    refine ⟨?_, ?_, ?_, ?_⟩
    · dsimp only
      split
      · exact ⟨y, h⟩
      · exact hleft
    · dsimp only
      split
      · exact ⟨y, h⟩
      · exact hright
    · dsimp only
      split
      · exact ⟨x, h⟩
      · exact htop
    · dsimp only
      split
      · exact ⟨x, h⟩
      · exact hbottom

/-- The loop puts a side only where an item is. -/
theorem boundsLoop_tight (hx : x < width) (hbounds : ∀ b, bounds = some b → b.Tight P)
    (hitems : ∀ j item, items[j]? = some item → item ≠ [] →
      P ((y * width + x + j) % width) ((y * width + x + j) / width))
    (h : boundsLoop width items x y bounds = some b) : b.Tight P := by
  induction items generalizing x y bounds with
  | nil => exact hbounds b h
  | cons first items ih =>
    rcases cell_index hx y with ⟨hmod, hdiv⟩
    rw [boundsLoop] at h
    have hnext : ∀ b, (if first ≠ [] then some (Bounds.extend x y bounds) else bounds) = some b →
        b.Tight P := by
      intro b hb
      split at hb
      · rename_i hne
        cases hb
        have hfirst := hitems 0 first rfl hne
        rw [Nat.add_zero, hmod, hdiv] at hfirst
        exact Bounds.tight_extend hfirst hbounds
      · exact hbounds b hb
    rcases boundsLoop_next hx items y
      (if first ≠ [] then some (Bounds.extend x y bounds) else bounds) with
      ⟨x₁, y₁, hx₁, hindex, hloop⟩
    rw [hloop] at h
    refine ih hx₁ hnext (fun j item hitem hne => ?_) h
    have hj := hitems (j + 1) item hitem hne
    have heq : y * width + x + (j + 1) = y₁ * width + x₁ + j := by omega
    rwa [heq] at hj

/-! ## Grids as patterns -/

theorem pattern_natCast (hx : x < width) (names : List Bytes) (y : Nat) :
    pattern names width x y = cellAt names width x y := by
  have hcell : (0 : ℤ) ≤ x ∧ (x : ℤ) < width ∧ (0 : ℤ) ≤ y := by omega
  rw [pattern, if_pos hcell, Int.toNat_natCast, Int.toNat_natCast]

theorem pattern_zero (names : List Bytes) (hwidth : width = 0) (x y : ℤ) :
    pattern names width x y = [] := by
  rw [pattern, if_neg (by omega)]

/-- A cell that is not empty is one of the grid. -/
theorem exists_of_pattern_ne {x y : ℤ} (h : pattern names width x y ≠ []) :
    ∃ x' y' : Nat, x = x' ∧ y = y' ∧ x' < width ∧ cellAt names width x' y' ≠ [] := by
  rw [pattern] at h
  split at h
  · rename_i hcell
    exact ⟨x.toNat, y.toNat, by omega, by omega, by omega, h⟩
  · exact absurd rfl h

theorem cellAt_padRows (names : List Bytes) (width x y : Nat) :
    cellAt (padRows names width) width x y = cellAt names width x y := by
  rw [cellAt, cellAt, padRows, List.getElem?_append]
  split
  · rfl
  · rename_i hout
    rw [List.getElem?_eq_none (not_lt.1 hout), List.getElem?_replicate]
    split
    · rfl
    · rfl

theorem pattern_padRows (names : List Bytes) (width : Nat) :
    pattern (padRows names width) width = pattern names width := by
  funext x y
  rw [pattern, pattern, cellAt_padRows]

/-- The bounds of a grid are the box of its pattern. -/
theorem isBox_craftGetBounds (hwidth : 0 < width) (h : craftGetBounds names width = some b) :
    IsBox [] (pattern names width) b.toRect := by
  rcases craftGetBounds_spec hwidth h with ⟨-, hcovers⟩
  have htight : b.Tight fun x y => pattern names width x y ≠ [] := by
    refine boundsLoop_tight hwidth (fun b hb => by cases hb) (fun j item hitem hne => ?_) h
    have hlt := Nat.mod_lt j hwidth
    rw [Nat.zero_mul, Nat.zero_add, pattern_natCast hlt, cellAt, Nat.div_add_mod', hitem]
    exact hne
  refine ⟨fun x y hne => ?_, ?_, ?_, ?_, ?_⟩
  · rcases exists_of_pattern_ne hne with ⟨x', y', rfl, rfl, hx', hcell⟩
    rcases cell_index hx' y' with ⟨hmod, hdiv⟩
    rw [cellAt] at hcell
    cases hitem : names[y' * width + x']? with
    | none =>
      rw [hitem] at hcell
      exact absurd rfl hcell
    | some item =>
      rw [hitem] at hcell
      rcases hcovers _ item hitem hcell with ⟨hminX, hmaxX, hminY, hmaxY⟩
      rw [hmod] at hminX hmaxX
      rw [hdiv] at hminY hmaxY
      simp only [Bounds.toRect]
      omega
  · exact htight.left.imp' _ fun y hne => hne
  · exact htight.right.imp' _ fun y hne => hne
  · exact htight.top.imp' _ fun x hne => hne
  · exact htight.bottom.imp' _ fun x hne => hne

theorem pattern_of_none (hwidth : 0 < width) (h : craftGetBounds names width = none) (x y : ℤ) :
    pattern names width x y = [] := by
  by_contra hne
  rcases exists_of_pattern_ne hne with ⟨x', y', -, -, -, hcell⟩
  rw [cellAt] at hcell
  cases hitem : names[y' * width + x']? with
  | none =>
    rw [hitem] at hcell
    exact hcell rfl
  | some item =>
    rw [hitem] at hcell
    exact hcell (craftGetBounds_none hwidth h item (List.mem_of_getElem? hitem))

end

/-! ## The check -/

/-- Recipe and input are the same up to translation. -/
def ShapedMatch (idef : ItemDefManager) (inp rec : ℤ → ℤ → Bytes) : Prop :=
  PatternsMatch (fun name recName => inputItemMatchesRecipe idef name recName = true) [] [] inp rec

section

variable {idef : ItemDefManager} {names recNames : List Bytes} {inpWidth recWidth : Nat}
variable {inp rec : Bounds} {input : CraftInput} {width : UInt32}

/-- The last part of the check compares the cells of the boxes. -/
theorem boxesMatch_iff (hinp : inp.Within inpWidth) (hrec : rec.Within recWidth) :
    boxesMatch idef names recNames inpWidth recWidth inp rec = true ↔
      CellsMatch (fun name recName => inputItemMatchesRecipe idef name recName = true)
        (pattern names inpWidth) (pattern recNames recWidth) inp.toRect rec.toRect := by
  rcases hinp with ⟨hinpX, hinpLt, hinpY⟩
  rcases hrec with ⟨hrecX, hrecLt, hrecY⟩
  rw [boxesMatch]
  split
  · rename_i hsize
    refine iff_of_false Bool.false_ne_true fun h => ?_
    have hwidth := h.width_eq
    have hheight := h.height_eq
    simp only [Bounds.toRect] at hwidth hheight
    omega
  · rename_i hsize
    rcases not_or.1 hsize with ⟨hwidth, hheight⟩
    have hwidth := not_not.1 hwidth
    have hheight := not_not.1 hheight
    -- the cells of the patterns are those that the loops look at
    have hcell : ∀ x, x < inp.maxX - inp.minX + 1 → ∀ y : Nat,
        pattern names inpWidth ((inp.minX : ℤ) + x) ((inp.minY : ℤ) + y) =
            cellAt names inpWidth (inp.minX + x) (inp.minY + y) ∧
          pattern recNames recWidth ((rec.minX : ℤ) + x) ((rec.minY : ℤ) + y) =
            cellAt recNames recWidth (rec.minX + x) (rec.minY + y) := by
      intro x hx y
      constructor
      · exact_mod_cast pattern_natCast (by omega) names (inp.minY + y)
      · exact_mod_cast pattern_natCast (by omega) recNames (rec.minY + y)
    simp only [List.all_eq_true, List.mem_range]
    constructor
    · intro h
      refine ⟨?_, ?_, fun x y hx hx' hy hy' => ?_⟩
      · simp only [Bounds.toRect]
        omega
      · simp only [Bounds.toRect]
        omega
      · simp only [Bounds.toRect] at hx' hy' ⊢
        rcases Int.eq_ofNat_of_zero_le hx with ⟨x, rfl⟩
        rcases Int.eq_ofNat_of_zero_le hy with ⟨y, rfl⟩
        have hxlt : x < inp.maxX - inp.minX + 1 := by omega
        rcases hcell x hxlt y with ⟨hinp, hrec⟩
        rw [hinp, hrec]
        exact h y (by omega) x hxlt
    · intro h y hy x hx
      have hmatch := h.cells x y (Int.natCast_nonneg x) (by simp only [Bounds.toRect]; omega)
        (Int.natCast_nonneg y) (by simp only [Bounds.toRect]; omega)
      rcases hcell x hx y with ⟨hinp, hrec⟩
      simp only [Bounds.toRect] at hmatch
      rwa [hinp, hrec] at hmatch

/-- There is nothing to compare. -/
def Blank (input : CraftInput) : Prop :=
  input.method ≠ .normal ∨ ∀ x y, pattern input.names input.width.toNat x y = []

theorem checkShaped_blank (idef : ItemDefManager) (width : UInt32)
    (recNames : Except Exception (List Bytes)) (h : Blank input) :
    checkShaped idef input width recNames = .ok false := by
  rw [checkShaped]
  split
  · rfl
  · rename_i hsome
    rcases not_or.1 hsome with ⟨hmethod, hwidth⟩
    have hempty := h.resolve_left hmethod
    have hpos : 0 < input.width.toNat := Nat.pos_of_ne_zero fun h0 =>
      hwidth (UInt32.toNat_inj.1 h0)
    cases hbounds : craftGetBounds (padRows input.names input.width.toNat) input.width.toNat with
    | none => simp only [hbounds]
    | some inp =>
      rcases (isBox_craftGetBounds hpos hbounds).left with ⟨y, hne⟩
      rw [pattern_padRows] at hne
      exact absurd (hempty _ _) hne

/-- Otherwise the names of the recipe are needed. -/
theorem checkShaped_of_not_blank (idef : ItemDefManager) (width : UInt32)
    (recNames : Except Exception (List Bytes)) (h : ¬ Blank input) :
    (∃ e, recNames = .error e ∧ checkShaped idef input width recNames = .error e) ∨
      ∃ names b, recNames = .ok names ∧ checkShaped idef input width recNames = .ok b ∧
        (b = true ↔ ShapedMatch idef (pattern input.names input.width.toNat)
          (pattern names width.toNat)) := by
  rcases not_or.1 h with ⟨hmethod, hitems⟩
  have hwidth : ¬ input.width = 0 := by
    intro hzero
    refine hitems fun x y => pattern_zero _ ?_ x y
    rw [hzero]
    rfl
  have hpos : 0 < input.width.toNat := Nat.pos_of_ne_zero fun h0 => hwidth (UInt32.toNat_inj.1 h0)
  have hthere : ¬ (input.method ≠ .normal ∨ input.width = 0) := not_or.2 ⟨hmethod, hwidth⟩
  rw [checkShaped, if_neg hthere]
  cases hinp : craftGetBounds (padRows input.names input.width.toNat) input.width.toNat with
  | none =>
    refine absurd (fun x y => ?_) hitems
    rw [← pattern_padRows]
    exact pattern_of_none hpos hinp x y
  | some inp =>
    have hinpBox := isBox_craftGetBounds hpos hinp
    rw [pattern_padRows] at hinpBox
    cases recNames with
    | error e => exact .inl ⟨e, rfl, by simp only [hinp]; rfl⟩
    | ok names =>
      refine .inr ⟨names, ?_⟩
      simp only [hinp]
      rw [ok_bind]
      -- a recipe without items has no box
      have hnone : (∀ x y, pattern names width.toNat x y = []) →
          ¬ ShapedMatch idef (pattern input.names input.width.toNat)
            (pattern names width.toNat) := by
        rintro hempty ⟨a, b, -, hb, -⟩
        rcases hb.left with ⟨y, hne⟩
        exact hne (hempty _ _)
      by_cases hrecWidth : width = 0
      · rw [if_pos hrecWidth]
        refine ⟨false, trivial, rfl, iff_of_false Bool.false_ne_true (hnone fun x y => ?_)⟩
        rw [hrecWidth]
        exact pattern_zero names rfl x y
      · have hrecPos : 0 < width.toNat := Nat.pos_of_ne_zero fun h0 =>
          hrecWidth (UInt32.toNat_inj.1 h0)
        rw [if_neg hrecWidth]
        cases hrec : craftGetBounds (padRows names width.toNat) width.toNat with
        | none =>
          refine ⟨false, trivial, rfl, iff_of_false Bool.false_ne_true (hnone fun x y => ?_)⟩
          rw [← pattern_padRows]
          exact pattern_of_none hrecPos hrec x y
        | some rec =>
          have hrecBox := isBox_craftGetBounds hrecPos hrec
          rw [pattern_padRows] at hrecBox
          refine ⟨_, trivial, rfl, ?_⟩
          rw [boxesMatch_iff (craftGetBounds_spec hpos hinp).1
            (craftGetBounds_spec hrecPos hrec).1, pattern_padRows, pattern_padRows]
          exact (patternsMatch_iff hinpBox hrecBox).symm

/-- A shaped recipe matches exactly when the smallest rectangles around the input and around the
recipe have one size and their cells match; so it does not matter where in its grid the input is. -/
theorem shaped_check_iff (r : Reader) (idef : ItemDefManager) (d : CraftDefinition)
    (output : Bytes) (width : UInt32) (recipe : List Bytes) (replacements : CraftReplacements)
    (hd : d.recipe = .shaped output width recipe replacements) (input : CraftInput) :
    (d.check r idef input = .ok true ↔ input.method = .normal ∧
      ∃ names, d.names r idef = .ok names ∧
        ShapedMatch idef (pattern input.names input.width.toNat) (pattern names width.toNat)) ∧
    ∀ (moved : CraftInput) (dx dy : ℤ), moved.method = input.method →
      pattern moved.names moved.width.toNat = shift dx dy (pattern input.names input.width.toNat) →
      d.check r idef moved = d.check r idef input := by
  have hcheck : ∀ input, d.check r idef input = checkShaped idef input width (d.names r idef) := by
    intro input
    rw [CraftDefinition.check, hd]
  refine ⟨?_, fun moved dx dy hmethod hpattern => ?_⟩
  · rw [hcheck]
    by_cases hblank : Blank input
    · rw [checkShaped_blank idef width _ hblank]
      refine iff_of_false (fun h => by cases h) ?_
      rintro ⟨hnormal, names, -, a, b, ha, -⟩
      rcases ha.left with ⟨y, hne⟩
      exact hne ((hblank.resolve_left (not_not.2 hnormal)) _ _)
    · have hnormal : input.method = .normal := not_not.1 (not_or.1 hblank).1
      rcases checkShaped_of_not_blank idef width (d.names r idef) hblank with
        ⟨e, hnames, herror⟩ | ⟨names, b, hnames, hok, hmatch⟩
      · rw [herror, hnames]
        refine iff_of_false (fun h => by cases h) ?_
        rintro ⟨-, names, h, -⟩
        cases h
      · rw [hok, hnames]
        constructor
        · intro h
          exact ⟨hnormal, names, rfl, hmatch.1 (Except.ok.inj h)⟩
        · rintro ⟨-, names', hsame, h⟩
          cases hsame
          rw [hmatch.2 h]
  · have hblank : Blank moved ↔ Blank input := by
      rw [Blank, Blank, hmethod, hpattern]
      refine or_congr_right ⟨fun h x y => ?_, fun h x y => h _ _⟩
      have hback := h (x + dx) (y + dy)
      rwa [shift, add_sub_cancel_right, add_sub_cancel_right] at hback
    rw [hcheck, hcheck]
    by_cases hinput : Blank input
    · rw [checkShaped_blank idef width _ hinput, checkShaped_blank idef width _ (hblank.2 hinput)]
    · rcases checkShaped_of_not_blank idef width (d.names r idef) hinput with
        ⟨e, hnames, herror⟩ | ⟨names, b, hnames, hok, hmatch⟩
      · rcases checkShaped_of_not_blank idef width (d.names r idef) (mt hblank.1 hinput) with
          ⟨e', hnames', herror'⟩ | ⟨names', b', hnames', -, -⟩
        · cases hnames.symm.trans hnames'
          rw [herror, herror']
        · cases hnames.symm.trans hnames'
      · rcases checkShaped_of_not_blank idef width (d.names r idef) (mt hblank.1 hinput) with
          ⟨e', hnames', -⟩ | ⟨names', b', hnames', hok', hmatch'⟩
        · cases hnames.symm.trans hnames'
        · cases hnames.symm.trans hnames'
          rw [hpattern, ShapedMatch, patternsMatch_shift] at hmatch'
          have hsame : b' = b := Bool.eq_iff_iff.2 (hmatch'.trans hmatch.symm)
          rw [hok, hok', hsame]

end

/-- One tree anywhere makes a stick. -/
def stick : CraftDefinition :=
  construct 0 (.shaped (ascii "default:stick") 1 [ascii "default:tree"] [])

/-- A tree in the second of two slots. -/
def treeBehind : CraftInput where
  width := 2
  items := [.cleared, { name := ascii "default:tree", count := 1, wear := 0, metadata := ∅ }]

theorem shaped_check_iff_stick :
    (stick.check strict .builtin treeBehind = .ok true ↔ treeBehind.method = .normal ∧
      ∃ names, stick.names strict .builtin = .ok names ∧
        ShapedMatch .builtin (pattern treeBehind.names treeBehind.width.toNat)
          (pattern names (1 : UInt32).toNat)) ∧
    ∀ (moved : CraftInput) (dx dy : ℤ), moved.method = treeBehind.method →
      pattern moved.names moved.width.toNat =
        shift dx dy (pattern treeBehind.names treeBehind.width.toNat) →
      stick.check strict .builtin moved = stick.check strict .builtin treeBehind :=
  shaped_check_iff strict .builtin stick (ascii "default:stick") 1 [ascii "default:tree"] [] rfl
    treeBehind

end Craft
end AxisEngine
