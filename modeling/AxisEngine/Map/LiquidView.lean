import AxisEngine.Map.Liquids

/-!
# LiquidView — what the neighbours of a node mean to a liquid

To the liquid of one kind a neighbour is a source, a flow that reaches so high, a way down, something
that is not loaded, or nothing.  The six neighbours together mean the sum of what each of them means,
and what a node becomes depends on that sum only.

* `View`, `view` — what the neighbours mean;
* `view_foldl_collect` — the loop over the neighbours computes it;
* `chosen` — the liquid that comes to a floodable node.
-/

namespace AxisEngine
namespace Map

/-! ## One neighbour -/

namespace NodeNeighbor

variable (f : Features) (nb : NodeNeighbor)

def type : LiquidType := (f nb.n.getContent).liquidType

/-- The flowing content of its liquid. -/
def kind : UInt16 :=
  (f nb.n.getContent).liquidAlternativeFlowingId

variable (f : Features) (K : UInt16) (nb : NodeNeighbor)

/-- A source beside or above. -/
def supplies : Bool :=
  decide (nb.type f = .source ∧ nb.kind f = K ∧ nb.t ≠ .lower)

def feeds : Bool :=
  decide (nb.type f = .flowing ∧ nb.kind f = K)

/-- Liquid can flow into it. -/
def opens : Bool :=
  decide (nb.type f = .none ∧ (f nb.n.getContent).floodable = true)

/-- The liquid falls down there. -/
def drains : Bool :=
  decide (nb.t = .lower) && (nb.opens f || decide (nb.n.getContent = contentIgnore) || nb.feeds f K)

/-- It may be a source that is not loaded. -/
def hides (nb : NodeNeighbor) : Bool :=
  decide (nb.n.getContent = contentIgnore ∧ nb.t ≠ .lower)

/-- How high it lets the liquid flow. -/
def reach (nb : NodeNeighbor) : ℤ := getMaxLiquidLevel nb (-1)

end NodeNeighbor

/-! ## Their sum -/

/-- The sources, the highest level that flows reach (-1 when there is none), whether there is a way
down, and whether there may be sources that are not loaded. -/
@[ext] structure View where
  sources : ℕ
  level : ℤ
  down : Bool
  ignored : Bool
deriving DecidableEq

namespace View

def zero : View := ⟨0, -1, false, false⟩

def add (v w : View) : View :=
  ⟨v.sources + w.sources, max v.level w.level, v.down || w.down, v.ignored || w.ignored⟩

theorem add_assoc (u v w : View) : (u.add v).add w = u.add (v.add w) := by
  rw [add, add, add, add, View.mk.injEq]
  exact ⟨Nat.add_assoc _ _ _, max_assoc _ _ _, Bool.or_assoc _ _ _, Bool.or_assoc _ _ _⟩

theorem add_left_comm (u v w : View) : u.add (v.add w) = v.add (u.add w) := by
  rw [add, add, add, add, View.mk.injEq]
  exact ⟨Nat.add_left_comm _ _ _, max_left_comm _ _ _, Bool.or_left_comm _ _ _,
    Bool.or_left_comm _ _ _⟩

instance : LeftCommutative add := ⟨add_left_comm⟩

theorem zero_add {v : View} (h : -1 ≤ v.level) : zero.add v = v := by
  have hlevel : max (-1) v.level = v.level := max_eq_right h
  rw [add, zero, View.mk.injEq]
  exact ⟨Nat.zero_add _, hlevel, Bool.false_or _, Bool.false_or _⟩

theorem add_zero {v : View} (h : -1 ≤ v.level) : v.add zero = v := by
  have hlevel : max v.level (-1) = v.level := max_eq_left h
  rw [add, zero, View.mk.injEq]
  exact ⟨Nat.add_zero _, hlevel, Bool.or_false _, Bool.or_false _⟩

end View

/-- What a neighbour means to the liquid `K`. -/
def NodeNeighbor.view (f : Features) (K : UInt16) (nb : NodeNeighbor) : View where
  sources := if nb.supplies f K then 1 else 0
  level := if nb.feeds f K then nb.reach else -1
  down := nb.drains f K
  ignored := nb.hides

/-- What all neighbours mean to the liquid `K`. -/
def view (f : Features) (K : UInt16) (nbs : List NodeNeighbor) : View :=
  (nbs.map (NodeNeighbor.view f K)).foldr View.add View.zero

section

variable {f : Features} {K : UInt16} {nb nb' : NodeNeighbor} {nbs nbs' : List NodeNeighbor}

theorem view_cons (nb : NodeNeighbor) (nbs : List NodeNeighbor) :
    view f K (nb :: nbs) = (nb.view f K).add (view f K nbs) := by
  rw [view, List.map_cons, List.foldr_cons, ← view]

theorem view_perm (h : nbs.Perm nbs') : view f K nbs = view f K nbs' :=
  (h.map _).foldr_eq _

theorem view_congr (h : nbs.map (NodeNeighbor.view f K) = nbs'.map (NodeNeighbor.view f K)) :
    view f K nbs = view f K nbs' := by
  rw [view, view, h]

end

/-! ## Levels -/

section

variable {nb : NodeNeighbor} {level : ℤ}

theorem MapNode.liquidLevel_nonneg (n : MapNode) : 0 ≤ n.liquidLevel :=
  Int.natCast_nonneg _

theorem MapNode.liquidLevel_le (n : MapNode) : n.liquidLevel ≤ liquidLevelMax := by
  have hmask : (n.param2 &&& 0x07).toNat ≤ 7 := by
    rw [UInt8.toNat_and]
    exact Nat.and_le_right
  exact Int.ofNat_le.2 hmask

/-- The loop keeps the highest level. -/
theorem getMaxLiquidLevel_eq (hlow : -1 ≤ level) (hhigh : level ≤ liquidLevelMax) :
    getMaxLiquidLevel nb level = max level nb.reach := by
  have hpos := nb.n.liquidLevel_nonneg
  have hmax := nb.n.liquidLevel_le
  rw [liquidLevelMax] at hhigh hmax
  rw [NodeNeighbor.reach, getMaxLiquidLevel, getMaxLiquidLevel]
  cases nb.t with
  | upper =>
    rw [waterDropBoost, liquidLevelMax]
    dsimp only
    split_ifs <;> omega
  | sameLevel =>
    dsimp only
    split_ifs with h1 h2 h3
    · omega
    · exact absurd ⟨h1.1, h1.2.1, by omega⟩ h2
    · have hle : ¬ nb.n.liquidLevel - 1 > level := fun h => h1 ⟨h3.1, h3.2.1, h⟩
      omega
    · omega
  | lower =>
    dsimp only
    omega

theorem reach_le (nb : NodeNeighbor) : nb.reach ≤ liquidLevelMax := by
  have hmax := nb.n.liquidLevel_le
  rw [liquidLevelMax] at hmax
  rw [NodeNeighbor.reach, getMaxLiquidLevel, liquidLevelMax, waterDropBoost]
  cases nb.t with
  | upper =>
    dsimp only
    split_ifs <;> omega
  | sameLevel =>
    dsimp only
    split_ifs <;> omega
  | lower => exact show (-1 : ℤ) ≤ 7 by decide

theorem reach_lower (h : nb.t = .lower) : nb.reach = -1 := by
  rw [NodeNeighbor.reach, getMaxLiquidLevel, h]

theorem reach_falling (h : nb.t = .sameLevel) (hdown : nb.n.flowsDown = true) : nb.reach = -1 := by
  rw [NodeNeighbor.reach, getMaxLiquidLevel, h, hdown]
  exact if_neg fun h => absurd h.1 (by decide)

end

section

variable {f : Features} {K : UInt16} {nb : NodeNeighbor} {nbs nbs' : List NodeNeighbor}

theorem level_view_nb_le (nb : NodeNeighbor) : (nb.view f K).level ≤ liquidLevelMax := by
  rw [NodeNeighbor.view]
  dsimp only
  split
  · exact reach_le nb
  · decide

theorem level_view_ge (nbs : List NodeNeighbor) : -1 ≤ (view f K nbs).level := by
  induction nbs with
  | nil => exact le_refl _
  | cons nb nbs ih =>
    rw [view_cons]
    exact le_max_of_le_right ih

theorem level_view_le (nbs : List NodeNeighbor) : (view f K nbs).level ≤ liquidLevelMax := by
  induction nbs with
  | nil => exact show (-1 : ℤ) ≤ 7 by decide
  | cons nb nbs ih =>
    rw [view_cons]
    exact max_le (level_view_nb_le nb) ih

theorem view_append (nbs nbs' : List NodeNeighbor) :
    view f K (nbs ++ nbs') = (view f K nbs).add (view f K nbs') := by
  induction nbs with
  | nil =>
    rw [List.nil_append]
    exact (View.zero_add (level_view_ge nbs')).symm
  | cons nb nbs ih => rw [List.cons_append, view_cons, view_cons, ih, View.add_assoc]

theorem view_middle (nbs : List NodeNeighbor) (nb : NodeNeighbor) (nbs' : List NodeNeighbor) :
    view f K (nbs ++ nb :: nbs') = (nb.view f K).add (view f K (nbs ++ nbs')) := by
  rw [view_perm List.perm_middle, view_cons]

end

/-! ## What a neighbour of each type means -/

namespace NodeNeighbor

section

variable {f : Features} {K : UInt16}

variable (nb : NodeNeighbor)

theorem view_of_ignore (h : nb.n.getContent = contentIgnore) :
    nb.view f K = ⟨0, -1, decide (nb.t = .lower), decide (nb.t ≠ .lower)⟩ := by
  have hnone : nb.type f = .none := by
    rw [type, h, f.get_ignore]
  have hfeeds : nb.feeds f K = false := by
    rw [feeds, hnone]
    rfl
  have hsupplies : nb.supplies f K = false := by
    rw [supplies, hnone]
    rfl
  rw [view, hfeeds, hsupplies, drains, hides, h]
  refine View.ext rfl rfl ?_ ?_
  · dsimp only
    rw [decide_eq_true rfl, Bool.or_true, Bool.true_or, Bool.and_true]
  · exact decide_eq_decide.2 ⟨And.right, And.intro rfl⟩

theorem view_of_loaded (h : nb.n.getContent ≠ contentIgnore) :
    nb.view f K = ⟨if nb.supplies f K then 1 else 0, if nb.feeds f K then nb.reach else -1,
      decide (nb.t = .lower) && (nb.opens f || nb.feeds f K), false⟩ := by
  have hhides : nb.hides = false := decide_eq_false fun hhides => h hhides.1
  rw [view, drains, hhides, decide_eq_false h, Bool.or_false]

theorem loaded_of_type (h : nb.type f ≠ .none) : nb.n.getContent ≠ contentIgnore := by
  intro hignore
  rw [type, hignore, f.get_ignore] at h
  exact h rfl

theorem loaded_of_floodable (h : (f nb.n.getContent).floodable = true) :
    nb.n.getContent ≠ contentIgnore := by
  intro hignore
  rw [hignore, f.get_ignore] at h
  cases h

theorem view_of_none (hnone : nb.type f = .none) (hloaded : nb.n.getContent ≠ contentIgnore) :
    nb.view f K = ⟨0, -1, decide (nb.t = .lower) && (f nb.n.getContent).floodable, false⟩ := by
  have hfeeds : nb.feeds f K = false := by
    rw [feeds, hnone]
    rfl
  have hsupplies : nb.supplies f K = false := by
    rw [supplies, hnone]
    rfl
  have hopens : nb.opens f = (f nb.n.getContent).floodable := by
    rw [opens, hnone]
    cases (f nb.n.getContent).floodable <;> rfl
  rw [view_of_loaded nb hloaded, hfeeds, hsupplies, hopens, Bool.or_false]
  rfl

theorem view_of_opens (hnone : nb.type f = .none) (hfloodable : (f nb.n.getContent).floodable = true) :
    nb.view f K = ⟨0, -1, decide (nb.t = .lower), false⟩ := by
  rw [view_of_none nb hnone (nb.loaded_of_floodable hfloodable), hfloodable, Bool.and_true]

theorem view_of_solid (hnone : nb.type f = .none) (hfloodable : (f nb.n.getContent).floodable = false)
    (hloaded : nb.n.getContent ≠ contentIgnore) : nb.view f K = View.zero := by
  rw [view_of_none nb hnone hloaded, hfloodable, Bool.and_false]
  rfl

theorem view_of_source (hsource : nb.type f = .source) :
    nb.view f K = if nb.kind f = K ∧ nb.t ≠ .lower then ⟨1, -1, false, false⟩ else View.zero := by
  have hwet : nb.type f ≠ .none := by
    rw [hsource]
    decide
  have hfeeds : nb.feeds f K = false := by
    rw [feeds, hsource]
    rfl
  have hopens : nb.opens f = false := by
    rw [opens, hsource]
    rfl
  rw [view_of_loaded nb (nb.loaded_of_type hwet), hfeeds, hopens, Bool.or_false, Bool.and_false,
    supplies]
  by_cases hcounts : nb.kind f = K ∧ nb.t ≠ .lower
  · rw [if_pos hcounts, decide_eq_true ⟨hsource, hcounts⟩]
    rfl
  · rw [if_neg hcounts, decide_eq_false fun h => hcounts h.2]
    rfl

theorem view_of_flowing (hflowing : nb.type f = .flowing) :
    nb.view f K =
      if nb.kind f = K then ⟨0, nb.reach, decide (nb.t = .lower), false⟩ else View.zero := by
  have hwet : nb.type f ≠ .none := by
    rw [hflowing]
    decide
  have hsupplies : nb.supplies f K = false := by
    rw [supplies, hflowing]
    rfl
  have hopens : nb.opens f = false := by
    rw [opens, hflowing]
    rfl
  rw [view_of_loaded nb (nb.loaded_of_type hwet), hsupplies, hopens, Bool.false_or, feeds]
  by_cases hsame : nb.kind f = K
  · rw [if_pos hsame, decide_eq_true ⟨hflowing, hsame⟩, Bool.and_true]
    rfl
  · rw [if_neg hsame, decide_eq_false fun h => hsame h.2, Bool.and_false]
    rfl

end

end NodeNeighbor

/-! ## The loop over the neighbours -/

/-- What the loop has collected. -/
def Surroundings.view (s : Surroundings) : View where
  sources := s.sources.length
  level := s.flows.foldl (fun level nb => getMaxLiquidLevel nb level) (-1)
  down := s.flowingDown
  ignored := s.ignoredSources

namespace Surroundings

section

variable {f : Features} {s : Surroundings} {K : UInt16} {nb : NodeNeighbor}
  {nbs : List NodeNeighbor} {level : ℤ}

variable (flows : List NodeNeighbor) {q : NodeNeighbor}

theorem level_foldl (hlow : -1 ≤ level) (hhigh : level ≤ liquidLevelMax) :
    -1 ≤ flows.foldl (fun level nb => getMaxLiquidLevel nb level) level ∧
      flows.foldl (fun level nb => getMaxLiquidLevel nb level) level ≤ liquidLevelMax := by
  induction flows generalizing level with
  | nil => exact ⟨hlow, hhigh⟩
  | cons nb flows ih =>
    rw [List.foldl_cons, getMaxLiquidLevel_eq hlow hhigh]
    exact ih (le_max_of_le_left hlow) (max_le hhigh (reach_le nb))

theorem level_view_ge (s : Surroundings) : -1 ≤ s.view.level :=
  (level_foldl s.flows (le_refl _) (by decide)).1

theorem level_append (nb : NodeNeighbor) :
    (flows ++ [nb]).foldl (fun level nb => getMaxLiquidLevel nb level) (-1) =
      max (flows.foldl (fun level nb => getMaxLiquidLevel nb level) (-1)) nb.reach := by
  rw [List.foldl_append, List.foldl_cons, List.foldl_nil]
  have hbounds := level_foldl flows (le_refl (-1)) (by decide)
  exact getMaxLiquidLevel_eq hbounds.1 hbounds.2

theorem chooseKind_of_ne (hK : s.liquidKind ≠ contentAir) (condition : Bool) :
    s.chooseKind condition K = s := by
  rw [chooseKind, if_neg fun h => hK h.1]

theorem chooseKind_false (s : Surroundings) (K : UInt16) : s.chooseKind false K = s := by
  rw [chooseKind, if_neg fun h => Bool.false_ne_true h.2]

theorem chooseKind_same (s : Surroundings) (condition : Bool) (K : UInt16) :
    ({ s with liquidKind := K } : Surroundings).chooseKind condition K =
      { s with liquidKind := K } := by
  rw [chooseKind]
  split_ifs <;> rfl

theorem chooseKind_of_air (hK : s.liquidKind = contentAir) :
    s.chooseKind true K = { s with liquidKind := K } := by
  rw [chooseKind, if_pos ⟨hK, rfl⟩]

theorem view_addNone (hnone : nb.type f = .none) :
    (s.addNone f nb).view = s.view.add (nb.view f K) := by
  have hlevel : max s.view.level (-1) = s.view.level := max_eq_left s.level_view_ge
  rw [addNone]
  split
  · rename_i hfloodable
    rw [nb.view_of_opens hnone hfloodable]
    exact View.ext (Nat.add_zero _).symm hlevel.symm rfl (Bool.or_false _).symm
  · rename_i hfloodable
    split
    · rename_i hignore
      rw [nb.view_of_ignore hignore]
      split
      · rename_i hlower
        rw [hlower]
        exact View.ext (Nat.add_zero _).symm hlevel.symm (Bool.or_true _).symm (Bool.or_false _).symm
      · rename_i hlower
        rw [decide_eq_false hlower, decide_eq_true hlower]
        exact View.ext (Nat.add_zero _).symm hlevel.symm (Bool.or_false _).symm (Bool.or_true _).symm
    · rename_i hignore
      rw [nb.view_of_solid hnone (Bool.eq_false_of_not_eq_true hfloodable) hignore]
      exact (View.add_zero s.level_view_ge).symm

/-- A source of the same liquid counts unless it is below. -/
theorem view_addSource (hK : s.liquidKind ≠ contentAir) (hsource : nb.type f = .source) :
    (s.addSource f nb).view = s.view.add (nb.view f s.liquidKind) := by
  have hlevel : max s.view.level (-1) = s.view.level := max_eq_left s.level_view_ge
  rw [addSource, chooseKind_of_ne hK, nb.view_of_source hsource, NodeNeighbor.kind]
  split
  · exact View.ext List.length_append hlevel.symm (Bool.or_false _).symm (Bool.or_false _).symm
  · exact (View.add_zero s.level_view_ge).symm

theorem view_addFlowing (hK : s.liquidKind ≠ contentAir) (hflowing : nb.type f = .flowing) :
    (s.addFlowing f nb).view = s.view.add (nb.view f s.liquidKind) := by
  rw [addFlowing, chooseKind_of_ne hK, nb.view_of_flowing hflowing, NodeNeighbor.kind]
  split
  · exact View.ext (Nat.add_zero _).symm (level_append _ _) rfl (Bool.or_false _).symm
  · exact (View.add_zero s.level_view_ge).symm

/-- Whether something floats above does not matter to the liquid. -/
theorem collect_eq (f : Features) (s : Surroundings) (nb : NodeNeighbor) :
    ∃ floating, s.collect f nb = (match nb.type f with
      | .none => addNone f { s with floatingNodeAbove := floating } nb
      | .source => addSource f { s with floatingNodeAbove := floating } nb
      | .flowing => addFlowing f { s with floatingNodeAbove := floating } nb) :=
  ⟨_, rfl⟩

/-- Once the kind is known, it stays. -/
theorem liquidKind_collect (nb : NodeNeighbor) (hK : s.liquidKind ≠ contentAir) :
    (s.collect f nb).liquidKind = s.liquidKind := by
  rcases collect_eq f s nb with ⟨floating, heq⟩
  have hK' : ({ s with floatingNodeAbove := floating } : Surroundings).liquidKind ≠ contentAir := hK
  rw [heq]
  cases htype : nb.type f with
  | none =>
    dsimp only
    rw [addNone]
    split_ifs <;> rfl
  | source =>
    dsimp only
    rw [addSource, chooseKind_of_ne hK']
    split_ifs <;> rfl
  | flowing =>
    dsimp only
    rw [addFlowing, chooseKind_of_ne hK']
    split_ifs <;> rfl

/-- Each neighbour adds what it means. -/
theorem view_collect (hK : s.liquidKind ≠ contentAir) :
    (s.collect f nb).view = s.view.add (nb.view f s.liquidKind) := by
  rcases collect_eq f s nb with ⟨floating, heq⟩
  have hK' : ({ s with floatingNodeAbove := floating } : Surroundings).liquidKind ≠ contentAir := hK
  rw [heq]
  cases htype : nb.type f with
  | none => exact view_addNone htype
  | source => exact view_addSource hK' htype
  | flowing => exact view_addFlowing hK' htype

theorem liquidKind_foldl_collect (hK : s.liquidKind ≠ contentAir) :
    (nbs.foldl (collect f) s).liquidKind = s.liquidKind := by
  induction nbs generalizing s with
  | nil => rfl
  | cons nb nbs ih =>
    have hkind := liquidKind_collect (f := f) nb hK
    rw [List.foldl_cons, ih (hkind ▸ hK), hkind]

/-- The loop over the neighbours computes what they mean. -/
theorem view_foldl_collect (nbs : List NodeNeighbor) (hK : s.liquidKind ≠ contentAir) :
    (nbs.foldl (collect f) s).view = s.view.add (Map.view f s.liquidKind nbs) := by
  induction nbs generalizing s with
  | nil => exact (View.add_zero s.level_view_ge).symm
  | cons nb nbs ih =>
    have hkind := liquidKind_collect (f := f) nb hK
    rw [List.foldl_cons, ih (hkind ▸ hK), hkind, view_collect hK, View.add_assoc, view_cons]

/-- The flows of its kind are collected. -/
theorem mem_flows_collect (hK : s.liquidKind ≠ contentAir) :
    q ∈ (s.collect f nb).flows ↔ q ∈ s.flows ∨ (q = nb ∧ nb.feeds f s.liquidKind = true) := by
  rcases collect_eq f s nb with ⟨floating, heq⟩
  have hK' : ({ s with floatingNodeAbove := floating } : Surroundings).liquidKind ≠ contentAir := hK
  rw [heq, NodeNeighbor.feeds]
  cases htype : nb.type f with
  | none =>
    have hsame : (addNone f { s with floatingNodeAbove := floating } nb).flows = s.flows := by
      rw [addNone]
      split_ifs <;> rfl
    dsimp only
    rw [hsame]
    simp
  | source =>
    have hsame : (addSource f { s with floatingNodeAbove := floating } nb).flows = s.flows := by
      rw [addSource, chooseKind_of_ne hK']
      split_ifs <;> rfl
    dsimp only
    rw [hsame]
    simp
  | flowing =>
    dsimp only
    rw [addFlowing, chooseKind_of_ne hK', NodeNeighbor.kind]
    split
    · rename_i hsame
      simp [hsame]
    · rename_i hsame
      simp [hsame]

theorem mem_flows_foldl_collect (hK : s.liquidKind ≠ contentAir) :
    q ∈ (nbs.foldl (collect f) s).flows ↔
      q ∈ s.flows ∨ (q ∈ nbs ∧ q.feeds f s.liquidKind = true) := by
  induction nbs generalizing s with
  | nil => simp
  | cons nb nbs ih =>
    have hkind := liquidKind_collect (f := f) nb hK
    rw [List.foldl_cons, ih (hkind ▸ hK), hkind, mem_flows_collect hK, or_assoc, List.mem_cons]
    refine or_congr_right ⟨fun h => ?_, fun h => ?_⟩
    · rcases h with ⟨rfl, hfeeds⟩ | ⟨hmem, hfeeds⟩
      · exact ⟨.inl rfl, hfeeds⟩
      · exact ⟨.inr hmem, hfeeds⟩
    · rcases h with ⟨rfl | hmem, hfeeds⟩
      · exact .inl ⟨rfl, hfeeds⟩
      · exact .inr ⟨hmem, hfeeds⟩

/-- Whatever the kind is, what liquid can flow into is collected. -/
theorem mem_airs_collect : q ∈ (s.collect f nb).airs ↔ q ∈ s.airs ∨ (q = nb ∧ nb.opens f = true) := by
  rcases collect_eq f s nb with ⟨floating, heq⟩
  rw [heq, NodeNeighbor.opens]
  cases htype : nb.type f with
  | none =>
    dsimp only
    rw [addNone]
    split
    · rename_i hfloodable
      simp [hfloodable]
    · rename_i hfloodable
      split_ifs <;> simp [hfloodable]
  | source =>
    have hsame : (addSource f { s with floatingNodeAbove := floating } nb).airs = s.airs := by
      rw [addSource, chooseKind]
      split_ifs <;> rfl
    dsimp only
    rw [hsame]
    simp
  | flowing =>
    have hsame : (addFlowing f { s with floatingNodeAbove := floating } nb).airs = s.airs := by
      rw [addFlowing, chooseKind]
      split_ifs <;> rfl
    dsimp only
    rw [hsame]
    simp

theorem mem_airs_foldl_collect :
    q ∈ (nbs.foldl (collect f) s).airs ↔ q ∈ s.airs ∨ (q ∈ nbs ∧ q.opens f = true) := by
  induction nbs generalizing s with
  | nil => simp
  | cons nb nbs ih =>
    rw [List.foldl_cons, ih, mem_airs_collect, or_assoc, List.mem_cons]
    refine or_congr_right ⟨fun h => ?_, fun h => ?_⟩
    · rcases h with ⟨rfl, hopens⟩ | ⟨hmem, hopens⟩
      · exact ⟨.inl rfl, hopens⟩
      · exact ⟨.inr hmem, hopens⟩
    · rcases h with ⟨rfl | hmem, hopens⟩
      · exact .inl ⟨rfl, hopens⟩
      · exact .inr ⟨hmem, hopens⟩

end

end Surroundings

/-! ## How the contents of a liquid belong together -/

/-- A liquid is a source and a flowing content that name each other, or a source that cannot flow. -/
structure Features.Consistent (f : Features) : Prop where
  air : (f contentAir).liquidType = .none ∧ (f contentAir).floodable = true
  flowing : ∀ c, (f c).liquidType = .flowing → (f c).liquidAlternativeFlowingId = c
  kind : ∀ c, (f c).liquidType ≠ .none →
    (f c).liquidAlternativeFlowingId = contentIgnore ∨
      (f (f c).liquidAlternativeFlowingId).liquidType = .flowing ∨
        ((f c).liquidAlternativeFlowingId = c ∧ (f c).liquidRange = 0)
  source : ∀ c, (f c).liquidType = .source →
    (f (f c).liquidAlternativeFlowingId).liquidAlternativeSourceId = contentIgnore ∨
      (f (f c).liquidAlternativeFlowingId).liquidAlternativeSourceId = c
  flowingSource : ∀ c, (f c).liquidType = .flowing → (f c).liquidAlternativeSourceId = contentIgnore ∨
    ((f (f c).liquidAlternativeSourceId).liquidType = .source ∧
      (f (f c).liquidAlternativeSourceId).liquidAlternativeFlowingId = c)

section

variable {f : Features} {c : UInt16}

theorem Features.Consistent.kind_ne_air (hf : f.Consistent) (hc : (f c).liquidType ≠ .none) :
    (f c).liquidAlternativeFlowingId ≠ contentAir := by
  intro hair
  rcases hf.kind c hc with hkind | hkind | ⟨hkind, _⟩
  · rw [hair] at hkind
    exact absurd hkind (by decide)
  · rw [hair, hf.air.1] at hkind
    cases hkind
  · rw [hair] at hkind
    rw [← hkind] at hc
    exact hc hf.air.1

end

/-! ## The liquid that comes to a floodable node -/

/-- The kind that a neighbour gives to a node that is not a liquid. -/
def NodeNeighbor.choice (f : Features) (nb : NodeNeighbor) : Option UInt16 :=
  if nb.t ≠ .lower ∧ (nb.type f = .source ∨
      (nb.type f = .flowing ∧ Surroundings.canFlowHere f nb = true)) then some (nb.kind f)
  else none

/-- The first neighbour whose liquid can come decides. -/
def chosen (f : Features) (nbs : List NodeNeighbor) : Option UInt16 :=
  nbs.findSome? (NodeNeighbor.choice f)

/-- The neighbours before it. -/
def passedOver (f : Features) (nbs : List NodeNeighbor) : List NodeNeighbor :=
  nbs.takeWhile fun nb => (nb.choice f).isNone

namespace Surroundings

section

variable {f : Features} {s : Surroundings} {K : UInt16} {nb : NodeNeighbor}
  {nbs : List NodeNeighbor}

/-- Nothing has come yet. -/
structure Dry (s : Surroundings) : Prop where
  kind : s.liquidKind = contentAir
  sources : s.sources = []
  flows : s.flows = []
  down : s.flowingDown = false

theorem dry_collect (hf : f.Consistent) (hs : s.Dry) (hlower : nb.t ≠ .lower)
    (hnone : nb.choice f = none) : (s.collect f nb).Dry := by
  rcases collect_eq f s nb with ⟨floating, heq⟩
  have hchoice : ¬ (nb.type f = .source ∨ (nb.type f = .flowing ∧ canFlowHere f nb = true)) := by
    intro hsome
    rw [NodeNeighbor.choice, if_pos ⟨hlower, hsome⟩] at hnone
    cases hnone
  have hbelow : (nb.t == NeighborType.lower) = false := by
    rw [beq_eq_false_iff_ne]
    exact hlower
  rw [heq]
  cases htype : nb.type f with
  | none =>
    dsimp only
    rw [addNone, if_neg hlower, hbelow, Bool.or_false]
    split_ifs <;> exact ⟨hs.kind, hs.sources, hs.flows, hs.down⟩
  | source => exact absurd (.inl htype) hchoice
  | flowing =>
    have hflow : canFlowHere f nb = false :=
      Bool.eq_false_of_not_eq_true fun h => hchoice (.inr ⟨htype, h⟩)
    have hwet : (f nb.n.getContent).liquidType ≠ .none := by
      intro h
      rw [NodeNeighbor.type, h] at htype
      cases htype
    have hkind : (f nb.n.getContent).liquidAlternativeFlowingId ≠ s.liquidKind := by
      rw [hs.kind]
      exact hf.kind_ne_air hwet
    dsimp only
    rw [addFlowing, hflow, chooseKind_false]
    dsimp only
    rw [if_neg hkind]
    exact ⟨hs.kind, hs.sources, hs.flows, hs.down⟩

theorem dry_foldl_collect (hf : f.Consistent) (hs : s.Dry) (hlower : ∀ nb ∈ nbs, nb.t ≠ .lower)
    (hnone : ∀ nb ∈ nbs, nb.choice f = none) : (nbs.foldl (collect f) s).Dry := by
  induction nbs generalizing s with
  | nil => exact hs
  | cons nb nbs ih =>
    rw [List.forall_mem_cons] at hlower hnone
    exact ih (dry_collect hf hs hlower.1 hnone.1) hlower.2 hnone.2

/-- The node below is no source, and does not let the liquid rise. -/
theorem collect_lower (f : Features) (s : Surroundings) (hlow : nb.t = .lower) :
    (s.collect f nb).sources = s.sources ∧
      ((s.collect f nb).flows = s.flows ∨ (s.collect f nb).flows = s.flows ++ [nb]) := by
  rcases collect_eq f s nb with ⟨floating, heq⟩
  rw [heq]
  cases nb.type f with
  | none =>
    dsimp only
    rw [addNone]
    split_ifs <;> exact ⟨rfl, .inl rfl⟩
  | source =>
    dsimp only
    rw [addSource, if_neg fun h => h.2 hlow, chooseKind]
    split_ifs <;> exact ⟨rfl, .inl rfl⟩
  | flowing =>
    dsimp only
    rw [addFlowing, chooseKind]
    split_ifs
    · exact ⟨rfl, .inr rfl⟩
    · exact ⟨rfl, .inl rfl⟩
    · exact ⟨rfl, .inr rfl⟩
    · exact ⟨rfl, .inl rfl⟩

theorem addSource_choice (hs : s.liquidKind = contentAir) :
    s.addSource f nb = ({ s with liquidKind := nb.kind f } : Surroundings).addSource f nb := by
  rw [addSource, addSource, ← NodeNeighbor.kind, chooseKind_of_air hs, chooseKind_same]

theorem addFlowing_choice (hs : s.liquidKind = contentAir) (hflow : canFlowHere f nb = true) :
    s.addFlowing f nb = ({ s with liquidKind := nb.kind f } : Surroundings).addFlowing f nb := by
  rw [addFlowing, addFlowing, ← NodeNeighbor.kind, hflow, chooseKind_of_air hs, chooseKind_same]

/-- The neighbour that decides counts as if the kind had been known before it. -/
theorem collect_choice (hs : s.liquidKind = contentAir) (hK : nb.choice f = some K) :
    s.collect f nb = ({ s with liquidKind := K } : Surroundings).collect f nb := by
  rw [NodeNeighbor.choice] at hK
  split at hK
  · rename_i hcomes
    rw [← Option.some.inj hK, collect, collect]
    rcases hcomes.2 with hsource | ⟨hflowing, hflow⟩
    · rw [NodeNeighbor.type] at hsource
      rw [hsource]
      exact addSource_choice hs
    · rw [NodeNeighbor.type] at hflowing
      rw [hflowing]
      exact addFlowing_choice hs hflow
  · cases hK

end

end Surroundings

section

variable {f : Features} {K : UInt16} {nb : NodeNeighbor} {nbs : List NodeNeighbor}

theorem supplies_of_choice (hnone : nb.choice f = none) : nb.supplies f K = false := by
  refine decide_eq_false fun h => ?_
  rw [NodeNeighbor.choice, if_pos ⟨h.2.2, .inl h.1⟩] at hnone
  cases hnone

/-- A flow that does not decide is too low to come. -/
theorem level_of_choice (hlower : nb.t ≠ .lower) (hnone : nb.choice f = none) :
    (nb.view f K).level < liquidLevelMax + 1 - liquidRange f K := by
  have hrange : liquidRange f K ≤ liquidLevelMax + 1 := min_le_right _ _
  have hnonneg : 0 ≤ liquidLevelMax + 1 - liquidRange f K := Int.sub_nonneg_of_le hrange
  have hlow : (-1 : ℤ) < liquidLevelMax + 1 - liquidRange f K :=
    lt_of_lt_of_le (by decide) hnonneg
  rw [NodeNeighbor.view]
  dsimp only
  split
  · rename_i hfeeds
    have htype := of_decide_eq_true hfeeds
    have hflow : ¬ Surroundings.canFlowHere f nb = true := by
      intro h
      rw [NodeNeighbor.choice, if_pos ⟨hlower, .inr ⟨htype.1, h⟩⟩] at hnone
      cases hnone
    rw [Surroundings.canFlowHere, Bool.and_eq_true, decide_eq_true_iff, not_and_or] at hflow
    rcases hflow with hfalling | hreach
    · rw [Bool.or_eq_true, not_or, Bool.not_eq_true', Bool.not_eq_false, bne_iff_ne, not_not]
        at hfalling
      rw [reach_falling hfalling.1 hfalling.2]
      exact hlow
    · have hclamped : liquidRange f K ≤ ((f K).liquidRange.toNat : ℤ) := min_le_left _ _
      have hkind : (f nb.n.getContent).liquidAlternativeFlowingId = K := htype.2
      rw [hkind] at hreach
      exact lt_of_lt_of_le (lt_of_not_ge hreach) (Int.sub_le_sub_left hclamped _)
  · exact hlow

theorem sources_of_choice (hnone : nb.choice f = none) : (nb.view f K).sources = 0 := by
  rw [NodeNeighbor.view]
  dsimp only
  rw [supplies_of_choice hnone]
  rfl

theorem down_of_not_lower (hlower : nb.t ≠ .lower) : (nb.view f K).down = false := by
  rw [NodeNeighbor.view]
  dsimp only
  rw [NodeNeighbor.drains, decide_eq_false hlower, Bool.false_and]

/-- What the neighbours mean that do not decide. -/
theorem view_of_choice (hlower : ∀ nb ∈ nbs, nb.t ≠ .lower)
    (hnone : ∀ nb ∈ nbs, nb.choice f = none) :
    (view f K nbs).sources = 0 ∧ (view f K nbs).down = false ∧
      (view f K nbs).level < liquidLevelMax + 1 - liquidRange f K := by
  induction nbs with
  | nil =>
    have hrange : liquidRange f K ≤ liquidLevelMax + 1 := min_le_right _ _
    exact ⟨rfl, rfl, lt_of_lt_of_le (show (-1 : ℤ) < 0 by decide) (Int.sub_nonneg_of_le hrange)⟩
  | cons nb nbs ih =>
    rw [List.forall_mem_cons] at hlower hnone
    rcases ih hlower.2 hnone.2 with ⟨hsources, hdown, hlevel⟩
    rw [view_cons]
    refine ⟨?_, ?_, max_lt (level_of_choice hlower.1 hnone.1) hlevel⟩
    · exact Nat.add_eq_zero_iff.2 ⟨sources_of_choice hnone.1, hsources⟩
    · exact Bool.or_eq_false_iff.2 ⟨down_of_not_lower hlower.1, hdown⟩

/-- A kind that is chosen belongs to a liquid. -/
theorem wet_of_choice (hK : nb.choice f = some K) : nb.type f ≠ .none ∧ nb.kind f = K := by
  rw [NodeNeighbor.choice] at hK
  split at hK
  · rename_i hcomes
    refine ⟨fun hnone => ?_, Option.some.inj hK⟩
    rw [hnone] at hcomes
    rcases hcomes.2 with hsource | ⟨hflowing, _⟩
    · cases hsource
    · cases hflowing
  · cases hK

/-- What the loop has found when the liquid `K` comes to a floodable node. -/
structure Comes (f : Features) (K : UInt16) (nbs : List NodeNeighbor) (s : Surroundings) :
    Prop where
  kind : s.liquidKind = K
  sources : s.view.sources = (view f K nbs).sources
  down : s.view.down = (view f K nbs).down
  level_le : s.view.level ≤ (view f K nbs).level
  level : liquidLevelMax + 1 - liquidRange f K ≤ (view f K nbs).level →
    s.view.level = (view f K nbs).level
  flows : ∀ nb ∈ nbs, nb.feeds f K = true → nb ∈ s.flows ∨ (nb ∈ passedOver f nbs ∧ nb.t ≠ .lower)

theorem comes_of_chosen {s : Surroundings} (hf : f.Consistent) (hs : s.Dry)
    (hlower : ∀ nb ∈ nbs.dropLast, nb.t ≠ .lower) (hK : chosen f nbs = some K) :
    Comes f K nbs (nbs.foldl (Surroundings.collect f) s) := by
  rcases List.findSome?_eq_some_iff.1 hK with ⟨before, c, after, rfl, hc, hbefore⟩
  have hbeforeLower : ∀ nb ∈ before, nb.t ≠ .lower := by
    intro nb hnb
    rw [List.dropLast_append_cons] at hlower
    exact hlower nb (List.mem_append_left _ hnb)
  have hpassed : passedOver f (before ++ c :: after) = before := by
    rw [passedOver, List.takeWhile_append_of_pos fun nb hnb => Option.isNone_iff_eq_none.2
      (hbefore nb hnb), List.takeWhile_cons_of_neg (by rw [hc]; exact Bool.false_ne_true),
      List.append_nil]
  have hdry := Surroundings.dry_foldl_collect hf hs hbeforeLower hbefore
  have hne : K ≠ contentAir := by
    rcases wet_of_choice hc with ⟨hwet, hkind⟩
    rw [← hkind]
    exact hf.kind_ne_air hwet
  have hbeforeView := view_of_choice (K := K) hbeforeLower hbefore
  have hloop : (before ++ c :: after).foldl (Surroundings.collect f) s =
      (c :: after).foldl (Surroundings.collect f)
        { before.foldl (Surroundings.collect f) s with liquidKind := K } := by
    rw [List.foldl_append, List.foldl_cons, List.foldl_cons,
      Surroundings.collect_choice hdry.kind hc]
  have hstart : ({ before.foldl (Surroundings.collect f) s with liquidKind := K } :
      Surroundings).view =
        ⟨0, -1, false, (before.foldl (Surroundings.collect f) s).ignoredSources⟩ := by
    rw [Surroundings.view, hdry.sources, hdry.flows, hdry.down]
    rfl
  have hview := Surroundings.view_foldl_collect (f := f) (c :: after)
    (s := { before.foldl (Surroundings.collect f) s with liquidKind := K }) hne
  have hge := level_view_ge (f := f) (K := K) (c :: after)
  rw [hloop]
  rw [hstart] at hview
  refine ⟨?_, ?_, ?_, ?_, fun hlevel => ?_, fun nb hnb hfeeds => ?_⟩
  · exact Surroundings.liquidKind_foldl_collect hne
  · rw [hview, view_append, View.add, View.add, hbeforeView.1]
  · rw [hview, view_append, View.add, View.add, hbeforeView.2.1]
  · rw [hview, view_append]
    exact max_le_max_right _ (level_view_ge before)
  · have hafter : liquidLevelMax + 1 - liquidRange f K ≤ (view f K (c :: after)).level := by
      rw [view_append] at hlevel
      exact (le_max_iff.1 hlevel).resolve_left (not_le.2 hbeforeView.2.2)
    rw [hview, view_append]
    exact (max_eq_right hge).trans (max_eq_right (le_trans (le_of_lt hbeforeView.2.2) hafter)).symm
  · rw [hpassed, Surroundings.mem_flows_foldl_collect hne]
    rcases List.mem_append.1 hnb with hbefore | hafter
    · exact .inr ⟨hbefore, hbeforeLower nb hbefore⟩
    · exact .inl (.inr ⟨hafter, hfeeds⟩)

/-- When no liquid comes, nothing is found that could flow here. -/
theorem dry_of_not_chosen {five : List NodeNeighbor} {low : NodeNeighbor} {s : Surroundings}
    (hf : f.Consistent) (hs : s.Dry) (hlower : ∀ nb ∈ five, nb.t ≠ .lower) (hlow : low.t = .lower)
    (hnone : chosen f (five ++ [low]) = none) :
    ((five ++ [low]).foldl (Surroundings.collect f) s).view.sources = 0 ∧
      ((five ++ [low]).foldl (Surroundings.collect f) s).view.level = -1 := by
  have hnot : ∀ nb ∈ five, nb.choice f = none := by
    intro nb hnb
    exact List.findSome?_eq_none_iff.1 hnone nb (List.mem_append_left _ hnb)
  have hdry := Surroundings.dry_foldl_collect hf hs hlower hnot
  rcases Surroundings.collect_lower f (five.foldl (Surroundings.collect f) s) hlow with
    ⟨hsources, hflows⟩
  rw [List.foldl_append, List.foldl_cons, List.foldl_nil, Surroundings.view]
  dsimp only
  rw [hsources, hdry.sources]
  refine ⟨rfl, ?_⟩
  rcases hflows with hflows | hflows
  · rw [hflows, hdry.flows]
    rfl
  · rw [hflows, hdry.flows, Surroundings.level_append, reach_lower hlow]
    rfl

end

end Map
end AxisEngine
