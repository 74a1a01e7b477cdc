import AxisEngine.Map.LiquidView

/-!
# LiquidOutcome — what a node becomes

With the neighbours' meaning at hand the rule of a node is short.  Two sources renew a third; otherwise
the liquid flows as high as it reaches, and dries where it does not reach.

* `Renews`, `Flows`, `Dries` — what the neighbours make of a node;
* `changes_floodable_iff`, `becomes_of_floodable` — a node that is not a liquid;
* `changes_flowing_iff`, `becomes_of_flowing` — a flow;
* `not_changes_source` — a source.
-/

namespace AxisEngine
namespace Map

/-- `liquid_viscosity` is at most 1. -/
def Features.Thin (f : Features) : Prop :=
  ∀ c, (f c).liquidType ≠ .none → (f c).liquidViscosity ≤ 1

/-- The rule changes the node.  `ignore` is never placed. -/
def Changes (f : Features) (g : V3s16 → MapNode) (p : V3s16) : Prop :=
  ∃ n, liquidRule f g p = some n ∧ n.getContent ≠ contentIgnore

/-! ## What the neighbours make of a node -/

variable (f : Features) (K : UInt16) (v : View)

def TwoSources : Prop :=
  2 ≤ v.sources ∧ (f K).liquidRenewable = true

/-- The liquid comes so far. -/
def Reaches : Prop :=
  if v.sources = 0 then liquidLevelMax + 1 - liquidRange f K ≤ v.level else 1 ≤ liquidRange f K

/-- The level that the liquid has where it comes. -/
def View.newLevel (v : View) : ℤ := if v.sources = 0 then v.level else liquidLevelMax

/-- "Maybe there are neighboring sources that aren't loaded yet". -/
def View.MayBeFed (v : View) : Prop := v.sources = 0 ∧ v.ignored = true

def Renews : Prop :=
  TwoSources f K v ∧ (f K).liquidAlternativeSourceId ≠ contentIgnore

def Flows : Prop :=
  ¬ TwoSources f K v ∧ Reaches f K v ∧ K ≠ contentIgnore

def Dries : Prop :=
  ¬ TwoSources f K v ∧ ¬ v.MayBeFed ∧ ¬ Reaches f K v

/-- A node that is not a liquid is filled. -/
def Fills (f : Features) (nbs : List NodeNeighbor) : Prop :=
  ∃ K, chosen f nbs = some K ∧ (Renews f K (view f K nbs) ∨ Flows f K (view f K nbs))

/-- A flow stays what it is. -/
def Stays (f : Features) (v : View) (n : MapNode) : Prop :=
  (TwoSources f n.getContent v ∧ (f n.getContent).liquidAlternativeSourceId = contentIgnore) ∨
    (¬ TwoSources f n.getContent v ∧ n.flowsDown = v.down ∧
      (v.MayBeFed ∨ (Reaches f n.getContent v ∧ n.liquidLevel = v.newLevel)))

/-! ## The decision -/

section

variable {f : Features} {n0 : MapNode} {s : Surroundings} {K : UInt16} {v : View}

instance : Decidable (TwoSources f K v) := inferInstanceAs (Decidable (_ ∧ _))

instance : Decidable (Reaches f K v) := by
  unfold Reaches
  infer_instance

instance : Decidable v.MayBeFed := inferInstanceAs (Decidable (_ ∧ _))

theorem content_decideNode (f : Features) (n0 : MapNode) (s : Surroundings) :
    (decideNode f n0 s).content =
      if TwoSources f s.liquidKind s.view ∨ (f n0.getContent).liquidType = .source then
        (f s.liquidKind).liquidAlternativeSourceId
      else if s.view.MayBeFed ∧ startLevel f n0 ≥ 0 then s.liquidKind
      else if Reaches f s.liquidKind s.view then s.liquidKind else floodableNode f n0 := by
  rw [decideNode]
  dsimp only
  split
  · rename_i htwo
    exact (if_pos (show TwoSources f s.liquidKind s.view ∨ _ from htwo)).symm
  · rename_i htwo
    rw [if_neg (show ¬ (TwoSources f s.liquidKind s.view ∨ _) from htwo)]
    split
    · rename_i hone
      have hsources : s.view.sources ≠ 0 := Nat.ne_of_gt hone
      have hnot : ¬ (s.view.MayBeFed ∧ startLevel f n0 ≥ 0) := fun h => hsources h.1.1
      have hreaches : liquidLevelMax ≥ liquidLevelMax + 1 - liquidRange f s.liquidKind ↔
          Reaches f s.liquidKind s.view := by
        rw [Reaches, if_neg hsources, liquidLevelMax]
        omega
      rw [if_neg hnot]
      exact if_congr hreaches rfl rfl
    · rename_i hone
      have hsources : s.view.sources = 0 := Nat.eq_zero_of_not_pos hone
      have hreaches : Reaches f s.liquidKind s.view ↔
          liquidLevelMax + 1 - liquidRange f s.liquidKind ≤ s.view.level := by
        rw [Reaches, if_pos hsources]
      split
      · rename_i hfed
        rw [if_pos ⟨⟨hsources, hfed.1⟩, hfed.2⟩]
      · rename_i hfed
        have hnot : ¬ (s.view.MayBeFed ∧ startLevel f n0 ≥ 0) := fun h => hfed ⟨h.1.2, h.2⟩
        rw [if_neg hnot]
        split
        · exact if_congr hreaches.symm rfl rfl
        · exact if_congr hreaches.symm rfl rfl

/-- Where the viscosity does not matter, the level is the one the liquid reaches. -/
theorem level_decideNode (n0 : MapNode) (hthin : (f s.liquidKind).liquidViscosity ≤ 1) :
    (decideNode f n0 s).level =
      if TwoSources f s.liquidKind s.view ∨ (f n0.getContent).liquidType = .source then -1
      else if s.view.MayBeFed ∧ startLevel f n0 ≥ 0 then startLevel f n0
      else s.view.newLevel := by
  have hviscosity : ¬ ((f s.liquidKind).liquidViscosity.toNat : ℤ) > 1 := by
    rw [not_lt]
    exact Int.ofNat_le.2 (UInt8.le_iff_toNat_le.1 hthin)
  rw [decideNode]
  dsimp only
  split
  · rename_i htwo
    exact (if_pos (show TwoSources f s.liquidKind s.view ∨ _ from htwo)).symm
  · rename_i htwo
    rw [if_neg (show ¬ (TwoSources f s.liquidKind s.view ∨ _) from htwo), View.newLevel]
    split
    · rename_i hone
      have hsources : s.view.sources ≠ 0 := Nat.ne_of_gt hone
      have hnot : ¬ (s.view.MayBeFed ∧ startLevel f n0 ≥ 0) := fun h => hsources h.1.1
      rw [if_neg hnot, if_neg hsources]
    · rename_i hone
      have hsources : s.view.sources = 0 := Nat.eq_zero_of_not_pos hone
      rw [if_pos hsources]
      split
      · rename_i hfed
        rw [if_pos ⟨⟨hsources, hfed.1⟩, hfed.2⟩]
      · rename_i hfed
        have hnot : ¬ (s.view.MayBeFed ∧ startLevel f n0 ≥ 0) := fun h => hfed ⟨h.1.2, h.2⟩
        rw [if_neg hnot]
        split
        · rename_i hviscous
          exact absurd hviscous.1 hviscosity
        · rfl

/-! ## What is placed -/

/-- The second parameter of a flow. -/
def flowParam2 (down : Bool) (level : ℤ) : UInt8 :=
  (if down then 0x08 else 0) ||| UInt8.ofNat (level % 8).toNat

theorem flowParam2_spec (down : Bool) {level : ℤ} (hlow : 0 ≤ level) (hhigh : level ≤ liquidLevelMax) :
    ((flowParam2 down level &&& 0x07).toNat : ℤ) = level ∧
      (flowParam2 down level &&& 0x08 == 0x08) = down := by
  have hall : ∀ down : Bool, ∀ k : Fin 8,
      ((flowParam2 down k.val &&& 0x07).toNat : ℤ) = k.val ∧
        (flowParam2 down k.val &&& 0x08 == 0x08) = down := by
    decide
  have hlevel : ((level.toNat : ℕ) : ℤ) = level := Int.toNat_of_nonneg hlow
  have hlt : level.toNat < 8 := by
    rw [liquidLevelMax] at hhigh
    omega
  have h := hall down ⟨level.toNat, hlt⟩
  rw [hlevel] at h
  exact h

/-- A flow that is placed has the level and the way down that were decided. -/
theorem changedNode_flowing (n0 : MapNode) (s : Surroundings) {d : Decision}
    (hflowing : (f d.content).liquidType = .flowing) (hlow : 0 ≤ d.level) (hhigh : d.level ≤ liquidLevelMax) :
    (changedNode f n0 s d).liquidLevel = d.level ∧
      (changedNode f n0 s d).flowsDown = s.flowingDown := by
  have hparam2 : (changedNode f n0 s d).param2 = flowParam2 s.flowingDown d.level := by
    rw [changedNode, if_pos hflowing, flowParam2]
  have hspec := flowParam2_spec s.flowingDown hlow hhigh
  rw [MapNode.liquidLevel, MapNode.flowsDown, hparam2]
  exact hspec

theorem unchanged_flowing {d : Decision} (hflowing : (f n0.getContent).liquidType = .flowing)
    (hlow : 0 ≤ d.level) (hhigh : d.level ≤ liquidLevelMax) :
    isUnchanged f n0 s d = true ↔
      d.content = n0.getContent ∧ n0.liquidLevel = d.level ∧ n0.flowsDown = s.flowingDown := by
  rw [liquidLevelMax] at hhigh
  have hmod : (d.level % 256).toNat = d.level.toNat := by
    rw [Int.emod_eq_of_lt hlow (by omega)]
  have hlevel : (n0.param2 &&& 0x07).toNat = (d.level % 256).toNat ↔ n0.liquidLevel = d.level := by
    rw [hmod, MapNode.liquidLevel]
    omega
  rw [isUnchanged, decide_eq_true_iff, hlevel]
  exact and_congr_right fun _ => or_iff_right fun h => h hflowing

end

/-! ## The rule -/

section

variable {f : Features} {g : V3s16 → MapNode} {p : V3s16} {n : MapNode} {K c : UInt16} {v : View}

theorem liquidRange_le (f : Features) (K : UInt16) : liquidRange f K ≤ liquidLevelMax + 1 :=
  min_le_right _ _

/-- What reaches a node has a range and a level. -/
theorem of_reaches (h : Reaches f K v) (hlevel : v.level ≤ liquidLevelMax) :
    1 ≤ liquidRange f K ∧ 0 ≤ v.newLevel ∧ v.newLevel ≤ liquidLevelMax := by
  have hrange := liquidRange_le f K
  rw [Reaches] at h
  rw [View.newLevel]
  rw [liquidLevelMax] at h hlevel hrange ⊢
  by_cases hsources : v.sources = 0
  · rw [if_pos hsources] at h ⊢
    omega
  · rw [if_neg hsources] at h ⊢
    omega

namespace Features.Consistent

/-- The kind of a liquid is a flow when it has a range. -/
theorem flowing_of_kind (hf : f.Consistent) (hwet : (f c).liquidType ≠ .none)
    (hignore : (f c).liquidAlternativeFlowingId ≠ contentIgnore)
    (hrange : 1 ≤ liquidRange f (f c).liquidAlternativeFlowingId) :
    (f (f c).liquidAlternativeFlowingId).liquidType = .flowing := by
  rcases hf.kind c hwet with hkind | hkind | ⟨hkind, hzero⟩
  · exact absurd hkind hignore
  · exact hkind
  · have hnone : liquidRange f (f c).liquidAlternativeFlowingId = 0 := by
      rw [hkind, liquidRange, hzero]
      rfl
    rw [hnone] at hrange
    exact absurd hrange (by decide)

/-- The source of a kind is of that kind. -/
theorem source_of_kind (hf : f.Consistent) (hwet : (f c).liquidType ≠ .none)
    (hignore : (f (f c).liquidAlternativeFlowingId).liquidAlternativeSourceId ≠ contentIgnore) :
    (f (f (f c).liquidAlternativeFlowingId).liquidAlternativeSourceId).liquidType = .source ∧
      (f (f (f c).liquidAlternativeFlowingId).liquidAlternativeSourceId).liquidAlternativeFlowingId =
        (f c).liquidAlternativeFlowingId := by
  cases htype : (f c).liquidType with
  | none => exact absurd htype hwet
  | flowing =>
    rw [hf.flowing c htype] at hignore ⊢
    exact (hf.flowingSource c htype).resolve_left hignore
  | source =>
    rw [(hf.source c htype).resolve_left hignore]
    exact ⟨htype, rfl⟩

end Features.Consistent

theorem Features.Thin.viscosity_of_kind (hthin : f.Thin) (hf : f.Consistent)
    (hwet : (f c).liquidType ≠ .none) :
    (f (f c).liquidAlternativeFlowingId).liquidViscosity ≤ 1 := by
  rcases hf.kind c hwet with hkind | hkind | ⟨hkind, _⟩
  · rw [hkind, f.get_ignore]
    decide
  · refine hthin _ ?_
    rw [hkind]
    decide
  · rw [hkind]
    exact hthin c hwet

theorem liquidRule_eq_some (h : liquidRule f g p = some n) :
    ¬ isUnchanged f (g p) (surroundings f g p) (decideNode f (g p) (surroundings f g p)) = true ∧
      n = changedNode f (g p) (surroundings f g p) (decideNode f (g p) (surroundings f g p)) := by
  rw [liquidRule] at h
  split at h
  · cases h
  · rename_i hchanged
    rw [Bool.or_eq_true, not_or] at hchanged
    exact ⟨hchanged.2, (Option.some.inj h).symm⟩

theorem changes_iff (hpassed : isPassedOver f (g p) = false) :
    Changes f g p ↔
      ¬ isUnchanged f (g p) (surroundings f g p) (decideNode f (g p) (surroundings f g p)) = true ∧
        (decideNode f (g p) (surroundings f g p)).content ≠ contentIgnore := by
  constructor
  · rintro ⟨n, hrule, hn⟩
    rcases liquidRule_eq_some hrule with ⟨hchanged, rfl⟩
    exact ⟨hchanged, hn⟩
  · rintro ⟨hchanged, hcontent⟩
    refine ⟨changedNode f (g p) (surroundings f g p)
      (decideNode f (g p) (surroundings f g p)), ?_, hcontent⟩
    rw [liquidRule, hpassed, Bool.false_or]
    exact if_neg hchanged

theorem not_changes_source (hf : f.Consistent) (hsource : (f (g p).getContent).liquidType = .source) :
    ¬ Changes f g p := by
  have hwet : (f (g p).getContent).liquidType ≠ .none := by
    rw [hsource]
    decide
  have hpassed : isPassedOver f (g p) = false := by
    rw [isPassedOver, hsource]
    rfl
  have hstart : startKind f (g p) = (f (g p).getContent).liquidAlternativeFlowingId := by
    rw [startKind, hsource]
  have hkind : (surroundings f g p).liquidKind = (f (g p).getContent).liquidAlternativeFlowingId := by
    rw [surroundings, hstart]
    exact Surroundings.liquidKind_foldl_collect (hf.kind_ne_air hwet)
  have hcontent : (decideNode f (g p) (surroundings f g p)).content =
      (f (f (g p).getContent).liquidAlternativeFlowingId).liquidAlternativeSourceId := by
    rw [content_decideNode, if_pos (.inr hsource), hkind]
  rw [changes_iff hpassed, hcontent]
  rintro ⟨hchanged, hignore⟩
  refine hchanged (decide_eq_true ⟨?_, .inl ?_⟩)
  · rw [hcontent]
    exact (hf.source _ hsource).resolve_left hignore
  · rw [hsource]
    decide

theorem not_changes_passed_over (hpassed : isPassedOver f (g p) = true) : ¬ Changes f g p := by
  rintro ⟨n, hrule, _⟩
  rw [liquidRule, hpassed] at hrule
  cases hrule

/-! ## A flow -/

/-- What a flow becomes. -/
inductive FlowBecomes (f : Features) (v : View) (n0 n : MapNode) : Prop where
  | renewed (cause : Renews f n0.getContent v)
      (content : n.getContent = (f n0.getContent).liquidAlternativeSourceId)
  | flow (cause : ¬ TwoSources f n0.getContent v) (content : n.getContent = n0.getContent)
      (down : n.flowsDown = v.down)
      (level : v.MayBeFed ∨ (Reaches f n0.getContent v ∧ n.liquidLevel = v.newLevel))
  | dried (cause : Dries f n0.getContent v) (content : n.getContent = contentAir)

/-- What is known of a flow at a position. -/
structure FlowAt (f : Features) (g : V3s16 → MapNode) (p : V3s16) : Prop where
  passed : isPassedOver f (g p) = false
  kind : (surroundings f g p).liquidKind = (g p).getContent
  view : (surroundings f g p).view = view f (g p).getContent (neighbors g p)
  start : startLevel f (g p) = (g p).liquidLevel
  dry : floodableNode f (g p) = contentAir
  loaded : (g p).getContent ≠ contentIgnore
  notAir : (g p).getContent ≠ contentAir

theorem flowAt_of_flowing (hf : f.Consistent)
    (hflowing : (f (g p).getContent).liquidType = .flowing) : FlowAt f g p := by
  have hne : (g p).getContent ≠ contentAir := by
    intro hair
    rw [hair, hf.air.1] at hflowing
    cases hflowing
  have hstart : startKind f (g p) = (g p).getContent := by
    rw [startKind, hflowing]
  refine ⟨?_, ?_, ?_, ?_, ?_, ?_, hne⟩
  · rw [isPassedOver, hflowing]
    rfl
  · rw [surroundings, hstart]
    exact Surroundings.liquidKind_foldl_collect hne
  · rw [surroundings, hstart, Surroundings.view_foldl_collect _ hne]
    exact View.zero_add (level_view_ge _)
  · rw [startLevel, hflowing]
  · rw [floodableNode, hflowing]
  · intro hignore
    rw [hignore, f.get_ignore] at hflowing
    cases hflowing

section

variable (hf : f.Consistent) (hthin : f.Thin) (hflowing : (f (g p).getContent).liquidType = .flowing)

include hf hthin hflowing

theorem decideNode_flowing {d : Decision} {v : View} (hd : decideNode f (g p) (surroundings f g p) = d)
    (hv : view f (g p).getContent (neighbors g p) = v) :
    (TwoSources f (g p).getContent v ∧ d.content = (f (g p).getContent).liquidAlternativeSourceId) ∨
      (¬ TwoSources f (g p).getContent v ∧ v.MayBeFed ∧ d.content = (g p).getContent ∧
        d.level = (g p).liquidLevel) ∨
      (¬ TwoSources f (g p).getContent v ∧ ¬ v.MayBeFed ∧ Reaches f (g p).getContent v ∧
        d.content = (g p).getContent ∧ d.level = v.newLevel) ∨
      (Dries f (g p).getContent v ∧ d.content = contentAir) := by
  have hat := flowAt_of_flowing hf hflowing
  have hwet : (f (g p).getContent).liquidType ≠ .none := by
    rw [hflowing]
    decide
  have hnot : ¬ (f (g p).getContent).liquidType = .source := by
    rw [hflowing]
    decide
  have hviscosity : (f (surroundings f g p).liquidKind).liquidViscosity ≤ 1 := by
    rw [hat.kind]
    exact hthin _ hwet
  have hfed : startLevel f (g p) ≥ 0 := by
    rw [hat.start]
    exact MapNode.liquidLevel_nonneg _
  have hcontent := content_decideNode f (g p) (surroundings f g p)
  have hlevel := level_decideNode (g p) hviscosity
  simp only [hat.kind, hat.view, hat.dry, hnot, or_false, hfed, and_true, hd, hv] at hcontent
  simp only [hat.kind, hat.view, hnot, or_false, hfed, and_true, hd, hv] at hlevel
  by_cases htwo : TwoSources f (g p).getContent v
  · rw [if_pos htwo] at hcontent
    exact .inl ⟨htwo, hcontent⟩
  · rw [if_neg htwo] at hcontent hlevel
    by_cases hwaits : v.MayBeFed
    · rw [if_pos hwaits] at hcontent hlevel
      rw [hat.start] at hlevel
      exact .inr (.inl ⟨htwo, hwaits, hcontent, hlevel⟩)
    · rw [if_neg hwaits] at hcontent hlevel
      by_cases hreaches : Reaches f (g p).getContent v
      · rw [if_pos hreaches] at hcontent
        exact .inr (.inr (.inl ⟨htwo, hwaits, hreaches, hcontent, hlevel⟩))
      · rw [if_neg hreaches] at hcontent
        exact .inr (.inr (.inr ⟨⟨htwo, hwaits, hreaches⟩, hcontent⟩))

theorem becomes_of_flowing (hrule : liquidRule f g p = some n) (hn : n.getContent ≠ contentIgnore) :
    FlowBecomes f (view f (g p).getContent (neighbors g p)) (g p) n := by
  have hat := flowAt_of_flowing hf hflowing
  have hdown : (surroundings f g p).flowingDown = (view f (g p).getContent (neighbors g p)).down := by
    rw [← hat.view]
    rfl
  rcases liquidRule_eq_some hrule with ⟨_, rfl⟩
  rcases decideNode_flowing hf hthin hflowing rfl rfl with
    ⟨htwo, hcontent⟩ | ⟨htwo, hfed, hcontent, hlevel⟩ | ⟨htwo, hfed, hreaches, hcontent, hlevel⟩ |
      ⟨hdries, hcontent⟩
  · refine .renewed ⟨htwo, ?_⟩ hcontent
    rw [← hcontent]
    exact hn
  · have hplaced := changedNode_flowing (g p) (surroundings f g p)
      (hcontent ▸ hflowing) (hlevel ▸ MapNode.liquidLevel_nonneg _)
      (hlevel ▸ MapNode.liquidLevel_le _)
    exact .flow htwo hcontent (hplaced.2.trans hdown) (.inl hfed)
  · have hbounds := of_reaches hreaches (level_view_le _)
    have hplaced := changedNode_flowing (g p) (surroundings f g p)
      (hcontent ▸ hflowing) (hlevel ▸ hbounds.2.1) (hlevel ▸ hbounds.2.2)
    exact .flow htwo hcontent (hplaced.2.trans hdown) (.inr ⟨hreaches, hplaced.1.trans hlevel⟩)
  · exact .dried hdries hcontent

theorem not_changes_flowing_iff :
    ¬ Changes f g p ↔ Stays f (view f (g p).getContent (neighbors g p)) (g p) := by
  have hat := flowAt_of_flowing hf hflowing
  have hdown : (surroundings f g p).flowingDown = (view f (g p).getContent (neighbors g p)).down := by
    rw [← hat.view]
    rfl
  rw [changes_iff hat.passed, Stays, not_and_not_right]
  rcases decideNode_flowing hf hthin hflowing rfl rfl with
    ⟨htwo, hcontent⟩ | ⟨htwo, hfed, hcontent, hlevel⟩ | ⟨htwo, hfed, hreaches, hcontent, hlevel⟩ |
      ⟨hdries, hcontent⟩
  · have hdiffers : (decideNode f (g p) (surroundings f g p)).content ≠ (g p).getContent := by
      rw [hcontent]
      intro hsame
      rcases hf.flowingSource _ hflowing with hnone | ⟨hsource, _⟩
      · exact hat.loaded (hsame.symm.trans hnone)
      · rw [hsame, hflowing] at hsource
        cases hsource
    have hchanged : ¬ isUnchanged f (g p) (surroundings f g p)
        (decideNode f (g p) (surroundings f g p)) = true :=
      fun h => hdiffers (of_decide_eq_true h).1
    rw [hcontent]
    constructor
    · exact fun h => .inl ⟨htwo, h hchanged⟩
    · rintro (⟨_, hnone⟩ | ⟨hnot, _⟩)
      · exact fun _ => hnone
      · exact absurd htwo hnot
  · rw [unchanged_flowing hflowing (hlevel ▸ MapNode.liquidLevel_nonneg _)
      (hlevel ▸ MapNode.liquidLevel_le _), hcontent, hlevel, hdown]
    constructor
    · intro h
      refine .inr ⟨htwo, ?_, .inl hfed⟩
      by_contra hother
      exact hat.loaded (h fun hsame => hother hsame.2.2)
    · rintro (⟨hboth, _⟩ | ⟨_, hsame, _⟩)
      · exact absurd hboth htwo
      · exact fun hchanged => absurd ⟨rfl, rfl, hsame⟩ hchanged
  · have hbounds := of_reaches hreaches (level_view_le _)
    rw [unchanged_flowing hflowing (hlevel ▸ hbounds.2.1) (hlevel ▸ hbounds.2.2), hcontent, hlevel,
      hdown]
    constructor
    · intro h
      by_contra hnot
      refine hat.loaded (h fun hsame => hnot (.inr ⟨htwo, hsame.2.2, .inr ⟨hreaches, hsame.2.1⟩⟩))
    · rintro (⟨hboth, _⟩ | ⟨_, hsame, hwaits | ⟨_, hlevelSame⟩⟩)
      · exact absurd hboth htwo
      · exact absurd hwaits hfed
      · exact fun hchanged => absurd ⟨rfl, hlevelSame, hsame⟩ hchanged
  · have hchanged : ¬ isUnchanged f (g p) (surroundings f g p)
        (decideNode f (g p) (surroundings f g p)) = true :=
      fun h => hat.notAir ((of_decide_eq_true h).1.symm.trans hcontent)
    rw [hcontent]
    constructor
    · exact fun h => absurd (h hchanged) (by decide)
    · rintro (⟨hboth, _⟩ | ⟨_, _, hwaits | ⟨hreaches, _⟩⟩)
      · exact absurd hboth hdries.1
      · exact absurd hwaits hdries.2.1
      · exact absurd hreaches hdries.2.2

end

/-! ## A node that is not a liquid -/

/-- What a floodable node becomes. -/
inductive FloodedBecomes (f : Features) (K : UInt16) (v : View) (n : MapNode) : Prop where
  | renewed (cause : Renews f K v) (content : n.getContent = (f K).liquidAlternativeSourceId)
  | flow (cause : Flows f K v) (content : n.getContent = K) (down : n.flowsDown = v.down)
      (level : n.liquidLevel = v.newLevel)

/-- A node that liquid can flow into. -/
structure Floodable (f : Features) (n : MapNode) : Prop where
  type : (f n.getContent).liquidType = .none
  floodable : (f n.getContent).floodable = true

theorem dropLast_neighbors (g : V3s16 → MapNode) (p : V3s16) :
    ∀ nb ∈ (neighbors g p).dropLast, nb.t ≠ .lower := by
  have hfive : (neighbors g p).dropLast =
      (liquid6dirs.dropLast.map fun d => ⟨g (p + d.1), d.2, p + d.1⟩) := rfl
  have hdirs : ∀ d ∈ liquid6dirs.dropLast, d.2 ≠ .lower := by decide
  rw [hfive, List.forall_mem_map]
  exact hdirs

theorem neighbors_eq (g : V3s16 → MapNode) (p : V3s16) :
    neighbors g p = (neighbors g p).dropLast ++
      [⟨g (p + ⟨0, -1, 0⟩), .lower, p + ⟨0, -1, 0⟩⟩] := rfl

namespace Comes

variable {nbs : List NodeNeighbor} {s : Surroundings}

theorem two_iff (h : Comes f K nbs s) : TwoSources f K s.view ↔ TwoSources f K (view f K nbs) := by
  rw [TwoSources, TwoSources, h.sources]

theorem reaches_iff (h : Comes f K nbs s) : Reaches f K s.view ↔ Reaches f K (view f K nbs) := by
  rw [Reaches, Reaches, h.sources]
  by_cases hsources : (view f K nbs).sources = 0
  · rw [if_pos hsources, if_pos hsources]
    exact ⟨fun hlevel => le_trans hlevel h.level_le, fun hlevel => (h.level hlevel).symm ▸ hlevel⟩
  · rw [if_neg hsources, if_neg hsources]

theorem newLevel_eq (h : Comes f K nbs s) (hreaches : Reaches f K (view f K nbs)) :
    s.view.newLevel = (view f K nbs).newLevel := by
  rw [Reaches] at hreaches
  rw [View.newLevel, View.newLevel, h.sources]
  by_cases hsources : (view f K nbs).sources = 0
  · rw [if_pos hsources] at hreaches
    rw [if_pos hsources, if_pos hsources, h.level hreaches]
  · rw [if_neg hsources, if_neg hsources]

end Comes

theorem start_of_floodable (hn : Floodable f (g p)) :
    startKind f (g p) = contentAir ∧ startLevel f (g p) = -1 ∧
      floodableNode f (g p) = (g p).getContent ∧ isPassedOver f (g p) = false := by
  rw [startKind, startLevel, floodableNode, isPassedOver, hn.type, hn.floodable]
  exact ⟨rfl, rfl, rfl, rfl⟩

theorem comes_of_floodable (hf : f.Consistent) (hn : Floodable f (g p))
    (hK : chosen f (neighbors g p) = some K) : Comes f K (neighbors g p) (surroundings f g p) := by
  rw [surroundings, (start_of_floodable hn).1]
  exact comes_of_chosen hf ⟨rfl, rfl, rfl, rfl⟩ (dropLast_neighbors g p) hK

variable {d : Decision} {nbs : List NodeNeighbor}

theorem wet_of_chosen (hK : chosen f nbs = some K) :
    ∃ c, (f c).liquidType ≠ .none ∧ (f c).liquidAlternativeFlowingId = K := by
  rcases List.findSome?_eq_some_iff.1 hK with ⟨_, nb, _, _, hchoice, _⟩
  exact ⟨nb.n.getContent, wet_of_choice hchoice⟩

theorem decideNode_floodable {v : View} (hf : f.Consistent) (hthin : f.Thin) (hn : Floodable f (g p))
    (hK : chosen f (neighbors g p) = some K) (hd : decideNode f (g p) (surroundings f g p) = d)
    (hv : view f K (neighbors g p) = v) :
    (TwoSources f K v ∧ d.content = (f K).liquidAlternativeSourceId) ∨
      (¬ TwoSources f K v ∧ Reaches f K v ∧ d.content = K ∧ d.level = v.newLevel) ∨
      (¬ TwoSources f K v ∧ ¬ Reaches f K v ∧ d.content = (g p).getContent) := by
  have hcomes := comes_of_floodable hf hn hK
  rcases start_of_floodable hn with ⟨_, hlow, hdry, _⟩
  have hnot : ¬ (f (g p).getContent).liquidType = .source := by
    rw [hn.type]
    decide
  have hviscosity : (f (surroundings f g p).liquidKind).liquidViscosity ≤ 1 := by
    rcases wet_of_chosen hK with ⟨c, hwet, hkind⟩
    rw [hcomes.kind, ← hkind]
    exact hthin.viscosity_of_kind hf hwet
  have hfed : ¬ startLevel f (g p) ≥ 0 := by
    rw [hlow]
    decide
  have htwoIff := hcomes.two_iff
  have hreachesIff := hcomes.reaches_iff
  rw [hv] at htwoIff hreachesIff
  have hcontent := content_decideNode f (g p) (surroundings f g p)
  have hlevel := level_decideNode (g p) hviscosity
  simp only [hcomes.kind, hdry, hnot, or_false, hfed, and_false, if_false, hd, htwoIff, hreachesIff]
    at hcontent
  simp only [hcomes.kind, hnot, or_false, hfed, and_false, if_false, hd, htwoIff] at hlevel
  by_cases htwo : TwoSources f K v
  · rw [if_pos htwo] at hcontent
    exact .inl ⟨htwo, hcontent⟩
  · rw [if_neg htwo] at hcontent hlevel
    by_cases hreaches : Reaches f K v
    · rw [if_pos hreaches] at hcontent
      have hnew := hcomes.newLevel_eq (hv.symm ▸ hreaches)
      rw [hv] at hnew
      exact .inr (.inl ⟨htwo, hreaches, hcontent, hlevel.trans hnew⟩)
    · rw [if_neg hreaches] at hcontent
      exact .inr (.inr ⟨htwo, hreaches, hcontent⟩)

theorem content_of_not_chosen (hf : f.Consistent) (hn : Floodable f (g p))
    (hK : chosen f (neighbors g p) = none) :
    (decideNode f (g p) (surroundings f g p)).content = (g p).getContent := by
  rcases start_of_floodable hn with ⟨hstart, hlow, hdry, _⟩
  have hnot : ¬ (f (g p).getContent).liquidType = .source := by
    rw [hn.type]
    decide
  have hfed : ¬ startLevel f (g p) ≥ 0 := by
    rw [hlow]
    decide
  have hfound : (surroundings f g p).view.sources = 0 ∧ (surroundings f g p).view.level = -1 := by
    rw [surroundings, hstart, neighbors_eq g p]
    rw [neighbors_eq g p] at hK
    exact dry_of_not_chosen hf ⟨rfl, rfl, rfl, rfl⟩ (dropLast_neighbors g p) rfl hK
  have htwo : ¬ TwoSources f (surroundings f g p).liquidKind (surroundings f g p).view := by
    rw [TwoSources, hfound.1]
    exact fun h => absurd h.1 (by decide)
  have hreaches : ¬ Reaches f (surroundings f g p).liquidKind (surroundings f g p).view := by
    have hrange := liquidRange_le f (surroundings f g p).liquidKind
    rw [Reaches, if_pos hfound.1, hfound.2]
    omega
  have hcontent := content_decideNode f (g p) (surroundings f g p)
  simp only [htwo, hnot, or_false, if_false, hfed, and_false, hreaches, hdry] at hcontent
  exact hcontent

theorem unchanged_of_floodable {s : Surroundings} (hn : Floodable f n) :
    isUnchanged f n s d = true ↔ d.content = n.getContent := by
  have hnot : (f n.getContent).liquidType ≠ .flowing := by
    rw [hn.type]
    decide
  rw [isUnchanged, decide_eq_true_iff]
  exact and_iff_left (.inl hnot)

/-- What fills a node is not what the node is. -/
theorem source_ne_of_floodable (hf : f.Consistent) (hn : Floodable f n)
    (hwet : (f c).liquidType ≠ .none)
    (hsource : (f (f c).liquidAlternativeFlowingId).liquidAlternativeSourceId ≠ contentIgnore) :
    (f (f c).liquidAlternativeFlowingId).liquidAlternativeSourceId ≠ n.getContent := by
  intro hsame
  have htype := (hf.source_of_kind hwet hsource).1
  rw [hsame, hn.type] at htype
  cases htype

theorem flowing_of_flows (hf : f.Consistent) (hK : chosen f nbs = some K) (h : Flows f K (view f K nbs)) :
    (f K).liquidType = .flowing := by
  rcases wet_of_chosen hK with ⟨c, hwet, rfl⟩
  exact hf.flowing_of_kind hwet h.2.2 (of_reaches h.2.1 (level_view_le _)).1

theorem becomes_of_floodable (hf : f.Consistent) (hthin : f.Thin) (hn : Floodable f (g p))
    (hrule : liquidRule f g p = some n) (hplaced : n.getContent ≠ contentIgnore) :
    ∃ K, chosen f (neighbors g p) = some K ∧ FloodedBecomes f K (view f K (neighbors g p)) n := by
  rcases liquidRule_eq_some hrule with ⟨hchanged, rfl⟩
  rw [unchanged_of_floodable hn] at hchanged
  cases hK : chosen f (neighbors g p) with
  | none => exact absurd (content_of_not_chosen hf hn hK) hchanged
  | some K =>
    refine ⟨K, rfl, ?_⟩
    have hdown : (surroundings f g p).flowingDown = (view f K (neighbors g p)).down :=
      (comes_of_floodable hf hn hK).down
    rcases decideNode_floodable hf hthin hn hK rfl rfl with
      ⟨htwo, hcontent⟩ | ⟨htwo, hreaches, hcontent, hlevel⟩ | ⟨_, _, hcontent⟩
    · refine .renewed ⟨htwo, ?_⟩ hcontent
      rw [← hcontent]
      exact hplaced
    · have hflows : Flows f K (view f K (neighbors g p)) :=
        ⟨htwo, hreaches, fun hignore => hplaced (hcontent.trans hignore)⟩
      have hbounds := of_reaches hreaches (level_view_le _)
      have hnode := changedNode_flowing (g p) (surroundings f g p)
        (hcontent ▸ flowing_of_flows hf hK hflows) (hlevel ▸ hbounds.2.1) (hlevel ▸ hbounds.2.2)
      exact .flow hflows hcontent (hnode.2.trans hdown) (hnode.1.trans hlevel)
    · exact absurd hcontent hchanged

theorem changes_floodable_iff (hf : f.Consistent) (hthin : f.Thin) (hn : Floodable f (g p)) :
    Changes f g p ↔ Fills f (neighbors g p) := by
  constructor
  · rintro ⟨n, hrule, hplaced⟩
    rcases becomes_of_floodable hf hthin hn hrule hplaced with ⟨K, hK, hbecomes⟩
    cases hbecomes with
    | renewed cause _ => exact ⟨K, hK, .inl cause⟩
    | flow cause _ _ _ => exact ⟨K, hK, .inr cause⟩
  · rintro ⟨K, hK, hcause⟩
    rcases wet_of_chosen hK with ⟨c, hwet, rfl⟩
    rw [changes_iff (start_of_floodable hn).2.2.2, unchanged_of_floodable hn]
    rcases decideNode_floodable hf hthin hn hK rfl rfl with
      ⟨htwo, hcontent⟩ | ⟨htwo, hreaches, hcontent, _⟩ | ⟨htwo, hreaches, _⟩
    · rw [hcontent]
      rcases hcause with hrenews | hflows
      · exact ⟨source_ne_of_floodable hf hn hwet hrenews.2, hrenews.2⟩
      · exact absurd htwo hflows.1
    · rw [hcontent]
      rcases hcause with hrenews | hflows
      · exact absurd hrenews.1 htwo
      · refine ⟨fun hsame => ?_, hflows.2.2⟩
        have hflowing := flowing_of_flows hf hK hflows
        rw [hsame, hn.type] at hflowing
        cases hflowing
    · rcases hcause with hrenews | hflows
      · exact absurd hrenews.1 htwo
      · exact absurd hflows.2.1 hreaches

end

end Map
end AxisEngine
