import AxisEngine.Map.LiquidOutcome

/-!
# LiquidChange — what a change leaves behind

A change of a node can only concern its neighbours, and most of those are queued.  The ones that are
not are above, or have been passed over before the liquid was chosen, or the node itself has dried
beside another liquid.

* `neighbors_update` — a change as its neighbours see it;
* `Settles` — the change leaves nothing behind that is not queued;
* `not_changes_update` — after such a change what would change is queued.
-/

namespace AxisEngine

namespace V3s16

section

variable {p q d : V3s16}

theorem add_assoc (p q d : V3s16) : p + q + d = p + (q + d) := by
  cases p
  cases q
  cases d
  exact (V3s16.mk.injEq _ _ _ _ _ _).mpr
    ⟨Int16.add_assoc _ _ _, Int16.add_assoc _ _ _, Int16.add_assoc _ _ _⟩

theorem add_zero (p : V3s16) : p + ⟨0, 0, 0⟩ = p := by
  cases p
  exact (V3s16.mk.injEq _ _ _ _ _ _).mpr ⟨Int16.add_zero _, Int16.add_zero _, Int16.add_zero _⟩

theorem eq_zero_of_add_eq (h : p + d = p) : d = ⟨0, 0, 0⟩ := by
  cases p
  cases d
  rcases (V3s16.mk.injEq _ _ _ _ _ _).mp h with ⟨hx, hy, hz⟩
  have hcancel : ∀ a b : Int16, a + b = a → b = 0 := by
    intro a b hab
    have hsub : a + b - a = a - a := by rw [hab]
    rw [Int16.add_comm, Int16.add_sub_cancel, Int16.sub_self] at hsub
    exact hsub
  exact (V3s16.mk.injEq _ _ _ _ _ _).mpr ⟨hcancel _ _ hx, hcancel _ _ hy, hcancel _ _ hz⟩

end

end V3s16

namespace Map

/-! ## A change as the neighbours see it -/

def NeighborType.opposite : NeighborType → NeighborType
  | .upper => .lower
  | .sameLevel => .sameLevel
  | .lower => .upper

theorem exists_back : ∀ d ∈ liquid6dirs, ∃ o ∈ liquid6dirs, d.1 + o.1 = ⟨0, 0, 0⟩ ∧
    o.2 = d.2.opposite ∧ ∀ x ∈ liquid6dirs, d.1 + x.1 = ⟨0, 0, 0⟩ → x = o := by
  decide

theorem nodup_liquid6dirs : liquid6dirs.Nodup := by decide

section

variable {g : V3s16 → MapNode} {p0 q : V3s16} {n : MapNode} {d : V3s16 × NeighborType}

theorem add_dir_ne (hd : d ∈ liquid6dirs) : p0 + d.1 ≠ p0 := by
  have hdirs : ∀ d ∈ liquid6dirs, d.1 ≠ ⟨0, 0, 0⟩ := by decide
  exact fun h => hdirs d hd (V3s16.eq_zero_of_add_eq h)

theorem neighbors_update_self (g : V3s16 → MapNode) (p0 : V3s16) (n : MapNode) :
    neighbors (Function.update g p0 n) p0 = neighbors g p0 :=
  List.map_congr_left fun d hd => by rw [Function.update_of_ne (add_dir_ne hd)]

/-- A neighbour sees the change in one place, from the other side. -/
theorem neighbors_update (g : V3s16 → MapNode) (p0 : V3s16) (n : MapNode) (hd : d ∈ liquid6dirs) :
    ∃ before after,
      neighbors g (p0 + d.1) = before ++ ⟨g p0, d.2.opposite, p0⟩ :: after ∧
        neighbors (Function.update g p0 n) (p0 + d.1) =
          before ++ ⟨n, d.2.opposite, p0⟩ :: after := by
  rcases exists_back d hd with ⟨o, ho, hback, htype, honly⟩
  rcases List.append_of_mem ho with ⟨before, after, hdirs⟩
  have hhere : p0 + d.1 + o.1 = p0 := by
    rw [V3s16.add_assoc, hback, V3s16.add_zero]
  have hnodup := nodup_liquid6dirs
  rw [hdirs, List.nodup_middle, List.nodup_cons] at hnodup
  have hother : ∀ x ∈ before ++ after, p0 + d.1 + x.1 ≠ p0 := by
    intro x hx hsame
    have hmem : x ∈ liquid6dirs := by
      rw [hdirs]
      exact List.perm_middle.mem_iff.2 (List.mem_cons_of_mem _ hx)
    rw [V3s16.add_assoc] at hsame
    exact hnodup.1 (honly x hmem (V3s16.eq_zero_of_add_eq hsame) ▸ hx)
  have hsame : ∀ l : List (V3s16 × NeighborType), (∀ x ∈ l, x ∈ before ++ after) →
      (l.map fun x => (⟨Function.update g p0 n (p0 + d.1 + x.1), x.2, p0 + d.1 + x.1⟩ :
        NodeNeighbor)) = l.map fun x => ⟨g (p0 + d.1 + x.1), x.2, p0 + d.1 + x.1⟩ :=
    fun l hl => List.map_congr_left fun x hx => by
      rw [Function.update_of_ne (hother x (hl x hx))]
  refine ⟨before.map fun x => ⟨g (p0 + d.1 + x.1), x.2, p0 + d.1 + x.1⟩,
    after.map fun x => ⟨g (p0 + d.1 + x.1), x.2, p0 + d.1 + x.1⟩, ?_, ?_⟩
  · rw [neighbors, hdirs, List.map_append, List.map_cons, hhere, htype]
  · rw [neighbors, hdirs, List.map_append, List.map_cons, hhere, htype, Function.update_self,
      hsame before fun x hx => List.mem_append_left _ hx,
      hsame after fun x hx => List.mem_append_right _ hx]

/-- What is not next to the change does not see it. -/
theorem changes_update_far {f : Features} (hself : q ≠ p0)
    (hfar : ∀ d ∈ liquid6dirs, q ≠ p0 + d.1) :
    Changes f (Function.update g p0 n) q ↔ Changes f g q := by
  have hneighbors : ∀ d ∈ liquid6dirs, Function.update g p0 n (q + d.1) = g (q + d.1) := by
    intro d hd
    refine Function.update_of_ne (fun hsame => ?_) _ _
    rcases exists_back d hd with ⟨o, ho, hback, _⟩
    refine hfar o ho ?_
    rw [← hsame, V3s16.add_assoc, hback, V3s16.add_zero]
  rw [Changes, Changes, liquidRule_congr (Function.update_of_ne hself _ _) hneighbors]

end

/-! ## The node below does not matter to a node that is not a liquid -/

section

variable {f : Features} {K : UInt16} {nb nb' : NodeNeighbor} {before after : List NodeNeighbor}
  {v w : View}

theorem choice_lower (h : nb.t = .lower) : nb.choice f = none := by
  rw [NodeNeighbor.choice]
  exact if_neg fun hcomes => hcomes.1 h

theorem view_lower (h : nb.t = .lower) : (nb.view f K).sources = 0 ∧ (nb.view f K).level = -1 := by
  refine ⟨sources_of_choice (choice_lower h), ?_⟩
  rw [NodeNeighbor.view]
  dsimp only
  split
  · exact reach_lower h
  · rfl

theorem chosen_lower (h : nb.t = .lower) :
    chosen f (before ++ nb :: after) = chosen f (before ++ after) := by
  rw [chosen, chosen, List.findSome?_append, List.findSome?_append, List.findSome?_cons,
    choice_lower h]

theorem view_middle_lower (before after : List NodeNeighbor) (h : nb.t = .lower) :
    (view f K (before ++ nb :: after)).sources = (view f K (before ++ after)).sources ∧
      (view f K (before ++ nb :: after)).level = (view f K (before ++ after)).level := by
  rcases view_lower (f := f) (K := K) h with ⟨hsources, hlevel⟩
  rw [view_middle, View.add, hsources, hlevel]
  exact ⟨Nat.zero_add _, max_eq_right (level_view_ge _)⟩

theorem renews_congr (hsources : v.sources = w.sources) : Renews f K v ↔ Renews f K w := by
  rw [Renews, Renews, TwoSources, TwoSources, hsources]

theorem flows_congr (hsources : v.sources = w.sources) (hlevel : v.level = w.level) :
    Flows f K v ↔ Flows f K w := by
  rw [Flows, Flows, TwoSources, TwoSources, Reaches, Reaches, hsources, hlevel]

theorem fills_lower (h : nb.t = .lower) :
    Fills f (before ++ nb :: after) ↔ Fills f (before ++ after) := by
  rw [Fills, Fills, chosen_lower h]
  refine exists_congr fun K => and_congr_right fun _ => ?_
  rcases view_middle_lower (f := f) (K := K) before after h with
    ⟨hsources, hlevel⟩
  exact or_congr (renews_congr hsources) (flows_congr hsources hlevel)

end

/-! ## What is queued -/

section

variable {f : Features} {g : V3s16 → MapNode} {p0 : V3s16} {c : UInt16} {nb : NodeNeighbor}
  {s : Surroundings} {d : V3s16 × NeighborType} {n0 : MapNode}

theorem mem_neighbors (hd : d ∈ liquid6dirs) :
    (⟨g (p0 + d.1), d.2, p0 + d.1⟩ : NodeNeighbor) ∈ neighbors g p0 :=
  List.mem_map.2 ⟨d, hd, rfl⟩

theorem mem_airs_surroundings (hnb : nb ∈ neighbors g p0) (hopens : nb.opens f = true) :
    nb ∈ (surroundings f g p0).airs :=
  Surroundings.mem_airs_foldl_collect.2 (.inr ⟨hnb, hopens⟩)

theorem mem_enqueuedAlways (hwet : (f n0.getContent).liquidType ≠ .none) (hnb : nb ∈ s.airs)
    (hupper : nb.t ≠ .upper) : nb.p ∈ enqueuedAlways f n0 s := by
  rw [enqueuedAlways, if_pos hwet, List.mem_map]
  exact ⟨nb, List.mem_filter.2 ⟨hnb, decide_eq_true hupper⟩, rfl⟩

/-- A new liquid queues its flows and what it could flow into, but nothing above. -/
theorem mem_enqueuedAfter_liquid (nb : NodeNeighbor) (hwet : (f c).liquidType ≠ .none)
    (hnb : nb ∈ s.flows ∨ nb ∈ s.airs) (hupper : nb.t ≠ .upper) : nb.p ∈ enqueuedAfter f c s := by
  have hmem : nb.p ∈ ((s.flows ++ s.airs).filter fun nb => nb.t ≠ .upper).map NodeNeighbor.p :=
    List.mem_map.2 ⟨nb, List.mem_filter.2 ⟨List.mem_append.2 hnb, decide_eq_true hupper⟩, rfl⟩
  rw [enqueuedAfter]
  cases htype : (f c).liquidType with
  | none => exact absurd htype hwet
  | source => exact hmem
  | flowing => exact hmem

theorem mem_enqueuedAfter_none (nb : NodeNeighbor) (hdry : (f c).liquidType = .none) (hnb : nb ∈ s.flows) :
    nb.p ∈ enqueuedAfter f c s := by
  rw [enqueuedAfter, hdry]
  exact List.mem_map.2 ⟨nb, hnb, rfl⟩

end

/-! ## What the queue does not look after -/

/-- The liquid that a node is, or that comes to it. -/
def LiquidHere (f : Features) (g : V3s16 → MapNode) (p0 : V3s16) (K : UInt16) : Prop :=
  ((f (g p0).getContent).liquidType = .flowing ∧ (g p0).getContent = K) ∨
    (Floodable f (g p0) ∧ chosen f (neighbors g p0) = some K)

/-- A change at a position leaves nothing behind that is not queued.  A flow above keeps its way down;
what dries is not filled by another liquid; a flow of the same liquid that was passed over does not
rise. -/
structure Settles (f : Features) (g : V3s16 → MapNode) (queue : List V3s16) (p0 : V3s16) : Prop where
  above : ∀ K, LiquidHere f g p0 K → p0 + ⟨0, 1, 0⟩ ∉ queue →
    (f (g (p0 + ⟨0, 1, 0⟩)).getContent).liquidType = .flowing →
    if K = (g (p0 + ⟨0, 1, 0⟩)).getContent then ¬ Renews f K (view f K (neighbors g p0))
    else (Floodable f (g p0) → ¬ Renews f K (view f K (neighbors g p0)) ∧
        ¬ Flows f K (view f K (neighbors g p0))) ∧
      ((f (g p0).getContent).liquidType = .flowing → ¬ Dries f K (view f K (neighbors g p0)))
  dried : (f (g p0).getContent).liquidType = .flowing →
    Dries f (g p0).getContent (view f (g p0).getContent (neighbors g p0)) →
    ¬ Fills f (neighbors g p0)
  beside : ∀ K, Floodable f (g p0) → chosen f (neighbors g p0) = some K →
    ∀ nb ∈ passedOver f (neighbors g p0), nb.feeds f K = true → nb.t = .sameLevel → nb.p ∉ queue →
      (Renews f K (view f K (neighbors g p0)) → 1 ≤ liquidRange f K ∧
        nb.n.liquidLevel = liquidLevelMax ∧ (view f K (neighbors g nb.p)).sources = 0) ∧
      (Flows f K (view f K (neighbors g p0)) → (view f K (neighbors g p0)).down = true ∨
        (view f K (neighbors g p0)).newLevel - 1 ≤ nb.n.liquidLevel)

/-! ## A neighbour of a change -/

section

variable {f : Features} {g : V3s16 → MapNode} {p0 : V3s16} {n : MapNode} {K : UInt16}
  {d : V3s16 × NeighborType} {queue queue' : List V3s16} {nb : NodeNeighbor}

theorem update_neighbor (g : V3s16 → MapNode) (p0 : V3s16) (n : MapNode) (hd : d ∈ liquid6dirs) :
    Function.update g p0 n (p0 + d.1) = g (p0 + d.1) :=
  Function.update_of_ne (add_dir_ne hd) _ _

/-- A node that is not a liquid only has to look again when the change is not below it. -/
theorem not_changes_floodable (hf : f.Consistent) (hthin : f.Thin) (hd : d ∈ liquid6dirs)
    (hupper : d.2 = .upper) (hn : Floodable f (g (p0 + d.1))) (hstable : ¬ Changes f g (p0 + d.1)) :
    ¬ Changes f (Function.update g p0 n) (p0 + d.1) := by
  have hsame := update_neighbor g p0 n hd
  rcases neighbors_update g p0 n hd with ⟨before, after, hold, hnew⟩
  have hlower : d.2.opposite = .lower := by
    rw [hupper]
    rfl
  rw [changes_floodable_iff hf hthin hn, hold, fills_lower hlower] at hstable
  rw [changes_floodable_iff hf hthin (hsame.symm ▸ hn), hnew, fills_lower hlower]
  exact hstable

theorem not_changes_flowing (hf : f.Consistent) (hthin : f.Thin) (hd : d ∈ liquid6dirs)
    (hflowing : (f (g (p0 + d.1)).getContent).liquidType = .flowing)
    (hview : NodeNeighbor.view f (g (p0 + d.1)).getContent ⟨n, d.2.opposite, p0⟩ =
      NodeNeighbor.view f (g (p0 + d.1)).getContent ⟨g p0, d.2.opposite, p0⟩)
    (hstable : ¬ Changes f g (p0 + d.1)) :
    ¬ Changes f (Function.update g p0 n) (p0 + d.1) := by
  have hsame := update_neighbor g p0 n hd
  rcases neighbors_update g p0 n hd with ⟨before, after, hold, hnew⟩
  rw [not_changes_flowing_iff hf hthin hflowing, hold, view_middle, ← hview] at hstable
  rw [not_changes_flowing_iff hf hthin (hsame.symm ▸ hflowing), hsame, hnew, view_middle]
  exact hstable

theorem view_floodable (hn : Floodable f nb.n) :
    nb.view f K = ⟨0, -1, decide (nb.t = .lower), false⟩ :=
  nb.view_of_opens hn.type hn.floodable

theorem view_flow (hf : f.Consistent) (hflowing : (f nb.n.getContent).liquidType = .flowing) :
    nb.view f K =
      if nb.n.getContent = K then ⟨0, nb.reach, decide (nb.t = .lower), false⟩ else View.zero := by
  rw [nb.view_of_flowing hflowing, NodeNeighbor.kind, hf.flowing _ hflowing]

variable {v : View}

/-- A flow beside a new source stays at the highest level. -/
theorem stays_beside_source (hstays : Stays f v n) (hrange : 1 ≤ liquidRange f n.getContent)
    (hlevel : n.liquidLevel = liquidLevelMax) (hsources : v.sources = 0) :
    Stays f (View.add ⟨1, -1, false, false⟩ v) n := by
  have hone : (View.add ⟨1, -1, false, false⟩ v).sources = 1 := by
    rw [View.add, hsources]
  have htwo : ¬ TwoSources f n.getContent (View.add ⟨1, -1, false, false⟩ v) := by
    rw [TwoSources, hone]
    exact fun h => absurd h.1 (by decide)
  have hdown : (View.add ⟨1, -1, false, false⟩ v).down = v.down := Bool.false_or _
  have hbefore : ¬ TwoSources f n.getContent v := by
    rw [TwoSources, hsources]
    exact fun h => absurd h.1 (by decide)
  refine .inr ⟨htwo, ?_, .inr ⟨?_, ?_⟩⟩
  · rw [hdown]
    exact (hstays.resolve_left fun h => hbefore h.1).2.1
  · rw [Reaches, hone]
    exact hrange
  · rw [View.newLevel, hone]
    exact hlevel

/-- A flow beside a flow that does not let it rise stays. -/
theorem stays_beside_flow {level : ℤ} (hstays : Stays f v n) (hlevel : level ≤ n.liquidLevel) :
    Stays f (View.add ⟨0, level, false, false⟩ v) n := by
  have hsources : (View.add ⟨0, level, false, false⟩ v).sources = v.sources := Nat.zero_add _
  have hdown : (View.add ⟨0, level, false, false⟩ v).down = v.down := Bool.false_or _
  have hignored : (View.add ⟨0, level, false, false⟩ v).ignored = v.ignored := Bool.false_or _
  have hmax : (View.add ⟨0, level, false, false⟩ v).level = max level v.level := rfl
  rw [Stays, TwoSources, View.MayBeFed, hsources, hdown, hignored]
  refine hstays.imp id fun h => ⟨h.1, h.2.1, h.2.2.imp id fun hreaches => ?_⟩
  rw [Reaches, View.newLevel, hsources, hmax]
  rw [Reaches, View.newLevel] at hreaches
  by_cases hnone : v.sources = 0
  · rw [if_pos hnone, if_pos hnone] at hreaches
    have hbelow : level ≤ v.level := le_of_le_of_eq hlevel hreaches.2
    rw [if_pos hnone, if_pos hnone, max_eq_right hbelow]
    exact hreaches
  · rw [if_neg hnone, if_neg hnone] at hreaches ⊢
    exact hreaches

theorem not_changes_neighbor (hf : f.Consistent) (hthin : f.Thin) (hd : d ∈ liquid6dirs)
    (hstable : ¬ Changes f g (p0 + d.1)) (hopen : Floodable f (g (p0 + d.1)) → d.2 = .upper)
    (hflow : (f (g (p0 + d.1)).getContent).liquidType = .flowing →
      ¬ Changes f (Function.update g p0 n) (p0 + d.1)) :
    ¬ Changes f (Function.update g p0 n) (p0 + d.1) := by
  have hsame := update_neighbor g p0 n hd
  cases htype : (f (g (p0 + d.1)).getContent).liquidType with
  | none =>
    cases hfloodable : (f (g (p0 + d.1)).getContent).floodable with
    | true =>
      exact not_changes_floodable hf hthin hd (hopen ⟨htype, hfloodable⟩) ⟨htype, hfloodable⟩
        hstable
    | false =>
      refine not_changes_passed_over ?_
      rw [hsame, isPassedOver, htype, hfloodable]
      rfl
  | source =>
    refine not_changes_source hf ?_
    rw [hsame]
    exact htype
  | flowing => exact hflow htype

/-! ### A node that was not a liquid -/

theorem view_renewed {c : UInt16} (hf : f.Consistent) (hwet : (f c).liquidType ≠ .none)
    (hsource : (f (f c).liquidAlternativeFlowingId).liquidAlternativeSourceId ≠ contentIgnore)
    (hcontent : nb.n.getContent = (f (f c).liquidAlternativeFlowingId).liquidAlternativeSourceId)
    (K' : UInt16) :
    nb.view f K' = if (f c).liquidAlternativeFlowingId = K' ∧ nb.t ≠ .lower then
      ⟨1, -1, false, false⟩ else View.zero := by
  have hnew := hf.source_of_kind hwet hsource
  rw [← hcontent] at hnew
  rw [nb.view_of_source hnew.1, NodeNeighbor.kind, hnew.2]

theorem view_source_of_flooded (hf : f.Consistent) {nbs : List NodeNeighbor}
    (hK : chosen f nbs = some K) (hrenews : Renews f K (view f K nbs))
    (hcontent : nb.n.getContent = (f K).liquidAlternativeSourceId) (K' : UInt16) :
    nb.view f K' = if K = K' ∧ nb.t ≠ .lower then ⟨1, -1, false, false⟩ else View.zero := by
  rcases wet_of_chosen hK with ⟨c, hwet, rfl⟩
  exact view_renewed hf hwet hrenews.2 hcontent K'

theorem wet_of_flooded (hf : f.Consistent) {nbs : List NodeNeighbor} (hK : chosen f nbs = some K)
    (h : FloodedBecomes f K (view f K nbs) n) : (f n.getContent).liquidType ≠ .none := by
  cases h with
  | renewed cause content =>
    rcases wet_of_chosen hK with ⟨c, hwet, rfl⟩
    rw [content, (hf.source_of_kind hwet cause.2).1]
    decide
  | flow cause content _ _ =>
    rw [content, flowing_of_flows hf hK cause]
    decide

/-- To another liquid the new liquid means nothing. -/
theorem view_flooded_other (hf : f.Consistent) {nbs : List NodeNeighbor} {K' : UInt16}
    (hK : chosen f nbs = some K) (hbecomes : FloodedBecomes f K (view f K nbs) n) (hne : K ≠ K')
    (hnb : nb.n = n) : nb.view f K' = View.zero := by
  subst hnb
  cases hbecomes with
  | renewed cause content =>
    rw [view_source_of_flooded hf hK cause content]
    exact if_neg fun h => hne h.1
  | flow cause content _ _ =>
    rw [view_flow hf (content.symm ▸ flowing_of_flows hf hK cause), content]
    exact if_neg hne

theorem dir_upper (hd : d ∈ liquid6dirs) (hupper : d.2 = .upper) : d.1 = ⟨0, 1, 0⟩ := by
  have hdirs : ∀ d ∈ liquid6dirs, d.2 = .upper → d.1 = ⟨0, 1, 0⟩ := by decide
  exact hdirs d hd hupper

theorem opposite_lower {t : NeighborType} (h : t.opposite = .lower) : t = .upper := by
  cases t with
  | upper => rfl
  | sameLevel => cases h
  | lower => cases h

theorem feeds_flowing (nb : NodeNeighbor) (hf : f.Consistent) (hflowing : (f nb.n.getContent).liquidType = .flowing)
    (hkind : nb.n.getContent = K) : nb.feeds f K = true :=
  decide_eq_true ⟨hflowing, (hf.flowing _ hflowing).trans hkind⟩

/-- A flow beside lets the liquid reach one level less. -/
theorem reach_sameLevel (h : nb.t = .sameLevel) : nb.reach ≤ max (-1) (nb.n.liquidLevel - 1) := by
  rw [NodeNeighbor.reach, getMaxLiquidLevel, h]
  dsimp only
  split
  · exact le_max_right _ _
  · exact le_max_left _ _

section

variable (hf : f.Consistent) (hthin : f.Thin) (hd : d ∈ liquid6dirs) (hn0 : Floodable f (g p0))
variable (hK : chosen f (neighbors g p0) = some K) (hbecomes : FloodedBecomes f K (view f K (neighbors g p0)) n)
variable (hsettles : Settles f g queue p0) (hstable : ¬ Changes f g (p0 + d.1)) (hkept : p0 + d.1 ∉ queue)

include hf hthin hd hn0 hK hbecomes hsettles hstable hkept

theorem not_changes_above_flooded (hflowing : (f (g (p0 + d.1)).getContent).liquidType = .flowing)
    (hupper : d.2 = .upper) :
    ¬ Changes f (Function.update g p0 n) (p0 + d.1) := by
  have habove := hsettles.above K (.inr ⟨hn0, hK⟩)
  rw [← dir_upper hd hupper] at habove
  specialize habove hkept hflowing
  split at habove
  · rename_i hkind
    cases hbecomes with
    | renewed cause _ => exact absurd cause habove
    | flow cause content _ _ =>
      refine not_changes_flowing hf hthin hd hflowing ?_ hstable
      have hlower : d.2.opposite = .lower := by
        rw [hupper]
        rfl
      have hbefore : NodeNeighbor.view f (g (p0 + d.1)).getContent ⟨g p0, d.2.opposite, p0⟩ =
          ⟨0, -1, decide (d.2.opposite = .lower), false⟩ := view_floodable hn0
      rw [hbefore, view_flow hf (content.symm ▸ flowing_of_flows hf hK cause), content,
        if_pos hkind, reach_lower hlower]
  · cases hbecomes with
    | renewed cause _ => exact absurd cause (habove.1 hn0).1
    | flow cause _ _ _ => exact absurd cause (habove.1 hn0).2

/-- A flow of the new liquid is queued, or was passed over and does not rise. -/
theorem not_changes_same_flooded
    (hafter : p0 + d.1 ∉ enqueuedAfter f n.getContent (surroundings f g p0))
    (hflowing : (f (g (p0 + d.1)).getContent).liquidType = .flowing) (hupper : d.2 ≠ .upper)
    (hkind : (g (p0 + d.1)).getContent = K) :
    ¬ Changes f (Function.update g p0 n) (p0 + d.1) := by
  have hsame := update_neighbor g p0 n hd
  have hmem : (⟨g (p0 + d.1), d.2, p0 + d.1⟩ : NodeNeighbor) ∈ neighbors g p0 := mem_neighbors hd
  have hfeeds := feeds_flowing ⟨g (p0 + d.1), d.2, p0 + d.1⟩ hf hflowing hkind
  rcases (comes_of_floodable hf hn0 hK).flows _ hmem hfeeds with hflows | ⟨hpassed, hnotLower⟩
  · exact absurd (mem_enqueuedAfter_liquid _ (wet_of_flooded hf hK hbecomes) (.inl hflows) hupper) hafter
  · have hlevel : d.2 = .sameLevel := by
      cases hdir : d.2 with
      | upper => exact absurd hdir hupper
      | sameLevel => rfl
      | lower => exact absurd hdir hnotLower
    rcases hsettles.beside K hn0 hK _ hpassed hfeeds hlevel hkept with ⟨hrenewed, hflowed⟩
    rcases neighbors_update g p0 n hd with ⟨before, after, hold, hnew⟩
    have hopposite : d.2.opposite = .sameLevel := by
      rw [hlevel]
      rfl
    have hnotBelow : d.2.opposite ≠ .lower := by
      rw [hopposite]
      decide
    have hzero : NodeNeighbor.view f K ⟨g p0, d.2.opposite, p0⟩ = View.zero := by
      rw [view_floodable hn0, hopposite]
      rfl
    have hbefore : view f K (neighbors g (p0 + d.1)) = view f K (before ++ after) := by
      rw [hold, view_middle, hzero, View.zero_add (level_view_ge _)]
    rw [not_changes_flowing_iff hf hthin hflowing, hkind, hbefore] at hstable
    rw [not_changes_flowing_iff hf hthin (hsame.symm ▸ hflowing), hsame, hkind, hnew, view_middle]
    rw [hbefore] at hrenewed
    cases hbecomes with
    | renewed cause content =>
      rcases hrenewed cause with ⟨hrange, hfull, hsources⟩
      rw [view_source_of_flooded hf hK cause content, if_pos ⟨rfl, hnotBelow⟩]
      exact stays_beside_source hstable (hkind.symm ▸ hrange) hfull hsources
    | flow cause content down level =>
      rw [view_flow hf (content.symm ▸ flowing_of_flows hf hK cause), if_pos content,
        decide_eq_false hnotBelow]
      refine stays_beside_flow hstable ?_
      rcases hflowed cause with hdown | hlower
      · rw [reach_falling hopposite (down.trans hdown)]
        exact le_trans (by decide) (MapNode.liquidLevel_nonneg _)
      · refine le_trans (reach_sameLevel hopposite) (max_le ?_ ?_)
        · exact le_trans (by decide) (MapNode.liquidLevel_nonneg _)
        · rw [level]
          exact hlower

theorem not_changes_of_flooded
    (hafter : p0 + d.1 ∉ enqueuedAfter f n.getContent (surroundings f g p0)) :
    ¬ Changes f (Function.update g p0 n) (p0 + d.1) := by
  have hwet := wet_of_flooded hf hK hbecomes
  refine not_changes_neighbor hf hthin hd hstable (fun hopen => ?_) fun hflowing => ?_
  · by_contra hupper
    have hopens : NodeNeighbor.opens f ⟨g (p0 + d.1), d.2, p0 + d.1⟩ = true :=
      decide_eq_true ⟨hopen.type, hopen.floodable⟩
    exact hafter (mem_enqueuedAfter_liquid _ hwet
      (.inr (mem_airs_surroundings (mem_neighbors hd) hopens)) hupper)
  · by_cases hupper : d.2 = .upper
    · exact not_changes_above_flooded hf hthin hd hn0 hK hbecomes hsettles hstable hkept hflowing
        hupper
    · by_cases hkind : (g (p0 + d.1)).getContent = K
      · exact not_changes_same_flooded hf hthin hd hn0 hK hbecomes hsettles hstable hkept hafter
          hflowing hupper hkind
      · refine not_changes_flowing hf hthin hd hflowing ?_ hstable
        have hdown : decide (d.2.opposite = .lower) = false :=
          decide_eq_false fun h => hupper (opposite_lower h)
        have hbefore : NodeNeighbor.view f (g (p0 + d.1)).getContent ⟨g p0, d.2.opposite, p0⟩ =
            ⟨0, -1, decide (d.2.opposite = .lower), false⟩ := view_floodable hn0
        rw [hbefore, hdown]
        exact view_flooded_other hf hK hbecomes (Ne.symm hkind) rfl

end

/-! ### A node that was a flow -/

section

variable (hf : f.Consistent) (hn0 : (f (g p0).getContent).liquidType = .flowing)

include hf hn0

theorem mem_flows_of_flowing (hnb : nb ∈ neighbors g p0) (hfeeds : nb.feeds f (g p0).getContent = true) :
    nb ∈ (surroundings f g p0).flows := by
  have hstart : startKind f (g p0) = (g p0).getContent := by
    rw [startKind, hn0]
  rw [surroundings, hstart, Surroundings.mem_flows_foldl_collect (flowAt_of_flowing hf hn0).notAir]
  exact .inr ⟨hnb, hfeeds⟩

theorem sourceOf_flow {v : View} (cause : Renews f (g p0).getContent v)
    (content : nb.n.getContent = (f (g p0).getContent).liquidAlternativeSourceId) (K' : UInt16) :
    nb.view f K' =
      if (g p0).getContent = K' ∧ nb.t ≠ .lower then ⟨1, -1, false, false⟩ else View.zero := by
  have hwet : (f (g p0).getContent).liquidType ≠ .none := by
    rw [hn0]
    decide
  have hkind := hf.flowing _ hn0
  have hcontent : nb.n.getContent =
      (f (f (g p0).getContent).liquidAlternativeFlowingId).liquidAlternativeSourceId := by
    rw [hkind]
    exact content
  have h := view_renewed hf hwet (hkind.symm ▸ cause.2) hcontent K'
  rw [hkind] at h
  exact h

theorem wet_of_flow {v : View} (hbecomes : FlowBecomes f v (g p0) n) (hair : n.getContent ≠ contentAir) :
    (f n.getContent).liquidType ≠ .none := by
  cases hbecomes with
  | renewed cause content =>
    rw [content, ((hf.flowingSource _ hn0).resolve_left cause.2).1]
    decide
  | flow _ content _ _ =>
    rw [content, hn0]
    decide
  | dried _ content => exact absurd content hair

/-- A flow of the same liquid that is not above is queued, and when the node dries any is. -/
theorem mem_enqueuedAfter_of_flow
    (hbecomes : FlowBecomes f (view f (g p0).getContent (neighbors g p0)) (g p0) n) (hd : d ∈ liquid6dirs)
    (hflowing : (f (g (p0 + d.1)).getContent).liquidType = .flowing)
    (hkind : (g (p0 + d.1)).getContent = (g p0).getContent)
    (hcase : d.2 ≠ .upper ∨ n.getContent = contentAir) :
    p0 + d.1 ∈ enqueuedAfter f n.getContent (surroundings f g p0) := by
  have hfeeds := feeds_flowing ⟨g (p0 + d.1), d.2, p0 + d.1⟩ hf hflowing hkind
  have hflows := mem_flows_of_flowing hf hn0 (mem_neighbors hd) hfeeds
  by_cases hair : n.getContent = contentAir
  · exact mem_enqueuedAfter_none ⟨g (p0 + d.1), d.2, p0 + d.1⟩ (hair ▸ hf.air.1) hflows
  · exact mem_enqueuedAfter_liquid ⟨g (p0 + d.1), d.2, p0 + d.1⟩
      (wet_of_flow hf hn0 hbecomes hair) (.inl hflows) (hcase.resolve_right hair)

end

theorem floodable_of_air (hf : f.Consistent) (hair : n.getContent = contentAir) : Floodable f n := by
  refine ⟨?_, ?_⟩
  · rw [hair]
    exact hf.air.1
  · rw [hair]
    exact hf.air.2

/-- A flow of the same liquid above does not notice unless its way down is closed. -/
theorem not_changes_above_flow (hf : f.Consistent) (hthin : f.Thin) (hd : d ∈ liquid6dirs)
    (hn0 : (f (g p0).getContent).liquidType = .flowing)
    (hbecomes : FlowBecomes f (view f (g p0).getContent (neighbors g p0)) (g p0) n)
    (hrenewed : ¬ Renews f (g p0).getContent (view f (g p0).getContent (neighbors g p0)))
    (hair : n.getContent ≠ contentAir) (hstable : ¬ Changes f g (p0 + d.1))
    (hflowing : (f (g (p0 + d.1)).getContent).liquidType = .flowing)
    (hkind : (g (p0 + d.1)).getContent = (g p0).getContent) (hupper : d.2 = .upper) :
    ¬ Changes f (Function.update g p0 n) (p0 + d.1) := by
  refine not_changes_flowing hf hthin hd hflowing ?_ hstable
  have hlower : d.2.opposite = .lower := by
    rw [hupper]
    rfl
  cases hbecomes with
  | renewed cause _ => exact absurd cause hrenewed
  | flow _ content _ _ =>
    rw [hkind, view_flow hf (content.symm ▸ hn0), view_flow hf hn0, content, reach_lower hlower,
      reach_lower hlower]
  | dried _ content => exact absurd content hair

/-- A flow of another liquid does not notice unless a way down is opened below it. -/
theorem view_flow_other (hf : f.Consistent) {v : View} {K' : UInt16} {t : NeighborType}
    (hn0 : (f (g p0).getContent).liquidType = .flowing) (hbecomes : FlowBecomes f v (g p0) n)
    (hne : (g p0).getContent ≠ K') (hdried : t = .lower → ¬ Dries f (g p0).getContent v) :
    NodeNeighbor.view f K' ⟨n, t, p0⟩ = NodeNeighbor.view f K' ⟨g p0, t, p0⟩ := by
  have hbefore : NodeNeighbor.view f K' ⟨g p0, t, p0⟩ = View.zero := by
    rw [view_flow hf hn0]
    exact if_neg hne
  rw [hbefore]
  cases hbecomes with
  | renewed cause content =>
    rw [sourceOf_flow hf hn0 cause content]
    exact if_neg fun h => hne h.1
  | flow _ content _ _ =>
    rw [view_flow hf (content.symm ▸ hn0), content]
    exact if_neg hne
  | dried cause content =>
    have hnotLower : decide (t = .lower) = false :=
      decide_eq_false fun hlower => hdried hlower cause
    rw [view_floodable (floodable_of_air hf content), hnotLower]
    rfl

theorem not_changes_of_flow (hf : f.Consistent) (hthin : f.Thin) (hd : d ∈ liquid6dirs)
    (hn0 : (f (g p0).getContent).liquidType = .flowing)
    (hbecomes : FlowBecomes f (view f (g p0).getContent (neighbors g p0)) (g p0) n)
    (hsettles : Settles f g queue p0) (hstable : ¬ Changes f g (p0 + d.1))
    (hkept : p0 + d.1 ∉ queue)
    (halways : p0 + d.1 ∉ enqueuedAlways f (g p0) (surroundings f g p0))
    (hafter : p0 + d.1 ∉ enqueuedAfter f n.getContent (surroundings f g p0)) :
    ¬ Changes f (Function.update g p0 n) (p0 + d.1) := by
  have hwet : (f (g p0).getContent).liquidType ≠ .none := by
    rw [hn0]
    decide
  refine not_changes_neighbor hf hthin hd hstable (fun hopen => ?_) fun hflowing => ?_
  · by_contra hupper
    have hopens : NodeNeighbor.opens f ⟨g (p0 + d.1), d.2, p0 + d.1⟩ = true :=
      decide_eq_true ⟨hopen.type, hopen.floodable⟩
    exact halways (mem_enqueuedAlways hwet (mem_airs_surroundings (mem_neighbors hd) hopens) hupper)
  · have habove : d.2 = .upper → _ := fun hupper => by
      have habove := hsettles.above _ (.inl ⟨hn0, rfl⟩)
      rw [← dir_upper hd hupper] at habove
      exact habove hkept hflowing
    by_cases hkind : (g p0).getContent = (g (p0 + d.1)).getContent
    · have hqueued := mem_enqueuedAfter_of_flow hf hn0 hbecomes hd hflowing hkind.symm
      have hupper : d.2 = .upper := by
        by_contra hupper
        exact hafter (hqueued (.inl hupper))
      have hrenewed := habove hupper
      rw [if_pos hkind] at hrenewed
      exact not_changes_above_flow hf hthin hd hn0 hbecomes hrenewed
        (fun hair => hafter (hqueued (.inr hair))) hstable hflowing hkind.symm hupper
    · refine not_changes_flowing hf hthin hd hflowing ?_ hstable
      refine view_flow_other hf hn0 hbecomes hkind fun hlower => ?_
      have hdried := habove (opposite_lower hlower)
      rw [if_neg hkind] at hdried
      exact hdried.2 hn0

/-! ### The changed node itself -/

theorem not_changes_self_flooded (hf : f.Consistent) (hthin : f.Thin)
    (hK : chosen f (neighbors g p0) = some K)
    (hbecomes : FloodedBecomes f K (view f K (neighbors g p0)) n) :
    ¬ Changes f (Function.update g p0 n) p0 := by
  have hself : Function.update g p0 n p0 = n := Function.update_self _ _ _
  cases hbecomes with
  | renewed cause content =>
    rcases wet_of_chosen hK with ⟨c, hwet, rfl⟩
    refine not_changes_source hf ?_
    rw [hself, content]
    exact (hf.source_of_kind hwet cause.2).1
  | flow cause content down level =>
    have hflowing : (f n.getContent).liquidType = .flowing := by
      rw [content]
      exact flowing_of_flows hf hK cause
    rw [not_changes_flowing_iff hf hthin (hself.symm ▸ hflowing), hself, neighbors_update_self,
      content]
    exact .inr ⟨content.symm ▸ cause.1, down, .inr ⟨content.symm ▸ cause.2.1, level⟩⟩

theorem not_changes_self_flow (hf : f.Consistent) (hthin : f.Thin)
    (hn0 : (f (g p0).getContent).liquidType = .flowing)
    (hbecomes : FlowBecomes f (view f (g p0).getContent (neighbors g p0)) (g p0) n)
    (hsettles : Settles f g queue p0) : ¬ Changes f (Function.update g p0 n) p0 := by
  have hself : Function.update g p0 n p0 = n := Function.update_self _ _ _
  cases hbecomes with
  | renewed cause content =>
    refine not_changes_source hf ?_
    rw [hself, content]
    exact ((hf.flowingSource _ hn0).resolve_left cause.2).1
  | flow cause content down level =>
    rw [not_changes_flowing_iff hf hthin (hself.symm ▸ content.symm ▸ hn0), hself,
      neighbors_update_self, content]
    refine .inr ⟨content.symm ▸ cause, down, level.imp id fun h => ⟨content.symm ▸ h.1, h.2⟩⟩
  | dried cause content =>
    have hopen := floodable_of_air hf content
    rw [changes_floodable_iff hf hthin (hself.symm ▸ hopen), neighbors_update_self]
    exact hsettles.dried hn0 cause

/-! ### The node that is placed -/

/-- What is placed is what was decided, but for its light. -/
theorem FloodedBecomes.clearLight (h : FloodedBecomes f K v n) (flags : ContentLightingFlags) :
    FloodedBecomes f K v (n.clearLight flags) := by
  have hcontent : (n.clearLight flags).getContent = n.getContent := MapNode.param0_clearLight n flags
  cases h with
  | renewed cause content => exact .renewed cause (hcontent.trans content)
  | flow cause content down level =>
    refine .flow cause (hcontent.trans content) ?_ ?_
    · rw [MapNode.flowsDown, MapNode.param2_clearLight]
      exact down
    · rw [MapNode.liquidLevel, MapNode.param2_clearLight]
      exact level

theorem FlowBecomes.clearLight {n0 : MapNode} (h : FlowBecomes f v n0 n) (flags : ContentLightingFlags) :
    FlowBecomes f v n0 (n.clearLight flags) := by
  have hcontent : (n.clearLight flags).getContent = n.getContent := MapNode.param0_clearLight n flags
  cases h with
  | renewed cause content => exact .renewed cause (hcontent.trans content)
  | flow cause content down level =>
    refine .flow cause (hcontent.trans content) ?_ ?_
    · rw [MapNode.flowsDown, MapNode.param2_clearLight]
      exact down
    · rw [MapNode.liquidLevel, MapNode.param2_clearLight]
      exact level
  | dried cause content => exact .dried cause (hcontent.trans content)

/-- The node that changes was floodable or a flow. -/
theorem type_of_rule (hf : f.Consistent) (hrule : liquidRule f g p0 = some n)
    (hn : n.getContent ≠ contentIgnore) :
    Floodable f (g p0) ∨ (f (g p0).getContent).liquidType = .flowing := by
  have hchanges : Changes f g p0 := ⟨n, hrule, hn⟩
  cases htype : (f (g p0).getContent).liquidType with
  | none =>
    cases hfloodable : (f (g p0).getContent).floodable with
    | true => exact .inl ⟨htype, hfloodable⟩
    | false =>
      refine absurd hchanges (not_changes_passed_over ?_)
      rw [isPassedOver, htype, hfloodable]
      rfl
  | source => exact absurd hchanges (not_changes_source hf htype)
  | flowing => exact .inr rfl

/-- After the change what would change is queued. -/
theorem not_changes_update {q : V3s16} (hf : f.Consistent) (hthin : f.Thin)
    (hrule : liquidRule f g p0 = some n) (hn : n.getContent ≠ contentIgnore)
    (flags : ContentLightingFlags) (hsettles : Settles f g queue p0)
    (hstable : q ≠ p0 → ¬ Changes f g q) (hkept : q ∉ queue)
    (halways : q ∉ enqueuedAlways f (g p0) (surroundings f g p0))
    (hafter : q ∉ enqueuedAfter f n.getContent (surroundings f g p0)) :
    ¬ Changes f (Function.update g p0 (n.clearLight flags)) q := by
  have hcontent : (n.clearLight flags).getContent = n.getContent := MapNode.param0_clearLight n flags
  rw [← hcontent] at hafter
  by_cases hself : q = p0
  · subst hself
    rcases type_of_rule hf hrule hn with hn0 | hn0
    · rcases becomes_of_floodable hf hthin hn0 hrule hn with ⟨K, hK, hbecomes⟩
      exact not_changes_self_flooded hf hthin hK (hbecomes.clearLight flags)
    · exact not_changes_self_flow hf hthin hn0
        ((becomes_of_flowing hf hthin hn0 hrule hn).clearLight flags) hsettles
  · by_cases hfar : ∀ d ∈ liquid6dirs, q ≠ p0 + d.1
    · rw [changes_update_far hself hfar]
      exact hstable hself
    · simp only [not_forall, not_not] at hfar
      rcases hfar with ⟨d, hd, rfl⟩
      rcases type_of_rule hf hrule hn with hn0 | hn0
      · rcases becomes_of_floodable hf hthin hn0 hrule hn with ⟨K, hK, hbecomes⟩
        exact not_changes_of_flooded hf hthin hd hn0 hK (hbecomes.clearLight flags) hsettles
          (hstable hself) hkept hafter
      · exact not_changes_of_flow hf hthin hd hn0
          ((becomes_of_flowing hf hthin hn0 hrule hn).clearLight flags) hsettles (hstable hself)
          hkept halways hafter

end

end Map
end AxisEngine
