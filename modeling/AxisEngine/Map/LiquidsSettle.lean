import AxisEngine.Map.LiquidChange

/-!
# LiquidsSettle — when the queue is empty, nothing is left to flow

Every position that the rule would change is queued, from the beginning to the end, as long as every
change settles.

* `covers_step`, `covers_loop` — every position that would change is queued;
* `liquidsSettle` — with an empty queue the rule changes nothing;
* `flow_above_sources` — a change that does not settle.
-/

namespace AxisEngine
namespace Map

/-! ## The queue covers every position that would change -/

section

variable {f : Features} {l l' : LiquidState} {p0 : V3s16} {rest : List V3s16} {n : Nat}

/-- Every position that the rule would change is queued. -/
def LiquidState.Covers (f : Features) (l : LiquidState) : Prop :=
  ∀ p, Changes f l.map.getNode p → p ∈ l.queue

/-- No callback refuses a change. -/
def neverRefused : OnFlood := fun _ _ _ => false

theorem covers_step (hf : f.Consistent) (hthin : f.Thin) (hl : l.Covers f)
    (hqueue : l.queue = p0 :: rest) (hsettles : Settles f l.map.getNode rest p0)
    (hstep : liquidStep f neverRefused { l with queue := rest } p0 = some l') : l'.Covers f := by
  have hrest : ∀ p, p ≠ p0 → Changes f l.map.getNode p → p ∈ rest := by
    intro p hp hchanges
    have hmem := hl p hchanges
    rw [hqueue, List.mem_cons] at hmem
    exact hmem.resolve_left hp
  intro p hp
  rcases liquidStep_cases hstep with hkept | ⟨n, hplaced⟩
  · rw [hkept.map] at hp
    refine hkept.queue p (hrest p (fun hself => ?_) hp)
    subst hself
    rcases hkept.reason with hnone | ⟨n, hrefused⟩
    · rcases hp with ⟨n, hrule, _⟩
      rw [hnone] at hrule
      cases hrule
    · cases hrefused
  · by_cases hignore : n.getContent = contentIgnore
    · have hsame : l'.map.getNode = l.map.getNode :=
        ServerMap.getNode_setNode_ignore hplaced.map ((MapNode.param0_clearLight n _).trans hignore)
      rw [hsame] at hp
      refine (hplaced.queue p).2 (.inl (.inl (hrest p (fun hself => ?_) hp)))
      subst hself
      rcases hp with ⟨n', hrule, hn'⟩
      rw [hplaced.rule, Option.some.injEq] at hrule
      exact hn' (hrule ▸ hignore)
    · have hnew : l'.map.getNode =
          Function.update l.map.getNode p0 (n.clearLight (f n.getContent).lighting) := by
        refine ServerMap.getNode_setNode hplaced.map ?_
        rw [MapNode.getContent, MapNode.param0_clearLight]
        exact hignore
      by_contra hnot
      rw [hplaced.queue, not_or, not_or] at hnot
      rw [hnew] at hp
      exact not_changes_update hf hthin hplaced.rule hignore _ hsettles
        (fun hne hchanges => hnot.1.1 (hrest p hne hchanges)) hnot.1.1 hnot.1.2 hnot.2 hp

/-- In the first so many steps every change settles. -/
def SettlesFor (f : Features) (n : Nat) (l : LiquidState) : Prop :=
  ∀ j < n, ∀ lj p0 rest, liquidLoop f neverRefused j l = some lj → lj.queue = p0 :: rest →
    Settles f lj.map.getNode rest p0

theorem covers_loop (hf : f.Consistent) (hthin : f.Thin) (hl : l.Covers f)
    (hsettles : SettlesFor f n l) (h : liquidLoop f neverRefused n l = some l') : l'.Covers f := by
  induction n generalizing l with
  | zero =>
    rw [← Option.some.inj h]
    exact hl
  | succ n ih =>
    rw [liquidLoop] at h
    split at h
    · rw [← Option.some.inj h]
      exact hl
    · rename_i p0 rest hqueue
      split at h
      · cases h
      · rename_i next hstep
        have hfirst : Settles f l.map.getNode rest p0 :=
          hsettles 0 (Nat.succ_pos n) l p0 rest rfl hqueue
        refine ih (covers_step hf hthin hl hqueue hfirst hstep) (fun j hj => ?_) h
        intro lj p rest' hloop
        refine hsettles (j + 1) (Nat.succ_lt_succ hj) lj p rest' ?_
        rw [liquidLoop, hqueue]
        dsimp only
        rw [hstep]
        exact hloop

end

/-! ## Light does not matter -/

section

variable {f : Features} {m m' : ServerMap} {p : V3s16}

theorem view_relit (h : m.Relit m') (K : UInt16) (p : V3s16) :
    view f K (neighbors m'.getNode p) = view f K (neighbors m.getNode p) := by
  refine view_congr ?_
  rw [neighbors, neighbors, List.map_map, List.map_map]
  refine List.map_congr_left fun d _ => ?_
  rcases h (p + d.1) with ⟨light, hlight⟩
  rw [Function.comp_apply, Function.comp_apply, hlight]
  rfl

theorem chosen_relit (h : m.Relit m') (p : V3s16) :
    chosen f (neighbors m'.getNode p) = chosen f (neighbors m.getNode p) := by
  rw [chosen, chosen, neighbors, neighbors, List.findSome?_map, List.findSome?_map]
  have hsame : NodeNeighbor.choice f ∘ (fun d : V3s16 × NeighborType => ⟨m'.getNode (p + d.1), d.2, p + d.1⟩) =
      NodeNeighbor.choice f ∘ (fun d : V3s16 × NeighborType => ⟨m.getNode (p + d.1), d.2, p + d.1⟩) := by
    funext d
    rcases h (p + d.1) with ⟨light, hlight⟩
    rw [Function.comp_apply, Function.comp_apply, hlight]
    rfl
  rw [hsame]

theorem changes_relit (hf : f.Consistent) (hthin : f.Thin) (h : m.Relit m')
    (hstable : ¬ Changes f m.getNode p) : ¬ Changes f m'.getNode p := by
  rcases h p with ⟨light, hlight⟩
  cases htype : (f (m.getNode p).getContent).liquidType with
  | none =>
    cases hfloodable : (f (m.getNode p).getContent).floodable with
    | true =>
      have hn : Floodable f (m.getNode p) := ⟨htype, hfloodable⟩
      have hn' : Floodable f (m'.getNode p) := by
        rw [hlight]
        exact ⟨htype, hfloodable⟩
      rw [changes_floodable_iff hf hthin hn, Fills] at hstable
      rw [changes_floodable_iff hf hthin hn', Fills, chosen_relit h]
      simp only [view_relit h]
      exact hstable
    | false =>
      refine not_changes_passed_over ?_
      have hpassed : isPassedOver f (m.getNode p) = true := by
        rw [isPassedOver, htype, hfloodable]
        rfl
      rw [hlight]
      exact hpassed
  | source =>
    refine not_changes_source hf ?_
    rw [hlight]
    exact htype
  | flowing =>
    rw [not_changes_flowing_iff hf hthin htype] at hstable
    have htype' : (f (m'.getNode p).getContent).liquidType = .flowing := by
      rw [hlight]
      exact htype
    rw [not_changes_flowing_iff hf hthin htype', view_relit h, hlight]
    exact hstable

end

/-! ## Water in stone -/

theorem liquidLoop_one {f : Features} {m m' : ServerMap} {p0 : V3s16} {n : MapNode}
    (hrule : liquidRule f m.getNode p0 = some n)
    (hreflow : (decideNode f (m.getNode p0) (surroundings f m.getNode p0)).mustReflow = false)
    (halways : enqueuedAlways f (m.getNode p0) (surroundings f m.getNode p0) = [])
    (hafter : enqueuedAfter f n.getContent (surroundings f m.getNode p0) = [])
    (hset : m.setNode p0 (n.clearLight (f n.getContent).lighting) = some m') :
    ∃ l, (∀ k, liquidLoop f neverRefused (k + 1) { map := m, queue := [p0] } = some l) ∧
      l.map = m' ∧ l.queue = [] ∧ l.mustReflow = [] := by
  have hpassed : isPassedOver f (m.getNode p0) = false := by
    rw [liquidRule] at hrule
    split at hrule
    · cases hrule
    · rename_i hchanged
      rw [Bool.or_eq_true, not_or] at hchanged
      exact Bool.eq_false_of_not_eq_true hchanged.1
  rcases liquidRule_eq_some hrule with ⟨hchanged, rfl⟩
  have haccepted : ¬ (floodableNode f (m.getNode p0) ≠ contentAir ∧
      neverRefused p0 (m.getNode p0) (changedNode f (m.getNode p0) (surroundings f m.getNode p0)
        (decideNode f (m.getNode p0) (surroundings f m.getNode p0))) = true) :=
    fun h => Bool.false_ne_true h.2
  have hstep : ∃ l, liquidStep f neverRefused { map := m, queue := [] } p0 = some l ∧
      l.map = m' ∧ l.queue = [] ∧ l.mustReflow = [] := by
    rw [liquidStep, hpassed]
    dsimp only
    rw [if_neg Bool.false_ne_true, if_neg hchanged, if_neg haccepted, hset]
    dsimp only
    rw [halways, hafter, hreflow]
    exact ⟨_, rfl, rfl, rfl, rfl⟩
  rcases hstep with ⟨l, hl, hmap, hqueue, hnone⟩
  refine ⟨l, fun k => ?_, hmap, hqueue, hnone⟩
  rw [liquidLoop]
  dsimp only
  rw [hl]
  cases k with
  | zero => rfl
  | succ k =>
    dsimp only
    rw [liquidLoop, hqueue]

theorem withWater_other {c : UInt16} (hair : c ≠ contentAir) (hsource : c ≠ waterSource)
    (hflowing : c ≠ waterFlowing) : withWater c = {} := by
  rw [withWater]
  dsimp only
  rw [if_neg hair, if_neg hsource, if_neg hflowing]

theorem withWater_cases (c : UInt16) :
    c = contentAir ∨ c = waterSource ∨ c = waterFlowing ∨ withWater c = {} := by
  by_cases hair : c = contentAir
  · exact .inl hair
  · by_cases hsource : c = waterSource
    · exact .inr (.inl hsource)
    · by_cases hflowing : c = waterFlowing
      · exact .inr (.inr (.inl hflowing))
      · exact .inr (.inr (.inr (withWater_other hair hsource hflowing)))

theorem consistent_withWater : withWater.Consistent := by
  have hwater : ∀ c, (withWater c).liquidType ≠ .none → c = waterSource ∨ c = waterFlowing := by
    intro c hc
    rcases withWater_cases c with rfl | rfl | rfl | hsolid
    · exact absurd rfl hc
    · exact .inl rfl
    · exact .inr rfl
    · rw [hsolid] at hc
      exact absurd rfl hc
  have hne : ∀ {c : UInt16} {t : LiquidType}, (withWater c).liquidType = t → t ≠ .none →
      c = waterSource ∨ c = waterFlowing := fun h ht => hwater _ (h.symm ▸ ht)
  refine ⟨⟨rfl, rfl⟩, fun c hc => ?_, fun c hc => ?_, fun c hc => ?_, fun c hc => ?_⟩
  · rcases hne hc (by decide) with rfl | rfl
    · cases hc
    · rfl
  · rcases hwater c hc with rfl | rfl
    · exact .inr (.inl rfl)
    · exact .inr (.inl rfl)
  · rcases hne hc (by decide) with rfl | rfl
    · exact .inr rfl
    · cases hc
  · rcases hne hc (by decide) with rfl | rfl
    · cases hc
    · exact .inr ⟨rfl, rfl⟩

theorem thin_withWater : withWater.Thin := by
  intro c hc
  rcases withWater_cases c with rfl | rfl | rfl | hsolid
  · exact absurd rfl hc
  · decide
  · decide
  · rw [hsolid] at hc
    exact absurd rfl hc

/-- A block of stone with other nodes in some places. -/
def inStone (nodes : List (V3s16 × MapNode)) : ServerMap where
  blocks := Function.update (fun _ => none) ⟨0, 0, 0⟩ (some (nodes.foldr
    (fun pn b => b.setNodeNoCheck (nodeIndex pn.1) pn.2) { data := .mono { param0 := 1 } }))

section

variable {nodes : List (V3s16 × MapNode)} {p : V3s16}

theorem blocks_inStone (nodes : List (V3s16 × MapNode)) :
    (inStone nodes).blocks = Function.update (fun _ => none) ⟨0, 0, 0⟩ (some (nodes.foldr
      (fun pn b => b.setNodeNoCheck (nodeIndex pn.1) pn.2) { data := .mono { param0 := 1 } })) := rfl

section

variable (hnodes : ∀ pn ∈ nodes, getNodeBlockPos pn.1 = ⟨0, 0, 0⟩)

include hnodes

theorem getNode_inStone :
    (inStone nodes).getNode =
      nodes.foldr (fun pn g => Function.update g pn.1 pn.2) (inStone []).getNode := by
  induction nodes with
  | nil => rfl
  | cons pn nodes ih =>
    rw [List.forall_mem_cons] at hnodes
    have hblock : (inStone nodes).blocks (getNodeBlockPos pn.1) = some (nodes.foldr
        (fun pn b => b.setNodeNoCheck (nodeIndex pn.1) pn.2) { data := .mono { param0 := 1 } }) := by
      rw [hnodes.1, blocks_inStone, Function.update_self]
    have hset : inStone (pn :: nodes) = (inStone nodes).setBlock (getNodeBlockPos pn.1)
        (some (MapBlock.setNodeNoCheck (nodes.foldr (fun pn b => b.setNodeNoCheck (nodeIndex pn.1)
          pn.2) { data := .mono { param0 := 1 } }) (nodeIndex pn.1) pn.2)) := by
      rw [ServerMap.setBlock, hnodes.1, inStone, inStone, Function.update_idem]
      rfl
    rw [hset, ServerMap.getNode_setBlock (n := pn.2) hblock, ih hnodes.2, List.foldr_cons]
    · rw [MapBlock.get_setNodeNoCheck, if_pos rfl]
    · intro i hi
      rw [MapBlock.get_setNodeNoCheck, if_neg (Ne.symm hi)]

/-- Everywhere else is stone, or nothing is loaded. -/
theorem passed_inStone (hp : ∀ pn ∈ nodes, p ≠ pn.1) :
    isPassedOver withWater ((inStone nodes).getNode p) = true := by
  have hstone : (inStone nodes).getNode p = (inStone []).getNode p := by
    rw [getNode_inStone hnodes]
    clear hnodes
    induction nodes with
    | nil => rfl
    | cons pn nodes ih =>
      rw [List.forall_mem_cons] at hp
      rw [List.foldr_cons, Function.update_of_ne hp.1]
      exact ih hp.2
  rw [hstone, ServerMap.getNode, blocks_inStone]
  by_cases hpos : getNodeBlockPos p = ⟨0, 0, 0⟩
  · rw [hpos, Function.update_self]
    rfl
  · rw [Function.update_of_ne hpos]
    rfl

/-- Only what is listed can change. -/
theorem changes_inStone {queue : List V3s16}
    (hrest : ∀ pn ∈ nodes, pn.1 ∉ queue → liquidRule withWater (nodes.foldr
      (fun pn g => Function.update g pn.1 pn.2) (inStone []).getNode) pn.1 = none)
    (h : Changes withWater (inStone nodes).getNode p) : p ∈ queue := by
  by_cases hother : ∀ pn ∈ nodes, p ≠ pn.1
  · exact absurd h (not_changes_passed_over (passed_inStone hnodes hother))
  · simp only [not_forall, not_not] at hother
    rcases hother with ⟨pn, hpn, rfl⟩
    rw [getNode_inStone hnodes] at h
    by_contra hmem
    rcases h with ⟨n, hrule, _⟩
    rw [hrest pn hpn hmem] at hrule
    cases hrule

/-- The neighbours of what is listed have to be loaded. -/
theorem loaded_near_inStone
    (hnear : ∀ pn ∈ nodes, ∀ d ∈ liquid6dirs, (nodes.foldr
      (fun pn g => Function.update g pn.1 pn.2) (inStone []).getNode (pn.1 + d.1)).getContent ≠
        contentIgnore) (hwet : (withWater ((inStone nodes).getNode p).getContent).liquidType ≠ .none)
    (d : V3s16 × NeighborType) (hd : d ∈ liquid6dirs) :
    ((inStone nodes).getNode (p + d.1)).getContent ≠ contentIgnore := by
  by_cases hother : ∀ pn ∈ nodes, p ≠ pn.1
  · have hpassed := passed_inStone hnodes hother
    rw [isPassedOver, Bool.and_eq_true] at hpassed
    exact absurd (of_decide_eq_true hpassed.1) hwet
  · simp only [not_forall, not_not] at hother
    rcases hother with ⟨pn, hpn, rfl⟩
    rw [getNode_inStone hnodes]
    exact hnear pn hpn d hd

end

end

/-! ## Liquids settle -/

/-- When the whole queue has been processed, and in every step the change settled, the rule changes
nothing any more. -/
theorem liquidsSettle {f : Features} (hf : f.Consistent) (hthin : f.Thin)
    {writes : List (V3s16 × UInt8)} {m : ServerMap} {queue : List V3s16} {liquidLoopMax : Nat}
    {l : LiquidState} (hqueue : ∀ p, Changes f m.getNode p → p ∈ queue)
    (hsettles : SettlesFor f liquidLoopMax { map := m, queue := queue })
    (h : transformLiquidsLocal f neverRefused writes m queue liquidLoopMax = some l)
    (hempty : l.queue = []) (p : V3s16) : ¬ Changes f l.map.getNode p := by
  rw [transformLiquidsLocal] at h
  split at h
  · cases h
  · rename_i last hloop
    have hstart : LiquidState.Covers f { map := m, queue := queue } := hqueue
    have hcovers : last.Covers f := covers_loop hf hthin hstart hsettles hloop
    rw [← Option.some.inj h] at hempty ⊢
    change pushAll last.queue last.mustReflow = [] at hempty
    refine changes_relit hf hthin (ServerMap.relit_relight writes last.map) fun hchanges => ?_
    have hmem : p ∈ pushAll last.queue last.mustReflow := mem_pushAll.2 (.inl (hcovers p hchanges))
    rw [hempty] at hmem
    exact List.not_mem_nil hmem

/-- Air between a source and stone. -/
def sourceInStone : List (V3s16 × MapNode) :=
  [(⟨5, 5, 5⟩, { param0 := contentAir }), (⟨4, 5, 5⟩, { param0 := waterSource })]

theorem sourceInStone_inBlock : ∀ pn ∈ sourceInStone, getNodeBlockPos pn.1 = ⟨0, 0, 0⟩ := by decide

theorem settles_sourceInStone :
    Settles withWater (inStone sourceInStone).getNode [] ⟨5, 5, 5⟩ := by
  rw [getNode_inStone sourceInStone_inBlock]
  have habove : (withWater (sourceInStone.foldr (fun pn g => Function.update g pn.1 pn.2)
      (inStone []).getNode (⟨5, 5, 5⟩ + ⟨0, 1, 0⟩)).getContent).liquidType ≠ .flowing := by decide
  have hair : (withWater (sourceInStone.foldr (fun pn g => Function.update g pn.1 pn.2)
      (inStone []).getNode ⟨5, 5, 5⟩).getContent).liquidType ≠ .flowing := by decide
  have hbeside : ∀ nb ∈ neighbors (sourceInStone.foldr (fun pn g => Function.update g pn.1 pn.2)
      (inStone []).getNode) ⟨5, 5, 5⟩, nb.type withWater ≠ .flowing := by decide
  refine ⟨fun K _ _ hflowing => absurd hflowing habove, fun hflowing => absurd hflowing hair, ?_⟩
  intro K _ _ nb hnb hfeeds
  have hmem := (List.takeWhile_sublist _).subset hnb
  exact absurd (of_decide_eq_true hfeeds).1 (hbeside nb hmem)

theorem loaded_inStone (nodes : List (V3s16 × MapNode)) {p : V3s16}
    (hp : getNodeBlockPos p = ⟨0, 0, 0⟩) : (inStone nodes).Loaded p := by
  rw [ServerMap.Loaded, hp, blocks_inStone, Function.update_self]
  rfl

/-- The queue of one position in stone. -/
theorem transformLiquidsLocal_inStone {nodes : List (V3s16 × MapNode)} {p0 : V3s16} {n : MapNode}
    (hp0 : getNodeBlockPos p0 = ⟨0, 0, 0⟩)
    (hrule : liquidRule withWater (inStone nodes).getNode p0 = some n)
    (hreflow : (decideNode withWater ((inStone nodes).getNode p0)
      (surroundings withWater (inStone nodes).getNode p0)).mustReflow = false)
    (halways : enqueuedAlways withWater ((inStone nodes).getNode p0)
      (surroundings withWater (inStone nodes).getNode p0) = [])
    (hafter : enqueuedAfter withWater n.getContent
      (surroundings withWater (inStone nodes).getNode p0) = [])
    (hn : n.clearLight (withWater n.getContent).lighting = n)
    (hplaced : n.getContent ≠ contentIgnore) :
    ∃ last l, (∀ k, liquidLoop withWater neverRefused (k + 1)
        { map := inStone nodes, queue := [p0] } = some last) ∧ last.queue = [] ∧
      (∀ k, transformLiquidsLocal withWater neverRefused [] (inStone nodes) [p0] (k + 1) = some l) ∧
        l.queue = [] ∧ l.map.getNode = Function.update (inStone nodes).getNode p0 n := by
  rcases Option.ne_none_iff_exists'.1 (ServerMap.setNode_ne_none (n := n)
    (loaded_inStone nodes hp0)) with ⟨m', hset⟩
  rcases liquidLoop_one hrule hreflow halways hafter (hn.symm ▸ hset) with
    ⟨l, hloop, hmap, hqueue, hnone⟩
  refine ⟨l, { l with queue := [], map := l.map }, hloop, hqueue, fun k => ?_, rfl, ?_⟩
  · rw [transformLiquidsLocal, hloop]
    dsimp only
    rw [hqueue, hnone]
    rfl
  · dsimp only
    rw [hmap]
    exact ServerMap.getNode_setNode hset hplaced

/-- The water flows into the air, and nothing is left to flow. -/
theorem liquidsSettle_sourceInStone : ∃ l,
    transformLiquidsLocal withWater neverRefused [] (inStone sourceInStone) [⟨5, 5, 5⟩] 10 = some l ∧
      l.map.getNode ⟨5, 5, 5⟩ = { param0 := waterFlowing, param2 := 0x07 } ∧
        ∀ p, ¬ Changes withWater l.map.getNode p := by
  have hget := getNode_inStone sourceInStone_inBlock
  have hpos : getNodeBlockPos ⟨5, 5, 5⟩ = ⟨0, 0, 0⟩ := by decide
  have hrule : liquidRule withWater (inStone sourceInStone).getNode ⟨5, 5, 5⟩ =
      some { param0 := waterFlowing, param2 := 0x07 } := by
    rw [hget]
    decide
  rcases transformLiquidsLocal_inStone hpos hrule (by rw [hget]; decide) (by rw [hget]; decide)
    (by rw [hget]; decide) rfl (by decide) with ⟨last, l, hloop, hlast, htransform, hqueue, hnode⟩
  refine ⟨l, htransform 9, ?_, ?_⟩
  · rw [hnode, Function.update_self]
  · refine liquidsSettle consistent_withWater thin_withWater
      (fun p => changes_inStone sourceInStone_inBlock (by decide)) ?_ (htransform 9) hqueue
    intro j _ lj p0 rest hlj hnext
    cases j with
    | zero =>
      rw [← Option.some.inj hlj] at hnext ⊢
      rcases List.cons.inj hnext with ⟨rfl, rfl⟩
      exact settles_sourceInStone
    | succ j =>
      rw [hloop, Option.some.injEq] at hlj
      rw [← hlj, hlast] at hnext
      cases hnext

/-- A flow whose way down is closed by two sources that renew a third. -/
def flowAboveSources : List (V3s16 × MapNode) :=
  [(⟨5, 5, 5⟩, { param0 := contentAir }), (⟨4, 5, 5⟩, { param0 := waterSource }),
    (⟨6, 5, 5⟩, { param0 := waterSource }), (⟨5, 6, 6⟩, { param0 := waterSource }),
    (⟨5, 6, 5⟩, { param0 := waterFlowing, param2 := 0x0f })]

theorem flowAboveSources_inBlock : ∀ pn ∈ flowAboveSources, getNodeBlockPos pn.1 = ⟨0, 0, 0⟩ := by
  decide

/-- The flow above is not queued, and still falls where a source is now. -/
theorem flow_above_sources :
    ¬ ∀ (f : Features) (writes : List (V3s16 × UInt8)) (m : ServerMap) (queue : List V3s16)
      (liquidLoopMax : Nat) (l : LiquidState), f.Consistent → f.Thin →
      (∀ p, (f (m.getNode p).getContent).liquidType ≠ .none → ∀ d ∈ liquid6dirs,
        (m.getNode (p + d.1)).getContent ≠ contentIgnore) →
      (∀ p, Changes f m.getNode p → p ∈ queue) →
      transformLiquidsLocal f neverRefused writes m queue liquidLoopMax = some l → l.queue = [] →
        ∀ p, ¬ Changes f l.map.getNode p := by
  intro hclaim
  have hget := getNode_inStone flowAboveSources_inBlock
  have hpos : getNodeBlockPos ⟨5, 5, 5⟩ = ⟨0, 0, 0⟩ := by decide
  have hrule : liquidRule withWater (inStone flowAboveSources).getNode ⟨5, 5, 5⟩ =
      some { param0 := waterSource } := by
    rw [hget]
    decide
  rcases transformLiquidsLocal_inStone hpos hrule (by rw [hget]; decide) (by rw [hget]; decide)
    (by rw [hget]; decide) rfl (by decide) with ⟨_, l, _, _, htransform, hqueue, hnode⟩
  refine hclaim withWater [] (inStone flowAboveSources) [⟨5, 5, 5⟩] 10 l consistent_withWater
    thin_withWater (fun p => loaded_near_inStone flowAboveSources_inBlock (by decide))
    (fun p => changes_inStone flowAboveSources_inBlock (by decide)) (htransform 9) hqueue ⟨5, 6, 5⟩
    ⟨{ param0 := waterFlowing, param2 := 0x07 }, ?_, by decide⟩
  rw [hnode, hget]
  decide

end Map
end AxisEngine
