import AxisEngine.Map.BlockMake
import Mathlib.Data.List.ProdSigma

/-!
# BlockLocks — what operations do to the references

* `locks` — the reference count of every block that is there;
* `Extends` — new blocks may come, without references, and nothing else changes;
* `grabAll_spec`, `dropAll_spec` — one reference more, or less, for every block of an area.
-/

namespace AxisEngine
namespace Map
namespace ServerMap

/-- The reference counts. -/
def locks (m : ServerMap) (p : V3s16) : Option Nat := (m.blocks p).map MapBlock.refcount

/-- A block that was there keeps its references; a new one has none. -/
structure Extends (m m' : ServerMap) : Prop where
  chunks : m'.chunksInProgress = m.chunksInProgress
  locks : ∀ p, m'.locks p = m.locks p ∨ (m.locks p = none ∧ m'.locks p = some 0)

section

variable {m m' m'' : ServerMap} {p q : V3s16} {b b' : MapBlock} {n : MapNode} {o : Outside}
  {f : Features} {k : Nat}

theorem locks_of_block (h : m.blocks p = some b) : m.locks p = some b.refcount := by
  rw [locks, h]
  rfl

theorem locks_eq_none : m.locks p = none ↔ m.blocks p = none := by
  rw [locks, Option.map_eq_none_iff]

theorem exists_block (h : m.locks p = some k) : ∃ b, m.blocks p = some b ∧ b.refcount = k := by
  rcases Option.map_eq_some_iff.1 h with ⟨b, hb, hk⟩
  exact ⟨b, hb, hk⟩

theorem locks_setBlock (m : ServerMap) (p : V3s16) (b : MapBlock) :
    (m.setBlock p (some b)).locks = Function.update m.locks p (some b.refcount) := by
  funext q
  by_cases hq : q = p
  · subst hq
    rw [Function.update_self, locks_of_block (b := b)]
    rw [blocks_setBlock, Function.update_self]
  · rw [Function.update_of_ne hq, locks, locks, blocks_setBlock, Function.update_of_ne hq]

namespace Extends

theorem refl (m : ServerMap) : Extends m m := ⟨rfl, fun _ => .inl rfl⟩

theorem trans (h : Extends m m') (h' : Extends m' m'') : Extends m m'' := by
  refine ⟨h'.chunks.trans h.chunks, fun p => ?_⟩
  rcases h.locks p with hsame | ⟨hnone, hzero⟩
  · rcases h'.locks p with hsame' | ⟨hnone', hzero'⟩
    · exact .inl (hsame'.trans hsame)
    · exact .inr ⟨hsame ▸ hnone', hzero'⟩
  · rcases h'.locks p with hsame' | ⟨hnone', hzero'⟩
    · exact .inr ⟨hnone, hsame'.trans hzero⟩
    · rw [hzero] at hnone'
      cases hnone'

/-- A count that was there is still there. -/
theorem locks_eq (h : Extends m m') (hk : m.locks p = some k) : m'.locks p = some k := by
  rcases h.locks p with hsame | ⟨hnone, -⟩
  · exact hsame.trans hk
  · rw [hk] at hnone
    cases hnone

theorem of_setBlock (hb : m.blocks p = some b) (hcount : b'.refcount = b.refcount) :
    Extends m (m.setBlock p (some b')) := by
  refine ⟨rfl, fun q => .inl ?_⟩
  rw [locks_setBlock, hcount, ← locks_of_block hb, Function.update_eq_self]

theorem of_new (hb : m.blocks p = none) (hcount : b'.refcount = 0) :
    Extends m (m.setBlock p (some b')) := by
  refine ⟨rfl, fun q => ?_⟩
  rw [locks_setBlock, hcount]
  by_cases hq : q = p
  · subst hq
    exact .inr ⟨locks_eq_none.2 hb, Function.update_self ..⟩
  · exact .inl (Function.update_of_ne hq ..)

theorem foldl {β : Type*} {step : ServerMap → β → ServerMap} (hstep : ∀ m x, Extends m (step m x))
    (xs : List β) (m : ServerMap) : Extends m (xs.foldl step m) := by
  induction xs generalizing m with
  | nil => exact refl m
  | cons x xs ih => exact (hstep m x).trans (ih _)

end Extends

/-! ## Writing keeps the references -/

theorem extends_modifyBlock (m : ServerMap) (p : V3s16) (change : MapBlock → MapBlock)
    (hchange : ∀ b, (change b).refcount = b.refcount) : Extends m (m.modifyBlock p change) := by
  rw [modifyBlock]
  split
  · exact .refl m
  · rename_i b hb
    exact .of_setBlock hb (hchange b)

theorem extends_expireAll (ps : List V3s16) (m : ServerMap) : Extends m (m.expireAll ps) :=
  Extends.foldl (fun m p => extends_modifyBlock m p MapBlock.expireIsAirCache fun _ => rfl) ps m

theorem extends_setNode (h : m.setNode p n = some m') : Extends m m' := by
  rw [setNode] at h
  split at h
  · cases h
  · rename_i b hb
    rw [← Option.some.inj h]
    refine .of_setBlock hb ?_
    rw [setNodeInBlock]
    split <;> rfl

theorem extends_relight (writes : List (V3s16 × UInt8)) (m : ServerMap) :
    Extends m (m.relight writes) := by
  refine Extends.foldl (fun m w => ?_) writes m
  rw [setParam1]
  split
  · exact .refl m
  · rename_i b hb
    exact .of_setBlock hb rfl

theorem extends_reflow (queued : List V3s16) (m : ServerMap) : Extends m (m.reflow queued) :=
  ⟨rfl, fun _ => .inl rfl⟩

theorem extends_transformLiquidsLocal {onFlood : OnFlood} {writes : List (V3s16 × UInt8)}
    {queue : List V3s16} {l : LiquidState}
    (h : transformLiquidsLocal f onFlood writes m queue k = some l) : Extends m l.map := by
  rw [transformLiquidsLocal] at h
  split at h
  · cases h
  · rename_i last hloop
    rw [← Option.some.inj h]
    refine Extends.trans ?_ (extends_relight writes last.map)
    refine map_liquidLoop (P := Extends m) (fun l l' p0 hl hstep => ?_) hloop (.refl m)
    rcases liquidStep_cases hstep with hkept | ⟨n, hplaced⟩
    · rw [hkept.map]
      exact hl
    · exact hl.trans (extends_setNode hplaced.map)

/-! ## Loading and creating -/

theorem extends_createBlank (hb : m.blocks p = none) : Extends m (m.createBlank p).1 := by
  rw [createBlank]
  split
  · exact .refl m
  · exact .of_new hb rfl

theorem extends_loadBlock (o : Outside) (m : ServerMap) (p : V3s16) :
    Extends m (m.loadBlock o p).1 := by
  rw [loadBlock]
  split
  · exact .refl m
  · exact .refl m
  · exact .refl m
  · rename_i read b _ hb
    exact .of_setBlock hb rfl
  · rename_i read _ hb
    split
    · exact .refl m
    · exact ((Extends.of_new hb rfl).trans (extends_reflow _ _)).trans (extends_relight _ _)

/-- A position without a block is left without one when nothing was found. -/
theorem blocks_loadBlock_of_notFound (h : (m.loadBlock o p).2 = .notFound) :
    (m.loadBlock o p).1 = m ∧ m.blocks p = none := by
  rw [loadBlock] at h ⊢
  split at h
  · cases h
  · rename_i hb
    exact ⟨rfl, hb⟩
  · cases h
  · cases h
  · split at h <;> cases h

theorem extends_emergeBlock (o : Outside) (m : ServerMap) (p : V3s16) (createBlank : Bool) :
    Extends m (m.emergeBlock o p createBlank).1 := by
  rw [emergeBlock]
  split
  · exact .refl m
  · dsimp only
    split
    · rename_i hcreate
      rcases blocks_loadBlock_of_notFound hcreate.1 with ⟨hsame, hnone⟩
      rw [hsame]
      exact extends_createBlank hnone
    · exact extends_loadBlock o m p

theorem extends_blitBlock (o : Outside) (overwriteGenerated : Bool) (m : ServerMap) (p : V3s16)
    (nodes : Nodes) : Extends m (m.blitBlock o overwriteGenerated p nodes).1 := by
  have htarget : Extends m (m.blitTarget o p).1 := by
    rw [blitTarget]
    split
    · exact .refl m
    · exact extends_emergeBlock o m p true
  rw [blitBlock]
  split
  · exact htarget
  · exact htarget
  · rename_i b hb _
    split
    · exact htarget
    · refine htarget.trans (.of_setBlock hb ?_)
      rw [MapBlock.expireIsAirCache, MapBlock.copyFrom, MapBlock.tryShrinkNodes]
      dsimp only
      split <;> rfl

theorem extends_blitBackAll (o : Outside) (overwriteGenerated : Bool)
    (written : List (V3s16 × Nodes)) (m : ServerMap) :
    Extends m (m.blitBackAll o overwriteGenerated written).1 := by
  induction written generalizing m with
  | nil => exact .refl m
  | cons block rest ih =>
    rw [blitBackAll]
    have hblock := extends_blitBlock o overwriteGenerated m block.1 block.2
    dsimp only
    split
    · exact hblock.trans (ih _)
    · exact hblock

/-! ## The area of a chunk -/

theorem isSome_of_extends (h : Extends m m') (hb : (m.blocks p).isSome) : (m'.blocks p).isSome := by
  rcases Option.isSome_iff_exists.1 hb with ⟨b, hb⟩
  rcases exists_block (h.locks_eq (locks_of_block hb)) with ⟨b', hb', -⟩
  rw [hb']
  rfl

theorem isSome_setBlock (m : ServerMap) (p : V3s16) (b : MapBlock) :
    ((m.setBlock p (some b)).blocks p).isSome := by
  rw [blocks_setBlock, Function.update_self]
  rfl

variable {ps : List V3s16} (isUnderground : V3s16 → Bool)

/-- What has no broken data and is inside the limits is there afterwards. -/
theorem blockForMake_spec (hlimit : blockposOverMaxLimit p = false)
    (hstored : m.blocks p = none → o.stored p ≠ .broken) :
    (m.blockForMake o isUnderground p).2 ≠ .thrown ∧
      Extends m (m.blockForMake o isUnderground p).1 ∧
      ((m.blockForMake o isUnderground p).1.blocks p).isSome := by
  have hemerge := extends_emergeBlock o m p false
  have hfound : Emerged.found ≠ .thrown := by decide
  rw [blockForMake]
  dsimp only
  cases hb : m.blocks p with
  | some b =>
    have hemerged : m.emergeBlock o p false = (m, .found) := by
      rw [emergeBlock, if_pos (by rw [hb]; rfl)]
    rw [hemerged]
    refine ⟨hfound, .refl m, ?_⟩
    rw [hb]
    rfl
  | none =>
    have hemerged : m.emergeBlock o p false = m.loadBlock o p := by
      rw [emergeBlock, if_neg (by rw [hb]; decide)]
      exact if_neg fun h => Bool.false_ne_true h.2.1
    rw [hemerged] at hemerge ⊢
    have hload : m.loadBlock o p = match o.stored p with
        | .missing => (m, .notFound)
        | .broken => (m, .thrown)
        | .data read =>
          (((m.setBlock p (some (read.readInto {}))).reflow (o.reflows p)).relight (o.relights p),
            .found) := by
      rw [loadBlock, hb]
      cases o.stored p with
      | missing => rfl
      | broken => rfl
      | data read => exact if_neg (by rw [hlimit]; decide)
    rw [hload] at hemerge ⊢
    cases hread : o.stored p with
    | broken => exact absurd hread (hstored hb)
    | missing =>
      have hcreated : m.createBlock p = (m.setBlock p (some {}), .found) := by
        rw [createBlock, if_neg (by rw [hb]; decide), createBlank, if_neg (by rw [hlimit]; decide)]
      dsimp only
      rw [hcreated]
      have hnew : Extends m (m.setBlock p (some {})) := .of_new hb rfl
      have hmodify := extends_modifyBlock (m.setBlock p (some {})) p
        (fun b => { b with isUnderground := isUnderground p }) fun _ => rfl
      exact ⟨hfound, hnew.trans hmodify, isSome_of_extends hmodify (isSome_setBlock m p {})⟩
    | data read =>
      rw [hread] at hemerge
      refine ⟨hfound, hemerge, isSome_of_extends (extends_relight _ _) ?_⟩
      exact isSome_setBlock m p _

theorem refGrab_spec (hb : m.blocks p = some b) (hcount : b.refcount < MapBlock.shrtMax) :
    ∃ m', m.refGrab p = some m' ∧ m'.chunksInProgress = m.chunksInProgress ∧
      m'.locks = Function.update m.locks p (some (b.refcount + 1)) := by
  refine ⟨m.setBlock p (some { b with refcount := b.refcount + 1 }), ?_, rfl, locks_setBlock ..⟩
  rw [refGrab, hb]
  dsimp only
  rw [MapBlock.refGrab, if_pos hcount]
  rfl

/-- Every block of the area has one reference more, and nothing else changes but that blocks without
references may have come. -/
structure Grabbed (ps : List V3s16) (m m' : ServerMap) : Prop where
  chunks : m'.chunksInProgress = m.chunksInProgress
  inside : ∀ p ∈ ps, m'.locks p = some ((m.locks p).getD 0 + 1)
  outside : ∀ p, p ∉ ps → m'.locks p = m.locks p ∨ (m.locks p = none ∧ m'.locks p = some 0)

theorem getD_locks (h : Extends m m') (p : V3s16) : (m'.locks p).getD 0 = (m.locks p).getD 0 := by
  rcases h.locks p with hsame | ⟨hnone, hzero⟩
  · rw [hsame]
  · rw [hnone, hzero]
    rfl

theorem grabAll_spec (hnodup : ps.Nodup) (hlimit : ∀ p ∈ ps, blockposOverMaxLimit p = false)
    (hstored : ∀ p ∈ ps, m.blocks p = none → o.stored p ≠ .broken)
    (hcount : ∀ p ∈ ps, (m.locks p).getD 0 < MapBlock.shrtMax) :
    ∃ m', grabAll o isUnderground ps m = some (m', true) ∧ Grabbed ps m m' := by
  induction ps generalizing m with
  | nil =>
    exact ⟨m, rfl, rfl, fun p hp => absurd hp List.not_mem_nil, fun p _ => .inl rfl⟩
  | cons p ps ih =>
    rw [List.nodup_cons] at hnodup
    have hp : p ∈ p :: ps := List.mem_cons_self ..
    rcases blockForMake_spec isUnderground (hlimit p hp) (hstored p hp) with
      ⟨hthrown, hextends, hthere⟩
    rcases Option.isSome_iff_exists.1 hthere with ⟨b, hb⟩
    have hbcount : b.refcount = (m.locks p).getD 0 := by
      rw [← getD_locks hextends p, locks_of_block hb]
      rfl
    rcases refGrab_spec hb (hbcount ▸ hcount p hp) with ⟨m₁, hgrab, hchunks₁, hlocks₁⟩
    -- The rest of the area does not contain `p` again.
    have hrest : ∀ q ∈ ps, m₁.locks q = (m.blockForMake o isUnderground p).1.locks q := by
      intro q hq
      have hne : q ≠ p := by
        rintro rfl
        exact hnodup.1 hq
      rw [hlocks₁, Function.update_of_ne hne]
    have hgetD : ∀ q ∈ ps, (m₁.locks q).getD 0 = (m.locks q).getD 0 := by
      intro q hq
      rw [hrest q hq, getD_locks hextends q]
    have hnone : ∀ q ∈ ps, m₁.blocks q = none → m.blocks q = none := by
      intro q hq hq₁
      rw [← locks_eq_none, hrest q hq] at hq₁
      rcases hextends.locks q with hsame | ⟨hq, -⟩
      · rw [← locks_eq_none, ← hsame]
        exact hq₁
      · exact locks_eq_none.1 hq
    rcases ih hnodup.2 (fun q hq => hlimit q (List.mem_cons_of_mem _ hq))
      (fun q hq hq₁ => hstored q (List.mem_cons_of_mem _ hq) (hnone q hq hq₁))
      (fun q hq => hgetD q hq ▸ hcount q (List.mem_cons_of_mem _ hq)) with ⟨m', hall, hgrabbed⟩
    refine ⟨m', ?_, ?_⟩
    · rw [grabAll]
      rw [if_neg hthrown, hgrab]
      exact hall
    · refine ⟨hgrabbed.chunks.trans (hchunks₁.trans hextends.chunks), fun q hq => ?_,
        fun q hq => ?_⟩
      · rcases List.mem_cons.1 hq with rfl | hq
        · rcases hgrabbed.outside q hnodup.1 with hsame | ⟨hnone, -⟩
          · rw [hsame, hlocks₁, Function.update_self, hbcount]
          · rw [hlocks₁, Function.update_self] at hnone
            cases hnone
        · rw [hgrabbed.inside q hq, hgetD q hq]
      · rw [List.mem_cons, not_or] at hq
        have hq₁ : m₁.locks q = (m.blockForMake o isUnderground p).1.locks q := by
          rw [hlocks₁, Function.update_of_ne hq.1]
        rcases hgrabbed.outside q hq.2 with hsame | ⟨hnone, hzero⟩
        · rw [hsame, hq₁]
          exact hextends.locks q
        · rcases hextends.locks q with hsame' | ⟨hnone', hzero'⟩
          · exact .inr ⟨hsame' ▸ hq₁ ▸ hnone, hzero⟩
          · rw [hq₁, hzero'] at hnone
            cases hnone

theorem dropAll_spec {after : V3s16 → MapBlock → MapBlock}
    (hafter : ∀ p b, (after p b).refcount = b.refcount) (hnodup : ps.Nodup)
    (hcount : ∀ p ∈ ps, ∃ k, m.locks p = some (k + 1)) :
    ∃ m', dropAll after ps m = some m' ∧ m'.chunksInProgress = m.chunksInProgress ∧
      (∀ p ∈ ps, m'.locks p = (m.locks p).map fun k => k - 1) ∧
      ∀ p, p ∉ ps → m'.locks p = m.locks p := by
  induction ps generalizing m with
  | nil => exact ⟨m, rfl, rfl, fun p hp => absurd hp List.not_mem_nil, fun p _ => rfl⟩
  | cons p ps ih =>
    rw [List.nodup_cons] at hnodup
    rcases hcount p (List.mem_cons_self ..) with ⟨k, hk⟩
    rcases exists_block hk with ⟨b, hb, hbcount⟩
    have hdrop : b.refDrop = some { b with refcount := b.refcount - 1 } := by
      rw [MapBlock.refDrop, if_pos (by rw [hbcount]; exact Nat.succ_pos k)]
    have hlocks : (m.setBlock p (some (after p { b with refcount := b.refcount - 1 }))).locks =
        Function.update m.locks p (some k) := by
      rw [locks_setBlock, hafter]
      dsimp only
      rw [hbcount]
      rfl
    have hne : ∀ q ∈ ps, q ≠ p := by
      rintro q hq rfl
      exact hnodup.1 hq
    rcases ih (m := m.setBlock p (some (after p { b with refcount := b.refcount - 1 }))) hnodup.2
      (fun q hq => by
        rw [hlocks, Function.update_of_ne (hne q hq)]
        exact hcount q (List.mem_cons_of_mem _ hq)) with ⟨m', hall, hchunks, hinside, houtside⟩
    refine ⟨m', ?_, hchunks, fun q hq => ?_, fun q hq => ?_⟩
    · rw [dropAll, hb]
      dsimp only
      rw [hdrop]
      exact hall
    · rcases List.mem_cons.1 hq with rfl | hq
      · rw [houtside q hnodup.1, hlocks, Function.update_self, hk]
        rfl
      · rw [hinside q hq, hlocks, Function.update_of_ne (hne q hq)]
    · rw [List.mem_cons, not_or] at hq
      rw [houtside q hq.2, hlocks, Function.update_of_ne hq.1]

end

end ServerMap
end Map
end AxisEngine
