import AxisEngine.Lib.CountP
import AxisEngine.Lib.Transition
import AxisEngine.Map.BlockLocks

/-!
# GenerationLocks — chunks being generated, and the references they hold

Several emerge threads generate chunks at once.  Between `initBlockMake` and `finishBlockMake` a thread
does not hold the lock of the map, and anything may happen to the map in between.

* `Generation` — the map, and the chunks that are being made;
* `Event`, `Step` — what may happen next;
* `Balanced` — the counts and the marks are those of the chunks that are being made;
* `Harmless` — the steps that keep it so;
* `balanced_of_run` — it holds along every run of such steps, and no assertion fails.

A chunk that is refused at the limits of the map keeps its mark, and so does a chunk that is given up.
A block that is deleted while it has references comes back without them.
-/

namespace AxisEngine
namespace Map

open Lib

structure Generation where
  map : ServerMap := {}
  /-- The chunks between `initBlockMake` and `finishBlockMake` or `cancelBlockMake`. -/
  making : List V3s16 := []

inductive GenerationEvent where
  | initBlockMake (blockpos : V3s16) (o : Outside) (isUnderground : V3s16 → Bool)
  | finishBlockMake (chunk : V3s16) (o : Outside) (g : ServerMap.Generated)
  | cancelBlockMake (chunk : V3s16)
  | deleteBlock (p : V3s16) (deleted : Bool)
  | loadBlock (p : V3s16) (o : Outside)
  | emergeBlock (p : V3s16) (o : Outside) (createBlank : Bool)
  | unloadBlock (p : V3s16)
  | blitBackAll (o : Outside) (overwriteGenerated : Bool) (written : List (V3s16 × Nodes))
  | transformLiquids (onFlood : OnFlood) (writes : List (V3s16 × UInt8)) (liquidLoopMax : Nat)
      (growsTooLong : Bool)

namespace Generation

variable (params : MapgenParams) (s : Generation)

/-- How many of the chunks that are being made have a block in their bordered area. -/
def users (p : V3s16) : Nat :=
  s.making.countP fun chunk => decide (p ∈ params.borderedArea chunk)

/-- A thread makes one chunk at a time, and what it writes back is the area it was given. -/
def Allowed : GenerationEvent → Prop
  | .initBlockMake .. => (s.making.length : ℤ) < params.numEmergeThreads.toInt
  | .finishBlockMake chunk _ g =>
    chunk ∈ s.making ∧ ∀ block ∈ g.written, block.1 ∈ params.borderedArea chunk
  | .cancelBlockMake chunk => chunk ∈ s.making
  | _ => True

/-- `none` is a failed assertion. -/
def step (f : Features) (params : MapgenParams) (s : Generation) :
    GenerationEvent → Option Generation
  | .initBlockMake blockpos o isUnderground =>
    match s.map.initBlockMake params o isUnderground blockpos with
    | none => none
    | some (m, .made) => some ⟨m, params.containingChunk blockpos :: s.making⟩
    | some (m, _) => some { s with map := m }
  | .finishBlockMake chunk o g =>
    match s.map.finishBlockMake f params o g chunk with
    | none => none
    | some (m, true) => some ⟨m, s.making.erase chunk⟩
    | some (m, false) => some { s with map := m }
  | .cancelBlockMake chunk =>
    match s.map.cancelBlockMake params chunk with
    | none => none
    | some m => some ⟨m, s.making.erase chunk⟩
  | .deleteBlock p deleted => some { s with map := (s.map.deleteBlock p deleted).1 }
  | .loadBlock p o => some { s with map := (s.map.loadBlock o p).1 }
  | .emergeBlock p o createBlank => some { s with map := (s.map.emergeBlock o p createBlank).1 }
  | .unloadBlock p => some { s with map := s.map.unloadBlock p }
  | .blitBackAll o overwriteGenerated written =>
    some { s with map := (s.map.blitBackAll o overwriteGenerated written).1 }
  | .transformLiquids onFlood writes liquidLoopMax growsTooLong =>
    match Map.transformLiquids f onFlood writes s.map liquidLoopMax growsTooLong with
    | none => some s
    | some m => some { s with map := m }

def Step (f : Features) (params : MapgenParams) (s : Generation) (e : GenerationEvent)
    (s' : Generation) : Prop :=
  s.Allowed params e ∧ s.step f params e = some s'

/-- The references are those of the chunks that are being made, and these are the marked ones. -/
structure Balanced (params : MapgenParams) (s : Generation) : Prop where
  refcount : ∀ p b, s.map.blocks p = some b → b.refcount = s.users params p
  inProgress : ∀ chunk, chunk ∈ s.map.chunksInProgress ↔ chunk ∈ s.making

/-- No chunk is begun that lies over the limits or has broken data in its area, none is given up, and
no block that a chunk needs is deleted. -/
def Harmless : GenerationEvent → Prop
  | .initBlockMake blockpos o _ =>
    let chunk := params.containingChunk blockpos
    chunk ∈ s.map.chunksInProgress ∨ (params.inLimits chunk = true ∧
      ∀ p ∈ params.borderedArea chunk, s.map.blocks p = none → o.stored p ≠ .broken)
  | .cancelBlockMake _ => False
  | .deleteBlock p deleted => deleted = true → ∀ chunk ∈ s.making, p ∉ params.borderedArea chunk
  | _ => True

/-- What holds along such runs. -/
structure Inv (params : MapgenParams) (s : Generation) : Prop where
  locks : ∀ p, s.map.locks p = some (s.users params p) ∨
    (s.map.locks p = none ∧ s.users params p = 0)
  inProgress : ∀ chunk, chunk ∈ s.map.chunksInProgress ↔ chunk ∈ s.making
  nodup : s.making.Nodup
  threads : (s.making.length : ℤ) ≤ max 0 params.numEmergeThreads.toInt

end Generation

/-! ## The bordered area -/

section

variable {a b x : Int16} {params : MapgenParams} {chunk p : V3s16}

theorem toInt_add_ofNat {i : Nat} (hi : i < (b.toInt - a.toInt + 1).toNat) :
    (a + Int16.ofNat i).toInt = a.toInt + i := by
  have ha := a.le_toInt
  have hb := b.toInt_lt
  have hsize : ((Int16.size : Nat) : ℤ) = 65536 := rfl
  rw [Int16.toInt_add, Int16.toInt_ofNat', Int.add_bmod_bmod]
  exact Int.bmod_eq_of_le (by omega) (by omega)

theorem le_of_mem_coords (h : x ∈ coords a b) : a.toInt ≤ x.toInt ∧ x.toInt ≤ b.toInt := by
  rcases List.mem_map.1 h with ⟨i, hi, rfl⟩
  have hi := List.mem_range.1 hi
  rw [toInt_add_ofNat hi]
  omega

theorem nodup_coords (a b : Int16) : (coords a b).Nodup := by
  refine List.nodup_range.map_on fun i hi j hj h => ?_
  have hi := toInt_add_ofNat (List.mem_range.1 hi)
  have hj := toInt_add_ofNat (List.mem_range.1 hj)
  rw [h, hj] at hi
  omega

theorem nodup_borderedArea (params : MapgenParams) (chunk : V3s16) :
    (params.borderedArea chunk).Nodup := by
  refine nodup_flatMap_of_key V3s16.x (nodup_coords _ _) (fun x _ => ?_) fun x _ p hp => ?_
  · refine nodup_flatMap_of_key V3s16.z (nodup_coords _ _) (fun z _ => ?_) fun z _ p hp => ?_
    · refine (nodup_coords _ _).map fun y y' h => ?_
      rw [V3s16.mk.injEq] at h
      exact h.2.1
    · rcases List.mem_map.1 hp with ⟨y, -, rfl⟩
      rfl
  · rcases List.mem_flatMap.1 hp with ⟨z, -, hp⟩
    rcases List.mem_map.1 hp with ⟨y, -, rfl⟩
    rfl

/-- Within the limits of the generator the limits of the map are kept as well. -/
theorem notOverMaxLimit_of_inLimits (hlimits : params.inLimits chunk = true)
    (hp : p ∈ params.borderedArea chunk) : blockposOverMaxLimit p = false := by
  rw [MapgenParams.inLimits, Bool.and_eq_true, Bool.not_eq_true', Bool.not_eq_true'] at hlimits
  rcases hlimits with ⟨hlow, hhigh⟩
  rw [MapgenParams.blockposOverMapgenLimit, decide_eq_false_iff_not] at hlow hhigh
  rcases List.mem_flatMap.1 hp with ⟨x, hx, hp⟩
  rcases List.mem_flatMap.1 hp with ⟨z, hz, hp⟩
  rcases List.mem_map.1 hp with ⟨y, hy, rfl⟩
  have hx := le_of_mem_coords hx
  have hy := le_of_mem_coords hy
  have hz := le_of_mem_coords hz
  have hlimit : (max 0 (min params.mapgenLimit.toInt 31007)).tdiv 16 ≤ 1937 := by
    rw [Int.tdiv_eq_ediv_of_nonneg (le_max_left _ _)]
    omega
  rw [blockposOverMaxLimit, decide_eq_false_iff_not, V3s16.cubeRadius]
  dsimp only at hx hy hz ⊢
  omega

end

namespace Generation

section

variable {f : Features} {params : MapgenParams} {s s' : Generation} {e : GenerationEvent}
  {es : List GenerationEvent} {chunk p : V3s16} {m : ServerMap}

theorem users_cons (s : Generation) (m : ServerMap) (chunk p : V3s16) :
    users params ⟨m, chunk :: s.making⟩ p =
      s.users params p + if p ∈ params.borderedArea chunk then 1 else 0 := by
  rw [users, List.countP_cons, users]
  simp only [decide_eq_true_eq]

theorem users_erase (m : ServerMap) (p : V3s16) (h : chunk ∈ s.making) :
    s.users params p = users params ⟨m, s.making.erase chunk⟩ p +
      if p ∈ params.borderedArea chunk then 1 else 0 := by
  rw [users, (List.perm_cons_erase h).countP_eq, List.countP_cons, users]
  simp only [decide_eq_true_eq]

theorem users_le (s : Generation) (p : V3s16) : s.users params p ≤ s.making.length :=
  List.countP_le_length

theorem Inv.locks_of_mem (h : Inv params s) (hchunk : chunk ∈ s.making)
    (hp : p ∈ params.borderedArea chunk) : s.map.locks p = some (s.users params p) := by
  rcases h.locks p with hlocks | ⟨-, hzero⟩
  · exact hlocks
  · have hpos : 0 < s.users params p :=
      List.countP_pos_iff.2 ⟨chunk, hchunk, decide_eq_true hp⟩
    rw [hzero] at hpos
    cases hpos

theorem Inv.balanced (h : Inv params s) : Balanced params s := by
  refine ⟨fun p b hb => ?_, h.inProgress⟩
  rcases h.locks p with hlocks | ⟨hnone, -⟩
  · rw [ServerMap.locks_of_block hb] at hlocks
    exact Option.some.inj hlocks
  · rw [ServerMap.locks_eq_none.1 hnone] at hb
    cases hb

theorem inv_start (params : MapgenParams) : Inv params {} := by
  refine ⟨fun p => .inr ⟨rfl, rfl⟩, fun chunk => ?_, List.nodup_nil, le_max_left _ _⟩
  exact iff_of_false (Finset.notMem_empty chunk) List.not_mem_nil

/-- New blocks without references are no harm: nobody needed them. -/
theorem Inv.of_extends (h : Inv params s) (hextends : s.map.Extends m) :
    Inv params { s with map := m } := by
  refine ⟨fun p => ?_, fun chunk => ?_, h.nodup, h.threads⟩
  · change m.locks p = some (s.users params p) ∨ (m.locks p = none ∧ s.users params p = 0)
    rcases hextends.locks p with hsame | ⟨hnone, hzero⟩
    · rw [hsame]
      exact h.locks p
    · left
      rcases h.locks p with hlocks | ⟨-, husers⟩
      · rw [hlocks] at hnone
        cases hnone
      · rw [hzero, husers]
  · rw [hextends.chunks]
    exact h.inProgress chunk

/-! ## The steps -/

variable {blockpos : V3s16} {o : Outside}

section

variable (h : Inv params s)

include h

/-- A block that nobody needs may go. -/
theorem Inv.of_removed (hp : s.users params p = 0) :
    Inv params { s with map := s.map.setBlock p none } := by
  refine ⟨fun q => ?_, h.inProgress, h.nodup, h.threads⟩
  change (s.map.setBlock p none).locks q = some (s.users params q) ∨
    ((s.map.setBlock p none).locks q = none ∧ s.users params q = 0)
  rw [ServerMap.locks, ServerMap.blocks_setBlock]
  by_cases hq : q = p
  · subst hq
    rw [Function.update_self]
    exact .inr ⟨rfl, hp⟩
  · rw [Function.update_of_ne hq]
    exact h.locks q

theorem Inv.unloadBlock (p : V3s16) : Inv params { s with map := s.map.unloadBlock p } := by
  rw [ServerMap.unloadBlock]
  split
  · exact h
  · rename_i b hb
    split
    · rename_i hzero
      exact h.of_removed ((h.balanced.refcount p b hb).symm.trans hzero)
    · exact h

theorem Inv.deleteBlock {deleted : Bool}
    (hfree : deleted = true → ∀ chunk ∈ s.making, p ∉ params.borderedArea chunk) :
    Inv params { s with map := (s.map.deleteBlock p deleted).1 } := by
  rw [ServerMap.deleteBlock]
  split
  · rename_i hdeleted
    refine h.of_removed (List.countP_eq_zero.2 fun chunk hchunk hp => ?_)
    exact hfree hdeleted chunk hchunk (of_decide_eq_true hp)
  · exact h

theorem Inv.transformLiquids {onFlood : OnFlood} {writes : List (V3s16 × UInt8)} {k : Nat}
    {growsTooLong : Bool} (hm : Map.transformLiquids f onFlood writes s.map k growsTooLong = some m) :
    Inv params { s with map := m } := by
  rw [Map.transformLiquids] at hm
  dsimp only at hm
  split at hm
  · cases hm
  · rename_i l hl
    rw [← Option.some.inj hm]
    have hextends := ServerMap.extends_transformLiquidsLocal hl
    exact h.of_extends ⟨hextends.chunks, hextends.locks⟩

/-- Below the number of threads a reference can be taken. -/
theorem Inv.count_lt (hallowed : (s.making.length : ℤ) < params.numEmergeThreads.toInt) (p : V3s16) :
    (s.map.locks p).getD 0 < MapBlock.shrtMax := by
  have hthreads := params.numEmergeThreads.toInt_lt
  have husers : s.users params p ≤ s.making.length := s.users_le p
  have hle : (s.map.locks p).getD 0 ≤ s.users params p := by
    rcases h.locks p with hlocks | ⟨hnone, -⟩
    · rw [hlocks]
      exact le_refl _
    · rw [hnone]
      exact Nat.zero_le _
  rw [MapBlock.shrtMax]
  omega

/-- A chunk is begun: it was not marked, and all its blocks get a reference. -/
theorem Inv.begun (isUnderground : V3s16 → Bool)
    (hallowed : (s.making.length : ℤ) < params.numEmergeThreads.toInt)
    (hmarked : params.containingChunk blockpos ∉ s.map.chunksInProgress)
    (hlimits : params.inLimits (params.containingChunk blockpos) = true)
    (hstored : ∀ p ∈ params.borderedArea (params.containingChunk blockpos),
      s.map.blocks p = none → o.stored p ≠ .broken) :
    ∃ m, s.step f params (.initBlockMake blockpos o isUnderground) =
        some ⟨m, params.containingChunk blockpos :: s.making⟩ ∧
      Inv params ⟨m, params.containingChunk blockpos :: s.making⟩ := by
  rcases ServerMap.grabAll_spec
    (m := { s.map with
      chunksInProgress := insert (params.containingChunk blockpos) s.map.chunksInProgress })
    isUnderground (nodup_borderedArea params _)
    (fun p hp => notOverMaxLimit_of_inLimits hlimits hp) hstored
    (fun p _ => h.count_lt hallowed p) with ⟨m, hgrab, hgrabbed⟩
  refine ⟨m, ?_, ⟨fun p => ?_, fun chunk => ?_, ?_, ?_⟩⟩
  · rw [step, ServerMap.initBlockMake]
    dsimp only
    rw [if_neg hmarked, if_neg (by rw [hlimits]; decide), hgrab]
    rfl
  · rw [users_cons]
    by_cases hp : p ∈ params.borderedArea (params.containingChunk blockpos)
    · left
      rw [if_pos hp]
      refine (hgrabbed.inside p hp).trans ?_
      change some ((s.map.locks p).getD 0 + 1) = _
      rcases h.locks p with hlocks | ⟨hnone, hzero⟩
      · rw [hlocks]
        rfl
      · rw [hnone, hzero]
        rfl
    · rw [if_neg hp, Nat.add_zero]
      rcases hgrabbed.outside p hp with hsame | ⟨hnone, hzero⟩
      · rw [hsame]
        exact h.locks p
      · left
        rcases h.locks p with hlocks | ⟨-, husers⟩
        · have hnone : s.map.locks p = none := hnone
          rw [hlocks] at hnone
          cases hnone
        · rw [hzero, husers]
  · rw [hgrabbed.chunks, Finset.mem_insert, List.mem_cons, h.inProgress]
  · exact List.nodup_cons.2 ⟨fun hin => hmarked ((h.inProgress _).2 hin), h.nodup⟩
  · rw [List.length_cons]
    omega

end

/-- Outside of the limits a chunk is refused, and is marked all the same. -/
theorem initBlockMake_refused {chunk blockpos : V3s16} (o : Outside) (isUnderground : V3s16 → Bool)
    (hchunk : params.containingChunk blockpos = chunk) (hmarked : chunk ∉ m.chunksInProgress)
    (hlimits : params.inLimits chunk = false) :
    m.initBlockMake params o isUnderground blockpos =
      some ({ m with chunksInProgress := insert chunk m.chunksInProgress }, .refused) := by
  subst hchunk
  rw [ServerMap.initBlockMake]
  dsimp only
  rw [if_neg hmarked, if_pos hlimits]

theorem Inv.initBlockMake {isUnderground : V3s16 → Bool} (h : Inv params s)
    (hallowed : (s.making.length : ℤ) < params.numEmergeThreads.toInt)
    (hharmless : s.Harmless params (.initBlockMake blockpos o isUnderground)) :
    ∃ s', s.step f params (.initBlockMake blockpos o isUnderground) = some s' ∧ Inv params s' := by
  by_cases hmarked : params.containingChunk blockpos ∈ s.map.chunksInProgress
  · refine ⟨s, ?_, h⟩
    rw [step, ServerMap.initBlockMake]
    dsimp only
    rw [if_pos hmarked]
  · rcases hharmless with hin | ⟨hlimits, hstored⟩
    · exact absurd hin hmarked
    · rcases h.begun isUnderground hallowed hmarked hlimits hstored with ⟨m, hstep, hinv⟩
      exact ⟨_, hstep, hinv⟩

/-- What is written back finds its blocks. -/
theorem blitBackAll_spec {written : List (V3s16 × Nodes)}
    (hthere : ∀ block ∈ written, (m.blocks block.1).isSome) :
    (m.blitBackAll o true written).2.1 = true := by
  induction written generalizing m with
  | nil => rfl
  | cons block rest ih =>
    have hfirst := hthere block (List.mem_cons_self ..)
    rcases Option.isSome_iff_exists.1 hfirst with ⟨b, hb⟩
    have htarget : m.blitTarget o block.1 = (m, .found) := by
      rw [ServerMap.blitTarget, if_neg (by rw [hb]; exact fun h => Bool.false_ne_true h.1),
        ServerMap.emergeBlock, if_pos hfirst]
    have hblit : (m.blitBlock o true block.1 block.2).2.1 = true := by
      rw [ServerMap.blitBlock, htarget]
      dsimp only
      rw [hb]
      rfl
    have hextends := ServerMap.extends_blitBlock o true m block.1 block.2
    rw [ServerMap.blitBackAll]
    dsimp only
    rw [if_pos hblit]
    exact ih fun block' hblock' =>
      ServerMap.isSome_of_extends hextends (hthere block' (List.mem_cons_of_mem _ hblock'))

theorem refcount_finished (params : MapgenParams) (g : ServerMap.Generated) (chunk p : V3s16)
    (b : MapBlock) :
    (ServerMap.finished params g chunk p b).refcount = b.refcount := by
  rw [ServerMap.finished]
  split <;> rfl

/-- A chunk is finished: its blocks are all there, and each has the reference of this chunk. -/
theorem Inv.finishBlockMake {g : ServerMap.Generated} (h : Inv params s)
    (hallowed : s.Allowed params (.finishBlockMake chunk o g)) :
    ∃ s', s.step f params (.finishBlockMake chunk o g) = some s' ∧ Inv params s' := by
  rcases hallowed with ⟨hchunk, hwritten⟩
  have hthere : ∀ block ∈ g.written, (s.map.blocks block.1).isSome := by
    intro block hblock
    rcases ServerMap.exists_block (h.locks_of_mem hchunk (hwritten block hblock)) with ⟨b, hb, -⟩
    rw [hb]
    rfl
  rw [step, ServerMap.finishBlockMake]
  dsimp only
  rw [if_neg (by rw [blitBackAll_spec hthere]; decide)]
  have hblit := ServerMap.extends_blitBackAll o true g.written s.map
  cases hliquids : transformLiquidsLocal f g.onFlood g.lightWrites
      (s.map.blitBackAll o true g.written).1 g.transformingLiquid g.liquidLoopMax with
  | none => exact ⟨_, rfl, h.of_extends hblit⟩
  | some l =>
    dsimp only
    generalize (s.map.blitBackAll o true g.written).2.2 ++ l.modifiedBlocks ++
      g.lightWrites.map (fun w => getNodeBlockPos w.1) = changedBlocks
    have hextends : s.map.Extends ((l.map.reflow l.queue).expireAll changedBlocks) :=
      ((hblit.trans (ServerMap.extends_transformLiquidsLocal hliquids)).trans
        (ServerMap.extends_reflow _ _)).trans (ServerMap.extends_expireAll _ _)
    have hinv := h.of_extends hextends
    have husers : ∀ p ∈ params.borderedArea chunk, s.users params p =
        users params ⟨l.map, s.making.erase chunk⟩ p + 1 := by
      intro p hp
      rw [users_erase l.map p hchunk, if_pos hp]
    have hcount : ∀ p ∈ params.borderedArea chunk, ∃ k,
        ((l.map.reflow l.queue).expireAll changedBlocks).locks p = some (k + 1) := by
      intro p hp
      refine ⟨users params ⟨l.map, s.making.erase chunk⟩ p, ?_⟩
      rw [← husers p hp]
      exact hinv.locks_of_mem hchunk hp
    rcases ServerMap.dropAll_spec (refcount_finished params g chunk)
      (nodup_borderedArea params chunk) hcount with ⟨m, hdrop, hchunks, hinside, houtside⟩
    rw [hdrop]
    refine ⟨_, rfl, ⟨fun p => ?_, fun chunk' => ?_, h.nodup.erase chunk, ?_⟩⟩
    · change m.locks p = some (users params ⟨m, s.making.erase chunk⟩ p) ∨
        (m.locks p = none ∧ users params ⟨m, s.making.erase chunk⟩ p = 0)
      by_cases hp : p ∈ params.borderedArea chunk
      · left
        rw [hinside p hp, hinv.locks_of_mem hchunk hp]
        change some (s.users params p - 1) = _
        rw [husers p hp]
        rfl
      · rw [houtside p hp]
        have hsame : s.users params p = _ := users_erase m p hchunk
        rw [if_neg hp, Nat.add_zero] at hsame
        rw [← hsame]
        exact hinv.locks p
    · change chunk' ∈ m.chunksInProgress.erase chunk ↔ chunk' ∈ s.making.erase chunk
      rw [Finset.mem_erase, hchunks, hinv.inProgress chunk', h.nodup.mem_erase_iff]
    · change ((s.making.erase chunk).length : ℤ) ≤ max 0 params.numEmergeThreads.toInt
      have hlength : (s.making.erase chunk).length ≤ s.making.length :=
        List.length_erase_le
      have hthreads := h.threads
      omega

/-! ## Runs -/

/-- A harmless step fails no assertion. -/
theorem Inv.step (h : Inv params s) (hallowed : s.Allowed params e)
    (hharmless : s.Harmless params e) : ∃ s', s.step f params e = some s' ∧ Inv params s' := by
  cases e with
  | initBlockMake blockpos o isUnderground => exact h.initBlockMake hallowed hharmless
  | finishBlockMake chunk o g => exact h.finishBlockMake hallowed
  | cancelBlockMake chunk => exact hharmless.elim
  | deleteBlock p deleted => exact ⟨_, rfl, h.deleteBlock hharmless⟩
  | loadBlock p o => exact ⟨_, rfl, h.of_extends (ServerMap.extends_loadBlock o s.map p)⟩
  | emergeBlock p o createBlank =>
    exact ⟨_, rfl, h.of_extends (ServerMap.extends_emergeBlock o s.map p createBlank)⟩
  | unloadBlock p => exact ⟨_, rfl, h.unloadBlock p⟩
  | blitBackAll o overwriteGenerated written =>
    exact ⟨_, rfl, h.of_extends (ServerMap.extends_blitBackAll o overwriteGenerated written s.map)⟩
  | transformLiquids onFlood writes liquidLoopMax growsTooLong =>
    rw [Generation.step]
    cases hm : Map.transformLiquids f onFlood writes s.map liquidLoopMax growsTooLong with
    | none => exact ⟨s, rfl, h⟩
    | some m => exact ⟨_, rfl, h.transformLiquids hm⟩

theorem inv_of_run (h : Run.Guarded (Harmless params) (Step f params) {} es s) : Inv params s := by
  refine Run.guarded_invariant (fun s e s' hs hharmless hstep => ?_) h (inv_start params)
  rcases hs.step hstep.1 hharmless with ⟨next, hnext, hinv⟩
  rw [hstep.2, Option.some.injEq] at hnext
  rw [hnext]
  exact hinv

/-- Along every run of harmless steps the counts and the marks are those of the chunks that are being
made, and no harmless step fails an assertion. -/
theorem balanced_of_run (h : Run.Guarded (Harmless params) (Step f params) {} es s) :
    Balanced params s ∧ ∀ e, s.Allowed params e → s.Harmless params e → s.step f params e ≠ none := by
  have hinv := inv_of_run h
  refine ⟨hinv.balanced, fun e hallowed hharmless hnone => ?_⟩
  rcases hinv.step hallowed hharmless with ⟨s', hs', -⟩
  rw [hs'] at hnone
  cases hnone

end

section

/-- A database without any block, and no liquid or light to update. -/
def nothingStored : Outside := ⟨fun _ => .missing, fun _ => [], fun _ => []⟩

def noFeatures : Features := ⟨fun _ => {}, rfl⟩

theorem idle_lt_threads : (([] : List V3s16).length : ℤ) < (1 : Int16).toInt := by decide

theorem balanced_firstChunk :
    ∃ m, Run.Guarded (Harmless {}) (Step noFeatures {}) {}
        [.initBlockMake ⟨0, 0, 0⟩ nothingStored fun _ => false] ⟨m, [⟨-2, -2, -2⟩]⟩ ∧
      Balanced {} ⟨m, [⟨-2, -2, -2⟩]⟩ := by
  have hstored : ∀ p ∈ MapgenParams.borderedArea {} (MapgenParams.containingChunk {} ⟨0, 0, 0⟩),
      ServerMap.blocks {} p = none → nothingStored.stored p ≠ .broken := by
    intro p _ _ hbroken
    cases hbroken
  rcases (inv_start {}).begun (f := noFeatures) (fun _ => false) idle_lt_threads
    (Finset.notMem_empty _) (by decide) hstored with ⟨m, hstep, -⟩
  have hrun : Run.Guarded (Harmless {}) (Step noFeatures {}) {}
      [.initBlockMake ⟨0, 0, 0⟩ nothingStored fun _ => false] ⟨m, [⟨-2, -2, -2⟩]⟩ := by
    refine Run.single ⟨.inr ⟨by decide, hstored⟩, idle_lt_threads, ?_⟩
    exact hstep
  exact ⟨m, hrun, (balanced_of_run hrun).1⟩

/-- At the edge of the world a chunk is refused, and stays marked. -/
theorem refusedChunk_stays_marked :
    ¬ ∀ (f : Features) (params : MapgenParams) (es : List GenerationEvent) (s : Generation),
      Run (Step f params) {} es s → Balanced params s := by
  intro hclaim
  have hrun : Run (Step noFeatures {}) {} [.initBlockMake ⟨1937, 0, 0⟩ nothingStored fun _ => false]
      ⟨{ chunksInProgress := {⟨1933, -2, -2⟩} }, []⟩ := by
    refine Run.single ⟨idle_lt_threads, ?_⟩
    have hrefused : ServerMap.initBlockMake {} nothingStored (fun _ => false) {} ⟨1937, 0, 0⟩ =
        some ({ chunksInProgress := {⟨1933, -2, -2⟩} }, .refused) :=
      initBlockMake_refused nothingStored _ (by decide +kernel) (Finset.notMem_empty _)
        (by decide +kernel)
    rw [step, hrefused]
  have hmarked := ((hclaim _ _ _ _ hrun).inProgress ⟨1933, -2, -2⟩).1 (Finset.mem_singleton_self _)
  cases hmarked

end

end Generation

end Map
end AxisEngine
