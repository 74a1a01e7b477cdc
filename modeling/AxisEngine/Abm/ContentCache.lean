import AxisEngine.Abm.BlockModifier
import AxisEngine.Lib.Transition

/-!
# ContentCache — what the cached contents of a block cover

Every node setter empties the cache of its block.  The scan that fills the cache goes on filling it
when a trigger has emptied it on the way, and then the nodes it has passed are missing.

* `CacheRight` — a cache that is empty or has the content of every node;
* `Event.Spares` — the calls of `apply` that fill a cache which no trigger empties;
* `cacheRight_of_run` — runs of such calls, and of anything else, keep every cache right.
-/

namespace AxisEngine
namespace Abm

open Map Lib

/-! ## The cache of a block -/

/-- The cache is empty or complete, and empty where it is not wanted. -/
structure CacheRight (b : ActiveBlock) : Prop where
  covers : b.contents ≠ [] → ∀ i, b.getContent i ∈ b.contents
  unwanted : b.doNotCacheContents = true → b.contents = []

/-- The block of a position of the map is in its place. -/
def Env.Placed (env : Env) : Prop :=
  ∀ p id, env.map p = some id → ∃ b, env.blocks id = some b ∧ b.pos = p ∧ b.isOrphan = false

structure Env.Right (env : Env) : Prop where
  cache : ∀ id b, env.blocks id = some b → CacheRight b
  placed : env.Placed

/-- The next call of `apply` scans all nodes to fill the cache. -/
def ActiveBlock.fills (b : ActiveBlock) : Bool :=
  b.contents.isEmpty && !b.doNotCacheContents

/-- What neither empties the cache of the block `id`, which is at `p`, nor takes the block away. -/
def Deed.Spares (id : Nat) (p : V3s16) : Deed → Prop
  | .setNode id' _ _ => id' ≠ id
  | .blit id' _ => id' ≠ id
  | .raiseModified id' mod _ => id' ≠ id ∨ mod ≠ modStateWriteNeeded
  | .removeBlock p' => p' ≠ p
  | .setStaticObjects _ _ => True
  | .insertBlock _ _ _ => True
  | .addObject => True

/-- Where the cache is filled, the triggers leave it alone. -/
def Event.Spares (env : Env) : Event → Prop
  | .apply _ fate p => ∀ id, env.map p = some id → (env.block id).fills = true →
      ∀ calls, ∀ d ∈ fate.deeds calls, d.Spares id p
  | .act _ => True

namespace ActiveBlock

variable (b : ActiveBlock) (mod : UInt16) (reason : UInt32)

/-- What is modified is noted, and nothing else is changed but the cache. -/
theorem raiseModified_eq : ∃ modified modifiedReason diskTimestamp,
    b.raiseModified mod reason = { b with
      modified := modified
      modifiedReason := modifiedReason
      diskTimestamp := diskTimestamp
      contents := if mod = modStateWriteNeeded then [] else b.contents } := by
  have hraise : ∃ modified modifiedReason diskTimestamp, b.raise mod reason = { b with
      modified := modified
      modifiedReason := modifiedReason
      diskTimestamp := diskTimestamp } := by
    rw [raise]
    split
    · exact ⟨_, _, _, rfl⟩
    · split
      · exact ⟨_, _, _, rfl⟩
      · exact ⟨_, _, _, rfl⟩
  rcases hraise with ⟨modified, modifiedReason, diskTimestamp, hraise⟩
  refine ⟨modified, modifiedReason, diskTimestamp, ?_⟩
  rw [raiseModified, hraise]
  split <;> rfl

@[simp] theorem raiseModified_data : (b.raiseModified mod reason).data = b.data := by
  rcases b.raiseModified_eq mod reason with ⟨_, _, _, h⟩
  rw [h]

@[simp] theorem raiseModified_doNotCacheContents :
    (b.raiseModified mod reason).doNotCacheContents = b.doNotCacheContents := by
  rcases b.raiseModified_eq mod reason with ⟨_, _, _, h⟩
  rw [h]

@[simp] theorem raiseModified_pos : (b.raiseModified mod reason).pos = b.pos := by
  rcases b.raiseModified_eq mod reason with ⟨_, _, _, h⟩
  rw [h]

@[simp] theorem raiseModified_isOrphan : (b.raiseModified mod reason).isOrphan = b.isOrphan := by
  rcases b.raiseModified_eq mod reason with ⟨_, _, _, h⟩
  rw [h]

@[simp] theorem raiseModified_contents : (b.raiseModified mod reason).contents =
    if mod = modStateWriteNeeded then [] else b.contents := by
  rcases b.raiseModified_eq mod reason with ⟨_, _, _, h⟩
  rw [h]

theorem setNode_contents (i : Fin nodecount) (n : MapNode) : (b.setNode i n).contents = [] := by
  rw [setNode, raiseModified_contents, if_pos rfl]

theorem blit_contents (nodes : Nodes) : (b.blit nodes).contents = [] := by
  rw [blit, raiseModified_contents, if_pos rfl]

variable {b} {b' : ActiveBlock}

theorem getContent_congr (h : b'.data = b.data) (i : Fin nodecount) :
    b'.getContent i = b.getContent i := by
  rw [getContent, getContent, MapBlock.get, MapBlock.get, h]

end ActiveBlock

namespace CacheRight

variable {b b' : ActiveBlock}

theorem of_nil (h : b.contents = []) : CacheRight b :=
  ⟨fun hne => absurd h hne, fun _ => h⟩

theorem congr (hb : CacheRight b) (hdata : b'.data = b.data) (hcontents : b'.contents = b.contents)
    (hnot : b'.doNotCacheContents = b.doNotCacheContents) : CacheRight b' where
  covers := by
    intro hne i
    rw [hcontents] at hne ⊢
    rw [ActiveBlock.getContent_congr hdata]
    exact hb.covers hne i
  unwanted := by
    intro h
    rw [hcontents]
    exact hb.unwanted (hnot ▸ h)

theorem raiseModified (hb : CacheRight b) (mod : UInt16) (reason : UInt32) :
    CacheRight (b.raiseModified mod reason) := by
  by_cases hmod : mod = modStateWriteNeeded
  · exact of_nil (by rw [ActiveBlock.raiseModified_contents, if_pos hmod])
  · exact hb.congr (by simp) (by rw [ActiveBlock.raiseModified_contents, if_neg hmod]) (by simp)

/-- A block without a cache skips no modifier, and a right cache names every content. -/
theorem not_registered_of_skips (hb : CacheRight b) {h : ABMHandler} (hskips : h.skips b = true)
    (i : Fin nodecount) : h.registered (b.getContent i) = false := by
  rw [ABMHandler.skips, Bool.or_eq_true] at hskips
  rcases hskips with hempty | hcached
  · have hnil : h.aabms = [] := List.isEmpty_iff.1 hempty
    simp [ABMHandler.registered, ABMHandler.at?, hnil]
  · rw [Bool.and_eq_true, Bool.not_eq_true', Bool.not_eq_true', List.any_eq_false] at hcached
    have hne : b.contents ≠ [] := List.isEmpty_eq_false_iff.1 hcached.1
    have hmem := hb.covers hne i
    simpa using hcached.2 _ hmem

end CacheRight

/-! ## Deeds -/

namespace Env

variable {env : Env} {id id' : Nat} {f : ActiveBlock → ActiveBlock} {b : ActiveBlock} {p : V3s16}

theorem blocks_modifyBlock : (env.modifyBlock id f).blocks id' =
    if id' = id then (env.blocks id).map f else env.blocks id' := by
  simp only [modifyBlock, Function.update_apply]

theorem blocks_modifyBlock_self (h : env.blocks id = some b) :
    (env.modifyBlock id f).blocks id = some (f b) := by
  rw [blocks_modifyBlock, if_pos rfl, h]
  rfl

theorem blocks_modifyBlock_of_ne (h : id' ≠ id) :
    (env.modifyBlock id f).blocks id' = env.blocks id' := by
  rw [blocks_modifyBlock, if_neg h]

/-- A block behind a change is a block of before, or the changed one. -/
theorem modifyBlock_cases (h : (env.modifyBlock id f).blocks id' = some b) :
    (id' ≠ id ∧ env.blocks id' = some b) ∨
      (id' = id ∧ ∃ b₀, env.blocks id = some b₀ ∧ b = f b₀) := by
  by_cases heq : id' = id
  · subst heq
    rw [blocks_modifyBlock, if_pos rfl] at h
    rcases Option.map_eq_some_iff.1 h with ⟨b₀, hb₀, rfl⟩
    exact .inr ⟨rfl, b₀, hb₀, rfl⟩
  · rw [blocks_modifyBlock_of_ne heq] at h
    exact .inl ⟨heq, h⟩

theorem block_of_blocks (h : env.blocks id = some b) : env.block id = b := by
  rw [block, h]
  rfl

theorem Placed.modifyBlock (h : env.Placed) (hpos : ∀ b, (f b).pos = b.pos)
    (horphan : ∀ b, (f b).isOrphan = b.isOrphan) : (env.modifyBlock id f).Placed := by
  intro p id' hp
  rcases h p id' hp with ⟨b, hb, hbp, hbo⟩
  by_cases heq : id' = id
  · subst heq
    exact ⟨f b, blocks_modifyBlock_self hb, (hpos b).trans hbp, (horphan b).trans hbo⟩
  · exact ⟨b, (blocks_modifyBlock_of_ne heq).trans hb, hbp, hbo⟩

/-- The object of a position of the map is at no other position. -/
theorem Placed.injective (h : env.Placed) {q : V3s16} (hp : env.map p = some id)
    (hq : env.map q = some id) : p = q := by
  rcases h p id hp with ⟨b, hb, rfl, -⟩
  rcases h q id hq with ⟨b', hb', rfl, -⟩
  rw [hb] at hb'
  cases hb'
  rfl

theorem Placed.act (h : env.Placed) (d : Deed) : (env.act d).Placed := by
  cases d with
  | setNode id i n =>
    exact h.modifyBlock (fun b => by simp [ActiveBlock.setNode])
      (fun b => by simp [ActiveBlock.setNode])
  | blit id nodes =>
    exact h.modifyBlock (fun b => by simp [ActiveBlock.blit]) (fun b => by simp [ActiveBlock.blit])
  | raiseModified id mod reason => exact h.modifyBlock (fun b => by simp) (fun b => by simp)
  | setStaticObjects id objects => exact h.modifyBlock (fun _ => rfl) (fun _ => rfl)
  | insertBlock id p b =>
    rw [Env.act]
    split
    · rename_i hfree
      rw [Bool.and_eq_true, Option.isNone_iff_eq_none, Option.isNone_iff_eq_none] at hfree
      intro q id' hq
      dsimp only at hq
      rw [Function.update_apply] at hq
      split at hq
      · cases hq
        subst q
        exact ⟨_, Function.update_self .., rfl, rfl⟩
      · rcases h q id' hq with ⟨b', hb', hpos, horphan⟩
        have hne : id' ≠ id := by
          rintro rfl
          rw [hfree.1] at hb'
          cases hb'
        exact ⟨b', (Function.update_of_ne hne ..).trans hb', hpos, horphan⟩
    · exact h
  | removeBlock p =>
    rw [Env.act]
    split
    · exact h
    · rename_i id hid
      intro q id' hq
      dsimp only at hq
      rw [Function.update_apply] at hq
      split at hq
      · cases hq
      · rename_i hne
        rcases h q id' hq with ⟨b, hb, hpos, horphan⟩
        have hne' : id' ≠ id := by
          rintro rfl
          exact hne (h.injective hq hid)
        exact ⟨b, (blocks_modifyBlock_of_ne hne').trans hb, hpos, horphan⟩
  | addObject => exact h

/-- A block behind a deed is new, or it is an old one whose cache is right if it was. -/
theorem cacheRight_act {d : Deed} (h : (env.act d).blocks id = some b)
    (hright : ∀ b₀, env.blocks id = some b₀ → CacheRight b₀) : CacheRight b := by
  have hmodified : ∀ {id' f}, (env.modifyBlock id' f).blocks id = some b →
      (∀ b₀, CacheRight b₀ → CacheRight (f b₀)) → CacheRight b := by
    intro id' f hb hf
    rcases modifyBlock_cases hb with ⟨-, hb₀⟩ | ⟨rfl, b₀, hb₀, rfl⟩
    · exact hright b hb₀
    · exact hf b₀ (hright b₀ hb₀)
  cases d with
  | setNode id' i n =>
    exact hmodified h fun b₀ _ => .of_nil (b₀.setNode_contents i n)
  | blit id' nodes =>
    exact hmodified h fun b₀ _ => .of_nil (b₀.blit_contents nodes)
  | raiseModified id' mod reason => exact hmodified h fun _ hb₀ => hb₀.raiseModified mod reason
  | setStaticObjects id' objects => exact hmodified h fun _ hb₀ => hb₀.congr rfl rfl rfl
  | insertBlock id' p b' =>
    rw [Env.act] at h
    split at h
    · dsimp only at h
      rw [Function.update_apply] at h
      split at h
      · cases h
        exact .of_nil rfl
      · exact hright b h
    · exact hright b h
  | removeBlock p =>
    rw [Env.act] at h
    split at h
    · exact hright b h
    · exact hmodified h fun _ hb₀ => hb₀.congr rfl rfl rfl
  | addObject => exact hright b h

theorem Right.act (h : env.Right) (d : Deed) : (env.act d).Right :=
  ⟨fun id _ hb => cacheRight_act hb (h.cache id), h.placed.act d⟩

/-- A deed that spares a block changes neither its nodes nor its cache. -/
theorem act_spares {d : Deed} (hplaced : env.Placed) (hp : env.map p = some id)
    (hb : env.blocks id = some b) (hspares : d.Spares id p) :
    (env.act d).map p = some id ∧ ∃ b', (env.act d).blocks id = some b' ∧ b'.data = b.data ∧
      b'.contents = b.contents ∧ b'.doNotCacheContents = b.doNotCacheContents := by
  cases d with
  | setNode id' i n =>
    exact ⟨hp, b, (blocks_modifyBlock_of_ne (Ne.symm hspares)).trans hb, rfl, rfl, rfl⟩
  | blit id' nodes =>
    exact ⟨hp, b, (blocks_modifyBlock_of_ne (Ne.symm hspares)).trans hb, rfl, rfl, rfl⟩
  | raiseModified id' mod reason =>
    refine ⟨hp, ?_⟩
    by_cases heq : id' = id
    · subst heq
      have hmod := hspares.resolve_left fun hne => hne rfl
      exact ⟨_, blocks_modifyBlock_self hb, by simp, by simp [hmod], by simp⟩
    · exact ⟨b, (blocks_modifyBlock_of_ne (Ne.symm heq)).trans hb, rfl, rfl, rfl⟩
  | setStaticObjects id' objects =>
    refine ⟨hp, ?_⟩
    by_cases heq : id' = id
    · subst heq
      exact ⟨_, blocks_modifyBlock_self hb, rfl, rfl, rfl⟩
    · exact ⟨b, (blocks_modifyBlock_of_ne (Ne.symm heq)).trans hb, rfl, rfl, rfl⟩
  | insertBlock id' p' b' =>
    rw [Env.act]
    split
    · rename_i hfree
      rw [Bool.and_eq_true, Option.isNone_iff_eq_none, Option.isNone_iff_eq_none] at hfree
      have hne : id ≠ id' := by
        rintro rfl
        rw [hb] at hfree
        cases hfree.1
      have hne' : p ≠ p' := by
        rintro rfl
        rw [hp] at hfree
        cases hfree.2
      exact ⟨(Function.update_of_ne hne' ..).trans hp, b,
        (Function.update_of_ne hne ..).trans hb, rfl, rfl, rfl⟩
    · exact ⟨hp, b, hb, rfl, rfl, rfl⟩
  | removeBlock p' =>
    have hne : p ≠ p' := Ne.symm hspares
    rw [Env.act]
    split
    · exact ⟨hp, b, hb, rfl, rfl, rfl⟩
    · rename_i id' hid'
      have hne' : id ≠ id' := by
        rintro rfl
        exact hne (hplaced.injective hp hid')
      exact ⟨(Function.update_of_ne hne ..).trans hp, b,
        (blocks_modifyBlock_of_ne hne').trans hb, rfl, rfl, rfl⟩
  | addObject => exact ⟨hp, b, hb, rfl, rfl, rfl⟩

end Env

/-! ## Scans that fill no cache -/

namespace Scan

variable {h : ABMHandler} {fate : Fate} {id : Nat} {i : Fin nodecount} {p p0 : V3s16} {c : UInt16}
variable {s : Scan}

/-- A scan that leaves the caches alone. -/
structure Idle (s : Scan) : Prop where
  right : s.env.Right
  unwanted : s.wantContentsCached = false

theorem right_foldl_act {env : Env} (hright : env.Right) (deeds : List Deed) :
    (deeds.foldl Env.act env).Right := by
  induction deeds generalizing env with
  | nil => exact hright
  | cons d rest ih => exact ih (hright.act d)

section

variable (hs : s.Idle)

include hs

theorem Idle.trigger (call : Call) : (s.trigger fate call).Idle :=
  ⟨right_foldl_act hs.right _, hs.unwanted⟩

theorem Idle.fire (fate : Fate) (abm : Nat) (p : V3s16) (n : MapNode) : (s.fire fate abm p n).Idle := by
  have hrun : Idle { s with abmsRun := s.abmsRun + 1 } := ⟨hs.right, hs.unwanted⟩
  exact (hrun.trigger _).trigger _

theorem Idle.recount : (s.recount id).Idle := by
  rw [Scan.recount]
  split
  · exact ⟨⟨hs.right.cache, hs.right.placed⟩, hs.unwanted⟩
  · exact hs

theorem Idle.runAbms (aabms : List ActiveABM) (n : MapNode) :
    (ends (runAbms fate id i p0 p c aabms n s)).Idle := by
  induction aabms generalizing n s with
  | nil => exact hs
  | cons aabm rest ih =>
    have hdrawn : Idle { s with draws := s.draws + 1 } := ⟨hs.right, hs.unwanted⟩
    rw [Scan.runAbms]
    split
    · exact ih hs n
    · dsimp only
      split
      · exact ih hdrawn n
      · split
        · exact ih hdrawn n
        · have hfired := hdrawn.fire fate aabm.abm p n
          split
          · exact hfired
          · split
            · exact hfired.recount
            · exact ih hfired.recount _

theorem Idle.scanNode : (ends (scanNode h fate id s i)).Idle := by
  have hcache : ∀ c, s.cacheContent id c = s := by
    intro c
    rw [cacheContent, hs.unwanted]
    rfl
  rw [Scan.scanNode]
  dsimp only
  rw [hcache]
  split
  · exact hs
  · exact hs.runAbms _ _

theorem Idle.scan (l : List (Fin nodecount)) : (ends (l.foldlM (Scan.scanNode h fate id) s)).Idle := by
  induction l generalizing s with
  | nil => exact hs
  | cons i rest ih =>
    have hround : (ends (Scan.scanNode h fate id s i)).Idle := hs.scanNode
    rw [List.foldlM_cons]
    cases hscan : Scan.scanNode h fate id s i with
    | error s' =>
      rw [hscan] at hround
      exact hround
    | ok s' =>
      rw [hscan] at hround
      exact ih hround

end

/-! ## Scans that fill the cache -/

/-- The block that is scanned: its nodes are those of `data`, and while the cache is wanted it has
the contents of those seen. -/
structure Filling (id : Nat) (p : V3s16) (data : BlockData) (seen : Fin nodecount → Prop) (s : Scan) :
    Prop where
  others : ∀ id' b, id' ≠ id → s.env.blocks id' = some b → CacheRight b
  placed : s.env.Placed
  here : s.env.map p = some id
  block : ∃ b, s.env.blocks id = some b ∧ b.data = data ∧
    (s.wantContentsCached = true →
      b.doNotCacheContents = false ∧ ∀ i, seen i → (data.get i).getContent ∈ b.contents) ∧
    (s.wantContentsCached = false → b.contents = [])

variable {data : BlockData} {seen : Fin nodecount → Prop}

section

variable (hs : s.Filling id p data seen)

include hs

theorem Filling.isOrphan : (s.env.block id).isOrphan = false := by
  rcases hs.placed p id hs.here with ⟨b, hb, -, horphan⟩
  rw [Env.block_of_blocks hb]
  exact horphan

theorem Filling.content (i : Fin nodecount) : (s.env.block id).toMapBlock.get i = data.get i := by
  rcases hs.block with ⟨b, hb, rfl, -⟩
  rw [Env.block_of_blocks hb]
  rfl

/-- Only the map matters, and whether the cache is wanted. -/
theorem Filling.congr {s' : Scan} (hblocks : s'.env.blocks = s.env.blocks) (hmap : s'.env.map = s.env.map)
    (hwant : s'.wantContentsCached = s.wantContentsCached) :
    s'.Filling id p data seen where
  others := by
    rw [hblocks]
    exact hs.others
  placed := by
    rw [Env.Placed, hblocks, hmap]
    exact hs.placed
  here := by
    rw [hmap]
    exact hs.here
  block := by
    rw [hblocks, hwant]
    exact hs.block

theorem Filling.recount : (s.recount id).Filling id p data seen := by
  rw [Scan.recount]
  split
  · exact hs.congr rfl rfl rfl
  · exact hs

theorem Filling.act {d : Deed} (hspares : d.Spares id p) :
    Filling id p data seen { s with env := s.env.act d } := by
  rcases hs.block with ⟨b, hb, rfl, hwanted, hunwanted⟩
  rcases Env.act_spares hs.placed hs.here hb hspares with
    ⟨hhere, b', hb', hdata, hcontents, hnot⟩
  refine ⟨?_, hs.placed.act d, hhere, b', hb', hdata, ?_, ?_⟩
  · intro id' b₁ hne hb₁
    exact Env.cacheRight_act hb₁ fun b₀ => hs.others id' b₀ hne
  · rw [hcontents, hnot]
    exact hwanted
  · rw [hcontents]
    exact hunwanted

theorem Filling.acts {deeds : List Deed} (hspares : ∀ d ∈ deeds, d.Spares id p) :
    Filling id p data seen { s with env := deeds.foldl Env.act s.env } := by
  induction deeds generalizing s with
  | nil => exact hs
  | cons d rest ih =>
    have hd := hs.act (hspares d (List.mem_cons_self ..))
    exact ih hd fun d' hd' => hspares d' (List.mem_cons_of_mem _ hd')

end

section

variable (hspares : ∀ calls, ∀ d ∈ fate.deeds calls, d.Spares id p)
include hspares

theorem Filling.trigger (hs : s.Filling id p data seen) (call : Call) :
    (s.trigger fate call).Filling id p data seen :=
  (hs.acts (hspares _)).congr rfl rfl rfl

theorem Filling.fire (hs : s.Filling id p data seen) (abm : Nat) (q : V3s16) (n : MapNode) :
    (s.fire fate abm q n).Filling id p data seen := by
  have hrun : Filling id p data seen { s with abmsRun := s.abmsRun + 1 } := hs.congr rfl rfl rfl
  exact (hrun.trigger hspares _).trigger hspares _

/-- The modifiers of a node end without `return`. -/
theorem Filling.runAbms (hs : s.Filling id p data seen) {q : V3s16} (aabms : List ActiveABM)
    (n : MapNode) : ∃ s', Scan.runAbms fate id i p0 q c aabms n s = .ok s' ∧
      s'.Filling id p data seen := by
  induction aabms generalizing n s with
  | nil => exact ⟨s, rfl, hs⟩
  | cons aabm rest ih =>
    have hdrawn : Filling id p data seen { s with draws := s.draws + 1 } := hs.congr rfl rfl rfl
    rw [Scan.runAbms]
    split
    · exact ih hs n
    · dsimp only
      split
      · exact ih hdrawn n
      · split
        · exact ih hdrawn n
        · have hfired := hdrawn.fire hspares aabm.abm q n
          rw [hfired.isOrphan]
          split
          · rename_i horphan
            cases horphan
          · have hcounted := hfired.recount
            split
            · exact ⟨_, rfl, hcounted⟩
            · exact ih hcounted _

end

/-- The content of the node is in the cache behind it, if the cache is still wanted. -/
theorem Filling.cacheContent (hs : s.Filling id p data seen) (i : Fin nodecount) :
    (s.cacheContent id (data.get i).getContent).Filling id p data fun j => seen j ∨ j = i := by
  rcases hs.block with ⟨b, hb, rfl, hwanted, hunwanted⟩
  have hblock := Env.block_of_blocks hb
  have hothers : ∀ {f : ActiveBlock → ActiveBlock} id' b', id' ≠ id →
      (s.env.modifyBlock id f).blocks id' = some b' → CacheRight b' := by
    intro f id' b' hne hb'
    rw [Env.blocks_modifyBlock_of_ne hne] at hb'
    exact hs.others id' b' hne hb'
  rw [Scan.cacheContent, hblock]
  split
  · rename_i hmissing
    rw [Bool.and_eq_true, Bool.not_eq_true'] at hmissing
    rcases hwanted hmissing.1 with ⟨hnot, hcovered⟩
    split
    · refine ⟨hothers, hs.placed.modifyBlock (fun _ => rfl) (fun _ => rfl), hs.here, ?_⟩
      exact ⟨_, Env.blocks_modifyBlock_self hb, rfl, nofun, fun _ => rfl⟩
    · refine ⟨hothers, hs.placed.modifyBlock (fun _ => rfl) (fun _ => rfl), hs.here, ?_⟩
      refine ⟨_, Env.blocks_modifyBlock_self hb, rfl, fun _ => ⟨hnot, ?_⟩, ?_⟩
      · rintro j (hj | rfl)
        · exact List.mem_append_left _ (hcovered j hj)
        · exact List.mem_append_right _ (List.mem_singleton_self _)
      · intro hwant
        rw [hmissing.1] at hwant
        cases hwant
  · rename_i hpresent
    refine ⟨hs.others, hs.placed, hs.here, b, hb, rfl, ?_, hunwanted⟩
    intro hwant
    rcases hwanted hwant with ⟨hnot, hcovered⟩
    rw [hwant, Bool.true_and, Bool.not_eq_true', Bool.not_eq_false] at hpresent
    refine ⟨hnot, ?_⟩
    rintro j (hj | rfl)
    · exact hcovered j hj
    · exact List.contains_iff_mem.1 hpresent

section

variable (hspares : ∀ calls, ∀ d ∈ fate.deeds calls, d.Spares id p) (hs : s.Filling id p data seen)

include hspares hs

theorem Filling.scanNode (i : Fin nodecount) :
    ∃ s', Scan.scanNode h fate id s i = .ok s' ∧ s'.Filling id p data fun j => seen j ∨ j = i := by
  have hcached := hs.cacheContent i
  rw [Scan.scanNode, hs.content]
  dsimp only
  split
  · exact ⟨_, rfl, hcached⟩
  · exact hcached.runAbms hspares _ _

theorem Filling.scan (l : List (Fin nodecount)) :
    (ends (l.foldlM (Scan.scanNode h fate id) s)).Filling id p data fun j => seen j ∨ j ∈ l := by
  induction l generalizing s seen with
  | nil =>
    simp only [List.not_mem_nil, or_false]
    exact hs
  | cons i rest ih =>
    rcases hs.scanNode hspares (h := h) i with ⟨s', hscan, hs'⟩
    rw [List.foldlM_cons, hscan]
    have hrest := ih hs'
    simp only [or_assoc] at hrest
    simp only [List.mem_cons]
    exact hrest

end

/-- Once all nodes are seen, the cache is right. -/
theorem Filling.right (hs : s.Filling id p data seen) (hall : ∀ i, seen i) : s.env.Right := by
  refine ⟨?_, hs.placed⟩
  intro id' b' hb'
  by_cases hne : id' = id
  · subst hne
    rcases hs.block with ⟨b, hb, rfl, hwanted, hunwanted⟩
    rw [hb] at hb'
    cases hb'
    cases hwant : s.wantContentsCached with
    | true =>
      rcases hwanted hwant with ⟨hnot, hcovered⟩
      refine ⟨fun _ i => hcovered i (hall i), ?_⟩
      intro hdo
      rw [hnot] at hdo
      cases hdo
    | false => exact .of_nil (hunwanted hwant)
  · exact hs.others id' b' hne hb'

end Scan

/-! ## Runs -/

/-- Blocks that were just loaded or made, each in its place. -/
def Env.Fresh (env : Env) : Prop :=
  env.Placed ∧ ∀ id b, env.blocks id = some b → b.contents = []

variable {id : Nat} {b : ActiveBlock} {env : Env} {fate : Fate} {h : ABMHandler}

theorem Env.Right.apply (h : env.Right) {handler : ABMHandler} {fate : Fate} {p : V3s16} {id : Nat}
    (hp : env.map p = some id)
    (hspares : (env.block id).fills = true → ∀ calls, ∀ d ∈ fate.deeds calls, d.Spares id p) :
    (handler.apply fate env id).1.Right := by
  rw [ABMHandler.apply]
  split
  · exact h
  · dsimp only
    split
    · exact h
    · dsimp only
      cases hfills : (env.block id).fills with
      | false =>
        have hstart : (Scan.start env id).Idle := ⟨⟨h.cache, h.placed⟩, hfills⟩
        exact (hstart.scan _).right
      | true =>
        rcases h.placed p id hp with ⟨b, hb, hpos, horphan⟩
        have hblock := Env.block_of_blocks hb
        have hfills' := hfills
        rw [hblock, ActiveBlock.fills, Bool.and_eq_true, Bool.not_eq_true'] at hfills'
        have hstart : (Scan.start env id).Filling id p b.data fun _ => False := by
          refine ⟨fun id' b' _ hb' => h.cache id' b' hb', h.placed, hp, b, hb, rfl, ?_, ?_⟩
          · exact fun _ => ⟨hfills'.2, nofun⟩
          · exact fun _ => List.isEmpty_iff.1 hfills'.1
        exact (hstart.scan (hspares hfills) _).right fun i => .inr (List.mem_finRange i)

theorem Env.Right.step (h : env.Right) {e : Event} (hspares : e.Spares env) : (env.step e).Right := by
  cases e with
  | apply handler fate p =>
    rw [Env.step]
    split
    · exact h
    · rename_i id hid
      exact h.apply hid (hspares id hid)
  | act d => exact h.act d

/-- The steps between two states. -/
def Step (env : Env) (e : Event) (env' : Env) : Prop :=
  env' = env.step e

/-- As long as no trigger empties a cache while it is filled, every cache that is not empty has the
content of every node, and a block is skipped only when no modifier is registered for any of its
nodes. -/
theorem cacheRight_of_run {env env' : Env} {events : List Event} (hfresh : env.Fresh)
    (hrun : Run.Guarded (fun env e => e.Spares env) Step env events env') (id : Nat)
    (b : ActiveBlock) (hb : env'.blocks id = some b) :
    (b.contents ≠ [] → ∀ i, b.getContent i ∈ b.contents) ∧
      (b.contents ≠ [] → b.doNotCacheContents = false) ∧
      ∀ handler : ABMHandler, handler.skips b = true →
        ∀ i, handler.registered (b.getContent i) = false := by
  have hstart : env.Right := ⟨fun id b hb => .of_nil (hfresh.2 id b hb), hfresh.1⟩
  have hright : env'.Right := by
    refine Run.guarded_invariant (P := Env.Right) ?_ hrun hstart
    rintro s e t hs hspares rfl
    exact hs.step hspares
  have hcache := hright.cache id b hb
  refine ⟨hcache.covers, ?_, fun handler hskips i => hcache.not_registered_of_skips hskips i⟩
  intro hne
  by_contra hnot
  exact hne (hcache.unwanted (Bool.eq_true_of_not_eq_false hnot))

/-! ## A cache that has forgotten a node -/

def firstNode : Fin nodecount := ⟨0, by rw [nodecount_eq]; decide⟩

def secondNode : Fin nodecount := ⟨1, by rw [nodecount_eq]; decide⟩

/-- The contents 5 and 1, and 2 everywhere else. -/
def threeContents : ActiveBlock where
  data := .full (((Nodes.fill { param0 := 2 }).set firstNode { param0 := 5 }).set secondNode
    { param0 := 1 })
  pos := ⟨0, 0, 0⟩

def oneBlock (b : ActiveBlock) : Env where
  blocks id := if id = 0 then some b else none
  map p := if p = ⟨0, 0, 0⟩ then some 0 else none

/-- A modifier for the content `c`. -/
def modifierOf (c : Nat) : ABMHandler where
  aabms := List.replicate c none ++ [some [{ abm := 0, minY := -32768, maxY := 32767 }]]

/-- The first trigger changes the node it is called for. -/
def changesItsNode : Fate where
  rand _ := 0
  deeds calls := if calls.length = 1 then [.setNode 0 secondNode { param0 := 2 }] else []

def triggersNothing : Fate where
  rand _ := 0
  deeds _ := []

theorem fresh_oneBlock (hpos : b.pos = ⟨0, 0, 0⟩) (horphan : b.isOrphan = false)
    (hcontents : b.contents = []) : (oneBlock b).Fresh := by
  constructor
  · intro p id hp
    simp only [oneBlock, Option.ite_none_right_eq_some, Option.some.injEq] at hp
    rcases hp with ⟨rfl, rfl⟩
    exact ⟨b, rfl, hpos, horphan⟩
  · intro id b' hb'
    simp only [oneBlock, Option.ite_none_right_eq_some, Option.some.injEq] at hb'
    rw [← hb'.2]
    exact hcontents

/-- A node without modifiers adds its content to the cache. -/
theorem Scan.scanNode_unregistered (fate : Fate) {id : Nat} {s : Scan} {b : ActiveBlock} {i : Fin nodecount}
    (hb : s.env.blocks id = some b) (hwant : s.wantContentsCached = true)
    (hnone : h.at? (b.getContent i) = none) (hlength : b.contents.length < 64) :
    Scan.scanNode h fate id s i = .ok (if b.getContent i ∈ b.contents then s
      else { s with env := s.env.modifyBlock id fun b' =>
        { b' with contents := b'.contents ++ [b.getContent i] } }) := by
  have hblock := Env.block_of_blocks hb
  have hcached : s.cacheContent id (b.getContent i) = if b.getContent i ∈ b.contents then s
      else { s with env := s.env.modifyBlock id fun b' =>
        { b' with contents := b'.contents ++ [b.getContent i] } } := by
    rw [Scan.cacheContent, hwant, hblock, Bool.true_and]
    by_cases hmem : b.getContent i ∈ b.contents
    · rw [if_pos hmem, List.contains_iff_mem.2 hmem]
      rfl
    · have hnot : (b.contents.contains (b.getContent i)) = false := by
        simpa using hmem
      rw [if_neg hmem, hnot, Bool.not_false, if_pos rfl, if_neg (by simpa [contentTypeCacheMax] using hlength)]
  have hscan : Scan.scanNode h fate id s i = .ok (s.cacheContent id (b.getContent i)) := by
    have hat : h.at? (b.toMapBlock.get i).getContent = none := hnone
    rw [Scan.scanNode, hblock]
    dsimp only
    rw [hat]
    rfl
  rw [hscan, hcached]

/-- Nodes of a content that is in the cache and has no modifiers change nothing. -/
theorem Scan.scan_cached {s : Scan} (hb : s.env.blocks id = some b) (hwant : s.wantContentsCached = true)
    (hlength : b.contents.length < 64) {l : List (Fin nodecount)}
    (hl : ∀ i ∈ l, b.getContent i ∈ b.contents ∧ h.at? (b.getContent i) = none) :
    l.foldlM (Scan.scanNode h fate id) s = .ok s := by
  induction l with
  | nil => rfl
  | cons i rest ih =>
    rcases hl i (List.mem_cons_self ..) with ⟨hmem, hnone⟩
    rw [List.foldlM_cons, Scan.scanNode_unregistered fate hb hwant hnone hlength, if_pos hmem]
    exact ih fun j hj => hl j (List.mem_cons_of_mem _ hj)

theorem finRange_add_three (k : Nat) : ∃ third rest,
    List.finRange (k + 3) = ⟨0, by omega⟩ :: ⟨1, by omega⟩ :: third :: rest ∧
      ∀ i ∈ third :: rest, 2 ≤ i.val := by
  refine ⟨⟨2, by omega⟩, (List.finRange k).map fun i => ⟨i.val + 3, by omega⟩, ?_, ?_⟩
  · rw [List.finRange_succ, List.finRange_succ, List.finRange_succ]
    simp only [List.map_cons, List.map_map]
    rfl
  · intro i hi
    rcases List.mem_cons.1 hi with rfl | hi
    · exact le_rfl
    · rcases List.mem_map.1 hi with ⟨j, -, rfl⟩
      exact Nat.le_add_left 2 (j.val + 1)

theorem finRange_nodecount : ∃ third rest,
    List.finRange nodecount = firstNode :: secondNode :: third :: rest ∧
      ∀ i ∈ third :: rest, 2 ≤ i.val := by
  have hsplit : ∀ n (h : n = 4093 + 3), ∃ third rest,
      List.finRange n = ⟨0, by omega⟩ :: ⟨1, by omega⟩ :: third :: rest ∧
        ∀ i ∈ third :: rest, 2 ≤ i.val := by
    rintro n rfl
    exact finRange_add_three 4093
  exact hsplit nodecount nodecount_eq

theorem getContent_setNode (b : ActiveBlock) (i j : Fin nodecount) (n : MapNode) :
    (b.setNode i n).getContent j = if i = j then n.getContent else b.getContent j := by
  have hdata : (b.setNode i n).data = (b.toMapBlock.setNodeNoCheck i n).data := by
    rw [ActiveBlock.setNode, ActiveBlock.raiseModified_data]
  have hget : (b.setNode i n).getContent j = ((b.toMapBlock.setNodeNoCheck i n).get j).getContent := by
    rw [ActiveBlock.getContent, MapBlock.get, hdata]
    rfl
  rw [hget, MapBlock.get_setNodeNoCheck]
  split <;> rfl

/-- A modifier that acts on any node, and whose trigger changes the content. -/
theorem Scan.runAbms_single {i : Fin nodecount} {p0 p : V3s16} {c : UInt16} {n : MapNode} {s s' : Scan}
    {abm : Nat} (hrand : fate.rand s.draws = 0)
    (hfire : ({ s with draws := s.draws + 1 } : Scan).fire fate abm p n = s')
    (horphan : (s'.env.block id).isOrphan = false)
    (hcontent : ((s'.recount id).env.block id).getContent i ≠ c) :
    Scan.runAbms fate id i p0 p c [{ abm := abm, minY := -32768, maxY := 32767 }] n s =
      .ok (s'.recount id) := by
  have hlow : ¬ p.y < -32768 := by
    rw [Int16.lt_iff_toInt_lt, not_lt]
    exact Int16.le_toInt p.y
  have hhigh : ¬ 32767 < p.y := by
    rw [Int16.lt_iff_toInt_lt, not_lt]
    exact Int16.toInt_le p.y
  have hinside : ¬ (p.y < -32768 ∨ 32767 < p.y) := not_or.2 ⟨hlow, hhigh⟩
  have hdraw : ¬ fate.rand s.draws % 1 ≠ 0 := by
    rw [hrand]
    decide
  rw [Scan.runAbms, if_neg hinside]
  dsimp only
  rw [if_neg hdraw, if_neg (by simp [Scan.suits]), hfire, horphan, if_neg Bool.false_ne_true]
  exact if_pos hcontent

/-- The modifier of the second node changes it, and the cache forgets the first node. -/
theorem scan_second {s : Scan} (hb : s.env.blocks 0 = some b) (horphan : b.isOrphan = false)
    (hcontent : b.getContent secondNode = 1) (hcontents : b.contents = [5])
    (hwant : s.wantContentsCached = true) (hcalls : s.calls = []) (hadded : s.env.addedObjects = 0) :
    ∃ s' b', Scan.scanNode (modifierOf 1) changesItsNode 0 s secondNode = .ok s' ∧
      s'.wantContentsCached = true ∧ s'.env.blocks 0 = some b' ∧ b'.contents = [] ∧
      ∀ i, b'.getContent i = if secondNode = i then 2 else b.getContent i := by
  let cached : ActiveBlock := { b with contents := [5, 1] }
  let s₁ : Scan := { s with env := s.env.modifyBlock 0 fun b' =>
    { b' with contents := b'.contents ++ [1] } }
  have hs₁ : s₁.env.blocks 0 = some cached := by
    refine (Env.blocks_modifyBlock_self hb).trans ?_
    rw [hcontents]
    rfl
  have hcache : s.cacheContent 0 1 = s₁ := by
    have hmissing : (s.wantContentsCached && !(s.env.block 0).contents.contains 1) = true := by
      rw [Env.block_of_blocks hb, hwant, hcontents]
      rfl
    have hroom : ¬ contentTypeCacheMax ≤ (s.env.block 0).contents.length := by
      rw [Env.block_of_blocks hb, hcontents]
      decide
    rw [Scan.cacheContent, if_pos hmissing, if_neg hroom]
  -- the first trigger changes the node, the second one does nothing
  let changed := cached.setNode secondNode { param0 := 2 }
  have hchanged : (s₁.env.act (.setNode 0 secondNode { param0 := 2 })).blocks 0 = some changed :=
    Env.blocks_modifyBlock_self hs₁
  let p := ofBlockIndex (UInt16.ofNat secondNode) + (s₁.env.block 0).getPosRelative
  let n := b.toMapBlock.get secondNode
  let s₂ := ({ s₁ with draws := s₁.draws + 1 } : Scan).fire changesItsNode 0 p n
  have henv : s₂.env = s₁.env.act (.setNode 0 secondNode { param0 := 2 }) := by
    have hfirst : ∀ call, changesItsNode.deeds (call :: s.calls) =
        [.setNode 0 secondNode { param0 := 2 }] := by
      intro call
      rw [hcalls]
      rfl
    have hsecond : ∀ call call', changesItsNode.deeds (call' :: call :: s.calls) = [] := by
      intro call call'
      rw [hcalls]
      rfl
    change (changesItsNode.deeds (⟨0, p, n, some s.activeObjectCount⟩ :: ⟨0, p, n, none⟩ ::
      s.calls)).foldl Env.act
        ((changesItsNode.deeds (⟨0, p, n, none⟩ :: s.calls)).foldl Env.act s₁.env) = _
    rw [hfirst, hsecond]
    rfl
  have hrecount : s₂.recount 0 = s₂ := by
    have hnone : ¬ 0 < s₂.env.addedObjects := by
      rw [henv]
      change ¬ 0 < s.env.addedObjects
      rw [hadded]
      decide
    rw [Scan.recount, if_neg hnone]
  have hs₂ : s₂.env.blocks 0 = some changed := by
    rw [henv, hchanged]
  have hget : ∀ i, changed.getContent i = if secondNode = i then 2 else b.getContent i :=
    fun i => getContent_setNode cached secondNode i { param0 := 2 }
  refine ⟨s₂, changed, ?_, hwant, hs₂, ActiveBlock.setNode_contents .., hget⟩
  have hblock := Env.block_of_blocks hb
  have hround : Scan.runAbms changesItsNode 0 secondNode (ofBlockIndex (UInt16.ofNat secondNode)) p 1
      [{ abm := 0, minY := -32768, maxY := 32767 }] n s₁ = .ok s₂ := by
    rw [← hrecount]
    refine Scan.runAbms_single rfl rfl ?_ ?_
    · rw [Env.block_of_blocks hs₂]
      change (cached.setNode secondNode { param0 := 2 }).isOrphan = false
      rw [ActiveBlock.setNode, ActiveBlock.raiseModified_isOrphan]
      exact horphan
    · rw [hrecount, Env.block_of_blocks hs₂, hget, if_pos rfl]
      decide
  rw [Scan.scanNode, hblock]
  have hat : (modifierOf 1).at? (b.toMapBlock.get secondNode).getContent =
      some [{ abm := 0, minY := -32768, maxY := 32767 }] := by
    change (modifierOf 1).at? (b.getContent secondNode) = _
    rw [hcontent]
    rfl
  dsimp only
  rw [hat]
  change Scan.runAbms changesItsNode 0 secondNode (ofBlockIndex (UInt16.ofNat secondNode))
    (_ + ((s.cacheContent 0 (b.getContent secondNode)).env.block 0).getPosRelative)
    (b.getContent secondNode) _ n (s.cacheContent 0 (b.getContent secondNode)) = _
  rw [hcontent, hcache]
  exact hround

theorem ABMHandler.apply_of_scan (hsome : h.aabms.isEmpty = false) (hskips : h.skips (env.block id) = false) :
    (h.apply fate env id).1 = (Scan.ends ((List.finRange nodecount).foldlM
      (Scan.scanNode h fate id) (Scan.start env id))).env := by
  rw [apply, hsome, if_neg Bool.false_ne_true]
  dsimp only
  rw [hskips, if_neg Bool.false_ne_true]

theorem Env.step_apply {p : V3s16} (hp : env.map p = some id) :
    env.step (.apply h fate p) = (h.apply fate env id).1 := by
  rw [Env.step, hp]

/-- A block with a node of content 5 that is skipped for a modifier of that content. -/
theorem cache_forgets :
    (oneBlock threeContents).Fresh ∧
      ∃ b, ((oneBlock threeContents).step (.apply (modifierOf 1) changesItsNode ⟨0, 0, 0⟩)).blocks 0 =
          some b ∧
        b.contents = [2] ∧ b.getContent firstNode = 5 ∧
        (modifierOf 5).skips b = true ∧ (modifierOf 5).registered 5 = true := by
  refine ⟨fresh_oneBlock rfl rfl rfl, ?_⟩
  have hcontent : ∀ i, threeContents.getContent i =
      if secondNode = i then 1 else if firstNode = i then 5 else 2 := by
    intro i
    change (Nodes.get _ i).getContent = _
    rw [Nodes.get_set, Nodes.get_set, Nodes.get_fill]
    split
    · rfl
    · split <;> rfl
  have hne : secondNode ≠ firstNode := by decide
  rcases finRange_nodecount with ⟨third, rest, hall, hrest⟩
  let s₀ := Scan.start (oneBlock threeContents) 0
  have hb₀ : s₀.env.blocks 0 = some threeContents := rfl
  -- the first node has no modifiers
  have hfirst : threeContents.getContent firstNode = 5 := by
    rw [hcontent, if_neg hne, if_pos rfl]
  let b₁ : ActiveBlock := { threeContents with contents := [5] }
  have hscan₁ := Scan.scanNode_unregistered (h := modifierOf 1) changesItsNode (i := firstNode) hb₀ rfl
    (by rw [hfirst]; rfl) (by decide)
  have hempty : threeContents.getContent firstNode ∉ threeContents.contents := List.not_mem_nil
  rw [if_neg hempty, hfirst] at hscan₁
  generalize hs₁ : ({ s₀ with env := s₀.env.modifyBlock 0 fun b' =>
    { b' with contents := b'.contents ++ [5] } } : Scan) = s₁ at hscan₁
  have hb₁ : s₁.env.blocks 0 = some b₁ := by
    rw [← hs₁]
    rfl
  have hsecond : b₁.getContent secondNode = 1 := by
    change threeContents.getContent secondNode = 1
    rw [hcontent, if_pos rfl]
  rcases scan_second hb₁ rfl hsecond rfl (by rw [← hs₁]; rfl) (by rw [← hs₁]; rfl)
    (by rw [← hs₁]; rfl) with ⟨s₂, b₂, hscan₂, hwant₂, hb₂, hcontents₂, hcontent₂⟩
  have hlater : ∀ i ∈ third :: rest, b₂.getContent i = 2 := by
    intro i hi
    have hi := hrest i hi
    have hsecond : secondNode ≠ i := by
      rintro rfl
      exact absurd hi (by decide)
    have hfirst : firstNode ≠ i := by
      rintro rfl
      exact absurd hi (by decide)
    rw [hcontent₂, if_neg hsecond]
    change threeContents.getContent i = 2
    rw [hcontent, if_neg hsecond, if_neg hfirst]
  -- the third node is the first one that the cache has now
  have hthird := hlater third (List.mem_cons_self ..)
  have hscan₃ := Scan.scanNode_unregistered (h := modifierOf 1) changesItsNode (i := third) hb₂ hwant₂
    (by rw [hthird]; rfl) (by rw [hcontents₂]; decide)
  rw [hthird, hcontents₂, if_neg List.not_mem_nil] at hscan₃
  generalize hs₃ : ({ s₂ with env := s₂.env.modifyBlock 0 fun b' =>
    { b' with contents := b'.contents ++ [2] } } : Scan) = s₃ at hscan₃
  let b₃ : ActiveBlock := { b₂ with contents := [2] }
  have hb₃ : s₃.env.blocks 0 = some b₃ := by
    rw [← hs₃]
    refine (Env.blocks_modifyBlock_self hb₂).trans ?_
    rw [hcontents₂]
    rfl
  have hscan₄ : rest.foldlM (Scan.scanNode (modifierOf 1) changesItsNode 0) s₃ = .ok s₃ := by
    have hroom : b₃.contents.length < 64 := by
      change 1 < 64
      decide
    refine Scan.scan_cached hb₃ (by rw [← hs₃]; exact hwant₂) hroom ?_
    intro i hi
    have hi' : b₃.getContent i = 2 := hlater i (List.mem_cons_of_mem _ hi)
    rw [hi']
    exact ⟨List.mem_singleton_self _, rfl⟩
  have hscan : (List.finRange nodecount).foldlM (Scan.scanNode (modifierOf 1) changesItsNode 0) s₀ =
      .ok s₃ := by
    have hok : ∀ (s : Scan) (f : Scan → Except Scan Scan), (Except.ok s >>= f) = f s :=
      fun _ _ => rfl
    rw [hall, List.foldlM_cons, hscan₁, hok, List.foldlM_cons, hscan₂, hok, List.foldlM_cons, hscan₃,
      hok]
    exact hscan₄
  have henv : ((oneBlock threeContents).step (.apply (modifierOf 1) changesItsNode ⟨0, 0, 0⟩)) =
      s₃.env := by
    have hmap : (oneBlock threeContents).map ⟨0, 0, 0⟩ = some 0 := rfl
    have hsome : (modifierOf 1).aabms.isEmpty = false := rfl
    have hskips : (modifierOf 1).skips ((oneBlock threeContents).block 0) = false := rfl
    rw [Env.step_apply hmap, ABMHandler.apply_of_scan hsome hskips]
    exact congrArg (fun r => (Scan.ends r).env) hscan
  refine ⟨b₃, by rw [henv]; exact hb₃, rfl, ?_, rfl, rfl⟩
  change b₂.getContent firstNode = 5
  rw [hcontent₂, if_neg hne]
  exact hfirst

/-- A modifier whose triggers do nothing. -/
theorem cacheRight_of_quiet_run :
    ∃ env', Run.Guarded (fun env e => e.Spares env) Step (oneBlock threeContents)
        [.apply (modifierOf 1) triggersNothing ⟨0, 0, 0⟩] env' ∧
      ∀ b, env'.blocks 0 = some b → b.contents ≠ [] → b.getContent firstNode ∈ b.contents := by
  have hrun : Run.Guarded (fun env e => e.Spares env) Step (oneBlock threeContents)
      [.apply (modifierOf 1) triggersNothing ⟨0, 0, 0⟩]
      ((oneBlock threeContents).step (.apply (modifierOf 1) triggersNothing ⟨0, 0, 0⟩)) := by
    refine .cons ⟨?_, rfl⟩ (.nil _)
    intro id _ _ calls d hd
    exact absurd hd List.not_mem_nil
  refine ⟨_, hrun, fun b hb hne => ?_⟩
  exact (cacheRight_of_run (fresh_oneBlock rfl rfl rfl) hrun 0 b hb).1 hne firstNode

end Abm
end AxisEngine
