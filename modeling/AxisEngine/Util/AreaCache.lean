import AxisEngine.Lib.LRUCache
import AxisEngine.Map.ServerMap
import AxisEngine.Util.AreaStore
import Mathlib.Tactic.Linarith

/-!
# AreaCache — the areas at a position, through a cache

Which areas contain a position is asked often (`areastore.cpp`).  The store keeps, for the cells of a
grid that were asked for last, the areas that overlap the cell, and looks among those.  The edges of
a cell are computed in 16 bits.

* `VectorAreaStore` — the areas by id, in a vector, and the cache;
* `insertArea`, `removeArea`, `setCacheParams`, `getAreasForPos`, `getAreasInArea` — the operations;
* `Reaches` — the area is found although an edge of the cell may have wrapped around;
* `getAreasForPos_exact_iff` — the answer is right just when all areas at the position are found.
-/

namespace AxisEngine

open Lib

/-! ## Areas and boxes -/

/-- `AST_CONTAINS_PT`. -/
def Area.containsPt (a : Area) (p : V3s16) : Bool :=
  a.minedge.x ≤ p.x && a.minedge.y ≤ p.y && a.minedge.z ≤ p.z &&
    (p.x ≤ a.maxedge.x && p.y ≤ a.maxedge.y && p.z ≤ a.maxedge.z)

/-- `AST_OVERLAPS_IN_DIMENSION`. -/
def overlapsInDimension (amine amaxe low high : Int16) : Bool :=
  !(amine > high || amaxe < low)

/-- `AST_AREAS_OVERLAP`. -/
def Area.overlaps (amine amaxe : V3s16) (a : Area) : Bool :=
  overlapsInDimension amine.x amaxe.x a.minedge.x a.maxedge.x &&
    overlapsInDimension amine.y amaxe.y a.minedge.y a.maxedge.y &&
    overlapsInDimension amine.z amaxe.z a.minedge.z a.maxedge.z

/-- `AST_CONTAINS_AREA`. -/
def Area.inside (amine amaxe : V3s16) (a : Area) : Bool :=
  amine.x ≤ a.minedge.x && amine.y ≤ a.minedge.y && amine.z ≤ a.minedge.z &&
    (a.maxedge.x ≤ amaxe.x && a.maxedge.y ≤ amaxe.y && a.maxedge.z ≤ amaxe.z)

/-! ## The store -/

namespace AreaStore

/-- The area with an id. -/
def find (s : AreaStore) (id : UInt32) : Option Area :=
  s.areasMap.find? fun a => a.id = id

theorem perm_insertArea {s : AreaStore} {a : Area} (h : (s.insertArea a).2.2 = true) :
    (s.insertArea a).1.areasMap.Perm ((s.insertArea a).2.1 :: s.areasMap) := by
  rw [insertArea] at h ⊢
  split
  · rename_i htaken
    rw [dif_pos htaken] at h
    cases h
  · exact perm_insertAt _ _ _

theorem areasMap_removeArea {s : AreaStore} {id : UInt32} {a : Area} (h : s.find id = some a) :
    (s.removeArea id).1.areasMap = s.areasMap.erase a := by
  have ha : a ∈ s.areasMap := List.mem_of_find?_eq_some h
  have hid : a.id = id := by simpa using List.find?_some h
  rw [s.sorted.nodup.erase_eq_filter]
  refine List.filter_congr fun b hb => ?_
  have hsame : b.id = id ↔ b = a := by
    constructor
    · intro heq
      exact s.sorted.eq_of_key_eq hb ha (congrArg UInt32.toNat (heq.trans hid.symm))
    · rintro rfl
      exact hid
  rw [bne, decide_not, decide_eq_decide.2 hsame]
  rfl

end AreaStore

/-- `m_areas` are the areas of the map in the order in which they were inserted. -/
structure VectorAreaStore where
  store : AreaStore
  areas : List Area
  cacheEnabled : Bool
  cacheblockRadius : UInt8
  resCache : LRUCache V3s16 (List Area)
  perm : areas.Perm store.areasMap
  radius_ge : 16 ≤ cacheblockRadius

namespace VectorAreaStore

def new : VectorAreaStore where
  store := .empty
  areas := []
  cacheEnabled := true
  cacheblockRadius := 64
  resCache := .new 1000
  perm := .refl _
  radius_ge := by decide

variable (s : VectorAreaStore)

def invalidateCache : VectorAreaStore :=
  { s with resCache := if s.cacheEnabled then s.resCache.invalidate else s.resCache }

/-- The store, the area as it then is, and whether it was inserted. -/
def insertArea (a : Area) : VectorAreaStore × Area × Bool :=
  if h : (s.store.insertArea a).2.2 = true then
    (invalidateCache { s with
        store := (s.store.insertArea a).1
        areas := s.areas ++ [(s.store.insertArea a).2.1]
        perm := (List.perm_append_singleton _ _).trans
          ((s.perm.cons _).trans (AreaStore.perm_insertArea h).symm) },
      (s.store.insertArea a).2.1, true)
  else (s, (s.store.insertArea a).2.1, false)

def removeArea (id : UInt32) : VectorAreaStore × Bool :=
  match h : s.store.find id with
  | none => (s, false)
  | some a =>
    (invalidateCache { s with
        store := (s.store.removeArea id).1
        areas := s.areas.erase a
        perm := by
          rw [AreaStore.areasMap_removeArea h]
          exact s.perm.erase a },
      true)

theorem radius_max_ge (r : UInt8) : 16 ≤ if r > 16 then r else 16 := by
  split
  · rename_i h
    exact UInt8.le_of_lt h
  · exact UInt8.le_refl _

def setCacheParams (enabled : Bool) (blockRadius : UInt8) (limit : ℕ) : VectorAreaStore :=
  invalidateCache { s with
    cacheEnabled := enabled
    cacheblockRadius := if blockRadius > 16 then blockRadius else 16
    resCache := s.resCache.setLimit (max limit 20)
    radius_ge := radius_max_ge blockRadius }

def getAreasInArea (minedge maxedge : V3s16) (acceptOverlap : Bool) : List Area :=
  s.areas.filter fun a => if acceptOverlap then a.overlaps minedge maxedge else a.inside minedge maxedge

/-- The lower edge of a cell, in 16 bits. -/
def cellMin (radius : UInt8) (n : Int16) : Int16 :=
  Int16.ofInt (n.toInt * radius.toNat)

def cellMax (radius : UInt8) (minedge : Int16) : Int16 :=
  Int16.ofInt (minedge.toInt + radius.toNat - 1)

def cacheMiss (mpos : V3s16) : List Area :=
  let r := s.cacheblockRadius
  let minedge : V3s16 := ⟨cellMin r mpos.x, cellMin r mpos.y, cellMin r mpos.z⟩
  let maxedge : V3s16 := ⟨cellMax r minedge.x, cellMax r minedge.y, cellMax r minedge.z⟩
  s.getAreasInArea minedge maxedge true

def getAreasForPosImpl (pos : V3s16) : List Area :=
  s.areas.filter fun a => a.containsPt pos

/-- `m_cacheblock_radius` as a distance. -/
def radius : Int16 :=
  Int16.ofInt s.cacheblockRadius.toNat

/-- The areas, and the store with its cache. -/
def getAreasForPos (pos : V3s16) : List Area × VectorAreaStore :=
  if s.cacheEnabled then
    let mblock := Map.getContainerPos pos ⟨s.radius, s.radius, s.radius⟩
    let found := s.resCache.lookupCache s.cacheMiss mblock
    (found.1.filter fun a => a.containsPt pos, { s with resCache := found.2 })
  else (s.getAreasForPosImpl pos, s)

end VectorAreaStore

inductive AreaOp
  | insertArea (a : Area)
  | removeArea (id : UInt32)
  | setCacheParams (enabled : Bool) (blockRadius : UInt8) (limit : ℕ)
  | getAreasForPos (pos : V3s16)
  | getAreasInArea (minedge maxedge : V3s16) (acceptOverlap : Bool)

namespace VectorAreaStore

def step (s : VectorAreaStore) : AreaOp → VectorAreaStore
  | .insertArea a => (s.insertArea a).1
  | .removeArea id => (s.removeArea id).1
  | .setCacheParams enabled blockRadius limit => s.setCacheParams enabled blockRadius limit
  | .getAreasForPos pos => (s.getAreasForPos pos).2
  | .getAreasInArea _ _ _ => s

def run (ops : List AreaOp) : VectorAreaStore :=
  ops.foldl step new

/-! ## The cache -/

/-- What is kept is what would be computed now; while the cache is not used nothing is kept. -/
structure CacheRight (s : VectorAreaStore) : Prop where
  right : s.resCache.Right s.cacheMiss
  unused : s.cacheEnabled = false → ∀ k, s.resCache.map k = none

section

variable {s : VectorAreaStore} {a : Area} {pos : V3s16}

theorem cacheRight_new : new.CacheRight where
  right := LRUCache.right_new _ _
  unused h := by cases h

theorem cacheRight_invalidateCache (h : s.cacheEnabled = false → ∀ k, s.resCache.map k = none) :
    s.invalidateCache.CacheRight := by
  cases henabled : s.cacheEnabled with
  | true =>
    constructor
    · rw [invalidateCache, henabled, if_pos rfl]
      exact LRUCache.right_invalidate _ _
    · intro hdisabled
      exact absurd (henabled.symm.trans hdisabled) Bool.noConfusion
  | false =>
    have hnone := h henabled
    constructor
    · rw [invalidateCache, henabled, if_neg Bool.false_ne_true]
      intro k v hk
      rw [hnone k] at hk
      cases hk
    · intro _ k
      rw [invalidateCache, henabled, if_neg Bool.false_ne_true]
      exact hnone k

/-- Whatever changes the areas or the grid, nothing old is kept. -/
theorem CacheRight.step (h : s.CacheRight) (op : AreaOp) : (s.step op).CacheRight := by
  cases op with
  | insertArea a =>
    rw [VectorAreaStore.step, insertArea]
    split
    · exact cacheRight_invalidateCache h.unused
    · exact h
  | removeArea id =>
    rw [VectorAreaStore.step, removeArea]
    split
    · exact h
    · exact cacheRight_invalidateCache h.unused
  | setCacheParams enabled blockRadius limit => exact cacheRight_invalidateCache fun _ _ => rfl
  | getAreasForPos pos =>
    rw [VectorAreaStore.step, getAreasForPos]
    split
    · rename_i henabled
      refine ⟨(LRUCache.lookupCache_right h.right _).2, fun hdisabled => ?_⟩
      exact absurd (henabled.symm.trans hdisabled) Bool.noConfusion
    · exact h
  | getAreasInArea minedge maxedge acceptOverlap => exact h

theorem cacheRight_run (ops : List AreaOp) : (run ops).CacheRight := by
  have hrun : ∀ s : VectorAreaStore, s.CacheRight → (ops.foldl VectorAreaStore.step s).CacheRight := by
    induction ops with
    | nil => exact fun s h => h
    | cons op ops ih => exact fun s h => ih _ (h.step op)
  exact hrun new cacheRight_new

/-! ## The cell of a position -/

/-- The area is found in a direction although an edge of the cell may have wrapped around. -/
def ReachesInDimension (radius : UInt8) (p low high : Int16) : Prop :=
  let edge := p.toInt / radius.toNat * radius.toNat
  (-32768 ≤ edge ∨ edge + 65536 ≤ high.toInt) ∧
    (edge + radius.toNat - 1 ≤ 32767 ∨ low.toInt ≤ edge + radius.toNat - 1 - 65536)

def Reaches (radius : UInt8) (p : V3s16) (a : Area) : Prop :=
  ReachesInDimension radius p.x a.minedge.x a.maxedge.x ∧
    ReachesInDimension radius p.y a.minedge.y a.maxedge.y ∧
    ReachesInDimension radius p.z a.minedge.z a.maxedge.z

/-- Rounding down by rounding towards zero. -/
theorem tdiv_eq_ediv (n : ℤ) {r : ℤ} (hr : 0 < r) :
    (if 0 ≤ n then n else n - r + 1).tdiv r = n / r := by
  split
  · rename_i hn
    exact Int.tdiv_eq_ediv_of_nonneg hn
  · rename_i hn
    have hmod := Int.emod_add_mul_ediv n r
    have hnonneg := Int.emod_nonneg n hr.ne'
    have hlt := Int.emod_lt_of_pos n hr
    have hneg : n - r + 1 = -(r - 1 - n) := by omega
    have hsplit : r - 1 - n = r - 1 - n % r + r * -(n / r) := by
      rw [mul_neg]
      omega
    rw [hneg, Int.neg_tdiv, Int.tdiv_eq_ediv_of_nonneg (by omega), hsplit,
      Int.add_mul_ediv_left _ _ hr.ne', Int.ediv_eq_zero_of_lt (by omega) (by omega),
      zero_add, neg_neg]

theorem toInt_ofInt_radius (radius : UInt8) : (Int16.ofInt radius.toNat).toInt = radius.toNat := by
  have hlt := radius.toNat_lt
  exact Map.toInt_ofInt_of_fits (by omega)

/-- The lower edge of the cell is at the coordinate or less than a cell below. -/
theorem edge_bounds (p : Int16) {radius : UInt8} (h : 16 ≤ radius) :
    p.toInt / radius.toNat * radius.toNat ≤ p.toInt ∧
      p.toInt < p.toInt / radius.toNat * radius.toNat + radius.toNat := by
  have hr : (16 : ℕ) ≤ radius.toNat := UInt8.le_iff_toNat_le.1 h
  have hmod := Int.emod_add_mul_ediv p.toInt radius.toNat
  have hnonneg := Int.emod_nonneg p.toInt (by omega : (radius.toNat : ℤ) ≠ 0)
  have hlt := Int.emod_lt_of_pos p.toInt (by omega : (0 : ℤ) < radius.toNat)
  rw [mul_comm] at hmod
  omega

/-- The cell of a coordinate is its quotient. -/
theorem toInt_containerPos (p : Int16) {radius : UInt8} (h : 16 ≤ radius) :
    (Map.containerPos p (Int16.ofInt radius.toNat)).toInt = p.toInt / radius.toNat := by
  have hr : (16 : ℕ) ≤ radius.toNat := UInt8.le_iff_toNat_le.1 h
  have hlow := p.le_toInt
  have hhigh := p.toInt_lt
  rcases edge_bounds p h with ⟨hle, hlt⟩
  rw [Map.containerPos, toInt_ofInt_radius, tdiv_eq_ediv _ (by omega)]
  refine Map.toInt_ofInt_of_fits ⟨?_, ?_⟩
  · by_contra hnot
    nlinarith
  · by_contra hnot
    nlinarith

/-- What is out of range by less than a turn comes in on the other side. -/
theorem toInt_ofInt_wrap {i : ℤ} (hlow : -98304 ≤ i) (hhigh : i < 98304) :
    (Int16.ofInt i).toInt =
      if i < -32768 then i + 65536 else if 32767 < i then i - 65536 else i := by
  have hsize : ((Int16.size : ℕ) : ℤ) = 65536 := rfl
  rw [Int16.toInt_ofInt, Int.bmod_def, hsize]
  by_cases hbelow : i < -32768
  · rw [if_pos hbelow]
    split <;> omega
  · rw [if_neg hbelow]
    by_cases habove : 32767 < i
    · rw [if_pos habove]
      split <;> omega
    · rw [if_neg habove]
      split <;> omega

/-- A box that wrapped around overlaps an area of which it should contain a point just when the area
reaches it on the other side. -/
theorem overlapsInDimension_iff {radius : UInt8} {p low high : Int16} (h : 16 ≤ radius)
    (hlow : low ≤ p) (hhigh : p ≤ high) :
    overlapsInDimension (cellMin radius (Map.containerPos p (Int16.ofInt radius.toNat)))
        (cellMax radius (cellMin radius (Map.containerPos p (Int16.ofInt radius.toNat)))) low high =
        true ↔
      ReachesInDimension radius p low high := by
  have hr : (16 : ℕ) ≤ radius.toNat := UInt8.le_iff_toNat_le.1 h
  have hr' := radius.toNat_lt
  have hlow' := Int16.le_iff_toInt_le.1 hlow
  have hhigh' := Int16.le_iff_toInt_le.1 hhigh
  have hp := p.le_toInt
  have hp' := p.toInt_lt
  have hbounds := edge_bounds p h
  rw [ReachesInDimension, cellMin, cellMax, toInt_containerPos p h]
  generalize p.toInt / radius.toNat * radius.toNat = edge at hbounds ⊢
  have hmin : (Int16.ofInt edge).toInt = if -32768 ≤ edge then edge else edge + 65536 := by
    rw [toInt_ofInt_wrap (by omega) (by omega)]
    split <;> split <;> omega
  have hmax : (Int16.ofInt ((if -32768 ≤ edge then edge else edge + 65536) + radius.toNat - 1)).toInt =
      if edge + radius.toNat - 1 ≤ 32767 then edge + radius.toNat - 1
      else edge + radius.toNat - 1 - 65536 := by
    rw [toInt_ofInt_wrap (by split <;> omega) (by split <;> omega)]
    split <;> split <;> split <;> omega
  rw [overlapsInDimension, Bool.not_eq_true', Bool.or_eq_false_iff, decide_eq_false_iff_not,
    decide_eq_false_iff_not, gt_iff_lt, Int16.lt_iff_toInt_lt, Int16.lt_iff_toInt_lt, hmin, hmax]
  constructor
  · intro hoverlap
    split at hoverlap <;> split at hoverlap <;> omega
  · intro hreaches
    split <;> split <;> omega

theorem containsPt_iff : a.containsPt pos = true ↔
    (a.minedge.x ≤ pos.x ∧ a.minedge.y ≤ pos.y ∧ a.minedge.z ≤ pos.z) ∧
      pos.x ≤ a.maxedge.x ∧ pos.y ≤ a.maxedge.y ∧ pos.z ≤ a.maxedge.z := by
  simp only [Area.containsPt, Bool.and_eq_true, decide_eq_true_eq, and_assoc]

/-- Among the areas of its cell a position has those that reach it. -/
theorem mem_cacheMiss_iff (h : a.containsPt pos = true) :
    a ∈ s.cacheMiss (Map.getContainerPos pos ⟨s.radius, s.radius, s.radius⟩) ↔
      a ∈ s.areas ∧ Reaches s.cacheblockRadius pos a := by
  rcases containsPt_iff.1 h with ⟨⟨hx, hy, hz⟩, hx', hy', hz'⟩
  rw [cacheMiss, getAreasInArea, List.mem_filter, if_pos rfl, Area.overlaps, Bool.and_eq_true,
    Bool.and_eq_true, Reaches, and_assoc]
  refine and_congr_right fun _ => ?_
  exact and_congr (overlapsInDimension_iff s.radius_ge hx hx')
    (and_congr (overlapsInDimension_iff s.radius_ge hy hy')
      (overlapsInDimension_iff s.radius_ge hz hz'))

theorem mem_getAreasForPos (h : s.CacheRight) :
    a ∈ (s.getAreasForPos pos).1 ↔ a ∈ s.store.areasMap ∧ a.containsPt pos = true ∧
      (s.cacheEnabled = false ∨ Reaches s.cacheblockRadius pos a) := by
  rw [← s.perm.mem_iff, getAreasForPos]
  split
  · rename_i henabled
    dsimp only
    rw [(LRUCache.lookupCache_right h.right _).1, List.mem_filter]
    constructor
    · rintro ⟨hmem, hpt⟩
      rcases (mem_cacheMiss_iff hpt).1 hmem with ⟨ha, hreaches⟩
      exact ⟨ha, hpt, .inr hreaches⟩
    · rintro ⟨ha, hpt, hdisabled | hreaches⟩
      · exact absurd (henabled.symm.trans hdisabled) Bool.noConfusion
      · exact ⟨(mem_cacheMiss_iff hpt).2 ⟨ha, hreaches⟩, hpt⟩
  · rename_i hdisabled
    rw [getAreasForPosImpl, List.mem_filter]
    refine ⟨fun ha => ⟨ha.1, ha.2, .inl (Bool.eq_false_iff.2 hdisabled)⟩, fun ha => ⟨ha.1, ha.2.1⟩⟩

end

/-- After any operations the answer is exactly the areas at the position, if and only if the cache is
off or each of them reaches its cell. -/
theorem getAreasForPos_exact_iff (ops : List AreaOp) (pos : V3s16) :
    (∀ a, a ∈ ((run ops).getAreasForPos pos).1 ↔
      a ∈ (run ops).store.areasMap ∧ a.containsPt pos = true) ↔
    ((run ops).cacheEnabled = false ∨ ∀ a ∈ (run ops).store.areasMap, a.containsPt pos = true →
      Reaches (run ops).cacheblockRadius pos a) := by
  have hmem : ∀ a, a ∈ ((run ops).getAreasForPos pos).1 ↔ _ :=
    fun a => mem_getAreasForPos (cacheRight_run ops)
  constructor
  · intro hexact
    cases henabled : (run ops).cacheEnabled with
    | false => exact .inl rfl
    | true =>
      refine .inr fun a ha hpt => ?_
      rcases ((hmem a).1 ((hexact a).2 ⟨ha, hpt⟩)).2.2 with hdisabled | hreaches
      · exact absurd (henabled.symm.trans hdisabled) Bool.noConfusion
      · exact hreaches
  · intro h a
    rw [hmem a]
    refine ⟨fun ha => ⟨ha.1, ha.2.1⟩, fun ha => ⟨ha.1, ha.2, ?_⟩⟩
    exact h.imp_right fun hall => hall a ha.1 ha.2

/-- Cells of 100 nodes, and an area at the edge of the world. -/
def edgeOps : List AreaOp :=
  [.setCacheParams true 100 1000,
    .insertArea { minedge := ⟨-32768, 0, 0⟩, maxedge := ⟨-32700, 0, 0⟩, data := [] }]

theorem getAreasForPos_misses :
    ¬ ∀ (ops : List AreaOp) (pos : V3s16) (a : Area), a ∈ ((run ops).getAreasForPos pos).1 ↔
      a ∈ (run ops).store.areasMap ∧ a.containsPt pos = true := by
  intro h
  have hnothing : ((run edgeOps).getAreasForPos ⟨-32768, 0, 0⟩).1 = [] := by decide +kernel
  have hthere : ({ id := 0, minedge := ⟨-32768, 0, 0⟩, maxedge := ⟨-32700, 0, 0⟩, data := [] } : Area) ∈
      (run edgeOps).store.areasMap := by decide +kernel
  have hfound := (h edgeOps ⟨-32768, 0, 0⟩ _).2 ⟨hthere, by decide⟩
  rw [hnothing] at hfound
  exact absurd hfound List.not_mem_nil

end VectorAreaStore

end AxisEngine
