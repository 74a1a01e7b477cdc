import AxisEngine.Lib.SortedByKey
import AxisEngine.Util.V3s16
import Mathlib.Data.List.Perm.Subperm

/-!
# AreaStore — areas that mods store by number

An area has two corners, data, and an id that no other area of the store has.  The store is a map
in the order of the ids; an area that comes without an id gets the smallest free one.  Both
implementations (a vector and a spatial index beside the map) treat the map alike.

In the serialized form the number of areas and the length of each area's data take two bytes.

* `AreaStore` — the map, with its order as a field;
* `insertArea`, `removeArea`, `reserve`, `getNextId` — the operations;
* `serialize`, `deserialize` — the format;
* `areas_roundTrip_iff` — which stores come back, and when an automatic id is free.
-/

namespace AxisEngine

open Lib

/-- `U32_MAX`: no id yet. -/
def u32Max : UInt32 := 0xffffffff

structure Area where
  id : UInt32 := u32Max
  minedge : V3s16
  maxedge : V3s16
  data : Bytes
deriving DecidableEq

/-- The map is ordered by the number that the id is. -/
def Area.key (a : Area) : Nat := a.id.toNat

@[ext] structure AreaStore where
  areasMap : List Area
  sorted : StrictSorted Area.key areasMap

namespace AreaStore

def empty : AreaStore := ⟨[], .nil⟩

def size (s : AreaStore) : Nat := s.areasMap.length

def ids (s : AreaStore) : List UInt32 := s.areasMap.map Area.id

/-- The loop of `getNextId`: it stops at the first gap. -/
def nextIdLoop : List Area → UInt32 → UInt32
  | [], freeId => freeId
  | a :: rest, freeId => if a.id > freeId then freeId else nextIdLoop rest (a.id + 1)

def getNextId (s : AreaStore) : UInt32 :=
  nextIdLoop s.areasMap 0

/-- The area with the id it is to have. -/
def withId (s : AreaStore) (a : Area) : Area :=
  if a.id = u32Max then { a with id := s.getNextId } else a

variable {i i' : IStream} {l : List Area} {a : Area} {s : AreaStore}

theorem ne_of_notMem_ids {a b : Area} (h : a.id ∉ s.ids) (hb : b ∈ s.areasMap) : b.key ≠ a.key := by
  intro heq
  have hid : b.id = a.id := UInt32.toNat_inj.1 heq
  exact h (hid ▸ List.mem_map_of_mem hb)

/-- The store, the area as it then is, and whether it was inserted. -/
def insertArea (s : AreaStore) (a : Area) : AreaStore × Area × Bool :=
  let a := s.withId a
  if h : a.id ∈ s.ids then (s, a, false)
  else (⟨insertAt Area.key a s.areasMap, s.sorted.insertAt fun _ hb => ne_of_notMem_ids h hb⟩,
    a, true)

def removeArea (s : AreaStore) (id : UInt32) : AreaStore × Bool :=
  (⟨s.areasMap.filter fun a => a.id ≠ id, s.sorted.sublist List.filter_sublist⟩,
    decide (id ∈ s.ids))

/-- `VectorAreaStore::reserve` makes room in the vector. -/
def reserve (s : AreaStore) (_count : Nat) : AreaStore := s

/-! ## The format -/

def serializeArea (a : Area) : Bytes :=
  writeV3S16 a.minedge ++ (writeV3S16 a.maxedge ++
    (writeU16 (UInt16.ofNat a.data.length) ++ a.data))

def serialize (s : AreaStore) : Bytes :=
  0 :: (writeU16 (UInt16.ofNat s.size) ++ (s.areasMap.flatMap serializeArea ++
    s.areasMap.flatMap fun a => writeU32 a.id))

def readArea : Reader Area := do
  let minedge ← readV3S16
  let maxedge ← readV3S16
  let dataLen ← Reader.readU16
  let data ← Reader.readPadded dataLen.toNat
  return { minedge := minedge, maxedge := maxedge, data := data }

/-- Data from before 5.1.0 have no ids. -/
def readId (readIds : Bool) : Reader UInt32 :=
  if readIds then Reader.readU32 else pure u32Max

/-- The second loop of `deserialize`. -/
def insertAreas (readIds : Bool) : List Area → AreaStore → Reader AreaStore
  | [], s => pure s
  | a :: rest, s => do
      let id ← readId readIds
      insertAreas readIds rest (s.insertArea { a with id := id }).1

def deserializeInto (s : AreaStore) : Reader AreaStore := do
  let ver ← Reader.readU8
  if ver ≥ 5 then
    throw "Unknown AreaStore serialization version!"
  else do
    let numAreas ← Reader.readU16
    let areas ← Reader.readMany numAreas.toNat readArea
    let readIds ← Reader.canRead
    insertAreas readIds areas s

/-- Into an empty store. -/
def deserialize (bytes : Bytes) : Except String AreaStore :=
  (deserializeInto empty { rest := bytes }).map Prod.fst

/-! ## The next id -/

/-- The ids that are left are above `freeId`, and there are not too many of them to count to. -/
theorem nextIdLoop_spec {freeId : UInt32} (h : StrictSorted Area.key l)
    (hle : ∀ a ∈ l, freeId.toNat ≤ a.key) (hlength : freeId.toNat + l.length < 2 ^ 32) :
    freeId.toNat ≤ (nextIdLoop l freeId).toNat ∧
      (nextIdLoop l freeId).toNat ≤ freeId.toNat + l.length ∧
      ∀ a ∈ l, a.id ≠ nextIdLoop l freeId := by
  induction l generalizing freeId with
  | nil => exact ⟨le_rfl, le_rfl, fun a ha => absurd ha List.not_mem_nil⟩
  | cons a l ih =>
    have ha : freeId.toNat ≤ a.key := hle a List.mem_cons_self
    rw [List.length_cons] at hlength
    rw [nextIdLoop]
    split
    · rename_i hgap
      have hgap' : freeId.toNat < a.key := UInt32.lt_iff_toNat_lt.1 hgap
      refine ⟨le_rfl, Nat.le_add_right _ _, fun b hb heq => ?_⟩
      have hkey : b.key = freeId.toNat := congrArg UInt32.toNat heq
      rcases List.mem_cons.1 hb with rfl | hb
      · omega
      · have hlt := h.head_lt hb
        omega
    · rename_i hgap
      -- no gap: the id is the one counted to, and the count goes on without wrapping around
      have hid : a.id.toNat = freeId.toNat := by
        have hnot : ¬ freeId.toNat < a.id.toNat := fun hlt =>
          hgap (UInt32.lt_iff_toNat_lt.2 hlt)
        have hge : freeId.toNat ≤ a.id.toNat := ha
        omega
      have hnext : (a.id + 1).toNat = freeId.toNat + 1 := by
        rw [UInt32.toNat_add, hid]
        exact Nat.mod_eq_of_lt (by
          have hone : (1 : UInt32).toNat = 1 := rfl
          omega)
      have hrest := @ih (a.id + 1) h.tail (fun b hb => by
        have hlt := h.head_lt hb
        rw [Area.key] at hlt
        omega) (by omega)
      rw [hnext] at hrest
      rw [List.length_cons]
      refine ⟨by omega, by omega, fun b hb => ?_⟩
      rcases List.mem_cons.1 hb with rfl | hb
      · intro heq
        have hkey := congrArg UInt32.toNat heq
        omega
      · exact hrest.2.2 b hb

theorem getNextId_spec (h : s.size < 2 ^ 32) :
    s.getNextId.toNat ≤ s.size ∧ s.getNextId ∉ s.ids := by
  have hzero : (0 : UInt32).toNat = 0 := rfl
  have hlength : (0 : UInt32).toNat + s.areasMap.length < 2 ^ 32 := by
    rw [hzero, Nat.zero_add]
    exact h
  have hge : ∀ a ∈ s.areasMap, (0 : UInt32).toNat ≤ a.key := fun a _ => Nat.zero_le _
  rcases nextIdLoop_spec s.sorted hge hlength with ⟨-, hle, hfree⟩
  rw [hzero, Nat.zero_add] at hle
  refine ⟨hle, fun hmem => ?_⟩
  rcases List.mem_map.1 hmem with ⟨a, ha, hid⟩
  exact hfree a ha hid

theorem nodup_ids (s : AreaStore) : s.ids.Nodup :=
  List.Pairwise.map _ (fun _ _ hlt heq => absurd (congrArg UInt32.toNat heq) hlt.ne) s.sorted

/-- Every automatic id is one that no area has. -/
def FreshIds (s : AreaStore) : Prop :=
  ∀ a : Area, a.id = u32Max → (s.insertArea a).2.1.id ∉ s.ids

theorem id_insertArea (s : AreaStore) (a : Area) : (s.insertArea a).2.1 = s.withId a := by
  rw [insertArea]
  split <;> rfl

theorem freshIds_iff_notMem (s : AreaStore) : s.FreshIds ↔ s.getNextId ∉ s.ids := by
  have hid : ∀ a : Area, a.id = u32Max → (s.insertArea a).2.1.id = s.getNextId := by
    intro a ha
    rw [id_insertArea, withId, if_pos ha]
  constructor
  · intro h
    have hzero := h { minedge := ⟨0, 0, 0⟩, maxedge := ⟨0, 0, 0⟩, data := [] } rfl
    rw [hid _ rfl] at hzero
    exact hzero
  · intro h a ha
    rw [hid a ha]
    exact h

/-- The smallest free id exists as long as there is a free one. -/
theorem freshIds_iff (s : AreaStore) : s.FreshIds ↔ s.size < 2 ^ 32 := by
  rw [freshIds_iff_notMem]
  constructor
  · intro h
    have hcons : (s.getNextId :: s.ids).Nodup := List.nodup_cons.2 ⟨h, s.nodup_ids⟩
    have hmap : ((s.getNextId :: s.ids).map UInt32.toNat).Nodup :=
      List.Pairwise.map _ (fun _ _ hne heq => hne (UInt32.toNat_inj.1 heq)) hcons
    have hsub : (s.getNextId :: s.ids).map UInt32.toNat ⊆ List.range (2 ^ 32) := by
      intro n hn
      rcases List.mem_map.1 hn with ⟨i, -, rfl⟩
      exact List.mem_range.2 i.toNat_lt
    have hle := (hmap.subperm hsub).length_le
    rw [List.length_map, List.length_cons, ids, List.length_map, List.length_range] at hle
    exact hle
  · intro h
    exact (getNextId_spec h).2

/-! ## What is read is small -/

theorem insertArea_of_taken (h : (s.withId a).id ∈ s.ids) : (s.insertArea a).1 = s := by
  rw [insertArea, dif_pos h]

theorem insertArea_of_new (h : (s.withId a).id ∉ s.ids) :
    (s.insertArea a).1.areasMap = insertAt Area.key (s.withId a) s.areasMap := by
  rw [insertArea, dif_neg h]

/-- An area inserted into a store that is not full gets an id, and keeps its data. -/
theorem withId_spec (h : s.size < 2 ^ 32 - 1) :
    (s.withId a).id ≠ u32Max ∧ (s.withId a).data = a.data := by
  rw [withId]
  split
  · refine ⟨fun heq => ?_, rfl⟩
    have hle := (getNextId_spec (s := s) (by omega)).1
    have hmax : s.getNextId.toNat = 2 ^ 32 - 1 := congrArg UInt32.toNat heq
    omega
  · rename_i hid
    exact ⟨hid, rfl⟩

/-- What two bytes can say about the store. -/
def Representable (s : AreaStore) : Prop :=
  s.size < 65536 ∧ ∀ a ∈ s.areasMap, a.data.length < 65536 ∧ a.id ≠ u32Max

theorem representable_insertArea (hsize : s.size < 65535)
    (h : ∀ b ∈ s.areasMap, b.data.length < 65536 ∧ b.id ≠ u32Max) (ha : a.data.length < 65536) :
    (s.insertArea a).1.size ≤ s.size + 1 ∧
      ∀ b ∈ (s.insertArea a).1.areasMap, b.data.length < 65536 ∧ b.id ≠ u32Max := by
  by_cases htaken : (s.withId a).id ∈ s.ids
  · rw [insertArea_of_taken htaken]
    exact ⟨Nat.le_succ _, h⟩
  · rcases withId_spec (s := s) (a := a) (by omega) with ⟨hid, hdata⟩
    rw [size, insertArea_of_new htaken, length_insertAt]
    refine ⟨le_rfl, fun b hb => ?_⟩
    rcases mem_insertAt.1 hb with rfl | hb
    · rw [hdata]
      exact ⟨ha, hid⟩
    · exact h b hb

theorem representable_insertAreas {readIds : Bool} {s s' : AreaStore}
    (hsize : s.size + l.length < 65536)
    (h : ∀ b ∈ s.areasMap, b.data.length < 65536 ∧ b.id ≠ u32Max)
    (hl : ∀ a ∈ l, a.data.length < 65536) (hread : insertAreas readIds l s i = .ok (s', i')) :
    s'.Representable := by
  induction l generalizing s i with
  | nil =>
    rcases Reader.pure_eq_ok.1 hread with ⟨rfl, -⟩
    exact ⟨hsize, h⟩
  | cons a l ih =>
    rw [List.length_cons] at hsize
    rw [List.forall_mem_cons] at hl
    rw [insertAreas] at hread
    rcases Reader.bind_eq_ok.1 hread with ⟨id, i₁, -, hread⟩
    have hnext := representable_insertArea (s := s) (a := { a with id := id }) (by omega) h hl.1
    exact ih (by omega) hnext.2 hl.2 hread

theorem length_data_readArea (h : readArea i = .ok (a, i')) : a.data.length < 65536 := by
  rcases Reader.bind_eq_ok.1 h with ⟨minedge, i₁, -, h⟩
  rcases Reader.bind_eq_ok.1 h with ⟨maxedge, i₂, -, h⟩
  rcases Reader.bind_eq_ok.1 h with ⟨dataLen, i₃, -, h⟩
  rcases Reader.bind_eq_ok.1 h with ⟨data, i₄, hdata, h⟩
  rcases Reader.pure_eq_ok.1 h with ⟨rfl, -⟩
  have hlength : data.length = dataLen.toNat := Reader.length_readPadded hdata
  rw [hlength]
  exact dataLen.toNat_lt

theorem representable_deserialize {bytes : Bytes} (h : deserialize bytes = .ok s) :
    s.Representable := by
  rw [deserialize] at h
  cases hread : deserializeInto empty { rest := bytes } with
  | error e =>
    rw [hread] at h
    cases h
  | ok p =>
    rw [hread] at h
    cases h
    rcases p with ⟨s, i⟩
    rcases Reader.bind_eq_ok.1 hread with ⟨ver, i₁, -, hread⟩
    split at hread
    · cases hread
    rcases Reader.bind_eq_ok.1 hread with ⟨numAreas, i₃, -, hread⟩
    rcases Reader.bind_eq_ok.1 hread with ⟨areas, i₄, hareas, hread⟩
    rcases Reader.bind_eq_ok.1 hread with ⟨readIds, i₅, -, hread⟩
    rcases Reader.forall_of_readMany (P := fun a => a.data.length < 65536)
      (fun _ _ _ ha => length_data_readArea ha) hareas with ⟨hlength, hall⟩
    have hcount : areas.length < 65536 := hlength ▸ numAreas.toNat_lt
    refine representable_insertAreas ?_ (fun b hb => absurd hb List.not_mem_nil) hall hread
    rw [size, empty, List.length_nil, Nat.zero_add]
    exact hcount

/-! ## What is small is read back -/

/-- The area before its id has been read. -/
def Area.unset (a : Area) : Area := { a with id := u32Max }

theorem toNat_ofNat_size {n : Nat} (h : n < 65536) : (UInt16.ofNat n).toNat = n := by
  rw [UInt16.toNat_ofNat']
  exact Nat.mod_eq_of_lt h

theorem reads_readArea (h : a.data.length < 65536) :
    Reader.Reads readArea (serializeArea a) (Area.unset a) := by
  refine (reads_readV3S16 a.minedge).bind ?_
  refine (reads_readV3S16 a.maxedge).bind ?_
  refine (Reader.reads_readU16 (UInt16.ofNat a.data.length)).bind ?_
  refine Reader.Reads.map (g := fun data : Bytes =>
    ({ minedge := a.minedge, maxedge := a.maxedge, data := data } : Area)) ?_
  exact Reader.reads_readPadded (toNat_ofNat_size h).symm

theorem reads_insertAreas {s s' : AreaStore} (hmap : s'.areasMap = s.areasMap ++ l)
    (hid : ∀ a ∈ l, a.id ≠ u32Max) :
    Reader.Reads (insertAreas true (l.map Area.unset) s) (l.flatMap fun a => writeU32 a.id) s' := by
  induction l generalizing s with
  | nil =>
    rw [List.append_nil] at hmap
    have hs : s = s' := AreaStore.ext hmap.symm
    rw [hs]
    exact Reader.Reads.pure s'
  | cons a l ih =>
    rw [List.forall_mem_cons] at hid
    rw [List.flatMap_cons]
    have hsorted : StrictSorted Area.key (s.areasMap ++ a :: l) := hmap ▸ s'.sorted
    have hlt : ∀ b ∈ s.areasMap, b.key < a.key := fun b hb =>
      (List.pairwise_append.1 hsorted).2.2 b hb a List.mem_cons_self
    refine Reader.Reads.bind (Reader.reads_readU32 a.id) ?_
    have hwith : s.withId { Area.unset a with id := a.id } = a := if_neg hid.1
    have hnew : a.id ∉ s.ids := by
      intro hmem
      rcases List.mem_map.1 hmem with ⟨b, hb, heq⟩
      have hkey : b.key = a.key := congrArg UInt32.toNat heq
      exact absurd (hlt b hb) (by omega)
    refine ih ?_ hid.2
    rw [insertArea_of_new (by rw [hwith]; exact hnew), hwith, insertAt_of_forall_lt hlt,
      List.append_assoc]
    exact hmap

theorem reads_areas (h : ∀ a ∈ l, a.data.length < 65536) :
    Reader.Reads (Reader.readMany l.length readArea) (l.flatMap serializeArea)
      (l.map Area.unset) := by
  have hmany : Reader.Reads (Reader.readMany (l.map Area.unset).length readArea)
      ((l.map Area.unset).flatMap serializeArea) (l.map Area.unset) := by
    refine Reader.Reads.readMany fun a ha => ?_
    rcases List.mem_map.1 ha with ⟨b, hb, rfl⟩
    exact reads_readArea (a := Area.unset b) (h b hb)
  rw [List.length_map, List.flatMap_map] at hmany
  exact hmany

/-- The end of the stream: the ids, when there are any. -/
theorem insertAreas_ids (h : ∀ a ∈ s.areasMap, a.id ≠ u32Max) :
    ((Reader.canRead >>= fun readIds => insertAreas readIds (s.areasMap.map Area.unset) empty)
      { rest := s.areasMap.flatMap fun a => writeU32 a.id }).map Prod.fst = .ok s := by
  have hread : Reader.Reads (insertAreas true (s.areasMap.map Area.unset) empty)
      (s.areasMap.flatMap fun a => writeU32 a.id) s := reads_insertAreas rfl h
  rcases s with ⟨areas, hsorted⟩
  cases areas with
  | nil => rfl
  | cons a areas =>
    have hids := hread []
    rw [List.append_nil] at hids
    exact congrArg (Except.map Prod.fst) hids

theorem deserialize_serialize (h : s.Representable) : deserialize s.serialize = .ok s := by
  rcases h with ⟨hsize, hareas⟩
  have hcount : (UInt16.ofNat s.size).toNat = s.areasMap.length := toNat_ofNat_size hsize
  have hhead : deserializeInto empty { rest := s.serialize } =
      (Reader.canRead >>= fun readIds =>
        insertAreas readIds (s.areasMap.map Area.unset) empty)
        { rest := s.areasMap.flatMap fun a => writeU32 a.id } := by
    rw [deserializeInto, serialize, ← List.singleton_append,
      (Reader.reads_readU8 0).run_bind, if_neg (by decide),
      (Reader.reads_readU16 (UInt16.ofNat s.size)).run_bind, hcount,
      (reads_areas fun a ha => (hareas a ha).1).run_bind]
  rw [deserialize, hhead]
  exact insertAreas_ids fun a ha => (hareas a ha).2

/-! ## Which stores come back -/

/-- The store that is read from the bytes is the store that was written. -/
def RoundTrips (s : AreaStore) : Prop :=
  deserialize s.serialize = .ok s

/-- A store comes back if and only if it has fewer than 65536 areas, none of them with more than
65535 bytes of data or the id that stands for none; and its automatic ids are free if and only if
any id is. -/
theorem areas_roundTrip_iff (s : AreaStore) :
    (s.RoundTrips ↔ s.size < 65536 ∧ ∀ a ∈ s.areasMap, a.data.length < 65536 ∧ a.id ≠ u32Max) ∧
      (s.FreshIds ↔ s.size < 2 ^ 32) :=
  ⟨⟨fun h => representable_deserialize h, fun h => deserialize_serialize h⟩, freshIds_iff s⟩


/-- The length of its data is written as 0. -/
def longArea : Area where
  minedge := ⟨0, 0, 0⟩
  maxedge := ⟨0, 0, 0⟩
  data := List.replicate 65536 0

def longData : AreaStore :=
  (empty.insertArea longArea).1

theorem longData_lost : ¬ longData.RoundTrips := by
  intro h
  have hareas : longData.areasMap = [{ longArea with id := 0 }] :=
    insertArea_of_new (s := empty) List.not_mem_nil
  have hlength := ((representable_deserialize h).2 _ (hareas ▸ List.mem_singleton_self _)).1
  rw [show ({ longArea with id := 0 } : Area).data.length = 65536 from List.length_replicate]
    at hlength
  exact absurd hlength (lt_irrefl _)

end AreaStore
end AxisEngine
