import AxisEngine.Map.BlockRoundTrip

/-!
# DiskBlock — what the cache of a loaded block says

When the table of names of a block has a single entry, all nodes have that content, and
`MapBlock::deSerialize` fills the cache: the block is air when the name is `air`.  The content is
looked up with aliases, the name is not.

* `DiskBlock` — the data of a block on the disk;
* `exists_diskBlock` — what is read is read from such data;
* `NoAirAlias` — the name of the only content is not an alias of `air`;
* `airRight_read` — then the cache is right.
-/

namespace AxisEngine
namespace Map

open Lib Util Inventory

namespace NameIdMapping

variable {nimap : NameIdMapping}

/-- There are no more than 65536 numbers. -/
theorem card_keys_le (nimap : NameIdMapping) : nimap.idToName.keys.card ≤ 65536 := by
  have hsub : nimap.idToName.keys.image UInt16.toNat ⊆ Finset.range 65536 := by
    intro k hk
    rcases Finset.mem_image.1 hk with ⟨i, -, rfl⟩
    exact Finset.mem_range.2 i.toNat_lt
  have hle := Finset.card_le_card hsub
  rw [Finset.card_range, Finset.card_image_of_injective _ fun _ _ => UInt16.toNat_inj.1] at hle
  exact hle

theorem exists_single (h : nimap.size = 1) :
    ∃ l name, ∀ i n, nimap.getName i = some n ↔ i = l ∧ n = name := by
  have hcard : nimap.idToName.keys.card = 1 := by
    have hle := card_keys_le nimap
    have hnat := congrArg UInt16.toNat h
    have hone : (1 : UInt16).toNat = 1 := rfl
    rw [size, UInt16.toNat_ofNat', hone] at hnat
    omega
  rcases Finset.card_eq_one.1 hcard with ⟨l, hl⟩
  have hmem : l ∈ nimap.idToName.keys := by
    rw [hl]
    exact Finset.mem_singleton_self l
  rcases Finmap.mem_iff.1 (Finmap.mem_keys.1 hmem) with ⟨name, hname⟩
  refine ⟨l, name, fun i n => ⟨fun hi => ?_, ?_⟩⟩
  · have hkey : i ∈ nimap.idToName.keys := Finmap.mem_keys.2 (Finmap.mem_iff.2 ⟨n, hi⟩)
    rw [hl, Finset.mem_singleton] at hkey
    rw [hkey, getName, hname] at hi
    exact ⟨hkey, (Option.some.inj hi).symm⟩
  · rintro ⟨rfl, rfl⟩
    exact hname

end NameIdMapping

section

variable {nodedef nodedef' : NodeDefManager} {nodes nodes' : List MapNode} {cache : IdIdMapping}
  {nimap : NameIdMapping} {name : Bytes} {id : UInt16}

theorem getId_registered (h : name ∉ nodedef.nameIdMappingWithAliases) :
    ((nodedef.addNameIdMapping id name).setName id name).getId name = some id := by
  change Finmap.lookup name (if name ∈ _ then _ else _) = _
  rw [if_neg h, Finmap.lookup_insert]

theorem globalId_again (h : globalId nodedef name = .ok (id, nodedef')) :
    ∃ nodedef'', globalId nodedef' name = .ok (id, nodedef'') := by
  rw [globalId] at h
  split at h
  · rename_i i hid
    cases h
    refine ⟨nodedef, ?_⟩
    rw [globalId, hid]
    rfl
  · rename_i hid
    dsimp only at h
    split at h
    · cases h
    · rename_i hne
      rw [NodeDefManager.allocateDummy, NodeDefManager.set] at h hne
      split at h
      · rename_i i hknown
        cases h
        refine ⟨(nodedef.setName id name).setName id name, ?_⟩
        have hagain : (nodedef.setName id name).getId name = none := hid
        have hset : (nodedef.setName id name).allocateDummy name =
            (id, (nodedef.setName id name).setName id name) := by
          rw [NodeDefManager.allocateDummy, NodeDefManager.set]
          rw [show (nodedef.setName id name).nameIdMapping.getId name = some id from hknown]
        rw [globalId, hagain]
        dsimp only
        rw [hset]
        rw [hknown] at hne
        exact if_neg hne
      · rename_i hlacks
        rw [hlacks] at hne
        dsimp only at h hne
        split at h
        · rename_i hignore
          rw [if_pos hignore] at hne
          exact absurd rfl hne
        · cases h
          have hsame : (nodedef.allocateId).2.nameIdMappingWithAliases =
              nodedef.nameIdMappingWithAliases := by
            rw [NodeDefManager.allocateId]
            split <;> rfl
          refine ⟨((nodedef.allocateId).2.addNameIdMapping (nodedef.allocateId).1 name).setName
            (nodedef.allocateId).1 name, ?_⟩
          rw [globalId, getId_registered (hsame ▸ Finmap.lookup_eq_none.1 hid)]
          rfl

/-- When one name is all there is, every node gets its number. -/
theorem correctIds_single (honly : ∀ i n, nimap.getName i = some n → n = name)
    (hid : ∃ after, globalId nodedef name = .ok (id, after))
    (hcache : ∀ l, cache l ≠ 0xffff → cache l = id)
    (h : correctIds nimap nodes cache nodedef = .ok (nodedef', nodes')) :
    ∀ n ∈ nodes', n.getContent = id := by
  induction nodes generalizing cache nodedef nodes' with
  | nil =>
    cases h
    intro n hn
    cases hn
  | cons n nodes ih =>
    rw [correctIds] at h
    split at h
    · rename_i hfound
      cases hrest : correctIds nimap nodes cache nodedef with
      | error e =>
        rw [hrest] at h
        cases h
      | ok rest =>
        rw [hrest] at h
        cases h
        rw [List.forall_mem_cons]
        exact ⟨hcache _ hfound, ih hid hcache hrest⟩
    · cases hname : nimap.getName n.getContent with
      | none =>
        rw [hname] at h
        cases h
      | some name' =>
        rw [hname, honly _ _ hname] at h
        rcases hid with ⟨after, hid⟩
        dsimp only at h
        rw [hid, ok_bind] at h
        cases hrest : correctIds nimap nodes (Function.update cache n.getContent id) after with
        | error e =>
          rw [hrest] at h
          cases h
        | ok rest =>
          rw [hrest] at h
          cases h
          rw [List.forall_mem_cons]
          refine ⟨rfl, ih (globalId_again hid) (fun l hl => ?_) hrest⟩
          rw [Function.update_apply] at hl ⊢
          split
          · rfl
          · rename_i hne
            rw [if_neg hne] at hl
            exact hcache l hl

/-- The name of a node that was read has a number. -/
theorem exists_globalId (honly : ∀ i n, nimap.getName i = some n → n = name) (hne : nodes ≠ [])
    (h : correctBlockNodeIds nimap nodes nodedef = .ok (nodedef', nodes')) :
    ∃ id after, globalId nodedef name = .ok (id, after) := by
  cases nodes with
  | nil => exact absurd rfl hne
  | cons n nodes =>
    rw [correctBlockNodeIds, correctIds, if_neg fun h => h rfl] at h
    cases hname : nimap.getName n.getContent with
    | none =>
      rw [hname] at h
      cases h
    | some name' =>
      rw [hname, honly _ _ hname] at h
      dsimp only at h
      cases hid : globalId nodedef name with
      | error e =>
        rw [hid] at h
        cases h
      | ok new => exact ⟨new.1, new.2, rfl⟩

/-- Nodes that all have one content are air when that is. -/
theorem onlyAir_full {nodes : Nodes} (hall : ∀ n ∈ nodes.list, n.getContent = id) :
    (BlockData.full nodes).onlyAir = true ↔ id = contentAir := by
  rw [MapBlock.onlyAir_iff]
  constructor
  · intro hair
    have hfirst := hall _ (nodes.get_mem ⟨0, MapBlock.nodecount_pos⟩)
    exact hfirst.symm.trans (hair ⟨0, MapBlock.nodecount_pos⟩)
  · rintro rfl i
    exact hall _ (nodes.get_mem i)

end

/-! ## Loaded blocks -/

/-- The cache is out of date or right. -/
def MapBlock.AirRight (b : MapBlock) : Prop :=
  b.mIsAirExpired = true ∨ b.mIsAir = b.data.onlyAir

/-- The table of names, the nodes with their numbers in it, and the other fields. -/
structure DiskBlock where
  nimap : NameIdMapping
  nodes : Nodes
  rest : MapBlock

namespace DiskBlock

variable {d : DiskBlock} {nodedef nodedef' : NodeDefManager} {b b' : MapBlock}

/-- The end of `MapBlock::deSerialize`. -/
def read (d : DiskBlock) (nodedef : NodeDefManager) : Except String (MapBlock × NodeDefManager) :=
  match MapBlock.correctNodes d.nimap d.nodes nodedef with
  | .error e => .error e
  | .ok ids => .ok
      (({ d.rest with data := .full ids.2, mIsAirExpired := true } : MapBlock).finishRead d.nimap,
        ids.1)

/-- The name of a single content is `air` exactly when the content is. -/
def NoAirAlias (d : DiskBlock) (nodedef : NodeDefManager) : Prop :=
  d.nimap.size = 1 → ∀ i name, d.nimap.getName i = some name →
    ((d.nimap.getId (ascii "air")).isSome = true ↔
      ∃ after, globalId nodedef name = .ok (contentAir, after))

theorem exists_of_readDisk {f : Format} {itemdef : ItemDefManager} {s s' : IStream}
    (h : b.readDisk f itemdef nodedef s = .ok ((b', nodedef'), s'))
    (hexpired : b.mIsAirExpired = true) :
    ∃ d : DiskBlock, d.read nodedef = .ok (b', nodedef') := by
  rw [MapBlock.readDisk] at h
  rcases Reader.bind_eq_ok.1 h with ⟨b₁, s₁, hhead, h⟩
  rcases Reader.bind_eq_ok.1 h with ⟨timestamp, s₂, -, h⟩
  rcases Reader.bind_eq_ok.1 h with ⟨nimap, s₃, -, h⟩
  rcases Reader.bind_eq_ok.1 h with ⟨nodes, s₄, -, h⟩
  rcases Reader.bind_eq_ok.1 h with ⟨metadata, s₅, -, h⟩
  rcases Reader.bind_eq_ok.1 h with ⟨objects, s₆, -, h⟩
  rcases Reader.bind_eq_ok.1 h with ⟨ids, s₇, hids, h⟩
  rcases Reader.bind_eq_ok.1 h with ⟨timers, s₈, -, h⟩
  have hsame := (Reader.pure_eq_ok.1 h).1
  have hexpired₁ : b₁.mIsAirExpired = true := by
    rw [MapBlock.readHead] at hhead
    rcases Reader.bind_eq_ok.1 hhead with ⟨flags, s₁, -, hhead⟩
    rcases Reader.bind_eq_ok.1 hhead with ⟨lighting, s₁, -, hhead⟩
    rw [← (Reader.pure_eq_ok.1 hhead).1]
    exact hexpired
  have hcorrect : MapBlock.correctNodes nimap nodes nodedef = .ok ids := Reader.liftM_eq_ok hids
  refine ⟨⟨nimap, nodes, { b₁ with
    timestamp := timestamp
    diskTimestamp := timestamp
    nodeMetadata := metadata
    staticObjects := objects
    nodeTimers := timers }⟩, ?_⟩
  rw [read, hcorrect]
  rw [Prod.mk.injEq] at hsame
  rw [← hsame.1, ← hsame.2, ← hexpired₁]

/-- What is read comes from such data. -/
theorem exists_diskBlock {f : Format} {itemdef : ItemDefManager} {bytes : Bytes}
    (h : b.deSerialize f itemdef nodedef bytes true = .ok (b', nodedef')) :
    ∃ d : DiskBlock, d.read nodedef = .ok (b', nodedef') := by
  rw [MapBlock.deSerialize] at h
  cases hraw : f.codec.decompress bytes with
  | error e =>
    rw [hraw] at h
    cases h
  | ok raw =>
    rw [hraw, ok_bind, if_pos rfl] at h
    cases hread : MapBlock.readDisk f itemdef nodedef
        { b with mIsAirExpired := true, data := .full b.data.expand } { rest := raw } with
    | error e =>
      rw [hread] at h
      cases h
    | ok read =>
      rw [hread, ok_bind] at h
      have hsame : read.1 = (b', nodedef') := Except.ok.inj h
      exact exists_of_readDisk (hread.trans (congrArg Except.ok (Prod.ext hsame rfl))) rfl

theorem airRight_read (hplain : d.NoAirAlias nodedef) (h : d.read nodedef = .ok (b, nodedef')) :
    b.AirRight := by
  rw [read, MapBlock.correctNodes] at h
  split at h
  · cases h
  · rename_i ids hids
    split at hids
    · cases hids
    · rename_i rest hrest
      cases hids
      cases h
      rw [MapBlock.finishRead]
      split
      · rename_i hsize
        right
        rcases NameIdMapping.exists_single hsize with ⟨l, name, hsingle⟩
        have honly : ∀ i n, d.nimap.getName i = some n → n = name := fun i n hi =>
          ((hsingle i n).1 hi).2
        rcases exists_globalId honly (MapBlock.nodes_list_ne_nil d.nodes) hrest with
          ⟨id, after, hid⟩
        have hall := correctIds_single honly ⟨after, hid⟩ (fun l hl => absurd rfl hl) hrest
        have hname := hplain hsize l name ((hsingle l name).2 ⟨rfl, rfl⟩)
        refine Bool.eq_iff_iff.2 (hname.trans ?_)
        rw [MapBlock.onlyAir_tryShrinkNodes, onlyAir_full hall, hid]
        constructor
        · rintro ⟨after', hafter⟩
          cases hafter
          rfl
        · rintro rfl
          exact ⟨after, rfl⟩
      · exact .inl rfl

end DiskBlock

end Map
end AxisEngine
