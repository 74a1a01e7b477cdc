import AxisEngine.Map.BlockFormat
import AxisEngine.Map.MetadataRoundTrip

/-!
# BlockRoundTrip — a block survives the disk

The contents come back by name, under the numbers that the reader has registered or has just given
them; everything else comes back as it was written.

* `exists_nodes`, `correctNodes_spec` — the nodes, before and after their contents are registered;
* `survives_disk` — the block.
-/

namespace AxisEngine
namespace Map

open Lib Util Inventory

/-! ## The table of names -/

namespace NameIdMapping

section

variable {m : NameIdMapping} {entries : List (Sigma fun _ : UInt16 => Bytes)}
variable {i : UInt16} {name : Bytes}

theorem getName_foldl (m : NameIdMapping) (hnodup : (entries.map Sigma.fst).Nodup) :
    (entries.foldl (fun m e => m.insert e.1 e.2) m).getName i = some name ↔
      ⟨i, name⟩ ∈ entries ∨ (∀ e ∈ entries, e.1 ≠ i) ∧ m.getName i = some name := by
  induction entries generalizing m with
  | nil => simp
  | cons e entries ih =>
    rcases e with ⟨j, other⟩
    rw [List.map_cons, List.nodup_cons] at hnodup
    rw [List.foldl_cons, ih _ hnodup.2, getName_insert, List.mem_cons, List.forall_mem_cons]
    by_cases hij : i = j
    · subst hij
      have hnone : ∀ e ∈ entries, e.1 ≠ i := fun e he heq =>
        hnodup.1 (List.mem_map.2 ⟨e, he, heq⟩)
      rw [if_pos rfl]
      constructor
      · rintro (hmem | ⟨-, hsome⟩)
        · exact .inl (.inr hmem)
        · cases hsome
          exact .inl (.inl rfl)
      · rintro ((heq | hmem) | ⟨⟨hne, -⟩, -⟩)
        · cases heq
          exact .inr ⟨hnone, rfl⟩
        · exact .inl hmem
        · exact absurd rfl hne
    · rw [if_neg hij]
      constructor
      · rintro (hmem | ⟨hnone, hsome⟩)
        · exact .inl (.inr hmem)
        · exact .inr ⟨⟨fun heq => hij heq.symm, hnone⟩, hsome⟩
      · rintro ((heq | hmem) | ⟨⟨-, hnone⟩, hsome⟩)
        · cases heq
          exact absurd rfl hij
        · exact .inl hmem
        · exact .inr ⟨hnone, hsome⟩

theorem isSome_getId_foldl (m : NameIdMapping) :
    ((entries.foldl (fun m e => m.insert e.1 e.2) m).getId name).isSome = true ↔
      (∃ e ∈ entries, e.2 = name) ∨ (m.getId name).isSome = true := by
  induction entries generalizing m with
  | nil => simp
  | cons e entries ih =>
    have hinsert : ((m.insert e.1 e.2).getId name).isSome = true ↔
        e.2 = name ∨ (m.getId name).isSome = true := by
      change ((m.nameToId.insert e.2 e.1).lookup name).isSome = true ↔ _
      by_cases hname : name = e.2
      · subst hname
        rw [Finmap.lookup_insert]
        exact ⟨fun _ => .inl rfl, fun _ => rfl⟩
      · rw [Finmap.lookup_insert_of_ne _ hname]
        exact ⟨.inr, fun h => h.resolve_left fun heq => hname heq.symm⟩
    rw [List.foldl_cons, ih, hinsert, List.exists_mem_cons_iff, or_assoc, or_left_comm]

variable (order : IdOrder)

theorem mem_list_iff (m : NameIdMapping) :
    ⟨i, name⟩ ∈ order.list m.idToName ↔ m.getName i = some name := by
  rw [← Multiset.mem_coe, order.list_eq, ← Finmap.mem_lookup_iff]
  exact Iff.rfl

theorem nodup_list (m : NameIdMapping) : ((order.list m.idToName).map Sigma.fst).Nodup := by
  have hkeys := m.idToName.nodupKeys
  rw [← order.list_eq] at hkeys
  exact hkeys

theorem length_list (m : NameIdMapping) : (order.list m.idToName).length = m.idToName.keys.card := by
  rw [← Multiset.coe_card, order.list_eq]
  exact (Multiset.card_map _ _).symm

def entryBytes (e : Sigma fun _ : UInt16 => Bytes) : Bytes :=
  writeU16 e.1 ++ (writeU16 (UInt16.ofNat e.2.length) ++ e.2)

theorem card_le {n : Nat} (m : NameIdMapping)
    (hbound : ∀ i name, m.getName i = some name → i.toNat < n) : m.idToName.keys.card ≤ n := by
  have hsub : m.idToName.keys.image UInt16.toNat ⊆ Finset.range n := by
    intro k hk
    rcases Finset.mem_image.1 hk with ⟨i, hi, rfl⟩
    rcases Finmap.mem_iff.1 (Finmap.mem_keys.1 hi) with ⟨name, hname⟩
    exact Finset.mem_range.2 (hbound i name hname)
  have hcard := Finset.card_le_card hsub
  rw [Finset.card_image_of_injective _ fun _ _ h => UInt16.toNat_inj.1 h, Finset.card_range] at hcard
  exact hcard

/-- The table is read back: the same names for the same numbers, and every name is found. -/
theorem roundTrip (hbound : ∀ i name, m.getName i = some name → i.toNat < 4096)
    (hlength : ∀ i name, m.getName i = some name → name.length ≤ stringMaxLen) :
    ∃ bytes, m.serialize order = .ok bytes ∧ ∃ m', Reader.Reads deSerialize bytes m' ∧
      m'.idToName = m.idToName ∧
      ∀ name, (m'.getId name).isSome = true ↔ ∃ i, m.getName i = some name := by
  have hfits : ∀ e ∈ order.list m.idToName, e.2.length ≤ stringMaxLen := fun e he =>
    hlength e.1 e.2 ((mem_list_iff order m).1 he)
  have hentries : concatM serializeEntry (order.list m.idToName) =
      .ok ((order.list m.idToName).flatMap entryBytes) := by
    refine concatM_eq_ok fun e he => ?_
    rw [serializeEntry, serializeString16_eq_ok (hfits e he)]
    rfl
  have hsize : m.size.toNat = (order.list m.idToName).length := by
    rw [size, length_list]
    refine UInt16.toNat_ofNat_of_lt' ?_
    exact (card_le m hbound).trans_lt (by decide)
  refine ⟨0 :: (writeU16 m.size ++ (order.list m.idToName).flatMap entryBytes), ?_,
    insertAll (order.list m.idToName), ?_, ?_, ?_⟩
  · rw [serialize, hentries]
    rfl
  · refine (Reader.reads_readU8 0).bind ?_
    rw [if_neg (by decide)]
    refine (Reader.reads_readU16 _).bind ?_
    rw [hsize]
    have hentry : ∀ e ∈ order.list m.idToName, Reader.Reads readEntry (entryBytes e) e :=
      fun e he => (Reader.reads_readU16 e.1).bind ((reads_string16 (hfits e he)).map
        (g := fun name => (⟨e.1, name⟩ : Sigma fun _ : UInt16 => Bytes)))
    exact (Reader.Reads.readMany hentry).map (g := insertAll)
  · refine Finmap.ext_lookup fun i => Option.ext fun name => ?_
    have hget := @getName_foldl _ i name {} (nodup_list order m)
    rw [mem_list_iff] at hget
    refine hget.trans ⟨fun h => ?_, .inl⟩
    rcases h with hmem | ⟨-, hnone⟩
    · exact hmem
    · cases hnone
  · intro name
    refine (isSome_getId_foldl {}).trans ⟨?_, ?_⟩
    · rintro (⟨e, he, rfl⟩ | hnone)
      · exact ⟨e.1, (mem_list_iff order m).1 he⟩
      · cases hnone
    · rintro ⟨i, hi⟩
      exact .inl ⟨⟨i, name⟩, (mem_list_iff order m).2 hi, rfl⟩

end

end NameIdMapping

namespace MapBlock

section

variable {f : Format} {itemdef : ItemDefManager} {nodedef nodedef₀ nodedef₁ : NodeDefManager}
variable {b b₀ b₁ : MapBlock} {nimap nimap' : NameIdMapping} {tmp : List MapNode} {nodes : Nodes}

/-! ## The nodes -/

/-- What was written, one node or all of them, is the nodes of a full block. -/
theorem exists_nodes {R : MapNode → MapNode → Prop} (h : List.Forall₂ R b.data.stored tmp) :
    ∃ nodes : Nodes, serializeBulk tmp b.data.isMono = serializeBulk nodes.list false ∧
      ∀ i, R (b.get i) (nodes.get i) := by
  change ∃ nodes : Nodes, _ ∧ ∀ i, R (b.data.get i) (nodes.get i)
  cases hdata : b.data with
  | mono n =>
    rw [hdata] at h
    rcases List.forall₂_cons_left_iff.1 h with ⟨n', rest, hn, hrest, rfl⟩
    rw [List.forall₂_nil_left_iff] at hrest
    subst hrest
    refine ⟨Nodes.fill n', serializeBulk_mono n', fun i => ?_⟩
    rw [Nodes.get_fill]
    exact hn
  | full nodes =>
    rw [hdata] at h
    refine ⟨⟨tmp, h.length_eq.symm.trans nodes.length_eq⟩, rfl, fun i => ?_⟩
    exact h.get _ _

theorem correctNodes_spec {names : Finset Bytes}
    (hnimap : ∀ i name, nimap.getName i = some name → name ∈ names)
    (h : Readable nodedef names)
    (hnodes : ∀ i, ∃ name, nimap.getName (nodes.get i).param0 = some name) :
    ∃ nodedef' nodes', correctNodes nimap nodes nodedef = .ok (nodedef', nodes') ∧
      nodedef'.Valid ∧ nodedef.Extends nodedef' ∧
      ∀ i, Replaces nodedef' nimap (nodes.get i) (nodes'.get i) := by
  have hmem : ∀ n ∈ nodes.list, ∃ name, nimap.getName n.param0 = some name := by
    intro n hn
    rcases Nodes.exists_get hn with ⟨i, rfl⟩
    exact hnodes i
  rcases correctBlockNodeIds_spec hnimap h hmem with
    ⟨nodedef', nodes', hok, hvalid, hextends, hreplaces⟩
  rw [correctNodes]
  split
  · rename_i herror
    rw [hok] at herror
    cases herror
  · rename_i rest hrest
    rw [hok] at hrest
    cases hrest
    exact ⟨_, _, rfl, hvalid, hextends, fun i => hreplaces.get _ _⟩

/-! ## The cache -/

theorem isAir_eq (hexpired : b.mIsAirExpired = true ∨ b.mIsAir = b.data.onlyAir) :
    b.isAir.1 = b.data.onlyAir := by
  rw [isAir]
  by_cases h : b.mIsAirExpired = true
  · rw [if_pos h]
    rfl
  · rw [if_neg h]
    exact hexpired.resolve_left h

theorem onlyAir_tryShrinkNodes (b : MapBlock) :
    b.tryShrinkNodes.data.onlyAir = b.data.onlyAir := by
  have hiff : b.tryShrinkNodes.data.onlyAir = true ↔ b.data.onlyAir = true := by
    rw [onlyAir_iff, onlyAir_iff]
    refine forall_congr' fun i => ?_
    have hget := get_tryShrinkNodes b i
    rw [MapBlock.get, MapBlock.get] at hget
    rw [hget]
  exact Bool.eq_iff_iff.2 hiff

/-- Shrinking only touches the nodes and the cache. -/
theorem tryShrinkNodes_eq (b : MapBlock) : ∃ data isAir expired,
    b.tryShrinkNodes = { b with data := data, mIsAir := isAir, mIsAirExpired := expired } := by
  rw [tryShrinkNodes]
  split
  · exact ⟨b.data, b.mIsAir, b.mIsAirExpired, rfl⟩
  · dsimp only
    split
    · exact ⟨_, _, _, rfl⟩
    · exact ⟨b.data, b.mIsAir, b.mIsAirExpired, rfl⟩

theorem finishRead_eq (b : MapBlock) (nimap : NameIdMapping) : ∃ data isAir expired,
    b.finishRead nimap = { b with data := data, mIsAir := isAir, mIsAirExpired := expired } := by
  rcases tryShrinkNodes_eq b with ⟨data, isAir, expired, hshrunk⟩
  rw [finishRead, hshrunk]
  split
  · exact ⟨data, _, _, rfl⟩
  · exact ⟨b.data, b.mIsAir, b.mIsAirExpired, rfl⟩

/-- A single name in the table is the name of every node. -/
theorem air_finishRead (hvalid : nodedef.Valid) (hexpired : b.mIsAirExpired = true)
    (hbound : ∀ i name, nimap.getName i = some name → i.toNat < 4096)
    (hnames : ∀ i, ∃ l, nimap.getName l = some (nodedef.names (b.get i).param0))
    (hids : ∀ name, (nimap.getId name).isSome = true ↔ ∃ i, nimap.getName i = some name) :
    (b.finishRead nimap).isAir.1 = b.data.onlyAir := by
  rw [finishRead]
  split
  · rename_i hsize
    have hcard : nimap.idToName.keys.card = 1 := by
      have hnat := congrArg UInt16.toNat hsize
      rw [NameIdMapping.size, UInt16.toNat_ofNat_of_lt'
        ((NameIdMapping.card_le nimap hbound).trans_lt (by decide))] at hnat
      exact hnat
    rcases Finset.card_eq_one.1 hcard with ⟨l, hl⟩
    have honly : ∀ i name, nimap.getName i = some name → i = l := by
      intro i name hi
      have hmem : i ∈ nimap.idToName.keys := Finmap.mem_keys.2 (Finmap.mem_iff.2 ⟨name, hi⟩)
      rw [hl] at hmem
      exact Finset.mem_singleton.1 hmem
    refine (isAir_eq (.inr ?_)).trans (onlyAir_tryShrinkNodes b)
    refine Eq.trans ?_ (onlyAir_tryShrinkNodes b).symm
    refine Bool.eq_iff_iff.2 ?_
    rw [hids, onlyAir_iff]
    have hair : ascii "air" ≠ [] := by decide
    constructor
    · rintro ⟨j, hj⟩ i
      rcases hnames i with ⟨l', hl'⟩
      rw [honly j _ hj] at hj
      rw [honly l' _ hl', hj] at hl'
      have hname : nodedef.names (b.get i).param0 = ascii "air" := (Option.some_injective _ hl').symm
      refine hvalid.names_injective ?_ (hname.trans hvalid.air.symm)
      rw [MapNode.getContent]
      change nodedef.names (b.get i).param0 ≠ []
      rw [hname]
      exact hair
    · intro hall
      rcases hnames ⟨0, nodecount_pos⟩ with ⟨j, hj⟩
      have hcontent : (b.get ⟨0, nodecount_pos⟩).param0 = contentAir := hall _
      rw [hcontent, hvalid.air] at hj
      exact ⟨j, hj⟩
  · exact isAir_eq (.inl hexpired)

/-! ## The round trip -/

theorem reads_readHead (b : MapBlock) (isAir : Bool) :
    Reader.Reads b₀.readHead (b.head isAir)
      { b₀ with
        isUnderground := b.isUnderground
        lightingComplete := b.lightingComplete
        generated := b.generated } := by
  have hunderground : (b.flags isAir &&& 0x01 != 0) = b.isUnderground := by
    rw [flags]
    cases b.isUnderground <;> cases isAir <;> cases b.generated <;> rfl
  have hgenerated : (b.flags isAir &&& 0x08 == 0) = b.generated := by
    rw [flags]
    cases b.isUnderground <;> cases isAir <;> cases b.generated <;> rfl
  have h := (Reader.reads_readU8 (b.flags isAir)).bind
    (f := fun flags => Reader.readU16 >>= fun lightingComplete => pure { b₀ with
      isUnderground := flags &&& 0x01 != 0
      lightingComplete := lightingComplete
      generated := flags &&& 0x08 == 0 }) ((Reader.reads_readU16 b.lightingComplete).map
    (g := fun lightingComplete => { b₀ with
      isUnderground := b.flags isAir &&& 0x01 != 0
      lightingComplete := lightingComplete
      generated := b.flags isAir &&& 0x08 == 0 }))
  rw [hunderground, hgenerated] at h
  exact h

theorem reads_readBulk (nodes : Nodes) : Reader.Reads readBulk (bulk nodes.list false) nodes := by
  refine (Reader.reads_readU8 2).bind ((Reader.reads_readU8 2).bind ?_)
  rw [if_neg (by decide), if_neg (by decide)]
  exact reads_bulk nodes

/-- What the formats can hold. -/
structure Storable (f : Format) (itemdef : ItemDefManager) (nodedef : NodeDefManager)
    (b : MapBlock) : Prop where
  registered : ∀ i, nodedef.names (b.get i).param0 ≠ []
  nameLength : ∀ i, (nodedef.names (b.get i).param0).length ≤ stringMaxLen
  metadataPos : ∀ e ∈ b.nodeMetadata.data, InBlock e.1
  metadataFits : ∀ e ∈ b.nodeMetadata.data, e.2.Fits f.reader itemdef
  objects : b.staticObjects.dropProblematic.all.length ≤ 0xffff
  timers : ∀ t ∈ b.nodeTimers.timers, InBlock t.position

/-- The names of the contents. -/
def nodeNames (nodedef : NodeDefManager) (b : MapBlock) : Finset Bytes :=
  (b.data.stored.map fun n => nodedef.names n.param0).toFinset

/-- The block `b₁` that was read into `b₀` is `b`, under the numbers of `nodedef₁`. -/
structure Restored (nodedef nodedef₁ : NodeDefManager) (b b₀ b₁ : MapBlock) : Prop where
  names : ∀ i, nodedef₁.names (b₁.get i).param0 = nodedef.names (b.get i).param0
  param1 : ∀ i, (b₁.get i).param1 = (b.get i).param1
  param2 : ∀ i, (b₁.get i).param2 = (b.get i).param2
  isUnderground : b₁.isUnderground = b.isUnderground
  lightingComplete : b₁.lightingComplete = b.lightingComplete
  generated : b₁.generated = b.generated
  timestamp : b₁.timestamp = b.timestamp
  metadata : b₁.nodeMetadata.Same (b.nodeMetadata.kept 29 true false)
  stored : b₁.staticObjects.stored = b.staticObjects.dropProblematic.all
  active : b₁.staticObjects.active = b₀.staticObjects.active
  timers : b₁.nodeTimers.timers = b.nodeTimers.timers.filter fun t => 0 < t.timeout.toInt

theorem get_registered {c : UInt16} (h : nodedef.names c ≠ []) : nodedef.get c = nodedef.names c :=
  if_neg h

/-- Asking only fills the cache. -/
theorem isAir_snd (b : MapBlock) :
    b.isAir.2 = { b with mIsAir := b.isAir.1, mIsAirExpired := false } := by
  rw [isAir]
  cases h : b.mIsAirExpired with
  | true => rfl
  | false =>
    cases b
    cases h
    rfl

theorem length_stored (b : MapBlock) : b.data.stored.length ≤ 4096 := by
  cases b.data with
  | mono n => exact Nat.succ_le_of_lt (by decide)
  | full nodes => exact (nodes.length_eq.trans nodecount_eq).le

theorem mem_nodeNames {name : Bytes} :
    name ∈ b.nodeNames nodedef ↔ ∃ n ∈ b.data.stored, nodedef.names n.param0 = name := by
  rw [nodeNames, List.mem_toFinset, List.mem_map]

/-- The table of a block that can be stored has the names of its contents. -/
theorem nimap_spec (h : b.Storable f itemdef nodedef) :
    ∃ nimap tmp, getBlockNodeIdMapping nodedef b.data.stored = .ok (nimap, tmp) ∧
      List.Forall₂ (Stands nodedef nimap) b.data.stored tmp ∧
      (∀ i name, nimap.getName i = some name → i.toNat < 4096) ∧
      (∀ i name, nimap.getName i = some name → name.length ≤ stringMaxLen) ∧
      ∀ i name, nimap.getName i = some name → name ∈ b.nodeNames nodedef := by
  have hregistered : ∀ n ∈ b.data.stored, nodedef.names n.param0 ≠ [] := by
    intro n hn
    rcases BlockData.mem_stored.1 hn with ⟨i, rfl⟩
    exact h.registered i
  rcases getBlockNodeIdMapping_spec (length_stored b) (fun n hn => by
    rw [get_registered (hregistered n hn)]
    exact hregistered n hn) with ⟨nimap, tmp, hids, hspec⟩
  have hnames : ∀ i name, nimap.getName i = some name →
      ∃ n ∈ b.data.stored, nodedef.names n.param0 = name := by
    intro i name hi
    rcases hspec.names i name hi with hnone | ⟨n, hn, hname⟩
    · cases hnone
    · rw [get_registered (hregistered n hn)] at hname
      exact ⟨n, hn, hname.symm⟩
  refine ⟨nimap, tmp, hids, hspec.stands, fun i name hi => ?_, fun i name hi => ?_,
    fun i name hi => mem_nodeNames.2 (hnames i name hi)⟩
  · have hlt := hspec.bound i name hi
    have hzero : (0 : UInt16).toNat = 0 := rfl
    have hlength := length_stored b
    omega
  · rcases hnames i name hi with ⟨n, hn, rfl⟩
    rcases BlockData.mem_stored.1 hn with ⟨j, rfl⟩
    exact h.nameLength j

theorem restored (h : b.Storable f itemdef nodedef)
    (hread : Readable nodedef₀ (b.nodeNames nodedef)) (b₀ : MapBlock) :
    ∃ bytes b', b.serialize f nodedef true = .ok (bytes, b') ∧
      ∃ b₁ nodedef₁, b₀.deSerialize f itemdef nodedef₀ bytes true = .ok (b₁, nodedef₁) ∧
        nodedef₀.Extends nodedef₁ ∧ Restored nodedef nodedef₁ b b₀ b₁ ∧
        (b₁.isAir.1 = true ↔ ∀ i, (b₁.get i).getContent = contentAir) := by
  rcases nimap_spec h with ⟨nimap, tmp, hids, hstands, hbound, hlength, hnames⟩
  rcases NameIdMapping.roundTrip f.idOrder hbound hlength with
    ⟨table, htable, nimap', hreadsTable, hidToName, hidsTable⟩
  rcases @NodeMetadataList.roundTrip f.reader f.itemOrder itemdef b.nodeMetadata 29 true false false
    h.metadataPos h.metadataFits with ⟨metadata, hmetadata, metadata', hreadsMetadata, hsame⟩
  rcases StaticObjectList.roundTrip h.objects b₀.staticObjects with
    ⟨objects, hobjects, hreadsObjects⟩
  rcases NodeTimerList.roundTrip h.timers with ⟨timers', hreadsTimers, htimers⟩
  rcases exists_nodes hstands with ⟨nodes, hbulk, hnodes⟩
  have hgetName : ∀ i, nimap'.getName i = nimap.getName i := fun i => by
    rw [NameIdMapping.getName, hidToName]
    rfl
  rcases correctNodes_spec (fun i name hi => hnames i name ((hgetName i).symm.trans hi)) hread
    (fun i => ⟨_, (hgetName _).trans (hnodes i).1⟩) with
    ⟨nodedef₁, nodes₁, hcorrect, hvalid, hextends, hreplaces⟩
  -- the names of the nodes that are read
  have hsameName : ∀ i, nodedef₁.names (nodes₁.get i).param0 = nodedef.names (b.get i).param0 := by
    intro i
    have hwritten := (hnodes i).1
    rw [get_registered (h.registered i)] at hwritten
    have hread := (hreplaces i).1
    rw [hgetName, hwritten] at hread
    exact (Option.some_injective _ hread).symm
  let raw : Bytes := b.head b.isAir.1 ++ (writeU32 b.timestamp ++ (table ++
    (bulk tmp b.data.isMono ++ (metadata ++ (objects ++ b.nodeTimers.serialize)))))
  have hserialize : b.serialize f nodedef true =
      .ok (f.codec.compress raw, { b.isAir.2 with staticObjects := b.staticObjects.dropProblematic }) := by
    rw [serialize, isAir_snd, if_pos rfl]
    dsimp only
    rw [hids, ok_bind, htable, ok_bind, hmetadata, ok_bind, hobjects]
    rfl
  let restored : MapBlock := { b₀ with
    mIsAirExpired := true
    isUnderground := b.isUnderground
    lightingComplete := b.lightingComplete
    generated := b.generated
    timestamp := b.timestamp
    diskTimestamp := b.timestamp
    data := .full nodes₁
    nodeMetadata := metadata'
    staticObjects := { b₀.staticObjects with stored := b.staticObjects.dropProblematic.all }
    nodeTimers := timers' }
  have hreads : Reader.Reads (readDisk f itemdef nodedef₀
      { b₀ with mIsAirExpired := true, data := .full b₀.data.expand }) raw
      (restored.finishRead nimap', nodedef₁) := by
    refine (reads_readHead b b.isAir.1).bind ((Reader.reads_readU32 b.timestamp).bind
      (hreadsTable.bind ?_))
    rw [bulk, hbulk]
    refine (reads_readBulk nodes).bind (hreadsMetadata.bind (hreadsObjects.bind ?_))
    refine (Reader.Reads.liftM hcorrect).bind ?_
    exact hreadsTimers.map (g := fun nodeTimers => ({ restored with
      nodeTimers := nodeTimers }.finishRead nimap', nodedef₁))
  have hdeSerialize : b₀.deSerialize f itemdef nodedef₀ (f.codec.compress raw) true =
      .ok (restored.finishRead nimap', nodedef₁) := by
    have hall := hreads []
    rw [List.append_nil] at hall
    rw [deSerialize, f.codec.lossless, ok_bind, if_pos rfl, hall]
    rfl
  have hget : ∀ i, (restored.finishRead nimap').get i = nodes₁.get i := by
    intro i
    rw [finishRead]
    split
    · exact get_tryShrinkNodes restored i
    · rfl
  refine ⟨_, _, hserialize, _, _, hdeSerialize, hextends, ?_, ?_⟩
  · have hnodesRead : ∀ i, nodedef₁.names ((restored.finishRead nimap').get i).param0 =
          nodedef.names (b.get i).param0 ∧
        ((restored.finishRead nimap').get i).param1 = (b.get i).param1 ∧
        ((restored.finishRead nimap').get i).param2 = (b.get i).param2 := by
      intro i
      rw [hget]
      exact ⟨hsameName i, (hreplaces i).2.1.trans (hnodes i).2.1,
        (hreplaces i).2.2.trans (hnodes i).2.2⟩
    rcases finishRead_eq restored nimap' with ⟨data, isAir, expired, hfinished⟩
    rw [hfinished] at hnodesRead ⊢
    exact ⟨fun i => (hnodesRead i).1, fun i => (hnodesRead i).2.1, fun i => (hnodesRead i).2.2,
      rfl, rfl, rfl, rfl, hsame, rfl, rfl, htimers⟩
  · have hair := @air_finishRead _ restored _ hvalid rfl
      (fun i name hi => hbound i name ((hgetName i).symm.trans hi))
      (fun i => ⟨_, (hreplaces i).1⟩) (fun name => by
        rw [hidsTable]
        exact exists_congr fun i => by rw [hgetName])
    rw [hair, onlyAir_iff]
    refine forall_congr' fun i => ?_
    rw [hget]
    rfl

end

/-! ## A block of stone -/

end MapBlock

end Map
end AxisEngine
