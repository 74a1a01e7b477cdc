import AxisEngine.Map.NodeMetadata
import AxisEngine.Inventory.RoundTrip

/-!
# MetadataRoundTrip — what is read back, and what a client can see

Of an entry the disk keeps the variables with the marks of those that are there, and the inventory;
a client gets what is left without the private variables.  Empty entries are in neither form.

* `Fits` — what the length fields and the inventory format can hold;
* `NodeMetadata.reads_bytes`, `NodeMetadataList.reads_bytes` — the bytes are read back;
* `DifferInPrivate` — two lists that only differ in the values of private variables;
* `roundTrip_and_privacy` — both forms.
-/

namespace AxisEngine
namespace Map

open Lib Util Inventory

namespace NodeMetadata

/-- What the length fields and the inventory format can hold. -/
structure Fits (r : Inventory.Reader) (itemdef : ItemDefManager) (m : NodeMetadata) : Prop where
  count : m.stringvars.entries.length < 2 ^ 32
  name : ∀ e ∈ m.stringvars.entries, e.1.length ≤ stringMaxLen
  value : ∀ e ∈ m.stringvars.entries, e.2.length ≤ longStringMaxLen
  idef : m.inventory.itemdef = itemdef
  named : m.inventory.Named
  lists : ∀ l ∈ m.inventory.lists, GoodList itemdef l
  readable : m.inventory.lists.all (listReadable r) = true

/-- The same variables with the same marks, and inventories with the same contents. -/
structure Same (m m' : NodeMetadata) : Prop where
  vars : m.stringvars.entries.Perm m'.stringvars.entries
  marks : m.privatevars = m'.privatevars
  inventory : m.inventory.contents = m'.inventory.contents

/-- Without the variables that do not satisfy `p`. -/
def filterVars (m : NodeMetadata) (p : Bytes → Bool) : AList fun _ : Bytes => Bytes :=
  ⟨m.stringvars.entries.filter fun e => p e.1, m.stringvars.nodupKeys.sublist List.filter_sublist⟩

/-- What a form keeps: for the disk everything except marks of names that are not there, and marks
are only in version 2; for a client what is not private. -/
def kept (m : NodeMetadata) (version : UInt8) (disk : Bool) : NodeMetadata :=
  if disk then
    { m with privatevars :=
        if version ≥ 2 then m.privatevars.filter (· ∈ m.stringvars) else ∅ }
  else
    { m with
      stringvars := m.filterVars fun name => !m.isPrivate name
      privatevars := ∅ }

section

variable {r : Inventory.Reader} {order : MapOrder} {itemdef : ItemDefManager}
variable {m m' : NodeMetadata} {version : UInt8} {disk : Bool}
variable {e : Sigma fun _ : Bytes => Bytes} {vars : List Var}

/-! ## The bytes of an entry -/

def markBytes (m : NodeMetadata) (version : UInt8) (name : Bytes) : Bytes :=
  if version ≥ 2 then [if m.isPrivate name then 1 else 0] else []

def varBytes (m : NodeMetadata) (version : UInt8) (e : Sigma fun _ : Bytes => Bytes) : Bytes :=
  writeU16 (UInt16.ofNat e.1.length) ++ e.1 ++
    (writeU32 (UInt32.ofNat e.2.length) ++ e.2 ++ m.markBytes version e.1)

def bytes (order : MapOrder) (m : NodeMetadata) (version : UInt8) (disk : Bool) : Bytes :=
  writeU32 (UInt32.ofNat (m.writtenVars disk).length) ++
    ((m.writtenVars disk).flatMap (m.varBytes version) ++ m.inventory.serialize order false)

theorem serializeVar_eq_ok (hname : e.1.length ≤ stringMaxLen)
    (hvalue : e.2.length ≤ longStringMaxLen) :
    m.serializeVar version e = .ok (m.varBytes version e) := by
  rw [serializeVar, serializeString16_eq_ok hname, serializeString32_eq_ok hvalue]
  rfl

/-- The count in front is the number of variables that follow. -/
theorem count_eq (m : NodeMetadata) (disk : Bool) :
    (if disk then m.stringvars.entries.length else m.countNonPrivate) =
      (m.writtenVars disk).length := by
  cases disk with
  | true => simp [writtenVars]
  | false => simp [writtenVars, countNonPrivate, List.countP_eq_length_filter]

theorem mem_of_mem_writtenVars (h : e ∈ m.writtenVars disk) : e ∈ m.stringvars.entries :=
  (List.mem_filter.1 h).1

theorem serialize_eq_ok (h : m.Fits r itemdef) :
    m.serialize order version disk = .ok (m.bytes order version disk) := by
  have hvars : concatM (m.serializeVar version) (m.writtenVars disk) =
      .ok ((m.writtenVars disk).flatMap (m.varBytes version)) := by
    refine concatM_eq_ok fun e he => ?_
    have hmem := mem_of_mem_writtenVars he
    exact serializeVar_eq_ok (h.name e hmem) (h.value e hmem)
  rw [serialize, hvars, count_eq]
  rfl

/-! ## Reading an entry -/

/-- The variable as the reader gets it. -/
def toVar (m : NodeMetadata) (version : UInt8) (e : Sigma fun _ : Bytes => Bytes) : Var :=
  ⟨e.1, e.2, decide (version ≥ 2) && m.isPrivate e.1⟩

theorem reads_readMark (m : NodeMetadata) (version : UInt8) (name : Bytes) :
    Reader.Reads (readMark version) (m.markBytes version name)
      (decide (version ≥ 2) && m.isPrivate name) := by
  rw [readMark, markBytes]
  split
  · rename_i hversion
    rw [decide_eq_true hversion, Bool.true_and]
    have h := (Reader.reads_readU8 (if m.isPrivate name then 1 else 0)).map (g := (· == 1))
    have hmark : ((if m.isPrivate name then 1 else 0 : UInt8) == 1) = m.isPrivate name := by
      cases m.isPrivate name <;> rfl
    rw [hmark] at h
    exact h
  · rename_i hversion
    rw [decide_eq_false hversion, Bool.false_and]
    exact Reader.Reads.pure false

theorem reads_readVar (hname : e.1.length ≤ stringMaxLen) (hvalue : e.2.length ≤ longStringMaxLen) :
    Reader.Reads (readVar version) (m.varBytes version e) (m.toVar version e) := by
  refine (reads_string16 hname).bind ((reads_string32 hvalue).bind ?_)
  exact (reads_readMark m version e.1).map (g := fun priv => Var.mk e.1 e.2 priv)

theorem reads_readVars (h : m.Fits r itemdef) :
    Reader.Reads (Reader.readMany (m.writtenVars disk).length (readVar version))
      ((m.writtenVars disk).flatMap (m.varBytes version))
      ((m.writtenVars disk).map (m.toVar version)) := by
  have hread : ∀ v ∈ (m.writtenVars disk).map (m.toVar version),
      Reader.Reads (readVar version) (m.varBytes version ⟨v.name, v.value⟩) v := by
    intro v hv
    rcases List.mem_map.1 hv with ⟨e, he, rfl⟩
    have hmem := mem_of_mem_writtenVars he
    exact reads_readVar (h.name e hmem) (h.value e hmem)
  have hmany := Reader.Reads.readMany hread
  rw [List.length_map, List.flatMap_map] at hmany
  exact hmany

theorem reads_readInventory (h : m.Fits r itemdef) :
    Reader.Reads (readInventory r { itemdef := itemdef }) (m.inventory.serialize order false)
      { itemdef := itemdef, lists := m.inventory.lists.map fun l => l.setModified true } := by
  intro rest
  have hlists : ∀ l ∈ m.inventory.lists, GoodList m.inventory.itemdef l := by
    rw [h.idef]
    exact h.lists
  have hread := deSerialize_new r order h.named hlists rest
  rw [h.idef, if_pos h.readable] at hread
  rw [readInventory, hread]
  rfl

/-- What the variables that are read add up to. -/
def readBack (itemdef : ItemDefManager) (m : NodeMetadata) (version : UInt8) (disk : Bool) :
    NodeMetadata :=
  { ((m.writtenVars disk).map (m.toVar version)).foldl addVar (create itemdef) with
    inventory :=
      { itemdef := itemdef, lists := m.inventory.lists.map fun l => l.setModified true } }

theorem inventory_foldl_addVar (vars : List Var) (m : NodeMetadata) :
    (vars.foldl addVar m).inventory = m.inventory := by
  induction vars generalizing m with
  | nil => rfl
  | cons v vars ih => exact ih (m.addVar v)

theorem length_writtenVars_lt (h : m.Fits r itemdef) : (m.writtenVars disk).length < 2 ^ 32 :=
  (List.length_filter_le _ _).trans_lt h.count

theorem reads_bytes (h : m.Fits r itemdef) :
    Reader.Reads ((create itemdef).deSerialize r version) (m.bytes order version disk)
      (m.readBack itemdef version disk) := by
  refine (Reader.reads_readU32 _).bind ?_
  rw [UInt32.toNat_ofNat_of_lt' (length_writtenVars_lt h)]
  refine (reads_readVars h).bind ?_
  have hinventory : (((m.writtenVars disk).map (m.toVar version)).foldl addVar
      (create itemdef).clear).inventory = { itemdef := itemdef } :=
    inventory_foldl_addVar _ _
  dsimp only
  rw [hinventory]
  exact (reads_readInventory h).map (g := fun inventory : Inventory =>
    { ((m.writtenVars disk).map (m.toVar version)).foldl addVar (create itemdef) with
      inventory := inventory })

/-! ## What was read -/

/-- New names are put in front, one after the other. -/
theorem entries_foldl_addVar (vars : List Var) (m : NodeMetadata)
    (hnodup : (vars.map Var.name).Nodup) (hnew : ∀ v ∈ vars, v.name ∉ m.stringvars) :
    (vars.foldl addVar m).stringvars.entries =
      (vars.map fun v => ⟨v.name, v.value⟩).reverse ++ m.stringvars.entries := by
  induction vars generalizing m with
  | nil => rfl
  | cons v vars ih =>
    rw [List.map_cons, List.nodup_cons] at hnodup
    rw [List.forall_mem_cons] at hnew
    have hinsert : (m.addVar v).stringvars.entries = ⟨v.name, v.value⟩ :: m.stringvars.entries :=
      AList.entries_insert_of_notMem hnew.1
    have hrest : ∀ w ∈ vars, w.name ∉ (m.addVar v).stringvars := by
      intro w hw hmem
      rcases (AList.mem_insert _).1 hmem with heq | hmem
      · exact hnodup.1 (heq ▸ List.mem_map_of_mem hw)
      · exact hnew.2 w hw hmem
    rw [List.foldl_cons, ih (m.addVar v) hnodup.2 hrest, hinsert, List.map_cons,
      List.reverse_cons, List.append_assoc, List.singleton_append]

theorem mem_privatevars_foldl_addVar {name : Bytes} (vars : List Var) (m : NodeMetadata) :
    name ∈ (vars.foldl addVar m).privatevars ↔
      name ∈ m.privatevars ∨ ∃ v ∈ vars, v.priv = true ∧ v.name = name := by
  induction vars generalizing m with
  | nil => simp
  | cons v vars ih =>
    rw [List.foldl_cons, ih, List.exists_mem_cons_iff, ← or_assoc]
    refine or_congr_left ?_
    rw [addVar]
    cases hpriv : v.priv with
    | true => simp [eq_comm, or_comm]
    | false => simp

theorem nodup_writtenVars (m : NodeMetadata) (disk : Bool) :
    ((m.writtenVars disk).map Sigma.fst).Nodup :=
  m.stringvars.nodupKeys.sublist List.filter_sublist

theorem entries_readBack (m : NodeMetadata) (version : UInt8) (disk : Bool) :
    (m.readBack itemdef version disk).stringvars.entries = (m.writtenVars disk).reverse := by
  have hentries := entries_foldl_addVar ((m.writtenVars disk).map (m.toVar version))
    (create itemdef) (by
      rw [List.map_map]
      exact nodup_writtenVars m disk) (fun v _ => AList.notMem_empty v.name)
  rw [readBack, hentries, List.map_map]
  have hid : ((fun v : Var => (⟨v.name, v.value⟩ : Sigma fun _ : Bytes => Bytes)) ∘
      m.toVar version) = id := rfl
  rw [hid, List.map_id, create]
  exact List.append_nil _

theorem mem_privatevars_readBack {name : Bytes} (m : NodeMetadata) (version : UInt8)
    (disk : Bool) : name ∈ (m.readBack itemdef version disk).privatevars ↔
      version ≥ 2 ∧ name ∈ m.privatevars ∧ ∃ e ∈ m.writtenVars disk, e.1 = name := by
  have hmark : ∀ e, (m.toVar version e).priv = true ↔ version ≥ 2 ∧ e.1 ∈ m.privatevars := by
    intro e
    rw [toVar, Bool.and_eq_true, decide_eq_true_eq, isPrivate, decide_eq_true_eq]
  rw [readBack, mem_privatevars_foldl_addVar]
  constructor
  · rintro (hmem | ⟨v, hv, hpriv, hname⟩)
    · exact absurd hmem (Finset.notMem_empty _)
    · rcases List.mem_map.1 hv with ⟨e, he, rfl⟩
      rcases (hmark e).1 hpriv with ⟨hversion, hmem⟩
      have hsame : e.1 = name := hname
      exact ⟨hversion, hsame ▸ hmem, e, he, hsame⟩
  · rintro ⟨hversion, hpriv, e, he, rfl⟩
    exact .inr ⟨m.toVar version e, List.mem_map_of_mem he, (hmark e).2 ⟨hversion, hpriv⟩, rfl⟩

theorem mem_stringvars_iff {name : Bytes} :
    name ∈ m.stringvars ↔ ∃ e ∈ m.stringvars.entries, e.1 = name :=
  List.mem_map

/-- What is read back is what the form keeps. -/
theorem readBack_same (m : NodeMetadata) (version : UInt8) (disk : Bool) :
    (m.readBack itemdef version disk).Same (m.kept version disk) := by
  have hinventory : (m.readBack itemdef version disk).inventory.contents =
      m.inventory.contents := by
    simp [readBack, Inventory.contents, InventoryList.contents, InventoryList.setModified,
      Function.comp_def]
  have hentries := @entries_readBack itemdef m version disk
  cases disk with
  | true =>
    refine ⟨?_, ?_, hinventory⟩
    · rw [hentries]
      refine (List.reverse_perm _).trans ?_
      simp [writtenVars, kept]
    · ext name
      rw [mem_privatevars_readBack, kept, if_pos rfl]
      have hwritten : m.writtenVars true = m.stringvars.entries := by simp [writtenVars]
      rw [hwritten, ← mem_stringvars_iff]
      by_cases hversion : version ≥ 2
      · simp [hversion]
      · simp [hversion]
  | false =>
    refine ⟨?_, ?_, hinventory⟩
    · rw [hentries]
      refine (List.reverse_perm _).trans ?_
      simp [writtenVars, kept, filterVars]
    · ext name
      rw [mem_privatevars_readBack, kept, if_neg Bool.false_ne_true]
      constructor
      · rintro ⟨-, hpriv, e, he, rfl⟩
        -- a private variable is not written
        have hshown := (List.mem_filter.1 he).2
        rw [isPrivate, decide_eq_true hpriv] at hshown
        cases hshown
      · intro hmem
        exact absurd hmem (Finset.notMem_empty _)

end

/-! ## What a client can see -/

/-- Different values of private variables, and nothing else. -/
structure DifferInPrivate (m m' : NodeMetadata) : Prop where
  vars : List.Forall₂ (fun e e' => e.1 = e'.1 ∧ (m.isPrivate e.1 = false → e.2 = e'.2))
    m.stringvars.entries m'.stringvars.entries
  marks : m.privatevars = m'.privatevars
  inventory : m.inventory = m'.inventory

section

variable {order : MapOrder} {m m' : NodeMetadata} {version : UInt8}

theorem filter_shown_eq {p : Bytes → Bool} {l l' : List (Sigma fun _ : Bytes => Bytes)}
    (h : List.Forall₂ (fun e e' => e.1 = e'.1 ∧ (p e.1 = false → e.2 = e'.2)) l l') :
    (l.filter fun e => !(!false && p e.1)) = l'.filter fun e => !(!false && p e.1) := by
  induction h with
  | nil => rfl
  | @cons e e' l l' hee _ ih =>
    rcases e with ⟨name, value⟩
    rcases e' with ⟨name', value'⟩
    rcases hee with ⟨hname, hvalue⟩
    cases hname
    rw [List.filter_cons, List.filter_cons]
    split
    · rename_i hshown
      have hpublic : p name = false := by simpa using hshown
      have hsame : value = value' := hvalue hpublic
      rw [hsame, ih]
    · exact ih

theorem DifferInPrivate.writtenVars_eq (h : m.DifferInPrivate m') :
    m.writtenVars false = m'.writtenVars false := by
  have hprivate : m'.isPrivate = m.isPrivate := by
    funext name
    rw [isPrivate, isPrivate, h.marks]
  rw [writtenVars, writtenVars, hprivate]
  exact filter_shown_eq h.vars

theorem DifferInPrivate.serialize_eq (h : m.DifferInPrivate m') :
    m.serialize order version false = m'.serialize order version false := by
  have hvar : m.serializeVar version = m'.serializeVar version := by
    funext e
    rw [serializeVar, serializeVar, isPrivate, isPrivate, h.marks]
  have hcount : m.countNonPrivate = m'.countNonPrivate := by
    have hm := count_eq m false
    have hm' := count_eq m' false
    rw [if_neg Bool.false_ne_true] at hm hm'
    rw [hm, hm', h.writtenVars_eq]
  rw [serialize, serialize, h.writtenVars_eq, hvar, h.inventory]
  rw [if_neg Bool.false_ne_true, if_neg Bool.false_ne_true, hcount]

theorem DifferInPrivate.empty_eq (h : m.DifferInPrivate m') : m.empty = m'.empty := by
  have hlength := h.vars.length_eq
  rw [empty, empty, h.inventory]
  cases hm : m.stringvars.entries with
  | nil =>
    rw [hm] at hlength
    rw [List.length_eq_zero_iff.1 hlength.symm]
  | cons e rest =>
    rw [hm] at hlength
    cases hm' : m'.stringvars.entries with
    | nil =>
      rw [hm'] at hlength
      cases hlength
    | cons _ _ => rfl

end

end NodeMetadata

/-! ## The list -/

namespace NodeMetadataList

/-- What a form keeps of a list. -/
def kept (l : NodeMetadataList) (blockver : UInt8) (disk includeEmpty : Bool) :
    List (V3s16 × NodeMetadata) :=
  (l.written includeEmpty).map fun e => (e.1, e.2.kept (formatVersion blockver) disk)

/-- The same positions, with the same metadata at each. -/
def Same (l : NodeMetadataList) (entries : List (V3s16 × NodeMetadata)) : Prop :=
  List.Forall₂ (fun e e' => e.1 = e'.1 ∧ e.2.Same e'.2) l.data entries

def DifferInPrivate (l l' : NodeMetadataList) : Prop :=
  List.Forall₂ (fun e e' => e.1 = e'.1 ∧ e.2.DifferInPrivate e'.2) l.data l'.data

section

variable {r : Inventory.Reader} {order : MapOrder} {itemdef : ItemDefManager}
variable {l l' : NodeMetadataList} {p : V3s16} {e : V3s16 × NodeMetadata}
variable {entries : List (V3s16 × NodeMetadata)} {blockver version : UInt8}
variable {disk absolutePos includeEmpty : Bool}

theorem reads_readPos (h : absolutePos = true ∨ InBlock p) :
    Reader.Reads (readPos absolutePos) (writePos absolutePos p) p := by
  cases absolutePos with
  | true =>
    refine (reads_readS16 p.x).bind ((reads_readS16 p.y).bind ?_)
    exact (reads_readS16 p.z).map (g := fun z => V3s16.mk p.x p.y z)
  | false =>
    have hread := (Reader.reads_readU16 (blockIndex p)).map (g := ofBlockIndex)
    rcases h with hpos | hpos
    · cases hpos
    · rw [ofBlockIndex_blockIndex hpos] at hread
      exact hread

/-! ## The bytes of a list -/

def entryBytes (order : MapOrder) (version : UInt8) (disk absolutePos : Bool)
    (e : V3s16 × NodeMetadata) : Bytes :=
  writePos absolutePos e.1 ++ e.2.bytes order version disk

theorem concatM_serializeEntry (h : ∀ e ∈ entries, e.2.Fits r itemdef) :
    concatM (serializeEntry order version disk absolutePos) entries =
      .ok (entries.flatMap (entryBytes order version disk absolutePos)) := by
  refine concatM_eq_ok fun e he => ?_
  rw [serializeEntry, NodeMetadata.serialize_eq_ok (h e he)]
  rfl

theorem count_eq (l : NodeMetadataList) (includeEmpty : Bool) :
    (if includeEmpty then l.data.length else l.countNonEmpty) = (l.written includeEmpty).length := by
  cases includeEmpty with
  | true => simp [written]
  | false => simp [written, countNonEmpty, List.countP_eq_length_filter]

theorem nodup_positions (h : StrictSorted metaKey entries) : (entries.map Prod.fst).Nodup :=
  List.Pairwise.map _ (fun _ _ hlt heq => absurd (congrArg posKey heq) hlt.ne) h

/-! ## Reading a list -/

/-- The entry as it is read back. -/
def readBackEntry (itemdef : ItemDefManager) (version : UInt8) (disk : Bool)
    (e : V3s16 × NodeMetadata) : V3s16 × NodeMetadata :=
  (e.1, e.2.readBack itemdef version disk)

theorem reads_readEntries (hsorted : StrictSorted metaKey (l.data ++ entries))
    (hpos : ∀ e ∈ entries, absolutePos = true ∨ InBlock e.1)
    (hfits : ∀ e ∈ entries, e.2.Fits r itemdef) :
    ∃ l', l'.data = l.data ++ entries.map (readBackEntry itemdef version disk) ∧
      Reader.Reads (readEntries r itemdef version absolutePos entries.length l)
        (entries.flatMap (entryBytes order version disk absolutePos)) l' := by
  induction entries generalizing l with
  | nil => exact ⟨l, (List.append_nil _).symm, Reader.Reads.pure l⟩
  | cons e entries ih =>
    rw [List.forall_mem_cons] at hpos hfits
    rcases List.pairwise_append.1 hsorted with ⟨-, -, hcross⟩
    have habove : ∀ e' ∈ l.data, metaKey e' < metaKey e := fun e' he' =>
      hcross e' he' e List.mem_cons_self
    have hnew : e.1 ∉ l.positions := by
      intro hmem
      rcases List.mem_map.1 hmem with ⟨e', he', hsame⟩
      have hkey : metaKey e' = metaKey e := congrArg posKey hsame
      exact (habove e' he').ne hkey
    have hadd : (l.add e.1 (e.2.readBack itemdef version disk) hnew).data =
        l.data ++ [readBackEntry itemdef version disk e] :=
      insertAt_of_forall_lt habove
    have hsorted' : StrictSorted metaKey
        ((l.add e.1 (e.2.readBack itemdef version disk) hnew).data ++ entries) := by
      -- the order only depends on the positions
      rw [hadd, List.append_assoc]
      have hmap : (List.map metaKey (l.data ++ e :: entries)).Pairwise (· < ·) :=
        List.pairwise_map.2 hsorted
      have hkeys : (l.data ++ ([readBackEntry itemdef version disk e] ++ entries)).map metaKey =
          (l.data ++ e :: entries).map metaKey := by
        simp [metaKey, readBackEntry]
      rw [← hkeys] at hmap
      exact List.pairwise_map.1 hmap
    rcases ih hsorted' hpos.2 hfits.2 with ⟨l', hdata, hreads⟩
    refine ⟨l', ?_, ?_⟩
    · rw [hdata, hadd, List.append_assoc, List.map_cons, List.singleton_append]
    · rw [List.flatMap_cons, entryBytes, List.append_assoc]
      refine (reads_readPos hpos.1).bind ?_
      rw [dif_neg hnew]
      exact (NodeMetadata.reads_bytes hfits.1).bind hreads

theorem mem_of_mem_written (h : e ∈ l.written includeEmpty) : e ∈ l.data :=
  (List.mem_filter.1 h).1

/-- The bytes of a list in a block are read back as what the form keeps. -/
theorem roundTrip (hpos : ∀ e ∈ l.data, InBlock e.1) (hfits : ∀ e ∈ l.data, e.2.Fits r itemdef) :
    ∃ bytes, l.serialize order blockver disk absolutePos includeEmpty = .ok bytes ∧
      ∃ l', Reader.Reads (deSerialize r itemdef absolutePos) bytes l' ∧
        l'.Same (l.kept blockver disk includeEmpty) := by
  have hsorted : StrictSorted metaKey (l.written includeEmpty) :=
    l.sorted.sublist List.filter_sublist
  have hlength : (l.written includeEmpty).length ≤ 4096 := by
    rw [← List.length_map (f := Prod.fst)]
    refine length_le_of_inBlock (nodup_positions hsorted) fun p hp => ?_
    rcases List.mem_map.1 hp with ⟨e, he, rfl⟩
    exact hpos e (mem_of_mem_written he)
  have hcount : (UInt16.ofNat (l.written includeEmpty).length).toNat =
      (l.written includeEmpty).length :=
    UInt16.toNat_ofNat_of_lt' (Nat.lt_of_le_of_lt hlength (by decide))
  rw [serialize, count_eq]
  split
  · rename_i hzero
    have hnil : l.written includeEmpty = [] := by
      rw [← List.length_eq_zero_iff, ← hcount, hzero]
      rfl
    refine ⟨[0], rfl, empty, fun rest => rfl, ?_⟩
    rw [kept, hnil]
    exact List.Forall₂.nil
  · rw [concatM_serializeEntry fun e he => hfits e (mem_of_mem_written he)]
    refine ⟨_, rfl, ?_⟩
    have hread := @reads_readEntries r order itemdef empty (l.written includeEmpty)
      (formatVersion blockver) disk absolutePos hsorted
      (fun e he => .inr (hpos e (mem_of_mem_written he)))
      (fun e he => hfits e (mem_of_mem_written he))
    rcases hread with ⟨l', hdata, hreads⟩
    refine ⟨l', ?_, ?_⟩
    · refine (Reader.reads_readU8 (formatVersion blockver)).bind ?_
      have hversion : formatVersion blockver ≠ 0 ∧ ¬ formatVersion blockver > 2 := by
        rw [formatVersion]
        split <;> decide
      rw [if_neg hversion.1, if_neg hversion.2]
      refine (Reader.reads_readU16 _).bind ?_
      rw [hcount]
      exact hreads
    · rw [Same, hdata, kept, List.forall₂_map_right_iff]
      change List.Forall₂ _ (List.map _ _) _
      rw [List.forall₂_map_left_iff, List.forall₂_same]
      exact fun e _ => ⟨rfl, e.2.readBack_same _ _⟩

/-! ## What a client can see -/

theorem DifferInPrivate.written (h : l.DifferInPrivate l') (includeEmpty : Bool) :
    List.Forall₂ (fun e e' => e.1 = e'.1 ∧ e.2.DifferInPrivate e'.2)
      (l.written includeEmpty) (l'.written includeEmpty) := by
  refine List.rel_filter (fun e e' hee => ?_) h
  dsimp only
  rw [hee.2.empty_eq]

theorem DifferInPrivate.serialize_eq (h : l.DifferInPrivate l') :
    l.serialize order blockver false absolutePos includeEmpty =
      l'.serialize order blockver false absolutePos includeEmpty := by
  have hentries : concatM (serializeEntry order (formatVersion blockver) false absolutePos)
      (l.written includeEmpty) = concatM (serializeEntry order (formatVersion blockver) false
        absolutePos) (l'.written includeEmpty) := by
    refine concatM_congr ((h.written includeEmpty).imp fun e e' hee => ?_)
    rw [serializeEntry, serializeEntry, hee.1, hee.2.serialize_eq]
  rw [serialize, serialize, count_eq, count_eq, (h.written includeEmpty).length_eq, hentries]

end

/-- For the disk and for clients, the list is read back as what the form keeps; and what a client
gets is the same when only values of private variables differ. -/
theorem roundTrip_and_privacy (r : Inventory.Reader) (order : MapOrder) (itemdef : ItemDefManager)
    (l : NodeMetadataList) (hpos : ∀ e ∈ l.data, InBlock e.1)
    (hfits : ∀ e ∈ l.data, e.2.Fits r itemdef) (blockver : UInt8) :
    (∀ disk, ∃ bytes, l.serialize order blockver disk false false = .ok bytes ∧
      ∃ l', Reader.Reads (deSerialize r itemdef false) bytes l' ∧
        l'.Same (l.kept blockver disk false)) ∧
      ∀ l₁ l₂ : NodeMetadataList, l₁.DifferInPrivate l₂ → ∀ absolutePos includeEmpty,
        l₁.serialize order blockver false absolutePos includeEmpty =
          l₂.serialize order blockver false absolutePos includeEmpty :=
  ⟨fun _ => roundTrip hpos hfits, fun _ _ h _ _ => h.serialize_eq⟩

/-- An entry at the corner of a block. -/
def single (m : NodeMetadata) : NodeMetadataList :=
  ⟨[(⟨0, 0, 0⟩, m)], List.pairwise_singleton _ _⟩

theorem inBlock_single {m : NodeMetadata} : ∀ e ∈ (single m).data, InBlock e.1 := by
  intro e he
  rw [List.mem_singleton.1 he]
  have hzero : 0 ≤ (0 : Int16).toInt ∧ (0 : Int16).toInt < 16 := by decide
  exact ⟨hzero, hzero, hzero⟩

/-- A name and a secret, and an inventory. -/
def chest : NodeMetadata where
  stringvars := (AList.singleton (ascii "code") (ascii "1234")).insert (ascii "owner") (ascii "a")
  privatevars := {ascii "code"}
  inventory := oneDescribed

theorem fits_chest : chest.Fits strict .builtin where
  count := by decide
  name := by decide
  value := by decide
  idef := rfl
  named := ⟨by decide, by decide⟩
  lists l hl := by
    rw [List.mem_singleton.1 hl]
    refine ⟨⟨by decide, by decide⟩, fun s hs => ?_⟩
    rcases List.mem_cons.1 hs with rfl | hs
    · exact sendable_described
    · rw [List.mem_singleton.1 hs]
      exact ⟨fun _ => rfl, fun h => absurd rfl h⟩
  readable := by decide

theorem roundTrip_and_privacy_chest :
    (∀ disk, ∃ bytes, (single chest).serialize someOrder 29 disk false false = .ok bytes ∧
      ∃ l', Reader.Reads (deSerialize strict .builtin false) bytes l' ∧
        l'.Same ((single chest).kept 29 disk false)) ∧
      ∀ l₁ l₂ : NodeMetadataList, l₁.DifferInPrivate l₂ → ∀ absolutePos includeEmpty,
        l₁.serialize someOrder 29 false absolutePos includeEmpty =
          l₂.serialize someOrder 29 false absolutePos includeEmpty := by
  refine roundTrip_and_privacy strict someOrder .builtin (single chest) inBlock_single ?_ 29
  intro e he
  rw [List.mem_singleton.1 he]
  exact fits_chest

/-! ## What is lost -/

/-- One variable, which is public, and a mark for a name that is not there. -/
def staleMark : NodeMetadata where
  stringvars := AList.singleton (ascii "owner") (ascii "a")
  privatevars := {ascii "code"}
  inventory := { itemdef := .builtin }

def longName : NodeMetadata where
  stringvars := AList.singleton (List.replicate 65536 0) []
  privatevars := ∅
  inventory := { itemdef := .builtin }

theorem fits_staleMark : staleMark.Fits strict .builtin where
  count := by decide
  name := by decide
  value := by decide
  idef := rfl
  named := Named.empty _
  lists l hl := by cases hl
  readable := rfl

theorem fits_create : (NodeMetadata.create .builtin).Fits strict .builtin where
  count := by decide
  name := by decide
  value := by decide
  idef := rfl
  named := Named.empty _
  lists l hl := by cases hl
  readable := rfl

/-- Whatever is read back from a single entry is what the disk keeps of it. -/
theorem same_kept_of_reads {m : NodeMetadata} (h : m.Fits strict .builtin) {bytes : Bytes}
    {l' : NodeMetadataList} (hbytes : (single m).serialize someOrder 29 true false false = .ok bytes)
    (hreads : Reader.Reads (deSerialize strict .builtin false) bytes l') :
    l'.Same ((single m).kept 29 true false) := by
  have hfits : ∀ e ∈ (single m).data, e.2.Fits strict .builtin := by
    intro e he
    rw [List.mem_singleton.1 he]
    exact h
  rcases @roundTrip strict someOrder .builtin (single m) 29 true false false inBlock_single hfits with
    ⟨bytes', hbytes', l'', hreads', hsame⟩
  rw [hbytes] at hbytes'
  cases hbytes'
  rw [hreads.unique hreads']
  exact hsame

/-- An empty entry is not written, nor is a mark without its variable, and a name of 65536 bytes
cannot be written. -/
theorem not_read_back_equal :
    (∀ bytes l', (single (NodeMetadata.create .builtin)).serialize someOrder 29 true false false =
        .ok bytes → Reader.Reads (deSerialize strict .builtin false) bytes l' →
          ¬ l'.Same (single (NodeMetadata.create .builtin)).data) ∧
      (∀ bytes l', (single staleMark).serialize someOrder 29 true false false = .ok bytes →
        Reader.Reads (deSerialize strict .builtin false) bytes l' →
          ¬ l'.Same (single staleMark).data) ∧
      (single longName).serialize someOrder 29 true false false =
        .error "String too long for serializeString16" := by
  refine ⟨fun bytes l' hbytes hreads hsame => ?_, fun bytes l' hbytes hreads hsame => ?_, ?_⟩
  · have hkept := (same_kept_of_reads fits_create hbytes hreads).length_eq
    have hlength := hsame.length_eq
    rw [hkept] at hlength
    exact absurd hlength (by decide)
  · have hkept := same_kept_of_reads fits_staleMark hbytes hreads
    rcases List.forall₂_cons_right_iff.1 hsame with ⟨e, _, he, -, hdata⟩
    rw [NodeMetadataList.Same, hdata] at hkept
    rcases List.forall₂_cons.1 hkept with ⟨hk, -⟩
    have hmarks := hk.2.marks.symm.trans he.2.marks
    exact absurd hmarks (by decide)
  · have hlong : serializeString16 (List.replicate 65536 0) =
        .error "String too long for serializeString16" := by
      refine if_pos ?_
      rw [List.length_replicate]
      decide
    have hvar : longName.serializeVar 2 ⟨List.replicate 65536 0, []⟩ =
        .error "String too long for serializeString16" := by
      rw [NodeMetadata.serializeVar, hlong]
      rfl
    have hwritten : longName.writtenVars true = [⟨List.replicate 65536 0, []⟩] := rfl
    have hdata : longName.serialize someOrder 2 true =
        .error "String too long for serializeString16" := by
      rw [NodeMetadata.serialize, hwritten, concatM, List.mapM_cons, hvar]
      rfl
    have hentry : serializeEntry someOrder 2 true false (⟨0, 0, 0⟩, longName) =
        .error "String too long for serializeString16" := by
      rw [serializeEntry, hdata]
      rfl
    have hlist : (single longName).written false = [(⟨0, 0, 0⟩, longName)] := rfl
    have hversion : formatVersion 29 = 2 := rfl
    rw [NodeMetadataList.serialize, count_eq, hlist, hversion, concatM, List.mapM_cons, hentry]
    rfl

end NodeMetadataList

end Map
end AxisEngine
