import AxisEngine.Rollback.RollbackManager
import AxisEngine.Lib.Related

/-!
# RevertActions — what comes back from the log

The table of actions has no column for an inventory's location: that of a node comes back from its coordinates,
any other is taken to be the actor's name.

* `NameTable.Sound`, `Stored`, `RollbackManager.Sound` — how names, rows and log belong together;
* `RollbackAction.Kept` — the actions that survive the way through a row;
* `getRevertActions_iff` — the asked-for actions come back, newest first, and unchanged just when they are kept.
-/

namespace AxisEngine
namespace Rollback

open Lib Util Inventory

/-! ## What comes back -/

/-- The place of a change can be reported: an inventory is at a node, a player's or detached. -/
def RollbackAction.WellFormed (a : RollbackAction) : Prop :=
  a.type = .setNode ∨ a.type = .modifyInventoryStack ∧
    ((∃ x y z, a.inventoryLocation = serialize (.nodemeta x y z)) ∨
      (∃ name, a.inventoryLocation = serialize (.player name)) ∨
      ∃ name, a.inventoryLocation = serialize (.detached name))

/-- The same actor, type and time, and the same change -/
structure RollbackAction.Same (a b : RollbackAction) : Prop where
  actor : b.actor = a.actor
  type : b.type = a.type
  unixTime : b.unixTime = a.unixTime
  node : a.type = .setNode → b.p = a.p ∧ b.nOld = a.nOld ∧ b.nNew = a.nNew
  inventory : a.type = .modifyInventoryStack →
    b.inventoryLocation = a.inventoryLocation ∧ b.inventoryList = a.inventoryList ∧
      b.inventoryIndex = a.inventoryIndex ∧ b.inventoryAdd = a.inventoryAdd ∧
      b.inventoryStack.name = a.inventoryStack.name ∧ b.inventoryStack.count = a.inventoryStack.count

/-- No name is cut short, and an inventory that is at no node bears the name of the actor. -/
structure RollbackAction.Kept (a : RollbackAction) : Prop where
  actor : 0 ∉ a.actor
  node : a.type = .setNode → 0 ∉ a.nOld.name ∧ 0 ∉ a.nNew.name
  item : a.type = .modifyInventoryStack → 0 ∉ a.inventoryStack.name
  location : a.type = .modifyInventoryStack →
    (∃ x y z, a.inventoryLocation = serialize (.nodemeta x y z)) ∨ a.inventoryLocation = a.actor

/-- An action and its place in the log -/
abbrev Entry := RollbackAction × ℕ

def Entry.later (e f : Entry) : Bool :=
  f.1.unixTime < e.1.unixTime || (e.1.unixTime = f.1.unixTime && f.2 ≤ e.2)

def Entry.asked (since : ℤ) (actorFilter : Bytes) (e : Entry) : Bool :=
  since ≤ e.1.unixTime && (actorFilter = [] || e.1.actor = actorFilter)

/-- The actions of known actors -/
def recorded (log : List RollbackAction) : List RollbackAction := log.filter (·.actor ≠ [])

/-- The recorded actions since a time, of an actor or of all, newest first -/
def expected (log : List RollbackAction) (since : ℤ) (actorFilter : Bytes) : List RollbackAction :=
  (((recorded log).zipIdx.filter (Entry.asked since actorFilter)).mergeSort Entry.later).map (·.1)

/-! ## Names -/

/-- Numbers and names belong to each other, and a new number is free. -/
structure NameTable.Sound (t : NameTable) : Prop where
  ids : (t.known.map (·.id)).Nodup
  names : (t.known.map (·.name)).Nodup
  bounds : ∀ e ∈ t.known, 0 < e.id ∧ e.id ≤ t.last
  last : 0 ≤ t.last

theorem NameTable.sound_new : NameTable.Sound ⟨[], 0⟩ where
  ids := List.nodup_nil
  names := List.nodup_nil
  bounds := by simp
  last := le_rfl

namespace NameTable.Sound

variable {t : NameTable} {e f : Entity} {name : Bytes}

section

variable (h : t.Sound) (he : e ∈ t.known)

include h he

theorem eq_of_id (hf : f ∈ t.known) (hid : e.id = f.id) : e = f :=
  List.inj_on_of_nodup_map h.ids he hf hid

theorem eq_of_name (hf : f ∈ t.known) (hname : e.name = f.name) : e = f :=
  List.inj_on_of_nodup_map h.names he hf hname

theorem getName_eq : t.getName e.id = cStr e.name := by
  unfold NameTable.getName
  cases hfind : t.known.find? fun f => f.id = e.id with
  | none => exact absurd (List.find?_eq_none.1 hfind e he) (by simp)
  | some f =>
    have hf : f ∈ t.known := List.mem_of_find?_eq_some hfind
    have hid : f.id = e.id := by simpa using List.find?_some hfind
    rw [h.eq_of_id hf he hid]

end

/-- A name has its number afterwards, and the others keep theirs. -/
theorem getId (h : t.Sound) (name : Bytes) :
    (t.getId name).1.Sound ∧ ⟨(t.getId name).2, name⟩ ∈ (t.getId name).1.known ∧
      t.known ⊆ (t.getId name).1.known := by
  unfold NameTable.getId
  cases hfind : t.known.find? fun e => e.name = name with
  | some e =>
    have he : e ∈ t.known := List.mem_of_find?_eq_some hfind
    have hname : e.name = name := by simpa using List.find?_some hfind
    subst hname
    exact ⟨h, he, List.Subset.refl _⟩
  | none =>
    have hnew : ∀ e ∈ t.known, e.name ≠ name := by
      intro e he
      simpa using List.find?_eq_none.1 hfind e he
    refine ⟨⟨?_, ?_, ?_, ?_⟩, by simp, List.subset_append_left _ _⟩
    · rw [List.map_append, List.map_cons, List.map_nil]
      refine h.ids.append (List.nodup_singleton _) ?_
      intro id hid hlast
      rcases List.mem_map.1 hid with ⟨e, he, rfl⟩
      have hbound := (h.bounds e he).2
      have heq : e.id = t.last + 1 := by simpa using hlast
      omega
    · rw [List.map_append, List.map_cons, List.map_nil]
      refine h.names.append (List.nodup_singleton _) ?_
      intro n hn hlast
      rcases List.mem_map.1 hn with ⟨e, he, rfl⟩
      exact hnew e he (by simpa using hlast)
    · intro e he
      have hlast := h.last
      rcases List.mem_append.1 he with he | he
      · have hbound := h.bounds e he
        exact ⟨hbound.1, by simp only; omega⟩
      · rw [List.mem_singleton.1 he]
        exact ⟨by simp only; omega, le_rfl⟩
    · have hlast := h.last
      simp only
      omega

end NameTable.Sound

theorem cStr_eq {name : Bytes} : cStr name = name ↔ 0 ∉ name := by
  unfold cStr
  rw [List.takeWhile_eq_self_iff]
  constructor
  · intro hall hzero
    exact absurd (hall 0 hzero) (by simp)
  · intro hzero b hb
    exact decide_eq_true fun heq => hzero (heq ▸ hb)

/-! ## The location of a node -/

theorem find_behind (front rest : Bytes) {part : Bytes} {c : UInt8} (h : c ∉ part) :
    find (front ++ part ++ c :: rest) c front.length = some (front.length + part.length) := by
  have hdrop : (front ++ part ++ c :: rest).drop front.length = part ++ c :: rest := by simp
  have hindex : (part ++ c :: rest).findIdx? (· = c) = some part.length := by
    rw [List.findIdx?_append, List.findIdx?_eq_none_iff.2]
    · simp [List.findIdx?_cons]
    · intro b hb
      exact decide_eq_false fun heq => h (heq ▸ hb)
  unfold find
  rw [hdrop, hindex, Option.map_some]

theorem slice_behind (front part rest : Bytes) :
    slice (front ++ part ++ rest) front.length (some (front.length + part.length)) = part := by
  simp [slice, List.append_assoc]

theorem comma_not_mem_itos (i : Int32) : 44 ∉ itos i := by
  intro h
  rcases mem_itos h with h | h
  · exact absurd h (by decide)
  · exact absurd h (by decide)

theorem isNodeMeta_nodemeta (x y z : Int16) : isNodeMeta (serialize (.nodemeta x y z)) = true := by
  have hlength : (ascii "nodemeta:").length = 9 := rfl
  have htake : (serialize (.nodemeta x y z)).take 9 = ascii "nodemeta:" := by
    simp only [serialize, List.append_assoc]
    rw [← hlength, List.take_left]
  rw [isNodeMeta, htake, decide_eq_true rfl]

theorem isNodeMeta_player (name : Bytes) : isNodeMeta (serialize (.player name)) = false := by
  refine decide_eq_false fun h => ?_
  cases h

theorem isNodeMeta_detached (name : Bytes) : isNodeMeta (serialize (.detached name)) = false := by
  refine decide_eq_false fun h => ?_
  cases h

/-- The three scans of the location find its three numbers. -/
theorem coordinates_nodemeta (x y z : Int16) :
    coordinates (serialize (.nodemeta x y z)) = (x.toInt32, y.toInt32, z.toInt32) := by
  let start := ascii "nodemeta:"
  let X := itos x.toInt32
  let Y := itos y.toInt32
  let Z := itos z.toInt32
  have hloc : serialize (.nodemeta x y z) = start ++ X ++ 44 :: (Y ++ 44 :: Z) := by
    simp only [serialize, List.append_assoc]
    rfl
  have hcolon : find (start ++ X ++ 44 :: (Y ++ 44 :: Z)) 58 0 = some 8 := by
    have hno : (58 : UInt8) ∉ ascii "nodemeta" := by decide
    exact find_behind [] (X ++ 44 :: (Y ++ 44 :: Z)) hno
  have hfirst : find (start ++ X ++ 44 :: (Y ++ 44 :: Z)) 44 0 = some (start ++ X).length := by
    have hno : 44 ∉ start ++ X := by
      intro h
      rcases List.mem_append.1 h with h | h
      · exact absurd h (by decide)
      · exact comma_not_mem_itos _ h
    have h := find_behind [] (Y ++ 44 :: Z) hno
    rwa [List.nil_append, List.length_nil, Nat.zero_add] at h
  have hsecond : find (start ++ X ++ 44 :: (Y ++ 44 :: Z)) 44 ((start ++ X).length + 1) =
      some ((start ++ X).length + 1 + Y.length) := by
    have h := find_behind (start ++ X ++ [44]) Z (comma_not_mem_itos y.toInt32)
    simpa [List.append_assoc, Nat.add_assoc, Y] using h
  have hx : slice (start ++ X ++ 44 :: (Y ++ 44 :: Z)) 9 (some (start ++ X).length) = X := by
    have h := slice_behind start X (44 :: (Y ++ 44 :: Z))
    rwa [← List.length_append] at h
  have hy : slice (start ++ X ++ 44 :: (Y ++ 44 :: Z)) ((start ++ X).length + 1)
      (some ((start ++ X).length + 1 + Y.length)) = Y := by
    have h := slice_behind (start ++ X ++ [44]) Y (44 :: Z)
    simpa [List.append_assoc, Nat.add_assoc] using h
  have hz : (start ++ X ++ 44 :: (Y ++ 44 :: Z)).drop ((start ++ X).length + 1 + Y.length + 1) = Z := by
    have hsplit : start ++ X ++ 44 :: (Y ++ 44 :: Z) = (start ++ X ++ [44] ++ Y ++ [44]) ++ Z := by
      simp [List.append_assoc]
    have hlength : (start ++ X).length + 1 + Y.length + 1 = (start ++ X ++ [44] ++ Y ++ [44]).length := by
      simp only [List.length_append, List.length_cons, List.length_nil]
    rw [hsplit, hlength, List.drop_left]
  rw [hloc]
  simp only [coordinates, hcolon, hfirst, behind, hsecond, hx, hy, hz]
  exact Prod.ext (atoi_itos _) (Prod.ext (atoi_itos _) (atoi_itos _))

/-! ## Rows -/

section Columns

variable (b : Bindings) {r : ActionRow}

theorem bindRow_head :
    bindRow b r 1 = .int r.actor ∧ bindRow b r 2 = .int r.timestamp ∧ bindRow b r 3 = .int r.type := by
  unfold bindRow
  split_ifs <;> simp [Bindings.bind]

/-- What is bound for an inventory, whatever was bound before -/
theorem bindRow_inventory (h : r.type = ActionType.modifyInventoryStack.toInt) :
    bindRow b r 4 = .text r.list ∧ bindRow b r 5 = .int r.index ∧ bindRow b r 6 = .int r.add ∧
      bindRow b r 7 = .int r.stackId ∧ bindRow b r 8 = .int r.stack.count.toNat ∧
      bindRow b r 9 = .int (if isNodeMeta r.location then 1 else 0) := by
  have hnot : r.type ≠ ActionType.setNode.toInt := by
    rw [h]
    decide
  unfold bindRow
  simp only [h, if_neg (h ▸ hnot), if_true, true_and]
  split_ifs <;> simp [Bindings.bind]

theorem bindRow_nodeMeta (h : r.type = ActionType.modifyInventoryStack.toInt)
    (hmeta : isNodeMeta r.location = true) :
    bindRow b r 10 = .int (coordinates r.location).1.toInt ∧
      bindRow b r 11 = .int (coordinates r.location).2.1.toInt ∧
      bindRow b r 12 = .int (coordinates r.location).2.2.toInt := by
  have hnot : r.type ≠ ActionType.setNode.toInt := by
    rw [h]
    decide
  unfold bindRow
  simp only [h, if_neg (h ▸ hnot), if_true, true_and, hmeta]
  simp [Bindings.bind]

theorem bindRow_node (h : r.type = ActionType.setNode.toInt) :
    bindRow b r 10 = .int r.x ∧ bindRow b r 11 = .int r.y ∧ bindRow b r 12 = .int r.z ∧
      bindRow b r 13 = .int r.oldNode ∧ bindRow b r 14 = .int r.oldParam1 ∧
      bindRow b r 15 = .int r.oldParam2 ∧ bindRow b r 16 = .text r.oldMeta ∧
      bindRow b r 17 = .int r.newNode ∧ bindRow b r 18 = .int r.newParam1 ∧
      bindRow b r 19 = .int r.newParam2 ∧ bindRow b r 20 = .text r.newMeta := by
  unfold bindRow
  simp only [h, if_true]
  simp [Bindings.bind]

end Columns

/-- A row in memory is one of this action. -/
structure Described (actors nodes : List Entity) (a : RollbackAction) (r : ActionRow) : Prop where
  id : r.id = 0
  actor : ⟨r.actor, a.actor⟩ ∈ actors
  timestamp : r.timestamp = a.unixTime
  type : r.type = a.type.toInt
  inventory : a.type = .modifyInventoryStack →
    r.location = a.inventoryLocation ∧ r.list = a.inventoryList ∧ r.index = a.inventoryIndex.toInt32.toInt ∧
      r.add = (if a.inventoryAdd then 1 else 0) ∧ r.stack.count = a.inventoryStack.count ∧
      ⟨r.stackId, a.inventoryStack.name⟩ ∈ nodes
  node : a.type = .setNode →
    (r.x = a.p.x.toInt ∧ r.y = a.p.y.toInt ∧ r.z = a.p.z.toInt) ∧
      (⟨r.oldNode, a.nOld.name⟩ ∈ nodes ∧ r.oldParam1 = a.nOld.param1 ∧ r.oldParam2 = a.nOld.param2 ∧
        r.oldMeta = a.nOld.metadata) ∧
      ⟨r.newNode, a.nNew.name⟩ ∈ nodes ∧ r.newParam1 = a.nNew.param1 ∧ r.newParam2 = a.nNew.param2 ∧
        r.newMeta = a.nNew.metadata

/-- A row in the database is that of an entry. -/
def Stored (actors nodes : List Entity) (e : Entry) (row : DbRow) : Prop :=
  row.id = e.2 + 1 ∧ ∃ b r, Described actors nodes e.1 r ∧ row.columns = bindRow b r

variable {actors nodes actors' nodes' : List Entity}

theorem Described.mono {a : RollbackAction} {r : ActionRow} (h : Described actors nodes a r)
    (hactors : actors ⊆ actors') (hnodes : nodes ⊆ nodes') :
    Described actors' nodes' a r where
  id := h.id
  actor := hactors h.actor
  timestamp := h.timestamp
  type := h.type
  inventory := by
    intro htype
    rcases h.inventory htype with ⟨hloc, hlist, hindex, hadd, hcount, hname⟩
    exact ⟨hloc, hlist, hindex, hadd, hcount, hnodes hname⟩
  node := by
    intro htype
    rcases h.node htype with ⟨hp, ⟨hold, holds⟩, hnew, hnews⟩
    exact ⟨hp, ⟨hnodes hold, holds⟩, hnodes hnew, hnews⟩

theorem Stored.mono {e : Entry} {row : DbRow} (h : Stored actors nodes e row) (hactors : actors ⊆ actors')
    (hnodes : nodes ⊆ nodes') : Stored actors' nodes' e row := by
  rcases h with ⟨hid, b, r, hr, hcolumns⟩
  exact ⟨hid, b, r, hr.mono hactors hnodes, hcolumns⟩

/-! ## A row is read -/

/-- The location as it is put together again -/
def restoredLocation (loc actorName : Bytes) : Bytes :=
  if isNodeMeta loc then
    ascii "nodemeta:" ++ itos (coordinates loc).1 ++ ascii "," ++ itos (coordinates loc).2.1 ++ ascii "," ++
      itos (coordinates loc).2.2
  else actorName

theorem restoredLocation_nodemeta (x y z : Int16) (actorName : Bytes) :
    restoredLocation (serialize (.nodemeta x y z)) actorName = serialize (.nodemeta x y z) := by
  rw [restoredLocation, if_pos (isNodeMeta_nodemeta x y z), coordinates_nodemeta]
  rfl

section Read

variable (s : RollbackManager) (id : ℤ) (b : Bindings) {r : ActionRow}

theorem actionRow_head : (s.actionRow ⟨id, bindRow b r⟩).actor = r.actor ∧
    (s.actionRow ⟨id, bindRow b r⟩).timestamp = r.timestamp ∧
    (s.actionRow ⟨id, bindRow b r⟩).type = r.type := by
  rcases bindRow_head b (r := r) with ⟨hactor, htime, htype⟩
  unfold RollbackManager.actionRow
  simp only [Nat.reduceAdd, Nat.zero_add, hactor, htime, htype, Value.toInt]
  split_ifs <;> exact ⟨rfl, rfl, rfl⟩

theorem actionRow_inventory (h : r.type = ActionType.modifyInventoryStack.toInt) :
    (s.actionRow ⟨id, bindRow b r⟩).list = r.list ∧ (s.actionRow ⟨id, bindRow b r⟩).index = r.index ∧
      (s.actionRow ⟨id, bindRow b r⟩).add = r.add ∧ (s.actionRow ⟨id, bindRow b r⟩).stackId = r.stackId ∧
      (s.actionRow ⟨id, bindRow b r⟩).stack = { ItemStack.cleared with count := r.stack.count } ∧
      (s.actionRow ⟨id, bindRow b r⟩).location = restoredLocation r.location (s.getActorName r.actor) := by
  rcases bindRow_head b (r := r) with ⟨hactor, htime, htype⟩
  rcases bindRow_inventory b h with ⟨hlist, hindex, hadd, hstack, hcount, hmeta⟩
  have hnot : r.type ≠ ActionType.setNode.toInt := by
    rw [h]
    decide
  unfold RollbackManager.actionRow
  simp only [Nat.reduceAdd, Nat.zero_add, hactor, htime, htype, hlist, hindex, hadd, hstack, hcount, hmeta,
    Value.toInt, Value.toText, h, if_true, if_neg (h ▸ hnot), Int.toNat_natCast, UInt16.ofNat_toNat]
  refine ⟨trivial, trivial, trivial, trivial, trivial, ?_⟩
  unfold restoredLocation
  by_cases hnode : isNodeMeta r.location = true
  · rcases bindRow_nodeMeta b h hnode with ⟨hx, hy, hz⟩
    simp [hnode, hx, hy, hz]
  · simp [hnode]

theorem actionRow_node (h : r.type = ActionType.setNode.toInt) :
    ((s.actionRow ⟨id, bindRow b r⟩).x = r.x ∧ (s.actionRow ⟨id, bindRow b r⟩).y = r.y ∧
        (s.actionRow ⟨id, bindRow b r⟩).z = r.z) ∧
      ((s.actionRow ⟨id, bindRow b r⟩).oldNode = r.oldNode ∧
        (s.actionRow ⟨id, bindRow b r⟩).oldParam1 = r.oldParam1 ∧
        (s.actionRow ⟨id, bindRow b r⟩).oldParam2 = r.oldParam2 ∧
        (s.actionRow ⟨id, bindRow b r⟩).oldMeta = r.oldMeta) ∧
      (s.actionRow ⟨id, bindRow b r⟩).newNode = r.newNode ∧
        (s.actionRow ⟨id, bindRow b r⟩).newParam1 = r.newParam1 ∧
        (s.actionRow ⟨id, bindRow b r⟩).newParam2 = r.newParam2 ∧
        (s.actionRow ⟨id, bindRow b r⟩).newMeta = r.newMeta := by
  rcases bindRow_head b (r := r) with ⟨hactor, htime, htype⟩
  rcases bindRow_node b h with ⟨hx, hy, hz, holdNode, hold1, hold2, holdMeta, hnewNode, hnew1, hnew2, hnewMeta⟩
  have hnot : ¬ ActionType.setNode.toInt = ActionType.modifyInventoryStack.toInt := by decide
  unfold RollbackManager.actionRow
  simp [htype, h, hnot, hx, hy, hz, holdNode, hold1, hold2, holdMeta, hnewNode, hnew1, hnew2, hnewMeta,
    Value.toInt, Value.toText]

end Read

section Restore

variable {s : RollbackManager} {e : Entry} {row : DbRow}

theorem actor_restored (hactors : s.actors.Sound) {id : ℤ} {name : Bytes}
    (h : ⟨id, name⟩ ∈ s.actors.known) : (if id ≠ 0 then s.getActorName id else []) = cStr name := by
  have hpos : 0 < id := (hactors.bounds _ h).1
  rw [if_pos hpos.ne']
  exact hactors.getName_eq h

section

variable (hactors : s.actors.Sound) (hnodes : s.nodes.Sound) (h : Stored s.actors.known s.nodes.known e row)

include hactors hnodes h

/-- What an inventory change comes back as -/
theorem restore_inventory (htype : e.1.type = .modifyInventoryStack) :
    ∃ a, s.rollbackAction (s.actionRow row) = some a ∧ a.actor = cStr e.1.actor ∧
      a.type = .modifyInventoryStack ∧ a.unixTime = e.1.unixTime ∧
      a.inventoryLocation = restoredLocation e.1.inventoryLocation (cStr e.1.actor) ∧
      a.inventoryList = e.1.inventoryList ∧ a.inventoryIndex = e.1.inventoryIndex ∧
      a.inventoryAdd = e.1.inventoryAdd ∧ a.inventoryStack.name = cStr e.1.inventoryStack.name ∧
      a.inventoryStack.count = e.1.inventoryStack.count := by
  rcases row with ⟨id, columns⟩
  rcases h with ⟨-, b, r, hr, hcolumns⟩
  have hcolumns : columns = bindRow b r := hcolumns
  subst hcolumns
  rcases hr.inventory htype with ⟨hloc, hlist, hindex, hadd, hcount, hname⟩
  have hrtype : r.type = ActionType.modifyInventoryStack.toInt := by rw [hr.type, htype]
  rcases actionRow_head s id b (r := r) with ⟨rdActor, rdTime, rdType⟩
  rcases actionRow_inventory s id b hrtype with
    ⟨rdList, rdIndex, rdAdd, rdStackId, rdStack, rdLocation⟩
  have hactor : s.getActorName r.actor = cStr e.1.actor := hactors.getName_eq hr.actor
  have hitem : s.getNodeName r.stackId = cStr e.1.inventoryStack.name := hnodes.getName_eq hname
  unfold RollbackManager.rollbackAction
  rw [rdType, hrtype, if_pos rfl]
  refine ⟨_, rfl, ?_, rfl, ?_, ?_, ?_, ?_, ?_, ?_, ?_⟩
  · simp only [rdActor]
    exact actor_restored hactors hr.actor
  · simp only [rdTime, hr.timestamp]
  · simp only [rdLocation, hloc, hactor]
  · simp only [rdList, hlist]
  · simp only [rdIndex, hindex, Int32.ofInt_toInt, UInt32.toUInt32_toInt32]
  · simp only [rdAdd, hadd]
    cases e.1.inventoryAdd <;> rfl
  · simp only [rdStack, rdStackId, hitem, ItemStack.cleared, if_true]
  · simp only [rdStack, ItemStack.cleared, if_true, hcount]

theorem restore_node (htype : e.1.type = .setNode) :
    ∃ a, s.rollbackAction (s.actionRow row) = some a ∧ a.actor = cStr e.1.actor ∧ a.type = .setNode ∧
      a.unixTime = e.1.unixTime ∧ a.p = e.1.p ∧
      a.nOld = { e.1.nOld with name := cStr e.1.nOld.name } ∧
      a.nNew = { e.1.nNew with name := cStr e.1.nNew.name } := by
  rcases row with ⟨id, columns⟩
  rcases h with ⟨-, b, r, hr, hcolumns⟩
  have hcolumns : columns = bindRow b r := hcolumns
  subst hcolumns
  rcases hr.node htype with ⟨⟨hx, hy, hz⟩, ⟨hold, hold1, hold2, hold3⟩, hnew, hnew1, hnew2, hnew3⟩
  have hrtype : r.type = ActionType.setNode.toInt := by rw [hr.type, htype]
  have hnot : ¬ ActionType.setNode.toInt = ActionType.modifyInventoryStack.toInt := by decide
  rcases actionRow_head s id b (r := r) with ⟨rdActor, rdTime, rdType⟩
  rcases actionRow_node s id b hrtype with
    ⟨⟨rdX, rdY, rdZ⟩, ⟨rdOld, rdOld1, rdOld2, rdOld3⟩, rdNew, rdNew1, rdNew2, rdNew3⟩
  have hOldName : s.getNodeName r.oldNode = cStr e.1.nOld.name := hnodes.getName_eq hold
  have hNewName : s.getNodeName r.newNode = cStr e.1.nNew.name := hnodes.getName_eq hnew
  unfold RollbackManager.rollbackAction
  rw [rdType, hrtype, if_neg hnot, if_pos rfl]
  refine ⟨_, rfl, ?_, rfl, ?_, ?_, ?_, ?_⟩
  · simp only [rdActor]
    exact actor_restored hactors hr.actor
  · simp only [rdTime, hr.timestamp]
  · simp only [rdX, rdY, rdZ, hx, hy, hz, Int16.ofInt_toInt]
  · simp only [rdOld, rdOld1, rdOld2, rdOld3, hOldName, hold1, hold2, hold3]
  · simp only [rdNew, rdNew1, rdNew2, rdNew3, hNewName, hnew1, hnew2, hnew3]

end

theorem isNodeMeta_of_eq {a : RollbackAction} (hwell : a.WellFormed) (htype : a.type = .modifyInventoryStack)
    (h : ¬ ∃ x y z, a.inventoryLocation = serialize (.nodemeta x y z)) :
    isNodeMeta a.inventoryLocation = false := by
  rcases hwell with hnode | ⟨-, hwhere | ⟨name, hname⟩ | ⟨name, hname⟩⟩
  · rw [htype] at hnode
    cases hnode
  · exact absurd hwhere h
  · rw [hname]
    exact isNodeMeta_player name
  · rw [hname]
    exact isNodeMeta_detached name

/-- The location comes back just when it is that of a node or the actor's. -/
theorem restoredLocation_eq_iff {a : RollbackAction} (hwell : a.WellFormed)
    (htype : a.type = .modifyInventoryStack) :
    restoredLocation a.inventoryLocation a.actor = a.inventoryLocation ↔
      (∃ x y z, a.inventoryLocation = serialize (.nodemeta x y z)) ∨ a.inventoryLocation = a.actor := by
  by_cases hnode : ∃ x y z, a.inventoryLocation = serialize (.nodemeta x y z)
  · have hsame : restoredLocation a.inventoryLocation a.actor = a.inventoryLocation := by
      rcases hnode with ⟨x, y, z, hloc⟩
      rw [hloc, restoredLocation_nodemeta]
    exact ⟨fun _ => .inl hnode, fun _ => hsame⟩
  · have hactor : restoredLocation a.inventoryLocation a.actor = a.actor := by
      rw [restoredLocation, isNodeMeta_of_eq hwell htype hnode]
      rfl
    rw [hactor]
    constructor
    · exact fun heq => .inr heq.symm
    · rintro (hloc | hloc)
      · exact absurd hloc hnode
      · exact hloc.symm

/-- An entry is read back, and it is the same action just when it is kept. -/
theorem restore_iff (hactors : s.actors.Sound) (hnodes : s.nodes.Sound)
    (h : Stored s.actors.known s.nodes.known e row) (hwell : e.1.WellFormed) :
    ∃ a, s.rollbackAction (s.actionRow row) = some a ∧ (e.1.Same a ↔ e.1.Kept) := by
  cases htype : e.1.type with
  | nothing =>
    rcases hwell with hnode | ⟨hinv, -⟩
    · rw [htype] at hnode
      cases hnode
    · rw [htype] at hinv
      cases hinv
  | setNode =>
    have hno : e.1.type ≠ .modifyInventoryStack := by
      rw [htype]
      decide
    rcases restore_node hactors hnodes h htype with ⟨a, ha, hactor, hatype, htime, hp, hold, hnew⟩
    refine ⟨a, ha, ?_⟩
    constructor
    · intro hsame
      rcases hsame.node htype with ⟨-, hold', hnew'⟩
      have holdName : cStr e.1.nOld.name = e.1.nOld.name := congrArg (·.name) (hold.symm.trans hold')
      have hnewName : cStr e.1.nNew.name = e.1.nNew.name := congrArg (·.name) (hnew.symm.trans hnew')
      exact ⟨cStr_eq.1 (hactor.symm.trans hsame.actor), fun _ => ⟨cStr_eq.1 holdName, cStr_eq.1 hnewName⟩,
        fun hinv => absurd hinv hno, fun hinv => absurd hinv hno⟩
    · intro hkept
      rcases hkept.node htype with ⟨holdName, hnewName⟩
      refine ⟨hactor.trans (cStr_eq.2 hkept.actor), hatype.trans htype.symm, htime, fun _ => ⟨hp, ?_, ?_⟩,
        fun hinv => absurd hinv hno⟩
      · rw [hold, cStr_eq.2 holdName]
      · rw [hnew, cStr_eq.2 hnewName]
  | modifyInventoryStack =>
    have hno : e.1.type ≠ .setNode := by
      rw [htype]
      decide
    rcases restore_inventory hactors hnodes h htype with
      ⟨a, ha, hactor, hatype, htime, hloc, hlist, hindex, hadd, hname, hcount⟩
    refine ⟨a, ha, ?_⟩
    constructor
    · intro hsame
      rcases hsame.inventory htype with ⟨hloc', -, -, -, hname', -⟩
      have hwho : cStr e.1.actor = e.1.actor := hactor.symm.trans hsame.actor
      refine ⟨cStr_eq.1 hwho, fun hnode => absurd hnode hno, fun _ => cStr_eq.1 (hname.symm.trans hname'),
        fun _ => ?_⟩
      rw [hwho] at hloc
      exact (restoredLocation_eq_iff hwell htype).1 (hloc.symm.trans hloc')
    · intro hkept
      have hwho : cStr e.1.actor = e.1.actor := cStr_eq.2 hkept.actor
      rw [hwho] at hloc
      exact ⟨hactor.trans hwho, hatype.trans htype.symm, htime, fun hnode => absurd hnode hno, fun _ =>
        ⟨hloc.trans ((restoredLocation_eq_iff hwell htype).2 (hkept.location htype)), hlist, hindex, hadd,
          hname.trans (cStr_eq.2 (hkept.item htype)), hcount⟩⟩

end Restore

/-! ## The log is written -/

/-- The names are in their tables, and the rows are those of the log. -/
structure RollbackManager.Sound (s : RollbackManager) (log : List RollbackAction) : Prop where
  actors : s.actors.Sound
  nodes : s.nodes.Sound
  last : s.lastAction = log.length
  rows : List.Forall₂ (Stored s.actors.known s.nodes.known) log.zipIdx s.actions

variable {s : RollbackManager} {log : List RollbackAction}

/-- The names of an action get their numbers, and nothing else changes. -/
theorem actionRowFromRollbackAction_spec (hactors : s.actors.Sound) (hnodes : s.nodes.Sound)
    (a : RollbackAction) :
    let t := (s.actionRowFromRollbackAction a).1
    t.actors.Sound ∧ t.nodes.Sound ∧ s.actors.known ⊆ t.actors.known ∧ s.nodes.known ⊆ t.nodes.known ∧
      Described t.actors.known t.nodes.known a (s.actionRowFromRollbackAction a).2 ∧
      t.actions = s.actions ∧ t.lastAction = s.lastAction ∧
      t.actionTodiskBuffer = s.actionTodiskBuffer := by
  rcases hactors.getId a.actor with ⟨hsound, hmem, hsub⟩
  unfold RollbackManager.actionRowFromRollbackAction
  by_cases htype : a.type = .modifyInventoryStack
  · rcases hnodes.getId a.inventoryStack.name with ⟨nsound, nmem, nsub⟩
    have hno : a.type ≠ .setNode := by
      rw [htype]
      decide
    simp only [if_pos htype, RollbackManager.getActorId, RollbackManager.getNodeId]
    refine ⟨hsound, nsound, hsub, nsub, ?_, trivial, trivial, trivial⟩
    exact ⟨rfl, hmem, rfl, rfl, fun _ => ⟨rfl, rfl, rfl, rfl, rfl, nmem⟩, fun hnode => absurd hnode hno⟩
  · rcases hnodes.getId a.nOld.name with ⟨osound, omem, osub⟩
    rcases osound.getId a.nNew.name with ⟨nsound, nmem, nsub⟩
    simp only [if_neg htype, RollbackManager.getActorId, RollbackManager.getNodeId]
    refine ⟨hsound, nsound, hsub, List.Subset.trans osub nsub, ?_, trivial, trivial, trivial⟩
    exact ⟨rfl, hmem, rfl, rfl, fun hinv => absurd hinv htype, fun _ =>
      ⟨⟨rfl, rfl, rfl⟩, ⟨nsub omem, rfl, rfl, rfl⟩, nmem, rfl, rfl, rfl⟩⟩

theorem write_sound (h : s.Sound log) (a : RollbackAction) :
    (s.write a).Sound (log ++ recorded [a]) ∧
      (s.write a).actionTodiskBuffer = s.actionTodiskBuffer := by
  unfold RollbackManager.write
  by_cases hactor : a.actor = []
  · have hnone : recorded [a] = [] := by simp [recorded, hactor]
    rw [if_pos hactor, hnone, List.append_nil]
    exact ⟨h, rfl⟩
  · have hone : recorded [a] = [a] := by simp [recorded, hactor]
    rcases actionRowFromRollbackAction_spec h.actors h.nodes a with
      ⟨hactors, hnodes, hsub, nsub, hdescribed, hactions, hlast, htodisk⟩
    rw [if_neg hactor, hone]
    simp only [RollbackManager.registerRow, hdescribed.id, ne_eq, not_true_eq_false, if_false]
    refine ⟨⟨hactors, hnodes, ?_, ?_⟩, htodisk⟩
    · rw [List.length_append, List.length_singleton, hlast, h.last]
      rfl
    · simp only [hactions, List.zipIdx_append, Nat.zero_add]
      refine List.rel_append (h.rows.imp fun e row hrow => hrow.mono hsub nsub) (.cons ⟨?_, ?_⟩ .nil)
      · simp only [hlast, h.last]
      · exact ⟨_, _, hdescribed, rfl⟩

theorem recorded_append (log log' : List RollbackAction) :
    recorded (log ++ log') = recorded log ++ recorded log' := List.filter_append _ _

theorem foldl_write_sound (h : s.Sound log) (actions : List RollbackAction) :
    (actions.foldl RollbackManager.write s).Sound (log ++ recorded actions) := by
  induction actions generalizing s log with
  | nil => simpa [recorded] using h
  | cons a actions ih =>
    have hfirst := (write_sound h a).1
    have hrest := ih hfirst
    have hsplit : recorded (a :: actions) = recorded [a] ++ recorded actions := recorded_append [a] actions
    rw [hsplit, ← List.append_assoc]
    exact hrest

theorem flush_sound (h : s.Sound log) : s.flush.Sound (log ++ recorded s.actionTodiskBuffer) := by
  have hwritten := foldl_write_sound h s.actionTodiskBuffer
  exact ⟨hwritten.actors, hwritten.nodes, hwritten.last, hwritten.rows⟩

/-! ## Runs -/

/-- What is done with the log -/
inductive Op
  | addAction (a : RollbackAction)
  | flush
  | getRevertActions (curTime : ℤ) (actorFilter : Bytes) (seconds : ℤ)

def Op.apply (s : RollbackManager) : Op → RollbackManager
  | .addAction a => s.addAction a
  | .flush => s.flush
  | .getRevertActions curTime actorFilter seconds => (s.getRevertActions curTime actorFilter seconds).1

def run (ops : List Op) : RollbackManager := ops.foldl Op.apply .new

def Op.added : Op → List RollbackAction
  | .addAction a => [a]
  | _ => []

/-- What was added in a run -/
def added (ops : List Op) : List RollbackAction := ops.flatMap Op.added

/-- What was added is written, or waits to be written. -/
def Logged (s : RollbackManager) (log : List RollbackAction) : Prop :=
  ∃ before, s.Sound (recorded before) ∧ before ++ s.actionTodiskBuffer = log

theorem logged_flush (h : Logged s log) : s.flush.Sound (recorded log) ∧ Logged s.flush log := by
  rcases h with ⟨before, hsound, hlog⟩
  have hflush : s.flush.Sound (recorded log) := by
    rw [← hlog, recorded_append]
    exact flush_sound hsound
  exact ⟨hflush, log, hflush, by simp [RollbackManager.flush]⟩

theorem sound_getActorId (h : s.Sound log) (name : Bytes) : (s.getActorId name).1.Sound log := by
  rcases h.actors.getId name with ⟨hsound, -, hsub⟩
  exact ⟨hsound, h.nodes, h.last, h.rows.imp fun e row hrow => hrow.mono hsub (List.Subset.refl _)⟩

theorem logged_step (h : Logged s log) (op : Op) : Logged (op.apply s) (log ++ op.added) := by
  cases op with
  | addAction a =>
    let t : RollbackManager := { s with
      actionTodiskBuffer := s.actionTodiskBuffer ++ [a]
      actionLatestBuffer := s.actionLatestBuffer ++ [a] }
    have ht : Logged t (log ++ [a]) := by
      rcases h with ⟨before, hsound, hlog⟩
      refine ⟨before, ⟨hsound.actors, hsound.nodes, hsound.last, hsound.rows⟩, ?_⟩
      rw [← hlog, List.append_assoc]
    -- the buffer of the latest actions is not looked at
    have hlatest : ∀ (u : RollbackManager) (latest : List RollbackAction), Logged u (log ++ [a]) →
        Logged { u with actionLatestBuffer := latest } (log ++ [a]) := by
      rintro u latest ⟨before, hsound, hlog⟩
      exact ⟨before, ⟨hsound.actors, hsound.nodes, hsound.last, hsound.rows⟩, hlog⟩
    show Logged (s.addAction a) (log ++ [a])
    unfold RollbackManager.addAction
    refine hlatest _ _ ?_
    split
    · exact (logged_flush ht).2
    · exact ht
  | flush =>
    have hnone : log ++ Op.added .flush = log := List.append_nil log
    rw [hnone]
    exact (logged_flush h).2
  | getRevertActions curTime actorFilter seconds =>
    have hnone : log ++ Op.added (.getRevertActions curTime actorFilter seconds) = log := List.append_nil log
    have hflush := logged_flush h
    rw [hnone]
    show Logged (s.flush.getActionsSince (curTime - seconds) actorFilter).1 log
    unfold RollbackManager.getActionsSince RollbackManager.getRowsSince
    by_cases hall : actorFilter = []
    · simpa only [hall, if_true] using hflush.2
    · simp only [hall, if_false]
      exact ⟨log, sound_getActorId hflush.1 actorFilter, by
        simp [RollbackManager.getActorId, RollbackManager.flush]⟩

theorem sound_new : RollbackManager.new.Sound [] where
  actors := NameTable.sound_new
  nodes := NameTable.sound_new
  last := rfl
  rows := .nil

theorem logged_run (ops : List Op) : Logged (run ops) (added ops) := by
  induction ops using List.reverseRecOn with
  | nil => exact ⟨[], sound_new, rfl⟩
  | append_singleton ops op ih =>
    have hadded : added (ops ++ [op]) = added ops ++ op.added := by simp [added]
    have hrun : run (ops ++ [op]) = op.apply (run ops) := by simp [run]
    rw [hadded, hrun]
    exact logged_step ih op

/-! ## The answer -/

section Answer

variable {s : RollbackManager} {log : List RollbackAction}

variable {actors nodes : List Entity}

theorem stored_time {e : Entry} {row : DbRow} (h : Stored actors nodes e row) :
    (row.columns 2).toInt = e.1.unixTime := by
  rcases h with ⟨-, b, r, hr, hcolumns⟩
  rw [hcolumns, (bindRow_head b).2.1, Value.toInt, hr.timestamp]

/-- Rows are sorted as their entries are. -/
theorem later_eq {e e' : Entry} {row row' : DbRow} (h : Stored actors nodes e row)
    (h' : Stored actors nodes e' row') : Entry.later e e' = RollbackManager.later row row' := by
  unfold Entry.later RollbackManager.later
  simp only [stored_time h, stored_time h', h.1, h'.1]
  congr 2
  simp

/-- A row has the number of an actor just when the entry has its name. -/
theorem stored_actor {e : Entry} {row : DbRow} (hactors : s.actors.Sound)
    (h : Stored s.actors.known s.nodes.known e row) {id : ℤ} {name : Bytes}
    (hname : ⟨id, name⟩ ∈ s.actors.known) : (row.columns 1).toInt = id ↔ e.1.actor = name := by
  rcases h with ⟨-, b, r, hr, hcolumns⟩
  rw [hcolumns, (bindRow_head b).1, Value.toInt]
  constructor
  · intro hid
    exact congrArg Entity.name (hactors.eq_of_id hr.actor hname hid)
  · intro heq
    exact congrArg Entity.id (hactors.eq_of_name hr.actor hname heq)

/-- The selected rows are those of the asked-for entries, in their order. -/
theorem getRowsSince_spec (h : s.Sound log) (since : ℤ) (actorFilter : Bytes) :
    ∃ (t : RollbackManager) (rows : List DbRow), s.getRowsSince since actorFilter = (t, rows.map t.actionRow) ∧
      t.actors.Sound ∧ t.nodes.Sound ∧
      List.Forall₂ (Stored t.actors.known t.nodes.known)
        ((log.zipIdx.filter (Entry.asked since actorFilter)).mergeSort Entry.later) rows := by
  unfold RollbackManager.getRowsSince
  by_cases hall : actorFilter = []
  · refine ⟨s, _, by rw [if_pos hall], h.actors, h.nodes, forall₂_mergeSort ?_ ?_⟩
    · refine List.rel_filter ?_ h.rows
      intro e row hrow
      simp [Entry.asked, hall, stored_time hrow]
    · exact fun e row e' row' hrow hrow' => later_eq hrow hrow'
  · have hsound := sound_getActorId h actorFilter
    have hmem := (h.actors.getId actorFilter).2.1
    refine ⟨(s.getActorId actorFilter).1, _, by rw [if_neg hall], hsound.actors, hsound.nodes,
      forall₂_mergeSort ?_ ?_⟩
    · rw [List.filter_filter]
      refine List.rel_filter ?_ hsound.rows
      intro e row hrow
      have hwho := stored_actor hsound.actors hrow hmem
      simp only [Entry.asked, hall, stored_time hrow, decide_false, Bool.false_or, Bool.and_eq_true,
        decide_eq_true_eq]
      exact ⟨fun ⟨htime, hactor⟩ => ⟨hwho.2 hactor, htime⟩, fun ⟨hactor, htime⟩ => ⟨htime, hwho.1 hactor⟩⟩
    · exact fun e row e' row' hrow hrow' => later_eq hrow hrow'

theorem wellFormed_of_recorded (hwell : ∀ a ∈ log, a.WellFormed) {e : Entry}
    (he : e ∈ (recorded log).zipIdx) : e.1.WellFormed :=
  hwell _ (List.mem_of_mem_filter (List.fst_mem_of_mem_zipIdx he))

end Answer

/-- After any run the recorded actions of the asked-for actor and time come back, newest first, and they come
back unchanged just when no name of theirs is cut and each inventory is at a node or bears the actor's name. -/
theorem getRevertActions_iff (ops : List Op) (hops : ∀ a ∈ added ops, a.WellFormed) (curTime : ℤ)
    (actorFilter : Bytes) (seconds : ℤ) :
    ∃ result, ((run ops).getRevertActions curTime actorFilter seconds).2 = some result ∧
      result.length = (expected (added ops) (curTime - seconds) actorFilter).length ∧
      (List.Forall₂ RollbackAction.Same (expected (added ops) (curTime - seconds) actorFilter) result ↔
        ∀ a ∈ expected (added ops) (curTime - seconds) actorFilter, a.Kept) := by
  have hflush := (logged_flush (logged_run ops)).1
  rcases getRowsSince_spec hflush (curTime - seconds) actorFilter with ⟨t, rows, hrows, hactors, hnodes, hstored⟩
  have hwell : ∀ e ∈ ((recorded (added ops)).zipIdx.filter
      (Entry.asked (curTime - seconds) actorFilter)).mergeSort Entry.later, e.1.WellFormed := by
    intro e he
    exact wellFormed_of_recorded hops (List.mem_of_mem_filter (List.mem_mergeSort.1 he))
  have hboth := (List.forall₂_and_left _ _).2 ⟨hwell, hstored⟩
  rcases forall₂_mapM hboth (f := fun row => t.rollbackAction (t.actionRow row))
    (T := fun e a => (e.1.Same a ↔ e.1.Kept)) (fun e row h => restore_iff hactors hnodes h.2 h.1) with
    ⟨result, hresult, hsame⟩
  refine ⟨result, ?_, ?_, ?_⟩
  · unfold RollbackManager.getRevertActions RollbackManager.getActionsSince
    rw [hrows]
    simpa only [RollbackManager.rollbackActionsFromActionRows, List.mapM_map, Function.comp_def] using hresult
  · rw [expected, List.length_map, hsame.length_eq]
  · rw [expected, List.forall₂_map_left_iff, forall₂_iff_of_iff hsame, List.forall_mem_map]

/-- Ann digs. -/
def digging : RollbackAction :=
  { RollbackAction.empty with
    unixTime := 90
    actor := ascii "player:ann"
    type := .setNode
    nOld := ⟨ascii "stone", 0, 0, []⟩
    nNew := ⟨ascii "air", 15, 0, []⟩ }

theorem expected_digging : expected (added [.addAction digging]) (100 - 50) [] = [digging] := by
  decide +kernel

theorem getRevertActions_iff_digging :
    (∀ a ∈ added [.addAction digging], a.WellFormed) ∧
      ∃ result, ((run [.addAction digging]).getRevertActions 100 [] 50).2 = some result ∧
        List.Forall₂ RollbackAction.Same [digging] result := by
  have hops : ∀ a ∈ added [.addAction digging], a.WellFormed := by
    intro a ha
    rw [List.mem_singleton.1 ha]
    exact .inl rfl
  have hkept : digging.Kept := by
    refine ⟨by decide, fun _ => ⟨by decide, by decide⟩, ?_, ?_⟩
    · intro hinv
      cases hinv
    · intro hinv
      cases hinv
  refine ⟨hops, ?_⟩
  rcases getRevertActions_iff [.addAction digging] hops 100 [] 50 with ⟨result, hresult, -, hsame⟩
  rw [expected_digging] at hsame
  refine ⟨result, hresult, hsame.2 fun a ha => ?_⟩
  rw [List.mem_singleton.1 ha]
  exact hkept

/-- Ann takes a coin from the detached inventory `bank`. -/
def withdrawal : RollbackAction :=
  { RollbackAction.empty with
    unixTime := 90
    actor := ascii "player:ann"
    type := .modifyInventoryStack
    inventoryLocation := ascii "detached:bank"
    inventoryList := ascii "main"
    inventoryStack := { ItemStack.cleared with name := ascii "coin", count := 1 } }

/-- The coin is said to have been taken from Ann's own inventory. -/
theorem getRevertActions_wrong_inventory :
    ¬ ∀ (ops : List Op), (∀ a ∈ added ops, a.WellFormed) → ∀ (curTime : ℤ) (actorFilter : Bytes) (seconds : ℤ),
      ∃ result, ((run ops).getRevertActions curTime actorFilter seconds).2 = some result ∧
        List.Forall₂ RollbackAction.Same (expected (added ops) (curTime - seconds) actorFilter) result := by
  intro hall
  have hops : ∀ a ∈ added [.addAction withdrawal], a.WellFormed := by
    intro a ha
    rw [List.mem_singleton.1 ha]
    exact .inr ⟨rfl, .inr (.inr ⟨ascii "bank", rfl⟩)⟩
  have hexpected : expected (added [.addAction withdrawal]) (100 - 50) [] = [withdrawal] := by
    decide +kernel
  have hlocation : (((run [.addAction withdrawal]).getRevertActions 100 [] 50).2.map fun actions =>
      actions.map (·.inventoryLocation)) = some [ascii "player:ann"] := by
    decide +kernel
  rcases hall [.addAction withdrawal] hops 100 [] 50 with ⟨result, hresult, hsame⟩
  rw [hexpected] at hsame
  rw [hresult] at hlocation
  cases hsame with
  | cons hfirst hrest =>
    cases hrest
    have hsent := (hfirst.inventory rfl).1
    have hback := List.head_eq_of_cons_eq (Option.some.inj hlocation)
    exact absurd (hback.symm.trans hsent) (by decide)

end Rollback
end AxisEngine
