import AxisEngine.Map.BlockPos
import AxisEngine.Lib.SortedByKey
import AxisEngine.Util.StringFields

/-!
# BlockLists — the objects and timers that are stored with a block

`staticobject.cpp` and `nodetimer.cpp`.  Positions of objects and the times of timers are written in
thousandths as 32-bit integers, and that is how they appear here; a timer has the time that has passed
for it up to now.

* `StaticObjectList` — objects that are stored, and those of active ones;
* `NodeTimerList` — timers in the order in which they elapse;
* `reads_staticObjects`, `reads_nodeTimers` — what is read back.
-/

namespace AxisEngine
namespace Map

open Lib Util

def writeS32 (n : Int32) : Bytes :=
  writeU32 n.toUInt32

def readS32 : Lib.Reader Int32 := do
  let n ← Reader.readU32
  return n.toInt32

theorem reads_readS32 (n : Int32) : Reader.Reads readS32 (writeS32 n) n := by
  have h := (Reader.reads_readU32 n.toUInt32).map (g := UInt32.toInt32)
  rw [Int32.toInt32_toUInt32] at h
  exact h

/-! ## Static objects -/

/-- A position in thousandths of a node. -/
structure V3f1000 where
  x : Int32
  y : Int32
  z : Int32
deriving DecidableEq

structure StaticObject where
  type : UInt8
  pos : V3f1000
  data : Bytes
deriving DecidableEq

namespace StaticObject

def serialize (obj : StaticObject) : Except String Bytes := do
  let data ← serializeString16 obj.data
  return obj.type :: (writeS32 obj.pos.x ++ (writeS32 obj.pos.y ++ (writeS32 obj.pos.z ++ data)))

def deSerialize : Lib.Reader StaticObject := do
  let type ← Reader.readU8
  let x ← readS32
  let y ← readS32
  let z ← readS32
  let data ← deSerializeString16
  return ⟨type, ⟨x, y, z⟩, data⟩

/-- `problematic`: the data do not fit. -/
def problematic (obj : StaticObject) : Bool :=
  decide (obj.data.length > 0xffff)

end StaticObject

/-- `m_active` is ordered by id. -/
structure StaticObjectList where
  stored : List StaticObject := []
  active : List (UInt16 × StaticObject) := []

namespace StaticObjectList

variable (l : StaticObjectList)

/-- Writing deletes the objects whose data are too long. -/
def dropProblematic : StaticObjectList where
  stored := l.stored.filter fun obj => !obj.problematic
  active := l.active.filter fun e => !e.2.problematic

/-- Everything that is written. -/
def all : List StaticObject :=
  l.stored ++ l.active.map Prod.snd

def serialize : Except String (Bytes × StaticObjectList) := do
  let l := l.dropProblematic
  let count := l.stored.length + l.active.length
  -- "Make sure it fits into u16, else it would get truncated"
  if count > 0xffff then return (0 :: writeU16 0, l)
  else
    let objects ← concatM StaticObject.serialize l.all
    return (0 :: (writeU16 (UInt16.ofNat count) ++ objects), l)

/-- The active objects stay. -/
def deSerialize : Lib.Reader StaticObjectList := do
  let _version ← Reader.readU8
  let count ← Reader.readU16
  let stored ← Reader.readMany count.toNat StaticObject.deSerialize
  return { l with stored := stored }

end StaticObjectList

/-! ## Node timers -/

structure NodeTimer where
  timeout : Int32
  elapsed : Int32
  position : V3s16
deriving DecidableEq

/-- The time until the timer elapses, by which the timers are ordered. -/
def NodeTimer.remaining (t : NodeTimer) : ℤ :=
  t.timeout.toInt - t.elapsed.toInt

structure NodeTimerList where
  timers : List NodeTimer
  nodup : (timers.map NodeTimer.position).Nodup
  sorted : timers.Pairwise fun a b => a.remaining ≤ b.remaining

namespace NodeTimerList

def empty : NodeTimerList := ⟨[], List.nodup_nil, .nil⟩

def positions (l : NodeTimerList) : List V3s16 := l.timers.map NodeTimer.position

/-- `emplace`: behind the timers that elapse no later. -/
def emplace (t : NodeTimer) (timers : List NodeTimer) : List NodeTimer :=
  timers.takeWhile (fun u => decide (u.remaining ≤ t.remaining)) ++
    t :: timers.dropWhile fun u => decide (u.remaining ≤ t.remaining)

theorem perm_emplace (t : NodeTimer) (timers : List NodeTimer) :
    (emplace t timers).Perm (t :: timers) := by
  have hsplit := List.takeWhile_append_dropWhile
    (p := fun u : NodeTimer => decide (u.remaining ≤ t.remaining)) (l := timers)
  rw [emplace]
  refine List.perm_middle.trans ?_
  rw [hsplit]

theorem sorted_emplace (t : NodeTimer) {timers : List NodeTimer}
    (h : timers.Pairwise fun a b => a.remaining ≤ b.remaining) :
    (emplace t timers).Pairwise fun a b => a.remaining ≤ b.remaining := by
  induction timers with
  | nil => exact List.pairwise_singleton _ _
  | cons u timers ih =>
    rw [List.pairwise_cons] at h
    rw [emplace, List.takeWhile_cons, List.dropWhile_cons]
    split
    · rename_i hle
      rw [List.cons_append, List.pairwise_cons]
      refine ⟨fun v hv => ?_, ih h.2⟩
      rcases List.mem_cons.1 ((perm_emplace t timers).mem_iff.1 hv) with rfl | hv
      · exact of_decide_eq_true hle
      · exact h.1 v hv
    · rename_i hgt
      have hlt : t.remaining ≤ u.remaining := by
        rw [decide_eq_true_eq, not_le] at hgt
        exact hgt.le
      rw [List.nil_append, List.pairwise_cons, List.pairwise_cons]
      refine ⟨fun v hv => ?_, h⟩
      rcases List.mem_cons.1 hv with rfl | hv
      · exact hlt
      · exact hlt.trans (h.1 v hv)

/-- `insert`, for a position that has no timer. -/
def insert (l : NodeTimerList) (t : NodeTimer) (h : t.position ∉ l.positions) : NodeTimerList where
  timers := emplace t l.timers
  nodup := by
    rw [((perm_emplace t l.timers).map NodeTimer.position).nodup_iff, List.map_cons,
      List.nodup_cons]
    exact ⟨h, l.nodup⟩
  sorted := sorted_emplace t l.sorted

def writeTimer (t : NodeTimer) : Bytes :=
  writeU16 (t.position.z.toUInt16 * 16 * 16 + t.position.y.toUInt16 * 16 + t.position.x.toUInt16) ++
    (writeS32 t.timeout ++ writeS32 t.elapsed)

/-- From version 25 on, the length of the data of a timer stands in front. -/
def serialize (l : NodeTimerList) : Bytes :=
  10 :: (writeU16 (UInt16.ofNat l.timers.length) ++ l.timers.flatMap writeTimer)

def readTimer : Lib.Reader NodeTimer := do
  let p16 ← Reader.readU16
  let timeout ← readS32
  let elapsed ← readS32
  return ⟨timeout, elapsed, ⟨(p16 &&& 255 &&& 15).toInt16, ((p16 &&& 255) / 16).toInt16,
    (p16 / 16 / 16).toInt16⟩⟩

/-- A timer that is read, unless its data are invalid or there is one at its position. -/
def addRead (l : NodeTimerList) (t : NodeTimer) : NodeTimerList :=
  if t.timeout.toInt ≤ 0 then l
  else if h : t.position ∈ l.positions then l
  else l.insert t h

def deSerialize : Lib.Reader NodeTimerList := do
  let timerDataLen ← Reader.readU8
  if timerDataLen ≠ 10 then throw "unsupported NodeTimer data length"
  else
    let count ← Reader.readU16
    let timers ← Reader.readMany count.toNat readTimer
    return timers.foldl addRead empty

end NodeTimerList

/-! ## Reading objects -/

section

variable {obj : StaticObject} {l : StaticObjectList}

def StaticObject.bytes (obj : StaticObject) : Bytes :=
  obj.type :: (writeS32 obj.pos.x ++ (writeS32 obj.pos.y ++ (writeS32 obj.pos.z ++
    (writeU16 (UInt16.ofNat obj.data.length) ++ obj.data))))

theorem StaticObject.serialize_eq_ok (h : obj.data.length ≤ stringMaxLen) :
    obj.serialize = .ok obj.bytes := by
  rw [serialize, serializeString16_eq_ok h]
  rfl

theorem StaticObject.reads_bytes (h : obj.data.length ≤ stringMaxLen) :
    Reader.Reads deSerialize obj.bytes obj := by
  refine (Reader.reads_readU8 obj.type).bind ((reads_readS32 obj.pos.x).bind
    ((reads_readS32 obj.pos.y).bind ((reads_readS32 obj.pos.z).bind ?_)))
  exact (reads_string16 h).map (g := fun data => StaticObject.mk obj.type obj.pos data)

theorem StaticObject.length_le (h : obj.problematic = false) :
    obj.data.length ≤ stringMaxLen := by
  rw [problematic, decide_eq_false_iff_not, not_lt] at h
  exact h

namespace StaticObjectList

theorem length_all (l : StaticObjectList) : l.all.length = l.stored.length + l.active.length := by
  rw [all, List.length_append, List.length_map]

theorem all_dropProblematic (l : StaticObjectList) :
    l.dropProblematic.all = l.all.filter fun obj => !obj.problematic := by
  rw [all, all, dropProblematic, List.filter_append, List.filter_map]
  rfl

/-- The objects whose data fit are read back, when there are not too many of them. -/
theorem roundTrip (hcount : l.dropProblematic.all.length ≤ 0xffff) (l₀ : StaticObjectList) :
    ∃ bytes, l.serialize = .ok (bytes, l.dropProblematic) ∧
      Reader.Reads l₀.deSerialize bytes { l₀ with stored := l.dropProblematic.all } := by
  have hfits : ∀ obj ∈ l.dropProblematic.all, obj.data.length ≤ stringMaxLen := by
    intro obj hobj
    rw [all_dropProblematic] at hobj
    have hfine := (List.mem_filter.1 hobj).2
    rw [Bool.not_eq_true'] at hfine
    exact StaticObject.length_le hfine
  have hobjects : concatM StaticObject.serialize l.dropProblematic.all =
      .ok (l.dropProblematic.all.flatMap StaticObject.bytes) :=
    concatM_eq_ok fun obj hobj => StaticObject.serialize_eq_ok (hfits obj hobj)
  have hnat : (UInt16.ofNat l.dropProblematic.all.length).toNat = l.dropProblematic.all.length :=
    UInt16.toNat_ofNat_of_lt' (Nat.lt_succ_of_le hcount)
  refine ⟨0 :: (writeU16 (UInt16.ofNat l.dropProblematic.all.length) ++
    l.dropProblematic.all.flatMap StaticObject.bytes), ?_, ?_⟩
  · rw [serialize, ← length_all, if_neg (Nat.not_lt.2 hcount), hobjects]
    rfl
  · refine (Reader.reads_readU8 0).bind ((Reader.reads_readU16 _).bind ?_)
    rw [hnat]
    exact (Reader.Reads.readMany fun obj hobj => StaticObject.reads_bytes (hfits obj hobj)).map
      (g := fun stored => { l₀ with stored := stored })

end StaticObjectList

end

/-! ## Reading timers -/

namespace NodeTimerList

section

variable {t : NodeTimer} {l : NodeTimerList} {timers : List NodeTimer}

theorem timerIndex_eq (p : V3s16) :
    p.z.toUInt16 * 16 * 16 + p.y.toUInt16 * 16 + p.x.toUInt16 = blockIndex p := by
  rw [blockIndex, UInt16.add_mul]

theorem decode_blockIndex (h : InBlock t.position) :
    (⟨(blockIndex t.position &&& 255 &&& 15).toInt16,
      ((blockIndex t.position &&& 255) / 16).toInt16,
      (blockIndex t.position / 16 / 16).toInt16⟩ : V3s16) = t.position := by
  have hback := ofBlockIndex_blockIndex h
  have hmask : ∀ n : UInt16, (n &&& 255).toNat = n.toNat % 256 := fun n => by
    rw [UInt16.toNat_and]
    exact Nat.and_two_pow_sub_one_eq_mod n.toNat 8
  have h16 : (16 : UInt16).toNat = 16 := rfl
  have hlow : blockIndex t.position &&& 255 &&& 15 = blockIndex t.position &&& 15 := by
    apply UInt16.toNat_inj.1
    rw [toNat_and_15, toNat_and_15, hmask]
    omega
  have hmiddle : (blockIndex t.position &&& 255) / 16 = blockIndex t.position / 16 &&& 15 := by
    apply UInt16.toNat_inj.1
    rw [toNat_and_15, UInt16.toNat_div, UInt16.toNat_div, hmask, h16]
    omega
  rw [hlow, hmiddle]
  exact hback

theorem reads_readTimer (h : InBlock t.position) :
    Reader.Reads readTimer (writeTimer t) t := by
  rw [writeTimer, timerIndex_eq]
  refine (Reader.reads_readU16 _).bind ((reads_readS32 t.timeout).bind ?_)
  rw [decode_blockIndex h]
  exact (reads_readS32 t.elapsed).map
    (g := fun elapsed => NodeTimer.mk t.timeout elapsed t.position)

/-- Timers that elapse no earlier go to the end. -/
theorem timers_addRead (hlast : ∀ u ∈ l.timers, u.remaining ≤ t.remaining)
    (hnew : t.position ∉ l.positions) :
    (l.addRead t).timers = l.timers ++ if 0 < t.timeout.toInt then [t] else [] := by
  rw [addRead]
  by_cases hpos : 0 < t.timeout.toInt
  · rw [if_neg (not_le.2 hpos), dif_neg hnew, if_pos hpos]
    have hall : ∀ u ∈ l.timers, decide (u.remaining ≤ t.remaining) = true :=
      fun u hu => decide_eq_true (hlast u hu)
    change emplace t l.timers = _
    rw [emplace, List.takeWhile_eq_self_iff.2 hall, List.dropWhile_eq_nil_iff.2 hall]
  · rw [if_pos (not_lt.1 hpos), if_neg hpos, List.append_nil]

theorem timers_foldl_addRead
    (hsorted : (l.timers ++ timers).Pairwise fun a b => a.remaining ≤ b.remaining)
    (hnodup : ((l.timers ++ timers).map NodeTimer.position).Nodup) :
    (timers.foldl addRead l).timers = l.timers ++ timers.filter fun t => 0 < t.timeout.toInt := by
  induction timers generalizing l with
  | nil => exact (List.append_nil _).symm
  | cons t timers ih =>
    rcases List.pairwise_append.1 hsorted with ⟨-, -, hcross⟩
    have hlast : ∀ u ∈ l.timers, u.remaining ≤ t.remaining := fun u hu =>
      hcross u hu t List.mem_cons_self
    have hnew : t.position ∉ l.positions := by
      intro hmem
      rw [List.map_append, List.map_cons, List.nodup_append] at hnodup
      exact hnodup.2.2 _ hmem _ List.mem_cons_self rfl
    have hadd := timers_addRead hlast hnew
    have hsub : ((l.addRead t).timers ++ timers).Sublist (l.timers ++ t :: timers) := by
      rw [hadd, List.append_assoc]
      refine List.Sublist.append (List.Sublist.refl _) ?_
      split
      · exact List.Sublist.refl _
      · exact List.sublist_cons_self t timers
    have hrest := ih (hsorted.sublist hsub) (hnodup.sublist (hsub.map _))
    rw [List.foldl_cons, hrest, hadd, List.append_assoc, List.filter_cons]
    by_cases hpos : 0 < t.timeout.toInt
    · rw [if_pos hpos, if_pos (decide_eq_true hpos), List.singleton_append]
    · rw [if_neg hpos, if_neg (by rw [decide_eq_true_eq]; exact hpos), List.nil_append]

/-- The timers with a positive timeout are read back. -/
theorem roundTrip (h : ∀ t ∈ l.timers, InBlock t.position) :
    ∃ l', Reader.Reads deSerialize l.serialize l' ∧
      l'.timers = l.timers.filter fun t => 0 < t.timeout.toInt := by
  have hlength : l.timers.length ≤ 4096 := by
    rw [← List.length_map (f := NodeTimer.position)]
    refine length_le_of_inBlock l.nodup fun p hp => ?_
    rcases List.mem_map.1 hp with ⟨t, ht, rfl⟩
    exact h t ht
  have hcount : (UInt16.ofNat l.timers.length).toNat = l.timers.length :=
    UInt16.toNat_ofNat_of_lt' (Nat.lt_of_le_of_lt hlength (by decide))
  refine ⟨l.timers.foldl addRead empty, ?_, ?_⟩
  · refine (Reader.reads_readU8 10).bind ?_
    rw [if_neg (by decide)]
    refine (Reader.reads_readU16 _).bind ?_
    rw [hcount]
    exact (Reader.Reads.readMany fun t ht => reads_readTimer (h t ht)).map
      (g := fun timers : List NodeTimer => timers.foldl addRead empty)
  · exact timers_foldl_addRead l.sorted l.nodup

end

end NodeTimerList

end Map
end AxisEngine
