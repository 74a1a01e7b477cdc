import AxisEngine.Lib.IStream
import AxisEngine.Lib.SortedMap
import AxisEngine.Media.Protocol
import AxisEngine.Util.Strings
import Mathlib.Data.List.AList

/-!
# LBMManager — when a loading block modifier was introduced

`LBMManager` (`server/blockmodifier.cpp`) collects the definitions of loading block modifiers (LBMs).
With the times that the world has kept it then sorts them by the time of their introduction: a block
older than that time runs the modifier.  The times are kept in a text, by name.

* `LoadingBlockModifierDef`, `LBMContentMapping`, `LBMManager` — the definitions, the modifiers of one
  time, and the tables;
* `addLBMDef` — a definition is registered;
* `parseIntroductionTimesString`, `createIntroductionTimesString` — the text;
* `loadIntroductionTimes` — the modifiers get their times.
-/

namespace AxisEngine
namespace Abm

open Lib Util Media

/-- `LBM_NAME_ALLOWED_CHARS`. -/
def lbmNameAllowedChars : Bytes :=
  ascii "abcdefghijklmnopqrstuvwxyz0123456789_:"

structure LoadingBlockModifierDef where
  triggerContents : List Bytes := []
  name : Bytes
  runAtEveryLoad : Bool := false
deriving DecidableEq

/-- What is taken from outside: the contents of a node name, a variable that was not set, and the
order in which a hash table is gone through. -/
structure LBMPlatform where
  getIds : Bytes → List UInt16
  unset : UInt32
  orderTimes : List (Sigma fun _ : Bytes => UInt32) → List (Sigma fun _ : Bytes => UInt32)
  orderTimes_perm : ∀ entries, (orderTimes entries).Perm entries
  orderDefs : List (Sigma fun _ : Bytes => LoadingBlockModifierDef) →
    List (Sigma fun _ : Bytes => LoadingBlockModifierDef)
  orderDefs_perm : ∀ entries, (orderDefs entries).Perm entries

/-- `map` has the modifiers of each content. -/
structure LBMContentMapping where
  lbmList : List LoadingBlockModifierDef := []
  map : UInt16 → List LoadingBlockModifierDef := fun _ => []

/-- The keys are times of 32 bits. -/
abbrev LBMLookupMap := SortedMap ℕ LBMContentMapping

structure LBMManager where
  queryMode : Bool := false
  lbmDefs : AList fun _ : Bytes => LoadingBlockModifierDef := ∅
  lbmLookup : LBMLookupMap := .empty

/-- `undefined`: a reference is used after what it refers to is gone. -/
inductive Fault
  | fatal (msg : Bytes)
  | modError (what : Bytes)
  | serialization (what : Bytes)
  | settingNotFound (what : Bytes)
  | undefined
deriving DecidableEq

/-- `U32_MAX`, the time of what is run at every load. -/
def everyLoad : UInt32 := 0xffffffff

/-- A colon in front is taken off. -/
def stripColon (name : Bytes) : Bytes :=
  if name.head? = some 58 then name.tail else name

/-! ## The text -/

section

variable (P : LBMPlatform)

/-- `from_string<u32>`. -/
def fromStringU32 (str : Bytes) : UInt32 :=
  (((({ rest := str } : IStream).extract (2 ^ 32 - 1)).1).map UInt32.ofNat).getD P.unset

/-- What stands before each semicolon. -/
def timesEntries (times : Bytes) : List Bytes :=
  (times.splitOn 59).dropLast

def parseEntry (entry : Bytes) : Except Fault (Bytes × UInt32) :=
  match strSplit entry 126 with
  | [name, time] =>
    if name = [] then throw (.serialization (ascii "LBM name is empty"))
    -- old versions did not strip the colon
    else return (stripColon name, fromStringU32 P time)
  | _ => throw (.serialization (ascii "Introduction times entry \"" ++ entry ++
      ascii "\" requires exactly one '~'!"))

def parseIntroductionTimesString (times : Bytes) : Except Fault (AList fun _ : Bytes => UInt32) :=
  (timesEntries times).foldlM (fun ret entry => do
    let (name, time) ← parseEntry P entry
    return ret.insert name time) ∅

end

/-- The entry of one modifier. -/
def writeEntry (name : Bytes) (time : ℕ) : Bytes :=
  name ++ 126 :: decimal time

namespace LBMContentMapping

variable (P : LBMPlatform)

def addLBM (m : LBMContentMapping) (d : LoadingBlockModifierDef) : LBMContentMapping where
  lbmList := m.lbmList ++ [d]
  map := fun c => if c ∈ d.triggerContents.flatMap P.getIds then m.map c ++ [d] else m.map c

end LBMContentMapping

namespace LBMManager

variable (P : LBMPlatform)

/-! ## Registration -/

def addLBMDef (m : LBMManager) (d : LoadingBlockModifierDef) : Except Fault LBMManager :=
  if m.queryMode then throw (.fatal (ascii "attempted to modify LBMManager in query mode"))
  else
    let d := { d with name := stripColon d.name }
    if d.name = [] ∨ !stringAllowed d.name lbmNameAllowedChars then
      throw (.modError (ascii "Error adding LBM \"" ++ d.name ++
        ascii "\": Does not follow naming conventions: Only characters [a-z0-9_:] are allowed."))
    else return { m with lbmDefs := m.lbmDefs.insert d.name d }

def addLBMDefs (ds : List LoadingBlockModifierDef) : Except Fault LBMManager :=
  ds.foldlM addLBMDef {}

/-! ## Times -/

section

variable (lookup : LBMLookupMap) (time : UInt32)

/-- `m_lbm_lookup[time]`, which puts an empty one down where there is none. -/
def bucket : LBMContentMapping :=
  (lookup.find time.toNat).getD {}

def touch : LBMLookupMap :=
  lookup.put time.toNat (bucket lookup time)

def addAt (d : LoadingBlockModifierDef) : LBMLookupMap :=
  lookup.put time.toNat ((bucket lookup time).addLBM P d)

/-- One round of the first loop: what has a time gets it. -/
def introduce (now : UInt32) (m : LBMManager) (entry : Sigma fun _ : Bytes => UInt32) :
    LBMManager :=
  match m.lbmDefs.lookup entry.1 with
  | none => m
  | some d =>
    if d.runAtEveryLoad then m
    -- introduced in the future: as if it were new
    else if now < entry.2 then m
    else { m with
      lbmLookup := addAt P m.lbmLookup entry.2 d
      lbmDefs := m.lbmDefs.erase entry.1 }

/-- One round of the second loop: the others are new, or have no time. -/
def addRest (now : UInt32) (lookup : LBMLookupMap)
    (entry : Sigma fun _ : Bytes => LoadingBlockModifierDef) : LBMLookupMap :=
  addAt P lookup (if entry.2.runAtEveryLoad then everyLoad else now) entry.2

def isEmptyAt : Bool :=
  (bucket lookup time).lbmList.isEmpty

end

/-- The two references are one at the last time of all. -/
def dropEmpty (now : UInt32) (lookup : LBMLookupMap) : Except Fault LBMLookupMap :=
  if isEmptyAt lookup now ∧ now = everyLoad then throw .undefined
  else
    let lookup := if isEmptyAt lookup now then lookup.erase now.toNat else lookup
    return if isEmptyAt lookup everyLoad then lookup.erase everyLoad.toNat else lookup

def loadIntroductionTimes (m : LBMManager) (times : Bytes) (now : UInt32) :
    Except Fault LBMManager := do
  let introductionTimes ← parseIntroductionTimesString P times
  let m := (P.orderTimes introductionTimes.entries).foldl (introduce P now) { m with queryMode := true }
  let lookup := touch (touch m.lbmLookup now) everyLoad
  let lookup ← dropEmpty now ((P.orderDefs m.lbmDefs.entries).foldl (addRest P now) lookup)
  return { m with lbmDefs := ∅, lbmLookup := lookup }

/-- The modifiers that are kept in the text, with their times. -/
def stored (m : LBMManager) : List (LoadingBlockModifierDef × ℕ) :=
  m.lbmLookup.entries.flatMap fun it =>
    (it.2.lbmList.filter fun d => !d.runAtEveryLoad).map fun d => (d, it.1)

def createIntroductionTimesString (m : LBMManager) : Except Fault Bytes :=
  if m.queryMode then return m.stored.flatMap fun it => writeEntry it.1.name it.2 ++ [59]
  else throw (.fatal (ascii "attempted to query on non fully set up LBMManager"))

/-- The text of one session is read in the next. -/
def reload (m old : LBMManager) (now : UInt32) : Except Fault LBMManager := do
  let times ← old.createIntroductionTimesString
  m.loadIntroductionTimes P times now

end LBMManager

end Abm
end AxisEngine
