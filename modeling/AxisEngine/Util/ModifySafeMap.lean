import AxisEngine.Lib.SortedMap
import Mathlib.Algebra.Group.Nat.Defs

/-!
# ModifySafeMap — a map that is modified while it is gone through (`util/container.h`)

While an iteration runs, what is put goes to a second map, and what is taken leaves a null behind.
The two maps are merged when the last iteration ends, and the nulls are collected when there are
enough of them.

* `ModifySafeMap` — the two maps, and the counts of iterations and of nulls;
* `get`, `put`, `take`, `remove`, `size`, `empty`, `clear` — the operations;
* `beginIter`, `next`, `endIter` — an iteration;
* `Session`, `Session.step` — operations and iterations in any order.
-/

namespace AxisEngine
namespace Util

open Lib

/-- `none` is the null value.  `m_new` has no nulls. -/
structure ModifySafeMap (K V : Type*) [LinearOrder K] where
  values : SortedMap K (Option V) := .empty
  new : SortedMap K V := .empty
  iterating : ℕ := 0
  garbage : ℕ := 0

namespace ModifySafeMap

variable {K V : Type*} [LinearOrder K]

/-- `GC_MIN_SIZE`. -/
def gcMinSize : ℕ := 30

/-- `static_cast<size_t>(-1)`. -/
def unknown : ℕ := 2 ^ 64 - 1

variable (m : ModifySafeMap K V)

def get (key : K) : Option V :=
  if m.iterating ≠ 0 ∧ (m.new.find key).isSome then m.new.find key
  else (m.values.find key).join

/-- The entry becomes null and is counted, whether it was null before or not. -/
def blank (key : K) : ModifySafeMap K V :=
  { m with values := m.values.put key none, garbage := m.garbage + 1 }

/-- `none` is a failed assertion. -/
def put (key : K) : Option V → Option (ModifySafeMap K V)
  | none => none
  | some value =>
    if m.iterating ≠ 0 then
      let m := if (m.values.find key).isSome then m.blank key else m
      some { m with new := m.new.put key value }
    else some { m with values := m.values.put key (some value) }

def take (key : K) : Option V × ModifySafeMap K V :=
  let ret := if m.iterating ≠ 0 then m.new.find key else none
  let m := if m.iterating ≠ 0 then { m with new := m.new.erase key } else m
  match m.values.find key with
  | none => (ret, m)
  | some value =>
    (ret.or value, if m.iterating ≠ 0 then m.blank key else { m with values := m.values.erase key })

def remove (key : K) : Bool × ModifySafeMap K V :=
  ((m.take key).1.isSome, (m.take key).2)

/-- The count of the values that are not null. -/
def size : Option ℕ :=
  if m.iterating ≠ 0 then some unknown
  else if m.new.entries ≠ [] then none
  else if m.garbage = 0 then some m.values.entries.length
  else some (m.values.entries.countP fun it => it.2.isSome)

def empty : Bool :=
  if m.iterating ≠ 0 then false
  else if m.garbage = 0 then m.values.entries.isEmpty
  else m.values.entries.all fun it => it.2.isNone

/-- While an iteration runs, what was put since stays. -/
def clear : ModifySafeMap K V :=
  if m.iterating ≠ 0 then
    { m with values := m.values.map fun _ => none, garbage := m.values.entries.length }
  else { m with values := .empty, garbage := 0 }

/-! ## Iterations -/

/-- Entries in `m_new` take precedence. -/
def mergeNew : ModifySafeMap K V :=
  if m.new.entries ≠ [] then { m with values := (m.new.map some).absorb m.values, new := .empty }
  else m

def collectGarbage : ModifySafeMap K V :=
  if m.values.entries.length < gcMinSize ∨ m.garbage < m.values.entries.length / 2 then m
  else { m with values := m.values.compact, garbage := 0 }

def beginIter : Option (ModifySafeMap K V) :=
  if m.iterating < 2 ^ 32 - 1 then some { m with iterating := m.iterating + 1 } else none

def endIter : Option (ModifySafeMap K V) :=
  if m.iterating = 0 then none
  else
    let m := { m with iterating := m.iterating - 1 }
    some (if m.iterating = 0 then m.mergeNew.collectGarbage else m)

/-- The entry behind the last one that was visited. -/
def next (last : Option K) : Option (K × Option V) :=
  m.values.after last

end ModifySafeMap

/-! ## Operations in any order -/

/-- `next`: the iteration at a depth goes on, the innermost is at 0.  `done`: the innermost ends. -/
inductive MapOp (K V : Type*) where
  | put (key : K) (value : V)
  | take (key : K)
  | remove (key : K)
  | get (key : K)
  | clear
  | size
  | empty
  | iter
  | next (depth : ℕ)
  | done

inductive MapOut (K V : Type*) where
  | done
  | value (v : Option V)
  | bool (b : Bool)
  | size (n : ℕ)
  | entry (e : Option (K × Option V))

/-- `running`: the last key that each running iteration has visited, the innermost first. -/
structure Session (K V : Type*) [LinearOrder K] where
  map : ModifySafeMap K V := {}
  running : List (Option K) := []

namespace Session

variable {K V : Type*} [LinearOrder K]

/-- `none` is a failed assertion, or an iteration that does not run. -/
def step (s : Session K V) : MapOp K V → Option (Session K V × MapOut K V)
  | .put key value => (s.map.put key (some value)).map fun m => ({ s with map := m }, .done)
  | .take key => some ({ s with map := (s.map.take key).2 }, .value (s.map.take key).1)
  | .remove key => some ({ s with map := (s.map.remove key).2 }, .bool (s.map.remove key).1)
  | .get key => some (s, .value (s.map.get key))
  | .clear => some ({ s with map := s.map.clear }, .done)
  | .size => s.map.size.map fun n => (s, .size n)
  | .empty => some (s, .bool s.map.empty)
  | .iter => s.map.beginIter.map fun m => ({ map := m, running := none :: s.running }, .done)
  | .next depth => (s.running[depth]?).map fun last =>
    match s.map.next last with
    | none => (s, .entry none)
    | some e => ({ s with running := s.running.set depth (some e.1) }, .entry (some e))
  | .done => s.map.endIter.map fun m => ({ map := m, running := s.running.tail }, .done)

def run (s : Session K V) : List (MapOp K V) → Option (List (MapOut K V))
  | [] => some []
  | op :: ops => (s.step op).bind fun next => (next.1.run ops).map (next.2 :: ·)

end Session

end Util
end AxisEngine
