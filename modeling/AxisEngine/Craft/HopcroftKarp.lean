import Mathlib.Logic.Function.Basic

/-!
# HopcroftKarp — whether a bipartite graph has a matching of all nodes

`hopcroft_karp_can_match_all` (`craftdef.cpp`): rounds of a breadth-first search for the distances,
and depth-first searches along them.  The loops take fuel; each is given as much as it can use.

* `HopcroftKarp.bfs`, `dfs`, `rounds` — the loops;
* `hopcroftKarpCanMatchAll` — the whole.
-/

namespace AxisEngine
namespace Craft

/-- The pairs and the distances; the node that stands for "none" has the index `graph_size`. -/
structure HopcroftKarp where
  pairU : Nat → Nat
  pairV : Nat → Nat
  dist : Nat → Nat

namespace HopcroftKarp

/-- `UINT16_MAX`. -/
def inf : Nat := 65535

/-- "for all adjacent of u": what is not visited yet is put into the queue. -/
def visit (pairV : Nat → Nat) (u : Nat) : List Nat → List Nat × (Nat → Nat) → List Nat × (Nat → Nat)
  | [], state => state
  | v :: vs, (queue, dist) =>
    let uBack := pairV v
    if dist uBack = inf then
      visit pairV u vs (queue ++ [uBack], Function.update dist uBack (dist u + 1))
    else visit pairV u vs (queue, dist)

/-- The loop over the queue. -/
def bfsLoop (graph : Nat → List Nat) (nil : Nat) (pairV : Nat → Nat) :
    Nat → List Nat → (Nat → Nat) → Nat → Nat
  | 0, _, dist => dist
  | _ + 1, [], dist => dist
  | fuel + 1, u :: queue, dist =>
    if dist u < dist nil then
      let (queue, dist) := visit pairV u (graph u) (queue, dist)
      bfsLoop graph nil pairV fuel queue dist
    else bfsLoop graph nil pairV fuel queue dist

/-- `do_bfs`: the distances from the nodes that are not matched, and whether "none" is reached. -/
def bfs (graph : Nat → List Nat) (size : Nat) (s : HopcroftKarp) : Bool × HopcroftKarp :=
  let unmatched := (List.range size).filter fun u => s.pairU u = size
  let dist : Nat → Nat := fun u => if u < size ∧ s.pairU u = size then 0 else inf
  let dist := bfsLoop graph size s.pairV (size + 2) unmatched dist
  (dist size ≠ inf, { s with dist := dist })

/-- The loop of `do_dfs_raw` over the nodes adjacent to `u`. -/
def dfsLoop (recurse : Nat → HopcroftKarp → Bool × HopcroftKarp) (u : Nat) :
    List Nat → HopcroftKarp → Bool × HopcroftKarp
  | [], s => (false, { s with dist := Function.update s.dist u inf })
  | v :: vs, s =>
    let uBack := s.pairV v
    -- "only walk according to bfs dists"
    if s.dist uBack ≠ s.dist u + 1 then dfsLoop recurse u vs s
    else
      let (found, s) := recurse uBack s
      if found then
        (true, { s with
          pairV := Function.update s.pairV v u
          pairU := Function.update s.pairU u v })
      else dfsLoop recurse u vs s

/-- `do_dfs_raw`. -/
def dfs (graph : Nat → List Nat) (nil : Nat) : Nat → Nat → HopcroftKarp → Bool × HopcroftKarp
  | 0, _, s => (false, s)
  | fuel + 1, u, s =>
    if u = nil then (true, s) else dfsLoop (dfs graph nil fuel) u (graph u) s

/-- "try to match unmatched u nodes". -/
def matchAll (graph : Nat → List Nat) (size : Nat) :
    List Nat → Nat × HopcroftKarp → Nat × HopcroftKarp
  | [], state => state
  | u :: us, (matched, s) =>
    if s.pairU u = size then
      let (found, s) := dfs graph size (size + 2) u s
      matchAll graph size us (if found then matched + 1 else matched, s)
    else matchAll graph size us (matched, s)

/-- The outer loop, with `num_matched`. -/
def rounds (graph : Nat → List Nat) (size : Nat) : Nat → Nat × HopcroftKarp → Nat
  | 0, (matched, _) => matched
  | fuel + 1, (matched, s) =>
    let (reached, s) := bfs graph size s
    if reached then rounds graph size fuel (matchAll graph size (List.range size) (matched, s))
    else matched

end HopcroftKarp

open HopcroftKarp in
def hopcroftKarpCanMatchAll (graph : List (List Nat)) : Bool :=
  let size := graph.length
  let adjacent := fun u => graph[u]?.getD []
  let start : HopcroftKarp := { pairU := fun _ => size, pairV := fun _ => size, dist := fun _ => 0 }
  rounds adjacent size (size + 2) (0, start) = size

example : hopcroftKarpCanMatchAll [[0, 1], [0]] = true := by decide

example : hopcroftKarpCanMatchAll [[0], [0]] = false := by decide

end Craft
end AxisEngine
