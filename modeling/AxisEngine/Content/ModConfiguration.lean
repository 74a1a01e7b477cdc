import AxisEngine.Lib.Bytes
import Mathlib.Data.Finset.Union

/-!
# ModConfiguration — the order in which mods are loaded (`content/mod_configuration.cpp`)

`resolveDependencies` moves mods from one list to another.  A mod whose dependencies have all been
moved waits on a stack; the mod that is moved is taken off the dependencies of the others.  The
game may name a mod that comes first, and one that comes last: these two are kept out of the loop.

* `ModSpec`, `ModConfiguration` — a mod with its dependencies, and the two lists;
* `found` — the first and the last mod, and the names of the others;
* `split` — which mods have no dependencies, and which have some;
* `load` — the loop;
* `resolveDependencies` — all of it, with the texts of its errors.
-/

namespace AxisEngine
namespace Content

open Lib

structure ModSpec where
  name : Bytes
  depends : Finset Bytes := ∅
  optdepends : Finset Bytes := ∅
  unsatisfiedDepends : Finset Bytes := ∅
deriving DecidableEq

structure ModError where
  what : String
deriving DecidableEq

/-- An empty `firstMod` or `lastMod` stands for no mod. -/
structure ModConfiguration where
  firstMod : Bytes := []
  lastMod : Bytes := []
  sortedMods : List ModSpec := []
  unsatisfiedMods : List ModSpec := []
deriving DecidableEq

structure Found where
  modnames : Finset Bytes := ∅
  firstModSpec : Option ModSpec := none
  lastModSpec : Option ModSpec := none

namespace ModSpec

/-- The mod as it was before its dependencies were resolved. -/
def declared (mod : ModSpec) : ModSpec :=
  { mod with unsatisfiedDepends := ∅ }

def relieve (name : Bytes) (mod : ModSpec) : ModSpec :=
  { mod with unsatisfiedDepends := mod.unsatisfiedDepends.erase name }

def isSatisfied (mod : ModSpec) : Bool :=
  decide (mod.unsatisfiedDepends = ∅)

end ModSpec

namespace ModConfiguration

open ModSpec

def find (c : ModConfiguration) (found : Found) (mod : ModSpec) : Found :=
  if mod.name = c.firstMod then { found with firstModSpec := some mod }
  else if mod.name = c.lastMod then { found with lastModSpec := some mod }
  else { found with modnames := insert mod.name found.modnames }

def found (c : ModConfiguration) : Found :=
  c.unsatisfiedMods.foldl c.find {}

/-- The optional dependencies count where they exist. -/
def gather (c : ModConfiguration) (modnames : Finset Bytes) (mod : ModSpec) : ModSpec :=
  let present := mod.optdepends.filter (· ∈ modnames)
  { mod with unsatisfiedDepends := (mod.depends ∪ present).erase c.firstMod }

def IsEnd (c : ModConfiguration) (mod : ModSpec) : Prop :=
  mod.name = c.firstMod ∨ mod.name = c.lastMod

instance (c : ModConfiguration) (mod : ModSpec) : Decidable (c.IsEnd mod) :=
  inferInstanceAs (Decidable (_ ∨ _))

/-- `satisfied` has the back of the vector in front. -/
def split (c : ModConfiguration) (found : Found) :
    List ModSpec → (satisfied unsatisfied : List ModSpec) →
      Except ModError (List ModSpec × List ModSpec)
  | [], satisfied, unsatisfied => .ok (satisfied, unsatisfied)
  | mod :: mods, satisfied, unsatisfied =>
    if c.IsEnd mod then c.split found mods satisfied unsatisfied
    else
      let mod := c.gather found.modnames mod
      if found.lastModSpec.any fun last => last.name ∈ mod.unsatisfiedDepends then
        .error ⟨"Impossible to depend on the mod specified by last_mod"⟩
      else if mod.isSatisfied then c.split found mods (mod :: satisfied) unsatisfied
      else c.split found mods satisfied (unsatisfied ++ [mod])

/-- The last mod waits for its dependencies, but not for optional ones. -/
def waitLast (c : ModConfiguration) (last : ModSpec) : ModSpec :=
  { last with unsatisfiedDepends := last.depends.erase c.firstMod }

structure Loaded where
  sorted : List ModSpec
  unsatisfied : List ModSpec
  last : Option ModSpec

/-- Takes `name` off the dependencies.  Left: the mods that are satisfied now. -/
def sweep (name : Bytes) (unsatisfied : List ModSpec) : List ModSpec × List ModSpec :=
  let relieved := unsatisfied.map (relieve name)
  (relieved.filter isSatisfied, relieved.filter fun mod2 => !mod2.isSatisfied)

theorem length_sweep (name : Bytes) (unsatisfied : List ModSpec) :
    (sweep name unsatisfied).1.length + (sweep name unsatisfied).2.length = unsatisfied.length := by
  rw [sweep, ← List.length_eq_length_filter_add, List.length_map]

def load (sorted : List ModSpec) (last : Option ModSpec) :
    (satisfied unsatisfied : List ModSpec) → Loaded
  | [], unsatisfied => ⟨sorted, unsatisfied, last⟩
  | mod :: satisfied, unsatisfied =>
    load (sorted ++ [mod]) (last.map (relieve mod.name))
      ((sweep mod.name unsatisfied).1.reverse ++ satisfied) (sweep mod.name unsatisfied).2
termination_by satisfied unsatisfied => satisfied.length + unsatisfied.length
decreasing_by
  have h := length_sweep mod.name unsatisfied
  simp only [List.length_append, List.length_reverse, List.length_cons]
  omega

/-- The last mod goes to the one list or to the other. -/
def placeLast (c : ModConfiguration) (loaded : Loaded) : ModConfiguration :=
  let c := { c with sortedMods := loaded.sorted, unsatisfiedMods := loaded.unsatisfied }
  match loaded.last with
  | none => c
  | some last =>
    if last.isSatisfied then { c with sortedMods := c.sortedMods ++ [last] }
    else { c with unsatisfiedMods := c.unsatisfiedMods ++ [last] }

/-- `randomModLoadOrder`: the setting.  `shuffle`: what the generator does to a list. -/
def resolveDependencies (c : ModConfiguration) (randomModLoadOrder : Bool)
    (shuffle : List ModSpec → List ModSpec) : Except ModError ModConfiguration :=
  let found := c.found
  let mods := if randomModLoadOrder then shuffle c.unsatisfiedMods else c.unsatisfiedMods
  if c.firstMod ≠ [] ∧ found.firstModSpec = none then
    .error ⟨"The mod specified as first by the game was not found."⟩
  else if c.lastMod ≠ [] ∧ found.lastModSpec = none then
    .error ⟨"The mod specified as last by the game was not found."⟩
  else if found.firstModSpec.any fun first => first.depends ≠ ∅ || first.optdepends ≠ ∅ then
    .error ⟨"Mod specified by first_mod cannot have dependencies"⟩
  else match c.split found mods [] [] with
    | .error e => .error e
    | .ok (satisfied, unsatisfied) =>
      let sorted := c.sortedMods ++ found.firstModSpec.toList
      let last := found.lastModSpec.map c.waitLast
      .ok (c.placeLast (load sorted last satisfied unsatisfied))

end ModConfiguration

end Content
end AxisEngine
