import AxisEngine.Craft.CraftDefinition

/-!
# CraftDefManager — the definitions by their hashes

`CCraftDefManager` (`craftdef.cpp`).

* `registerCraft`, `initHashes` — how definitions are filed;
* `getCraftResult` — how one is found for an input, and what is left of the input.
-/

namespace AxisEngine
namespace Craft

open Lib Util Inventory

/-! ## What is left of the input -/

/-- "Removes 1 from each item stack". -/
def craftDecrementInput (items : List ItemStack) : List ItemStack :=
  items.map fun item => if item.count ≠ 0 then item.remove 1 else item

/-- The first replacement that fits, and the others. -/
def takeReplacement (idef : ItemDefManager) (name : Bytes) :
    CraftReplacements → Option (Bytes × CraftReplacements)
  | [] => none
  | pair :: pairs =>
    if inputItemMatchesRecipe idef name pair.1 then some (pair.2, pairs)
    else (takeReplacement idef name pairs).map fun found => (found.1, pair :: found.2)

/-- The loop of `craftDecrementOrReplaceInput`: the items, and the replacements that are put out. -/
def replaceLoop (r : Reader) (idef : ItemDefManager) :
    List ItemStack → CraftReplacements → Except Exception (List ItemStack × List ItemStack)
  | [], _ => .ok ([], [])
  | item :: items, pairs =>
    match takeReplacement idef item.name pairs with
    | some (replacement, pairs) => do
        let rep ← ItemStack.deSerialize r (some idef) { rest := replacement }
        let (items, output) ← replaceLoop r idef items pairs
        if item.count = 1 then .ok (rep :: items, output)
        else .ok (item.remove 1 :: items, rep :: output)
    -- "No replacement was found, simply decrement count by one"
    | none => do
        let (items, output) ← replaceLoop r idef items pairs
        .ok ((if item.count ≠ 0 then item.remove 1 else item) :: items, output)

def craftDecrementOrReplaceInput (r : Reader) (idef : ItemDefManager) (items : List ItemStack)
    (replacements : CraftReplacements) : Except Exception (List ItemStack × List ItemStack) :=
  if replacements.isEmpty then .ok (craftDecrementInput items, [])
  else replaceLoop r idef items replacements

/-- "Decreases count of every input item". -/
def CraftDefinition.decrementInput (r : Reader) (idef : ItemDefManager) (items : List ItemStack)
    (d : CraftDefinition) : Except Exception (List ItemStack × List ItemStack) :=
  match d.recipe with
  | .toolRepair _ => .ok (craftDecrementInput items, [])
  | .shaped _ _ _ replacements | .shapeless _ _ replacements | .cooking _ _ _ replacements
  | .fuel _ _ replacements => craftDecrementOrReplaceInput r idef items replacements

/-! ## The manager -/

/-- `m_craft_defs`, and `m_output_craft_definitions` with the pointers to the definitions. -/
structure CraftDefManager where
  craftDefs : CraftHashType → UInt64 → List CraftDefinition := fun _ _ => []
  outputCraftDefinitions : Bytes → List Nat := fun _ => []

namespace CraftDefManager

/-- `m_craft_defs[type][hash].push_back(def)`. -/
def push (m : CraftDefManager) (type : CraftHashType) (hash : UInt64) (d : CraftDefinition) :
    CraftDefManager :=
  { m with
    craftDefs := Function.update m.craftDefs type
      (Function.update (m.craftDefs type) hash (m.craftDefs type hash ++ [d])) }

/-- "Before hashes are initialized, all hashes reside here". -/
def unhashed (m : CraftDefManager) : List CraftDefinition :=
  m.craftDefs .unhashed 0

variable (r : Reader) (order : MapOrder) (idef : ItemDefManager)

def registerCraft (m : CraftDefManager)
    (d : CraftDefinition) : Except Exception CraftDefManager := do
  let m := m.push .unhashed 0 d
  let outputName ← craftGetItemName r idef (d.getOutput order idef {}).item
  .ok { m with
    outputCraftDefinitions := Function.update m.outputCraftDefinitions outputName
      (m.outputCraftDefinitions outputName ++ [d.pointer]) }

/-- "Initialize and get the definition's hash", and "Enter the definition". -/
def enter (r : Reader) (idef : ItemDefManager) (hash : Bytes → UInt64) (m : CraftDefManager)
    (d : CraftDefinition) : Except Exception CraftDefManager := do
  let d ← d.initHash r idef
  .ok (m.push d.hashType (d.getHash hash d.hashType) d)

def initHashes (r : Reader) (idef : ItemDefManager) (hash : Bytes → UInt64) (m : CraftDefManager) :
    Except Exception CraftDefManager := do
  let m ← m.unhashed.foldlM (enter r idef hash) m
  .ok { m with
    craftDefs := Function.update m.craftDefs .unhashed
      (Function.update (m.craftDefs .unhashed) 0 []) }

/-- The best definition so far, with its output; one of a higher priority takes its place. -/
def tryDefinition (input : CraftInput)
    (best : Option (CraftDefinition × CraftOutput)) (d : CraftDefinition) :
    Except Exception (Option (CraftDefinition × CraftOutput)) :=
  if (best.elim .noRecipe fun b => b.1.priority).toNat < d.priority.toNat then do
    let matched ← d.check r idef input
    if matched then do
      -- "Check if the crafted node/item exists"
      let out := d.getOutput order idef input
      let is ← ItemStack.deSerialize r (some idef) { rest := out.item }
      if idef.isKnown is.name then .ok (some (d, out)) else .ok best
    else .ok best
  else .ok best

/-- "Try hash types with increasing collision rate while remembering the latest, highest priority
recipe." -/
def findCraft (hash : Bytes → UInt64) (m : CraftDefManager) (input : CraftInput) :
    Except Exception (Option (CraftDefinition × CraftOutput)) :=
  let inputNames := sortNames input.names
  [CraftHashType.itemNames, .count, .unhashed].foldlM (fun best type =>
    (m.craftDefs type (getHashForGrid hash type inputNames)).reverse.foldlM
      (tryDefinition r order idef input) best) none

/-- What `getCraftResult` gives: the definition that was used, its output, the items that are left
and the replacements that are put out. -/
structure CraftResult where
  definition : CraftDefinition
  output : CraftOutput
  items : List ItemStack
  outputReplacements : List ItemStack

def getCraftResult (hash : Bytes → UInt64)
    (m : CraftDefManager) (input : CraftInput) (decrementInput : Bool) :
    Except Exception (Option CraftResult) :=
  if input.empty then .ok none
  else do
    match ← m.findCraft r order idef hash input with
    | none => .ok none
    | some (d, out) =>
      if decrementInput then do
        let (items, output) ← d.decrementInput r idef input.items
        .ok (some { definition := d, output := out, items := items, outputReplacements := output })
      else
        .ok (some { definition := d, output := out, items := input.items, outputReplacements := [] })

end CraftDefManager

end Craft
end AxisEngine
