import AxisEngine.Craft.HopcroftKarp
import AxisEngine.Inventory.ItemText
import Mathlib.Algebra.Order.Floor.Defs
import Mathlib.Data.Rat.Floor

/-!
# CraftDefinition — recipes, and what they match

The five classes of craft definitions (`craftdef.cpp`, `craftdef.h`).  A `float` is a rational
number here.

* `inputItemMatchesRecipe`, `craftGetBounds` — one item, and the bounding box of a grid;
* `Recipe`, `CraftDefinition` — what a class stores, and what all of them share;
* `construct`, `check`, `getOutput`, `getHash`, `initHash` — the virtual functions.
-/

namespace AxisEngine
namespace Craft

open Lib Util Inventory

/-! ## Items -/

def isGroupRecipeStr (recName : Bytes) : Bool :=
  (ascii "group:").isPrefixOf recName

def hasGroupItem (recipe : List Bytes) : Bool :=
  recipe.any isGroupRecipeStr

def itemgroupGet (groups : Finmap (fun _ : Bytes => Int)) (name : Bytes) : Int :=
  (groups.lookup name).getD 0

/-- The loop over the names between the commas; every round takes something out of the string. -/
def groupLoop : Nat → Bytes → List Bytes
  | 0, _ => []
  | fuel + 1, s =>
    let (checkGroup, rest) := Strfnd.next 44 s
    if rest = [] then [checkGroup] else checkGroup :: groupLoop fuel rest

def groupNames (s : Bytes) : List Bytes :=
  groupLoop (s.length + 1) s

variable (idef : ItemDefManager)

/-- "Check if input matches recipe". -/
def inputItemMatchesRecipe (inpName recName : Bytes) : Bool :=
  decide (inpName = recName) ||
    (isGroupRecipeStr recName && idef.isKnown inpName &&
      (groupNames (recName.drop 6)).all fun group =>
        decide (itemgroupGet (idef.get inpName).groups group ≠ 0))

variable (r : Reader) (idef : ItemDefManager)

/-- "Deserialize an itemstring then return the name of the item". -/
def craftGetItemName (itemstring : Bytes) : Except Exception Bytes := do
  let item ← ItemStack.deSerialize r (some idef) { rest := itemstring }
  .ok item.name

def craftGetItemNames (itemstrings : List Bytes) : Except Exception (List Bytes) :=
  itemstrings.mapM (craftGetItemName r idef)

/-- `std::sort` of strings. -/
def sortNames (names : List Bytes) : List Bytes :=
  names.mergeSort fun a b => decide (a ≤ b)

/-! ## Grids -/

/-- A bounding rectangle. -/
structure Bounds where
  minX : Nat
  maxX : Nat
  minY : Nat
  maxY : Nat
  deriving DecidableEq

/-- The rectangle with one more cell in it. -/
def Bounds.extend (x y : Nat) : Option Bounds → Bounds
  | none => { minX := x, maxX := x, minY := y, maxY := y }
  | some b =>
    { minX := if x < b.minX then x else b.minX
      maxX := if x > b.maxX then x else b.maxX
      minY := if y < b.minY then y else b.minY
      maxY := if y > b.maxY then y else b.maxY }

/-- The loop of `craftGetBounds`, at the cell `(x, y)`. -/
def boundsLoop (width : Nat) : List Bytes → Nat → Nat → Option Bounds → Option Bounds
  | [], _, _, bounds => bounds
  | item :: items, x, y, bounds =>
    let bounds := if item ≠ [] then some (Bounds.extend x y bounds) else bounds
    if x + 1 = width then boundsLoop width items 0 (y + 1) bounds
    else boundsLoop width items (x + 1) y bounds

/-- `none` if every item is "". -/
def craftGetBounds (items : List Bytes) (width : Nat) : Option Bounds :=
  boundsLoop width items 0 0 none

/-- The rows are filled up. -/
def padRows (names : List Bytes) (width : Nat) : List Bytes :=
  names ++ List.replicate ((width - names.length % width) % width) []

/-- The name in a cell; the callers stay inside the grid. -/
def cellAt (names : List Bytes) (width x y : Nat) : Bytes :=
  (names[y * width + x]?).getD []

/-! ## Input and output -/

inductive CraftMethod
  | normal
  | cooking
  | fuel
  deriving DecidableEq

/-- "The earlier a type is mentioned in this enum, the earlier it is tried at crafting". -/
inductive CraftHashType
  | itemNames
  | count
  | unhashed
  deriving DecidableEq

structure CraftInput where
  method : CraftMethod := .normal
  width : UInt32 := 0
  items : List ItemStack := []

def CraftInput.empty (input : CraftInput) : Bool :=
  input.items.all ItemStack.isEmpty

def CraftInput.names (input : CraftInput) : List Bytes :=
  input.items.map ItemStack.name

/-- "Filter empty items out of input". -/
def CraftInput.filtered (input : CraftInput) : List Bytes :=
  input.names.filter fun name => decide (name ≠ [])

structure CraftOutput where
  item : Bytes := []
  time : ℚ := 0

abbrev CraftReplacements := List (Bytes × Bytes)

/-- `getHashForGrid`; what strings are hashed to is arbitrary. -/
def getHashForGrid (hash : Bytes → UInt64) (type : CraftHashType) (gridNames : List Bytes) : UInt64 :=
  let names := gridNames.filter fun name => decide (name ≠ [])
  match type with
  | .itemNames => hash ((names.intersperse [10]).flatten)
  | .count => UInt64.ofNat names.length
  | .unhashed => 0

/-! ## Definitions -/

/-- "Craft recipe priorities, from low to high". -/
inductive RecipePriority
  | noRecipe
  | toolRepair
  | shapelessAndGroups
  | shapeless
  | shapedAndGroups
  | shaped
  deriving DecidableEq

def RecipePriority.toNat : RecipePriority → Nat
  | .noRecipe => 0
  | .toolRepair => 1
  | .shapelessAndGroups => 2
  | .shapeless => 3
  | .shapedAndGroups => 4
  | .shaped => 5

/-- What the constructor of a class is given. -/
inductive Recipe
  | shaped (output : Bytes) (width : UInt32) (recipe : List Bytes) (replacements : CraftReplacements)
  | shapeless (output : Bytes) (recipe : List Bytes) (replacements : CraftReplacements)
  | toolRepair (additionalWear : ℚ)
  | cooking (output recipe : Bytes) (cooktime : ℚ) (replacements : CraftReplacements)
  | fuel (recipe : Bytes) (burntime : ℚ) (replacements : CraftReplacements)

/-- A craft definition.  `recipeNames` is there once `initHash` was called; `pointer` tells objects
apart that are otherwise equal. -/
structure CraftDefinition where
  pointer : Nat
  recipe : Recipe
  priority : RecipePriority
  recipeNames : Option (List Bytes) := none
  hashType : CraftHashType := .unhashed

/-- The priority a constructor sets. -/
def Recipe.priority : Recipe → RecipePriority
  | .shaped _ _ recipe _ => if hasGroupItem recipe then .shapedAndGroups else .shaped
  | .shapeless _ recipe _ => if hasGroupItem recipe then .shapelessAndGroups else .shapeless
  | .toolRepair _ => .toolRepair
  | .cooking _ recipe _ _ => if isGroupRecipeStr recipe then .shapelessAndGroups else .shapeless
  | .fuel _ _ _ =>
    -- the member that is looked at is not the argument, and is still empty
    let recipeName : Bytes := []
    if isGroupRecipeStr recipeName then .shapelessAndGroups else .shapeless

/-- The constructors. -/
def construct (pointer : Nat) (recipe : Recipe) : CraftDefinition :=
  { pointer := pointer, recipe := recipe, priority := recipe.priority }

/-- The end of `check` of a shaped definition: the boxes have one size and their cells match. -/
def boxesMatch (inpNames recNames : List Bytes) (inpWidth recWidth : Nat)
    (inp rec : Bounds) : Bool :=
  if inp.maxX - inp.minX ≠ rec.maxX - rec.minX ∨ inp.maxY - inp.minY ≠ rec.maxY - rec.minY then
    false
  else
    -- "Verify that all item names in the bounding box are equal"
    (List.range (inp.maxY - inp.minY + 1)).all fun y =>
      (List.range (inp.maxX - inp.minX + 1)).all fun x =>
        inputItemMatchesRecipe idef (cellAt inpNames inpWidth (inp.minX + x) (inp.minY + y))
          (cellAt recNames recWidth (rec.minX + x) (rec.minY + y))

/-- `check` of a shaped definition; the names of its recipe may have to be read. -/
def checkShaped (input : CraftInput) (width : UInt32)
    (recNames : Except Exception (List Bytes)) : Except Exception Bool :=
  if input.method ≠ .normal ∨ input.width = 0 then .ok false
  else
    let inpWidth := input.width.toNat
    let inpNames := padRows input.names inpWidth
    match craftGetBounds inpNames inpWidth with
    -- "it was empty"
    | none => .ok false
    | some inp => do
        let recNames ← recNames
        if width = 0 then .ok false
        else
          let recWidth := width.toNat
          let recNames := padRows recNames recWidth
          match craftGetBounds recNames recWidth with
          | none => .ok false
          | some rec => .ok (boxesMatch idef inpNames recNames inpWidth recWidth inp rec)

/-- `SHAPELESS_GROUPS_MAX`. -/
def shapelessGroupsMax : Nat := 30000

/-- The end of `check` of a shapeless definition, for sorted names. -/
def namesMatch (inputFiltered recipeCopy : List Bytes) : Bool :=
  let recipeOnlygroup := recipeCopy.filter isGroupRecipeStr
  let recipeNogroup := recipeCopy.filter fun name => !isGroupRecipeStr name
  -- `std::set_difference` of sorted ranges
  let inputForGroup := inputFiltered.diff recipeNogroup
  -- "All non-group slots must be satisfied"
  if inputFiltered.length - inputForGroup.length ≠ recipeNogroup.length then false
  else if shapelessGroupsMax < recipeOnlygroup.length then false
  else
    let graphSize := recipeOnlygroup.length
    hopcroftKarpCanMatchAll ((inputForGroup.take graphSize).map fun item =>
      (List.range graphSize).filter fun j =>
        inputItemMatchesRecipe idef item (recipeOnlygroup[j]?.getD []))

/-- `check` of a shapeless definition; the names of its recipe may have to be read. -/
def checkShapeless (input : CraftInput) (recipeSize : Nat)
    (recipeCopy : Except Exception (List Bytes)) : Except Exception Bool :=
  -- "If there is a wrong number of items in input, no match"
  if input.method ≠ .normal ∨ input.filtered.length ≠ recipeSize then .ok false
  else do
    let recipeCopy ← recipeCopy
    .ok (namesMatch idef (sortNames input.filtered) recipeCopy)

/-- `craftToolRepair`. -/
def craftToolRepair (item1 item2 : ItemStack) (additionalWear : ℚ) : ItemStack :=
  if item1.count ≠ 1 ∨ item2.count ≠ 1 ∨ item1.name ≠ item2.name ∨
      (idef.get item1.name).type ≠ .tool ∨
      itemgroupGet (idef.get item1.name).groups (ascii "disable_repair") = 1 then .cleared
  else
    let item1Uses : Int := 65536 - item1.wear.toNat
    let item2Uses : Int := 65536 - item2.wear.toNat
    let newUses := item1Uses + item2Uses
    let newWear := 65536 - newUses + ⌊additionalWear * 65536 + 1 / 2⌋
    if newWear ≥ 65536 then .cleared
    else { item1 with wear := UInt16.ofNat (max newWear 0).toNat }

/-- The two tools; `none` when there is a third item. -/
def repairItems : List ItemStack → ItemStack × ItemStack → Option (ItemStack × ItemStack)
  | [], items => some items
  | item :: rest, (item1, item2) =>
    if item.isEmpty then repairItems rest (item1, item2)
    else if item1.isEmpty then repairItems rest (item, item2)
    else if item2.isEmpty then repairItems rest (item1, item)
    else none

/-- The two tools of `getOutput`, which does not look for a third item. -/
def outputItems : List ItemStack → ItemStack × ItemStack → ItemStack × ItemStack
  | [], items => items
  | item :: rest, (item1, item2) =>
    if item.isEmpty then outputItems rest (item1, item2)
    else if item1.isEmpty then outputItems rest (item, item2)
    else if item2.isEmpty then outputItems rest (item1, item)
    else outputItems rest (item1, item2)

/-- `check` of a cooking or fuel definition. -/
def checkSingle (method : CraftMethod) (input : CraftInput)
    (recipe : Bytes) : Except Exception Bool :=
  if input.method ≠ method then .ok false
  else
    match input.filtered with
    | [name] => do
        let recName ← craftGetItemName r idef recipe
        .ok (inputItemMatchesRecipe idef name recName)
    -- "wrong number of items in input"
    | _ => .ok false

/-- The names of the recipe, as `initHash` stores them; a single name is a list of one. -/
def readNames : Recipe → Except Exception (List Bytes)
  | .shaped _ _ recipe _ => craftGetItemNames r idef recipe
  | .shapeless _ recipe _ => do
      let names ← craftGetItemNames r idef recipe
      .ok (sortNames names)
  | .toolRepair _ => .ok []
  | .cooking _ recipe _ _ | .fuel recipe _ _ => do
      let name ← craftGetItemName r idef recipe
      .ok [name]

namespace CraftDefinition

/-- The names that were stored, or are read now. -/
def names (r : Reader) (idef : ItemDefManager) (d : CraftDefinition) :
    Except Exception (List Bytes) :=
  match d.recipeNames with
  | some names => .ok names
  | none => readNames r idef d.recipe

/-- "Checks whether the recipe is applicable". -/
def check (r : Reader) (idef : ItemDefManager) (input : CraftInput) (d : CraftDefinition) :
    Except Exception Bool :=
  match d.recipe with
  | .shaped _ width _ _ => checkShaped idef input width (d.names r idef)
  | .shapeless _ recipe _ => checkShapeless idef input recipe.length (d.names r idef)
  | .toolRepair additionalWear =>
    if input.method ≠ .normal then .ok false
    else
      match repairItems input.items (.cleared, .cleared) with
      | none => .ok false
      | some (item1, item2) => .ok (!(craftToolRepair idef item1 item2 additionalWear).isEmpty)
  | .cooking _ recipe _ _ => checkSingle r idef .cooking input recipe
  | .fuel recipe _ _ => checkSingle r idef .fuel input recipe

def getOutput (order : MapOrder) (idef : ItemDefManager) (input : CraftInput) (d : CraftDefinition) :
    CraftOutput :=
  match d.recipe with
  | .shaped output _ _ _ => { item := output }
  | .shapeless output _ _ => { item := output }
  | .toolRepair additionalWear =>
    let (item1, item2) := outputItems input.items (.cleared, .cleared)
    { item := (craftToolRepair idef item1 item2 additionalWear).serialize order }
  | .cooking output _ cooktime _ => { item := output, time := cooktime }
  | .fuel _ burntime _ => { time := burntime }

/-- The names; only called when `initHash` was. -/
def getHash (hash : Bytes → UInt64) (d : CraftDefinition) (type : CraftHashType) : UInt64 :=
  let names := d.recipeNames.getD []
  match d.recipe with
  | .shaped _ _ _ _ => getHashForGrid hash type (sortNames names)
  | .shapeless _ _ _ => getHashForGrid hash type names
  | .toolRepair _ => 2
  | .cooking _ _ _ _ | .fuel _ _ _ =>
    match type with
    | .itemNames => hash names.flatten
    | _ => 1

def initHash (r : Reader) (idef : ItemDefManager) (d : CraftDefinition) :
    Except Exception CraftDefinition :=
  match d.recipe with
  | .toolRepair _ => .ok { d with hashType := .count }
  | recipe =>
    match d.recipeNames with
    | some _ => .ok d
    | none => do
        let names ← readNames r idef recipe
        let hashType := if hasGroupItem names then .count else .itemNames
        .ok { d with recipeNames := some names, hashType := hashType }

end CraftDefinition

end Craft
end AxisEngine
