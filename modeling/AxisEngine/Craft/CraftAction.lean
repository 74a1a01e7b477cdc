import AxisEngine.Craft.CraftDefManager
import AxisEngine.Inventory.DropAction
import AxisEngine.Inventory.RoundTrip
import AxisEngine.Util.StringFields
import Mathlib.Algebra.Order.BigOperators.Group.List

/-!
# CraftAction — crafting, and where the replacements go

`ICraftAction::apply` and `getCraftingResult` (`inventorymanager.cpp`).  A craft may put out
replacements; they are collected over all crafts, added to the main list, and what has no room there
is handed to `on_drop`.  The scripts may change every list while they run.

* `ICraftAction.apply`, `craftLoop`, `putAway` — as the source has them, with the replacements of each
  craft and the calls of `on_drop` written down;
* `replacements_kept_iff` — no replacement is lost exactly when `on_drop` takes all it is handed.
-/

namespace AxisEngine
namespace Craft

open Lib Util Inventory

/-! ## The action -/

/-- What crafting goes by. -/
structure CraftRules where
  reader : Reader
  order : MapOrder
  idef : ItemDefManager
  hash : Bytes → UInt64
  manager : CraftDefManager

/-- The state of the scripts, and the lists. -/
structure World (σ ι : Type) where
  lua : σ
  heap : Heap ι

/-- `item_CraftPredict`, `item_OnCraft` with the crafted item and the grid, and the `on_drop` of
an item. -/
structure CraftScripts (σ ι : Type) where
  craftPredict : ItemStack → InventoryList → World σ ι → ItemStack × World σ ι
  onCraft : ItemStack → InventoryList → World σ ι → ItemStack × World σ ι
  onDrop : World σ ι → Bytes → Option (ItemStack → World σ ι → Option ItemStack × World σ ι)

structure ICraftAction where
  /-- 0 means as many as possible. -/
  count : UInt16
  craftInv : InventoryLocation

structure CraftLists (ι : Type) where
  craft : ι
  craftresult : ι
  main : ι

/-- Why there is no result: an exception, a main list that is used without a check, or not enough
fuel for the loops. -/
inductive Failure
  | thrown (e : Exception)
  | nullMainList
  | outOfFuel

def caught {α : Type} : Except Exception α → Except Failure α
  | .ok a => .ok a
  | .error e => .error (.thrown e)

/-- `clist->changeItem(i, ci.items[i])` for every slot. -/
def changeItems (clist : InventoryList) (items : List ItemStack) : InventoryList :=
  items.zipIdx.foldl (fun l s => (l.changeItem s.2 s.1).2) clist

/-- `getCraftingResult`: the result, the replacements that are put out, and the grid. -/
def getCraftingResult (rules : CraftRules) (clist : InventoryList) (decrementInput : Bool) :
    Except Exception (ItemStack × List ItemStack × InventoryList) := do
  let ci : CraftInput :=
    { method := .normal
      width := if clist.width ≠ 0 then clist.width else 3
      items := clist.items }
  match ← rules.manager.getCraftResult rules.reader rules.order rules.idef rules.hash ci
      decrementInput with
  | none => .ok (.cleared, [], clist)
  | some co => do
      let result ← ItemStack.deSerialize rules.reader (some rules.idef) { rest := co.output.item }
      .ok (result, co.outputReplacements,
        if decrementInput then changeItems clist co.items else clist)

/-- The inner loop over `output_replacements`: what is left of `itemstack`, and the stacks. -/
def mergeInto (idef : ItemDefManager) : ItemStack → List ItemStack → ItemStack × List ItemStack
  | itemstack, [] => (itemstack, [])
  | itemstack, old :: olds =>
    if itemstack.name = old.name then
      let (old, itemstack) := old.addItem idef itemstack
      let (itemstack, olds) := mergeInto idef itemstack olds
      (itemstack, old :: olds)
    else
      let (itemstack, olds) := mergeInto idef itemstack olds
      (itemstack, old :: olds)

/-- "Add the new replacements to the list"; `continue` only skips the rest of the inner loop's
body, so every stack is pushed. -/
def addReplacements (idef : ItemDefManager) (temp outputReplacements : List ItemStack) :
    List ItemStack :=
  temp.foldl (fun outs itemstack =>
    let (itemstack, outs) := mergeInto idef itemstack outs
    outs ++ [itemstack]) outputReplacements

section

variable {σ ι : Type} [DecidableEq ι]

def World.setList (w : World σ ι) (a : ι) (l : InventoryList) : World σ ι :=
  { w with heap := Function.update w.heap a l }

/-- The next thing that could be crafted. -/
def predict (rules : CraftRules) (scripts : CraftScripts σ ι) (lists : CraftLists ι)
    (w : World σ ι) : Except Failure (ItemStack × World σ ι) := do
  let (crafted, _) ← caught (getCraftingResult rules (w.heap lists.craft) false)
  .ok (scripts.craftPredict crafted (w.heap lists.craft) w)

/-- "Decrement input and add crafting output": the replacements that are put out. -/
def craftOnce (rules : CraftRules) (scripts : CraftScripts σ ι) (lists : CraftLists ι)
    (w : World σ ι) : Except Failure (List ItemStack × World σ ι) := do
  let savedCraftList := w.heap lists.craft
  let (crafted, temp, grid) ← caught (getCraftingResult rules savedCraftList true)
  let (crafted, w) := scripts.onCraft crafted savedCraftList (w.setList lists.craft grid)
  let result := ((w.heap lists.craftresult).addItemAt rules.idef 0 crafted).2
  .ok (temp, w.setList lists.craftresult result)

/-- What the crafts of a run put out, one by one, and what is collected. -/
structure Crafts (σ ι : Type) where
  crafts : List (List ItemStack)
  outputReplacements : List ItemStack
  world : World σ ι

/-- `while (found && list_craftresult->itemFits(0, crafted))`. -/
def craftLoop (rules : CraftRules) (scripts : CraftScripts σ ι) (lists : CraftLists ι) :
    Nat → ItemStack → Nat → List ItemStack → World σ ι → Except Failure (Crafts σ ι)
  | 0, _, _, _, _ => .error .outOfFuel
  | fuel + 1, crafted, countRemaining, outputReplacements, w =>
    if crafted.isEmpty ∨ ((w.heap lists.craftresult).itemFits rules.idef 0 crafted).1 = false then
      .ok { crafts := [], outputReplacements := outputReplacements, world := w }
    else do
      let (temp, w) ← craftOnce rules scripts lists w
      let outputReplacements := addReplacements rules.idef temp outputReplacements
      if countRemaining = 1 then
        .ok { crafts := [temp], outputReplacements := outputReplacements, world := w }
      else do
        let countRemaining :=
          if countRemaining > 1 then countRemaining - 1 else countRemaining
        let (crafted, w) ← predict rules scripts lists w
        let rest ← craftLoop rules scripts lists fuel crafted countRemaining outputReplacements w
        .ok { rest with crafts := temp :: rest.crafts }

def itemOnDrop (scripts : CraftScripts σ ι) (item : ItemStack) (w : World σ ι) :
    UInt16 × World σ ι :=
  match scripts.onDrop w item.name with
  | none => (returnedCount item none, w)
  | some callback =>
    let (result, w) := callback item w
    (returnedCount item (some result), w)

/-- The loop that drops one stack, and the numbers that the calls give back.  They are not used,
so that `output_replacement` stays what it is. -/
def dropLoop (scripts : CraftScripts σ ι) (outputReplacement : ItemStack) (count : UInt16) :
    Nat → World σ ι → Except Failure (List UInt16 × World σ ι)
  | 0, _ => .error .outOfFuel
  | fuel + 1, w => do
      let (returned, w) := itemOnDrop scripts outputReplacement w
      -- "drop loop didn't decrease count"
      if count ≤ outputReplacement.count then .ok ([returned], w)
      else if outputReplacement.isEmpty then .ok ([returned], w)
      else do
        let (rest, w) ← dropLoop scripts outputReplacement count fuel w
        .ok (returned :: rest, w)

/-- What the main list had no room for is dropped. -/
def dropRest (scripts : CraftScripts σ ι) (outputReplacement : ItemStack) (fuel : Nat)
    (w : World σ ι) : Except Failure (List UInt16 × World σ ι) :=
  if outputReplacement.isEmpty then .ok ([], w)
  else dropLoop scripts outputReplacement outputReplacement.count fuel w

/-- What became of one stack: the main list before and after it, what was left over, and what each
call of `on_drop` with that gave back. -/
structure Put where
  before : InventoryList
  after : InventoryList
  leftover : ItemStack
  returned : List UInt16

/-- "Put the replacements in the inventory or drop them on the floor". -/
def putAway (rules : CraftRules) (scripts : CraftScripts σ ι) (lists : CraftLists ι) (fuel : Nat) :
    List ItemStack → World σ ι → Except Failure (List Put × World σ ι)
  | [], w => .ok ([], w)
  | outputReplacement :: rest, w => do
      let before := w.heap lists.main
      let (outputReplacement, after) := before.addItem rules.idef outputReplacement
      let (returned, w) ← dropRest scripts outputReplacement fuel (w.setList lists.main after)
      let (puts, w) ← putAway rules scripts lists fuel rest w
      .ok ({ before := before, after := after, leftover := outputReplacement, returned := returned }
        :: puts, w)

/-- A run of `apply`. -/
structure CraftRun (σ ι : Type) where
  crafts : List (List ItemStack)
  puts : List Put
  world : World σ ι

/-- `apply` for lists that exist. -/
def applyLists (fuel : Nat) (rules : CraftRules) (scripts : CraftScripts σ ι)
    (lists : CraftLists ι) (count : UInt16) (w : World σ ι) : Except Failure (CraftRun σ ι) := do
  let (crafted, w) ← predict rules scripts lists w
  let made ← craftLoop rules scripts lists fuel crafted count.toNat [] w
  let (puts, w) ← putAway rules scripts lists fuel made.outputReplacements made.world
  .ok { crafts := made.crafts, puts := puts, world := w }

def ICraftAction.apply {ν : Type} (fuel : Nat) (rules : CraftRules) (scripts : CraftScripts σ ι)
    (act : ICraftAction) (mgr : InventoryManager ν ι) (lua : σ) : Except Failure (CraftRun σ ι) :=
  let w : World σ ι := { lua := lua, heap := mgr.heap }
  match mgr.findList act.craftInv (ascii "craft"), mgr.findList act.craftInv (ascii "craftresult") with
  | some craft, some craftresult =>
    if (mgr.heap craftresult).getSize < 1 then .ok { crafts := [], puts := [], world := w }
    else
      match mgr.findList act.craftInv (ascii "main") with
      | some main => applyLists fuel rules scripts ⟨craft, craftresult, main⟩ act.count w
      | none => .error .nullMainList
  | _, _ => .ok { crafts := [], puts := [], world := w }

end

/-! ## What is counted -/

def amounts (kind : Bytes × Metadata) (items : List ItemStack) : Nat :=
  (items.map (ItemStack.amount kind)).sum

/-- How many items of a kind the calls of `on_drop` took. -/
def Put.taken (kind : Bytes × Metadata) (p : Put) : Nat :=
  (p.returned.map fun back =>
    ItemStack.amount kind { p.leftover with count := p.leftover.count - back }).sum

section

variable {σ ι : Type}

namespace CraftRun

variable (kind : Bytes × Metadata) (r : CraftRun σ ι)

def produced : Nat :=
  amounts kind r.crafts.flatten

def added : Int :=
  (r.puts.map fun p => (p.after.total kind : Int) - p.before.total kind).sum

def taken : Nat :=
  (r.puts.map (Put.taken kind)).sum

end CraftRun

/-- No replacement is lost, and there are no more crafts than asked for. -/
structure Kept (count : UInt16) (r : CraftRun σ ι) : Prop where
  replacements : ∀ kind, (r.produced kind : Int) = r.added kind + r.taken kind
  crafts_le : 1 ≤ count.toNat → r.crafts.length ≤ count.toNat

end

/-! ## Collecting -/

section

variable {kind : Bytes × Metadata} {items : List ItemStack} (kind : Bytes × Metadata)

theorem amounts_cons (item : ItemStack) (items : List ItemStack) :
    amounts kind (item :: items) = ItemStack.amount kind item + amounts kind items :=
  List.sum_cons

theorem amounts_append (items items' : List ItemStack) :
    amounts kind (items ++ items') = amounts kind items + amounts kind items' := by
  rw [amounts, List.map_append, List.sum_append]
  rfl

theorem amounts_mergeInto (idef : ItemDefManager) (item : ItemStack) (outs : List ItemStack) :
    ItemStack.amount kind (mergeInto idef item outs).1 + amounts kind (mergeInto idef item outs).2 =
      ItemStack.amount kind item + amounts kind outs := by
  induction outs generalizing item with
  | nil => rfl
  | cons old olds ih =>
    rw [mergeInto]
    split
    · have hadd := ItemStack.amount_addItem kind idef old item
      have hrest := ih (old.addItem idef item).2
      simp only [amounts_cons]
      omega
    · have hrest := ih item
      simp only [amounts_cons]
      omega

/-- Merging loses nothing. -/
theorem amounts_addReplacements (idef : ItemDefManager) (temp outs : List ItemStack) :
    amounts kind (addReplacements idef temp outs) = amounts kind temp + amounts kind outs := by
  induction temp generalizing outs with
  | nil => exact (Nat.zero_add _).symm
  | cons item temp ih =>
    have hmerge := amounts_mergeInto kind idef item outs
    have hnone : amounts kind [] = 0 := rfl
    calc
      amounts kind (addReplacements idef (item :: temp) outs)
          = amounts kind temp +
            amounts kind ((mergeInto idef item outs).2 ++ [(mergeInto idef item outs).1]) :=
        ih _
      _ = amounts kind (item :: temp) + amounts kind outs := by
        rw [amounts_append, amounts_cons, amounts_cons, hnone]
        omega

end

section

variable {σ ι : Type} [DecidableEq ι] {rules : CraftRules} {scripts : CraftScripts σ ι}
variable {lists : CraftLists ι} {fuel countRemaining : Nat} {crafted : ItemStack}
variable {outs : List ItemStack} {w w' : World σ ι} {made : Crafts σ ι} {puts : List Put}

/-- What is collected is what the crafts put out. -/
theorem amounts_craftLoop (kind : Bytes × Metadata)
    (h : craftLoop rules scripts lists fuel crafted countRemaining outs w = .ok made) :
    amounts kind made.outputReplacements = amounts kind made.crafts.flatten + amounts kind outs := by
  induction fuel generalizing crafted countRemaining outs w made with
  | zero => cases h
  | succ fuel ih =>
    rw [craftLoop] at h
    split at h
    · cases h
      exact (Nat.zero_add _).symm
    · rcases bind_eq_ok.1 h with ⟨⟨temp, w₁⟩, -, h⟩
      dsimp only at h
      have hcollect := amounts_addReplacements kind rules.idef temp outs
      split at h
      · cases h
        simpa using hcollect
      · rcases bind_eq_ok.1 h with ⟨⟨next, w₂⟩, -, h⟩
        rcases bind_eq_ok.1 h with ⟨rest, hrest, h⟩
        cases h
        have hlater := ih hrest
        rw [List.flatten_cons, amounts_append]
        dsimp only
        omega

theorem length_craftLoop (hcount : 1 ≤ countRemaining)
    (h : craftLoop rules scripts lists fuel crafted countRemaining outs w = .ok made) :
    made.crafts.length ≤ countRemaining := by
  induction fuel generalizing crafted countRemaining outs w made with
  | zero => cases h
  | succ fuel ih =>
    rw [craftLoop] at h
    split at h
    · cases h
      exact Nat.zero_le _
    · rcases bind_eq_ok.1 h with ⟨⟨temp, w₁⟩, -, h⟩
      dsimp only at h
      split at h
      · cases h
        exact hcount
      · rename_i hlast
        rcases bind_eq_ok.1 h with ⟨⟨next, w₂⟩, -, h⟩
        rcases bind_eq_ok.1 h with ⟨rest, hrest, h⟩
        cases h
        rw [if_pos (by omega)] at hrest
        have hlater := ih (by omega) hrest
        rw [List.length_cons]
        omega

/-! ## Putting away -/

omit [DecidableEq ι] in
/-- The call does not change the stack, so the first one ends the loop. -/
theorem dropLoop_eq (item : ItemStack) :
    dropLoop scripts item item.count (fuel + 1) w =
      .ok ([(itemOnDrop scripts item w).1], (itemOnDrop scripts item w).2) := by
  rw [dropLoop]
  exact if_pos (UInt16.le_refl _)

/-- What `putAway` does with one stack. -/
structure Settled (scripts : CraftScripts σ ι) (item : ItemStack) (p : Put) : Prop where
  total_eq : ∀ kind, p.after.total kind + ItemStack.amount kind p.leftover =
    p.before.total kind + ItemStack.amount kind item
  returned_eq : (p.leftover.isEmpty = true ∧ p.returned = []) ∨
    (p.leftover.isEmpty = false ∧ ∃ w, p.returned = [(itemOnDrop scripts p.leftover w).1])

theorem settled_putAway (h : putAway rules scripts lists fuel outs w = .ok (puts, w')) :
    List.Forall₂ (Settled scripts) outs puts := by
  induction outs generalizing w puts with
  | nil =>
    cases h
    exact .nil
  | cons item outs ih =>
    rw [putAway] at h
    rcases bind_eq_ok.1 h with ⟨⟨returned, w₁⟩, hdrop, h⟩
    rcases bind_eq_ok.1 h with ⟨⟨rest, w₂⟩, hrest, h⟩
    cases h
    refine .cons ⟨fun kind => InventoryList.total_addItem kind _ _ _, ?_⟩ (ih hrest)
    rw [dropRest] at hdrop
    split at hdrop
    · rename_i hempty
      cases hdrop
      exact .inl ⟨hempty, rfl⟩
    · rename_i hleft
      refine .inr ⟨Bool.eq_false_iff.2 hleft, ?_⟩
      cases fuel with
      | zero => cases hdrop
      | succ fuel =>
        rw [dropLoop_eq] at hdrop
        cases hdrop
        exact ⟨_, rfl⟩

/-- `on_drop` takes some of what it is handed. -/
def TakesSome (scripts : CraftScripts σ ι) : Prop :=
  ∀ item w, item.isEmpty = false → (itemOnDrop scripts item w).1 < item.count

section

variable {item : ItemStack} {p : Put}
omit [DecidableEq ι]

/-- What is left over is taken, or given back and forgotten. -/
theorem Settled.taken_le (h : Settled scripts item p) (htakes : TakesSome scripts)
    (kind : Bytes × Metadata) : p.taken kind ≤ ItemStack.amount kind p.leftover := by
  rw [Put.taken]
  rcases h.returned_eq with ⟨-, hnone⟩ | ⟨hleft, w, hone⟩
  · rw [hnone]
    exact Nat.zero_le _
  · have hback := UInt16.lt_iff_toNat_lt.1 (htakes p.leftover w hleft)
    rw [hone, List.map_singleton, List.sum_singleton, ItemStack.amount, ItemStack.amount]
    split
    · dsimp only
      rw [ItemStack.toNat_sub_of_le' hback.le]
      omega
    · exact le_rfl

theorem Settled.taken_eq (h : Settled scripts item p) (hall : ∀ back ∈ p.returned, back = 0)
    (kind : Bytes × Metadata) : p.taken kind = ItemStack.amount kind p.leftover := by
  rw [Put.taken]
  rcases h.returned_eq with ⟨hempty, hnone⟩ | ⟨hleft, w, hone⟩
  · rw [hnone, amount_eq_zero (ItemStack.isEmpty_iff.1 hempty)]
    rfl
  · have hback := hall _ (hone ▸ List.mem_singleton_self _)
    rw [hone, List.map_singleton, List.sum_singleton, hback, UInt16.sub_zero]

/-- What is given back is missing. -/
theorem Settled.taken_lt (h : Settled scripts item p) (htakes : TakesSome scripts) {back : UInt16}
    (hback : back ∈ p.returned) (hne : back ≠ 0) :
    p.taken (p.leftover.name, p.leftover.metadata) <
      ItemStack.amount (p.leftover.name, p.leftover.metadata) p.leftover := by
  rw [Put.taken]
  rcases h.returned_eq with ⟨-, hnone⟩ | ⟨hleft, w, hone⟩
  · rw [hnone] at hback
    cases hback
  · have hlt := UInt16.lt_iff_toNat_lt.1 (htakes p.leftover w hleft)
    rw [hone, List.mem_singleton] at hback
    rw [← hback] at hlt hone
    have hpos : back.toNat ≠ 0 := fun h0 => hne (UInt16.toNat_inj.1 h0)
    rw [hone, List.map_singleton, List.sum_singleton, ItemStack.amount, ItemStack.amount,
      if_pos rfl, if_pos rfl]
    dsimp only
    rw [ItemStack.toNat_sub_of_le' hlt.le]
    omega

/-- What is neither added nor taken is what is left over and not taken. -/
theorem amounts_settled (h : List.Forall₂ (Settled scripts) outs puts) (kind : Bytes × Metadata) :
    (amounts kind outs : Int) =
      (puts.map fun p => (p.after.total kind : Int) - p.before.total kind).sum +
        (puts.map fun p => ItemStack.amount kind p.leftover).sum := by
  induction h with
  | nil => rfl
  | cons hone _ ih =>
    have htotal := hone.total_eq kind
    rw [amounts_cons, List.map_cons, List.map_cons, List.sum_cons, List.sum_cons]
    omega

theorem taken_eq_iff (h : List.Forall₂ (Settled scripts) outs puts) (htakes : TakesSome scripts) :
    (∀ kind, (puts.map (Put.taken kind)).sum =
        (puts.map fun p => ItemStack.amount kind p.leftover).sum) ↔
      ∀ p ∈ puts, ∀ back ∈ p.returned, back = 0 := by
  have hsettled : ∀ p ∈ puts, ∃ item, Settled scripts item p := by
    clear htakes
    induction h with
    | nil =>
      intro p hp
      cases hp
    | cons hone _ ih => exact List.forall_mem_cons.2 ⟨⟨_, hone⟩, ih⟩
  constructor
  · intro heq p hp back hback
    by_contra hne
    rcases hsettled p hp with ⟨item, hitem⟩
    have hlt : (puts.map (Put.taken (p.leftover.name, p.leftover.metadata))).sum <
        (puts.map fun p' =>
          ItemStack.amount (p.leftover.name, p.leftover.metadata) p'.leftover).sum := by
      refine List.sum_lt_sum _ _ (fun p' hp' => ?_) ⟨p, hp, hitem.taken_lt htakes hback hne⟩
      rcases hsettled p' hp' with ⟨item', hitem'⟩
      exact hitem'.taken_le htakes _
    exact absurd (heq _) hlt.ne
  · intro hall kind
    have hsame : ∀ p ∈ puts, p.taken kind = ItemStack.amount kind p.leftover := by
      intro p hp
      rcases hsettled p hp with ⟨item, hitem⟩
      exact hitem.taken_eq (hall p hp) kind
    rw [List.map_congr_left hsame]

end

end

/-! ## The action as a whole -/

section

variable {σ ι ν : Type} [DecidableEq ι]

/-- No replacement is lost if and only if every call of `on_drop` takes all that it is handed. -/
theorem replacements_kept_iff (fuel : Nat) (rules : CraftRules) (scripts : CraftScripts σ ι)
    (act : ICraftAction) (mgr : InventoryManager ν ι) (lua : σ) (r : CraftRun σ ι)
    (htakes : TakesSome scripts) (hr : act.apply fuel rules scripts mgr lua = .ok r) :
    Kept act.count r ↔ ∀ p ∈ r.puts, ∀ back ∈ p.returned, back = 0 := by
  have hnothing : ∀ w : World σ ι, Kept act.count { crafts := [], puts := [], world := w } ↔
      ∀ p ∈ ([] : List Put), ∀ back ∈ p.returned, back = 0 := by
    intro w
    refine iff_of_true ⟨fun _ => rfl, fun _ => Nat.zero_le _⟩ ?_
    intro p hp
    cases hp
  rw [ICraftAction.apply] at hr
  split at hr
  · split at hr
    · cases hr
      exact hnothing _
    · split at hr
      · rcases bind_eq_ok.1 hr with ⟨⟨crafted, w⟩, -, hr⟩
        rcases bind_eq_ok.1 hr with ⟨made, hmade, hr⟩
        rcases bind_eq_ok.1 hr with ⟨⟨puts, w'⟩, hputs, hr⟩
        cases hr
        have hsettled := settled_putAway hputs
        rw [← taken_eq_iff hsettled htakes]
        -- what the crafts put out is what was collected
        have hcollected : ∀ kind, amounts kind made.outputReplacements =
            amounts kind made.crafts.flatten := fun kind => amounts_craftLoop kind hmade
        constructor
        · intro h kind
          have hkept := h.replacements kind
          have hput := amounts_settled hsettled kind
          simp only [CraftRun.produced, CraftRun.added, CraftRun.taken] at hkept
          rw [hcollected] at hput
          omega
        · intro h
          refine ⟨fun kind => ?_, fun hcount => length_craftLoop hcount hmade⟩
          have hput := amounts_settled hsettled kind
          have htaken := h kind
          simp only [CraftRun.produced, CraftRun.added, CraftRun.taken]
          rw [hcollected] at hput
          omega
      · cases hr
  · cases hr
    exact hnothing _

end

/-- Air is made of one block that leaves two apples; it is the only thing that can be crafted. -/
noncomputable def oneCraft : CraftRules where
  reader := strict
  order := someOrder
  idef := .builtin
  hash := fun _ => 0
  manager :=
    { craftDefs := fun type _ =>
        if type = .unhashed then
          [construct 0 (.shapeless (ascii "air") [ascii "ignore"]
            [(ascii "ignore", ascii "default:apple 2")])]
        else [] }

/-- `on_drop` takes one item of each stack, and the other scripts do nothing. -/
def takingOne : CraftScripts Unit Bytes where
  craftPredict := fun crafted _ w => (crafted, w)
  onCraft := fun crafted _ w => (crafted, w)
  onDrop := fun _ _ => some fun item w => (some { item with count := item.count - 1 }, w)

/-- The block is there twice, and the main list has no slots. -/
def fullInventory : InventoryManager Unit Bytes where
  getInventory := fun _ => some ()
  getList := fun _ listname => some listname
  heap := fun listname =>
    { name := listname
      items :=
        if listname = ascii "craft" then
          [{ name := ascii "ignore", count := 2, wear := 0, metadata := ∅ }]
        else if listname = ascii "craftresult" then [.cleared]
        else []
      length_lt := by split_ifs <;> decide }

def craftOne : ICraftAction where
  count := 1
  craftInv := .player (ascii "sam")

theorem takesSome_takingOne : TakesSome takingOne := by
  intro item w hitem
  have hne : item.count.toNat ≠ 0 := fun h0 =>
    Bool.eq_false_iff.1 hitem (ItemStack.isEmpty_iff.2 h0)
  have hone : (1 : UInt16).toNat = 1 := rfl
  show item.count - 1 < item.count
  rw [UInt16.lt_iff_toNat_lt, ItemStack.toNat_sub_of_le' (by omega)]
  omega

/-- Two apples are put out, none has room, and `on_drop` took one of them. -/
def OneOfTwo (r : CraftRun Unit Bytes) : Prop :=
  r.produced (ascii "default:apple", ∅) = 2 ∧ r.added (ascii "default:apple", ∅) = 0 ∧
    r.taken (ascii "default:apple", ∅) = 1

instance (r : CraftRun Unit Bytes) : Decidable (OneOfTwo r) :=
  inferInstanceAs (Decidable (_ ∧ _ ∧ _))

theorem apply_oneCraft : ∃ r, craftOne.apply 1 oneCraft takingOne fullInventory () = .ok r ∧
    OneOfTwo r := by
  have hrun : (craftOne.apply 1 oneCraft takingOne fullInventory ()).toOption.any
      (fun r => decide (OneOfTwo r)) = true := by
    decide +kernel
  cases happly : craftOne.apply 1 oneCraft takingOne fullInventory () with
  | error e =>
    rw [happly] at hrun
    cases hrun
  | ok r =>
    rw [happly] at hrun
    exact ⟨r, rfl, of_decide_eq_true hrun⟩

theorem replacements_kept_iff_oneCraft :
    ∃ r, craftOne.apply 1 oneCraft takingOne fullInventory () = .ok r ∧
      (Kept craftOne.count r ↔ ∀ p ∈ r.puts, ∀ back ∈ p.returned, back = 0) := by
  rcases apply_oneCraft with ⟨r, hr, -⟩
  exact ⟨r, hr, replacements_kept_iff 1 oneCraft takingOne craftOne fullInventory () r
    takesSome_takingOne hr⟩

/-- The main list is full and `on_drop` takes one of two apples: the other one is gone. -/
theorem replacement_lost :
    ∃ r, craftOne.apply 1 oneCraft takingOne fullInventory () = .ok r ∧ OneOfTwo r ∧
      ¬ Kept craftOne.count r := by
  rcases apply_oneCraft with ⟨r, hr, htwo, hadded, htaken⟩
  refine ⟨r, hr, ⟨htwo, hadded, htaken⟩, fun h => ?_⟩
  have hkept := h.replacements (ascii "default:apple", ∅)
  rw [htwo, hadded, htaken] at hkept
  exact absurd hkept (by decide)

end Craft
end AxisEngine
