import Mathlib.Data.List.Chain

/-!
# InTurn — what opens and closes in turn

Some entries of a log open something, others close it.  The last entry comes first, and at the
beginning it is closed.

* `turns` — the openings and closings;
* `InTurn` — no two openings and no two closings follow each other;
* `isOpen` — how it is now;
* `inTurn_cons` — what one more entry does.
-/

namespace AxisEngine
namespace Lib

variable {α : Type*} (f : α → Option Bool)

/-- `f` says of an entry whether it opens or closes.  The beginning counts as a closing. -/
def turns (log : List α) : List Bool :=
  log.filterMap f ++ [false]

def InTurn (log : List α) : Prop :=
  (turns f log).IsChain (· ≠ ·)

instance (log : List α) : Decidable (InTurn f log) :=
  inferInstanceAs (Decidable ((turns f log).IsChain (· ≠ ·)))

def isOpen (log : List α) : Bool :=
  (turns f log).headD false

variable {f} {a : α} {b : Bool} {log log' : List α}

theorem inTurn_nil : InTurn f [] :=
  List.isChain_singleton false

theorem turns_cons_of_none (h : f a = none) : turns f (a :: log) = turns f log := by
  rw [turns, List.filterMap_cons_none h, turns]

theorem turns_cons_of_some (h : f a = some b) : turns f (a :: log) = b :: turns f log := by
  rw [turns, List.filterMap_cons_some h, turns, List.cons_append]

theorem isOpen_cons_of_some (h : f a = some b) : isOpen f (a :: log) = b := by
  rw [isOpen, turns_cons_of_some h, List.headD_cons]

theorem exists_turns (log : List α) : ∃ rest, turns f log = isOpen f log :: rest := by
  cases hturns : turns f log with
  | nil => exact absurd hturns (List.append_ne_nil_of_right_ne_nil _ (List.cons_ne_nil _ _))
  | cons b rest =>
    refine ⟨rest, ?_⟩
    rw [isOpen, hturns, List.headD_cons]

/-- An opening needs it closed, and a closing needs it open. -/
theorem inTurn_cons (h : f a = some b) :
    InTurn f (a :: log) ↔ b ≠ isOpen f log ∧ InTurn f log := by
  rcases exists_turns (f := f) log with ⟨rest, hrest⟩
  rw [InTurn, turns_cons_of_some h, InTurn, hrest, List.isChain_cons_cons]

/-- What neither opens nor closes changes nothing. -/
theorem InTurn.of_turns_eq (h : turns f log' = turns f log) : InTurn f log' ↔ InTurn f log := by
  rw [InTurn, h, InTurn]

theorem isOpen_of_turns_eq (h : turns f log' = turns f log) : isOpen f log' = isOpen f log := by
  rw [isOpen, h, isOpen]

end Lib
end AxisEngine
