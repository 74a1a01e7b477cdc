import Mathlib.Data.Set.Insert
import Mathlib.Data.List.Induction

/-!
# Prerequisites — what can be had when each item needs others first

An item has a name, and needs some names before it can be taken.

* `Attainable` — the least set of names that holds what is given, and the name of each item that
  needs nothing else;
* `AfterNeeds` — a list takes each item after all that it needs;
* `attainable_iff` — a list that does so, and leaves out only items that miss something, takes all
  that is attainable.
-/

namespace AxisEngine
namespace Lib

variable {α β : Type*} {name : β → α} {needs : β → Set α} {given given' : Set α} {items : Set β}
  {l : List β} {a : α} {b : β}

inductive Attainable (name : β → α) (needs : β → Set α) (given : Set α) (items : Set β) :
    α → Prop where
  | given {a : α} (ha : a ∈ given) : Attainable name needs given items a
  | item {b : β} (hb : b ∈ items)
      (hneeds : ∀ a ∈ needs b, Attainable name needs given items a) :
      Attainable name needs given items (name b)

/-- `Attainable` is below every set that is closed under the items. -/
theorem Attainable.mem_of_closed {s : Set α} (hgiven : ∀ a ∈ given, a ∈ s)
    (hitems : ∀ b ∈ items, (∀ a ∈ needs b, a ∈ s) → name b ∈ s)
    (h : Attainable name needs given items a) : a ∈ s := by
  induction h with
  | given ha => exact hgiven _ ha
  | item hb _ ih => exact hitems _ hb ih

def AfterNeeds (name : β → α) (needs : β → Set α) (given : Set α) (l : List β) : Prop :=
  ∀ pre b post, l = pre ++ b :: post → ∀ a ∈ needs b, a ∈ given ∨ a ∈ pre.map name

theorem AfterNeeds.nil : AfterNeeds name needs given [] := by
  intro pre b post h
  simp at h

theorem afterNeeds_concat : AfterNeeds name needs given (l ++ [b]) ↔
    AfterNeeds name needs given l ∧ ∀ a ∈ needs b, a ∈ given ∨ a ∈ l.map name := by
  constructor
  · intro h
    refine ⟨fun pre x post hl => ?_, h l b [] rfl⟩
    refine h pre x (post ++ [b]) ?_
    rw [hl, List.append_assoc, List.cons_append]
  · rintro ⟨hl, hb⟩ pre x post h
    -- the item is the last one, or one of the list
    rcases List.eq_nil_or_concat post with rfl | ⟨front, last, rfl⟩
    · have hx := List.append_inj' h rfl
      cases hx.1
      cases hx.2
      exact hb
    · have hx : l ++ [b] = (pre ++ x :: front) ++ [last] := by
        rw [h, List.concat_eq_append, List.append_assoc, List.cons_append]
      exact hl pre x front (List.append_inj' hx rfl).1

theorem AfterNeeds.singleton (h : ∀ a ∈ needs b, a ∈ given) : AfterNeeds name needs given [b] :=
  afterNeeds_concat.2 ⟨.nil, fun a ha => .inl (h a ha)⟩

/-- Nothing in the list misses anything. -/
theorem AfterNeeds.needs_mem (h : AfterNeeds name needs given l) (hb : b ∈ l) :
    ∀ a ∈ needs b, a ∈ given ∨ a ∈ l.map name := by
  rcases List.append_of_mem hb with ⟨pre, post, rfl⟩
  intro a ha
  refine (h pre b post rfl a ha).imp_right fun hpre => ?_
  rw [List.map_append]
  exact List.mem_append_left _ hpre

theorem AfterNeeds.mono (h : AfterNeeds name needs given l) (hgiven : given ⊆ given') :
    AfterNeeds name needs given' l :=
  fun pre b post hl a ha => (h pre b post hl a ha).imp_left fun hgave => hgiven hgave

/-- What a first part takes need not be given to the rest. -/
theorem AfterNeeds.append {front : List β} (hfront : AfterNeeds name needs given' front)
    (h : AfterNeeds name needs given l)
    (hgiven : ∀ a ∈ given, a ∈ given' ∨ a ∈ front.map name) :
    AfterNeeds name needs given' (front ++ l) := by
  induction l using List.reverseRecOn with
  | nil => rwa [List.append_nil]
  | append_singleton l b ih =>
    rw [afterNeeds_concat] at h
    rw [← List.append_assoc, afterNeeds_concat]
    refine ⟨ih h.1, fun a ha => ?_⟩
    rw [List.map_append, List.mem_append]
    rcases h.2 a ha with hgave | hl
    · exact (hgiven a hgave).imp_right .inl
    · exact .inr (.inr hl)

section

variable (h : AfterNeeds name needs given l)
  (hl : ∀ b ∈ l, (∀ a ∈ needs b, Attainable name needs given items a) →
    Attainable name needs given items (name b))

include h hl

theorem AfterNeeds.attainable : ∀ a ∈ l.map name, Attainable name needs given items a := by
  induction l using List.reverseRecOn with
  | nil => simp
  | append_singleton l b ih =>
    rw [afterNeeds_concat] at h
    have hfront := ih h.1 fun x hx => hl x (List.mem_append_left _ hx)
    have hlast : Attainable name needs given items (name b) := by
      refine hl b (by simp) fun a ha => ?_
      rcases h.2 a ha with hgave | hmem
      · exact .given hgave
      · exact hfront a hmem
    intro a ha
    rw [List.map_append, List.mem_append] at ha
    rcases ha with ha | ha
    · exact hfront a ha
    · rw [List.map_singleton, List.mem_singleton] at ha
      exact ha ▸ hlast

/-- The order in which the items were taken makes no difference. -/
theorem attainable_iff
    (hrest : ∀ b ∈ items, name b ∈ l.map name ∨ ∃ a ∈ needs b, a ∉ given ∧ a ∉ l.map name) :
    Attainable name needs given items a ↔ a ∈ given ∨ a ∈ l.map name := by
  constructor
  · intro ha
    refine ha.mem_of_closed (s := {a | a ∈ given ∨ a ∈ l.map name}) (fun a => .inl) ?_
    intro b hb hneeds
    rcases hrest b hb with hmem | ⟨x, hx, hgiven, hmem⟩
    · exact .inr hmem
    · exact ((hneeds x hx).elim hgiven hmem).elim
  · rintro (ha | ha)
    · exact .given ha
    · exact h.attainable hl a ha

end

end Lib
end AxisEngine
