import Mathlib.Data.List.Forall2

/-!
# Returns — a computation that does not throw

* `bind_eq_ok` — what does not throw has two parts that do not;
* `Returns` — a computation that ends with a value, whatever it is;
* `mapM_eq_ok`, `returns_mapM` — the same for all of a list.
-/

namespace AxisEngine
namespace Lib

section

variable {ε α β : Type} {x : Except ε α} {f : α → Except ε β} {l : List α}

@[simp] theorem ok_bind (a : α) (f : α → Except ε β) : (Except.ok a >>= f) = f a := rfl

@[simp] theorem error_bind (e : ε) (f : α → Except ε β) : (Except.error e >>= f) = .error e := rfl

/-- What does not throw has two parts that do not. -/
theorem bind_eq_ok {b : β} : (x >>= f) = .ok b ↔ ∃ a, x = .ok a ∧ f a = .ok b := by
  cases x with
  | error e => simp
  | ok a => simp

theorem mapM_eq_ok {l' : List β} :
    l.mapM f = .ok l' ↔ List.Forall₂ (fun a b => f a = .ok b) l l' := by
  induction l generalizing l' with
  | nil =>
    rw [List.mapM_nil, List.forall₂_nil_left_iff]
    constructor
    · intro h
      cases h
      rfl
    · rintro rfl
      rfl
  | cons a l ih =>
    rw [List.mapM_cons, List.forall₂_cons_left_iff]
    constructor
    · intro h
      rcases bind_eq_ok.1 h with ⟨b, hb, hrest⟩
      rcases bind_eq_ok.1 hrest with ⟨bs, hbs, heq⟩
      cases heq
      exact ⟨b, bs, hb, ih.1 hbs, rfl⟩
    · rintro ⟨b, bs, hb, hbs, rfl⟩
      exact bind_eq_ok.2 ⟨b, hb, bind_eq_ok.2 ⟨bs, ih.2 hbs, rfl⟩⟩

/-- The computation ends with a value. -/
def Returns (x : Except ε α) : Prop := ∃ a, x = .ok a

theorem returns_pure (a : α) : Returns (pure a : Except ε α) :=
  ⟨a, rfl⟩

theorem returns_bind : Returns (x >>= f) ↔ ∃ a, x = .ok a ∧ Returns (f a) := by
  constructor
  · rintro ⟨b, hb⟩
    rcases bind_eq_ok.1 hb with ⟨a, ha, hf⟩
    exact ⟨a, ha, b, hf⟩
  · rintro ⟨a, ha, b, hf⟩
    exact ⟨b, bind_eq_ok.2 ⟨a, ha, hf⟩⟩

theorem returns_ite {c : Prop} [Decidable c] {y : Except ε α} :
    Returns (if c then x else y) ↔ if c then Returns x else Returns y := by
  split <;> rfl

theorem returns_map (g : α → β) : Returns (g <$> x) ↔ Returns x := by
  cases x with
  | error e => exact ⟨fun ⟨b, hb⟩ => (by cases hb), fun ⟨a, ha⟩ => (by cases ha)⟩
  | ok a => exact ⟨fun _ => ⟨a, rfl⟩, fun _ => ⟨g a, rfl⟩⟩

theorem returns_mapM : Returns (l.mapM f) ↔ ∀ a ∈ l, Returns (f a) := by
  induction l with
  | nil => exact ⟨fun _ a ha => absurd ha List.not_mem_nil, fun _ => ⟨[], rfl⟩⟩
  | cons a l ih =>
    rw [List.mapM_cons, returns_bind, List.forall_mem_cons, ← ih]
    constructor
    · rintro ⟨b, hb, hrest⟩
      rcases returns_bind.1 hrest with ⟨bs, hbs, _⟩
      exact ⟨⟨b, hb⟩, bs, hbs⟩
    · rintro ⟨⟨b, hb⟩, bs, hbs⟩
      exact ⟨b, hb, returns_bind.2 ⟨bs, hbs, returns_pure _⟩⟩

end

end Lib
end AxisEngine
