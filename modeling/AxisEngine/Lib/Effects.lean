import AxisEngine.Lib.Reader

/-!
# Effects — what is done when a computation fails

A computation on a state may fail, and what it has done until then stays done.

* `left` — the state afterwards, in either case;
* `Keeps` — what no step changes, also not one that fails;
* `ofReader`, `update` — a target that is filled while a stream is read;
* `Keeps.bind` — the rule for steps one after the other.
-/

namespace AxisEngine
namespace Lib
namespace Effects

section

variable {ε σ α β : Type}

/-- The state afterwards. -/
def left (x : EStateM ε σ α) (s : σ) : σ :=
  match x s with
  | .ok _ s' => s'
  | .error _ s' => s'

/-- `P` still holds afterwards. -/
def Keeps (P : σ → Prop) (x : EStateM ε σ α) : Prop :=
  ∀ s, P s → P (left x s)

variable {x : EStateM ε σ α} {f : α → EStateM ε σ β} {s : σ} {P : σ → Prop}

theorem bind_apply (x : EStateM ε σ α) (f : α → EStateM ε σ β) (s : σ) :
    (x >>= f) s = EStateM.bind x f s := rfl

namespace Keeps

theorem pure (a : α) : Keeps P (Pure.pure a : EStateM ε σ α) :=
  fun _ hs => hs

theorem throw (e : ε) : Keeps P (MonadExcept.throw e : EStateM ε σ α) :=
  fun _ hs => hs

theorem bind (hx : Keeps P x) (hf : ∀ a, Keeps P (f a)) : Keeps P (x >>= f) := by
  intro s hs
  have hleft := hx s hs
  rw [left, bind_apply, EStateM.bind]
  cases h : x s with
  | ok a s' =>
    rw [left, h] at hleft
    exact hf a s' hleft
  | error e s' =>
    rw [left, h] at hleft
    exact hleft

end Keeps

end

/-! ## A target that is filled -/

section

variable {τ α : Type}

/-- What is read from the stream. -/
def ofReader (r : Reader α) : EStateM String (IStream × τ) α := fun s =>
  match r s.1 with
  | .ok (a, is) => .ok a (is, s.2)
  | .error e => .error e s

def update (g : τ → τ) : EStateM String (IStream × τ) Unit := fun s =>
  .ok () (s.1, g s.2)

/-- `P` of the target. -/
def OnTarget (P : τ → Prop) (s : IStream × τ) : Prop := P s.2

def target : EStateM String (IStream × τ) τ := fun s =>
  .ok s.2 s

variable {P : τ → Prop} {g : τ → τ}

theorem Keeps.ofReader (r : Reader α) : Keeps (OnTarget P) (ofReader r) := by
  intro s hs
  rw [left, Effects.ofReader]
  cases r s.1 with
  | ok p => exact hs
  | error e => exact hs

theorem Keeps.update (h : ∀ t, P t → P (g t)) :
    Keeps (OnTarget P) (update g) :=
  fun s hs => h s.2 hs

theorem Keeps.target : Keeps (OnTarget P) target :=
  fun _ hs => hs

end

end Effects
end Lib
end AxisEngine
