import AxisEngine.Lib.FixedSteps
import Mathlib.Algebra.BigOperators.Group.List.Basic
import Mathlib.Algebra.Order.BigOperators.Group.List
import Mathlib.Data.Rat.Floor
import Mathlib.Tactic.NormNum

/-!
# CameraFx — springs that move the camera (`client/camera_fx.cpp`)

A frame is cut into steps of 1/240 s, and what is left of it is carried into the next one.  A spring
that is at rest when a frame begins is not stepped and comes back to zero.  The numbers are rational
here; the oscillations, which do not touch the springs, are left out.

* `Spring`, `CameraFx` — three springs, two of which go together, and the time that is left;
* `step` — one frame;
* `run_sameTime` — the same time in other frames leaves the same springs.
-/

namespace AxisEngine
namespace Client

open Lib

structure V3f where
  x : ℚ := 0
  y : ℚ := 0
  z : ℚ := 0
  deriving DecidableEq

namespace V3f

def add (a b : V3f) : V3f :=
  ⟨a.x + b.x, a.y + b.y, a.z + b.z⟩

def sub (a b : V3f) : V3f :=
  ⟨a.x - b.x, a.y - b.y, a.z - b.z⟩

def neg (a : V3f) : V3f :=
  ⟨-a.x, -a.y, -a.z⟩

def scale (a : V3f) (s : ℚ) : V3f :=
  ⟨a.x * s, a.y * s, a.z * s⟩

def getLengthSQ (a : V3f) : ℚ :=
  a.x * a.x + a.y * a.y + a.z * a.z

end V3f

/-! ## Constants -/

def fxStep : ℚ := 1 / 240
def fxMaxCatchup : ℚ := 1 / 4
def fxRestValue : ℚ := 1 / 100000
def fxRestVelocity : ℚ := 1 / 10000

theorem fxStep_pos : 0 < fxStep := by
  rw [fxStep]
  norm_num

/-! ## Springs -/

structure Spring where
  value : V3f := {}
  velocity : V3f := {}
  stiffness : ℚ := 90
  damping : ℚ := 19
  deriving DecidableEq

namespace Spring

def kick (s : Spring) (impulse : V3f) (newStiffness newDamping : ℚ) : Spring :=
  { s with
    velocity := s.velocity.add impulse
    stiffness := if newStiffness > 0 then newStiffness else s.stiffness
    damping := if newDamping ≥ 0 then newDamping else s.damping }

/-- First the velocity, then the value with the new velocity. -/
def step (s : Spring) (dtime : ℚ) : Spring :=
  let acceleration := (s.value.neg.scale s.stiffness).sub (s.velocity.scale s.damping)
  let velocity := s.velocity.add (acceleration.scale dtime)
  { s with
    value := s.value.add (velocity.scale dtime)
    velocity := velocity }

def isResting (s : Spring) : Bool :=
  s.value.getLengthSQ < fxRestValue * fxRestValue &&
    s.velocity.getLengthSQ < fxRestVelocity * fxRestVelocity

def reset (s : Spring) : Spring :=
  { s with
    value := {}
    velocity := {} }

/-- `steps` of the steps of a frame, or none and back to zero. -/
def advance (s : Spring) (active : Bool) (steps : ℕ) : Spring :=
  if active then (fun s : Spring => s.step fxStep)^[steps] s else s.reset

end Spring

/-- `leftover`: less than a step. -/
structure CameraFx where
  rotation : Spring := {}
  pushRot : Spring := {}
  pushPos : Spring := {}
  leftover : {t : ℚ // 0 ≤ t ∧ t < fxStep} := ⟨0, le_refl 0, fxStep_pos⟩

namespace CameraFx

variable (fx : CameraFx)

def addRotation (impulse : V3f) (stiffness damping : ℚ) : CameraFx :=
  { fx with rotation := fx.rotation.kick impulse stiffness damping }

def addPush (rotImpulse posImpulse : V3f) (stiffness damping : ℚ) : CameraFx :=
  { fx with
    pushRot := fx.pushRot.kick rotImpulse stiffness damping
    pushPos := fx.pushPos.kick posImpulse stiffness damping }

def rotationActive : Bool :=
  !fx.rotation.isResting

def pushActive : Bool :=
  !fx.pushRot.isResting || !fx.pushPos.isResting

/-- The time of a frame with what was left before it. -/
def frameTime (dtime : ℚ) : ℚ :=
  fx.leftover + min dtime fxMaxCatchup

theorem frameTime_nonneg (fx : CameraFx) {dtime : ℚ} (h : 0 < dtime) : 0 ≤ fx.frameTime dtime := by
  refine add_nonneg fx.leftover.2.1 (le_min h.le ?_)
  rw [fxMaxCatchup]
  norm_num

def step (dtime : ℚ) : CameraFx :=
  if h : 0 < dtime then
    let time := fx.frameTime dtime
    { rotation := fx.rotation.advance fx.rotationActive (steps fxStep time)
      pushRot := fx.pushRot.advance fx.pushActive (steps fxStep time)
      pushPos := fx.pushPos.advance fx.pushActive (steps fxStep time)
      leftover := ⟨remainder fxStep time, remainder_nonneg fxStep_pos (fx.frameTime_nonneg h),
        remainder_lt fxStep_pos⟩ }
  else fx

def run (frames : List ℚ) : CameraFx :=
  frames.foldl step fx

/-- What holds whenever a frame begins. -/
def Throughout (P : CameraFx → Bool) : CameraFx → List ℚ → Prop
  | _, [] => True
  | fx, dtime :: frames => P fx ∧ Throughout P (fx.step dtime) frames

instance decidableThroughout (P : CameraFx → Bool) :
    ∀ (fx : CameraFx) (frames : List ℚ), Decidable (Throughout P fx frames)
  | _, [] => inferInstanceAs (Decidable True)
  | fx, dtime :: frames =>
    have := decidableThroughout P (fx.step dtime) frames
    inferInstanceAs (Decidable (_ ∧ _))

/-- No frame is too long, or goes back in time. -/
def Frames (frames : List ℚ) : Prop :=
  ∀ dtime ∈ frames, 0 ≤ dtime ∧ dtime ≤ fxMaxCatchup

variable {fx : CameraFx} {frames frames' : List ℚ} {dtime : ℚ}

/-! ## One frame -/

/-- The spring after some steps. -/
def stepped (s : Spring) (n : ℕ) : Spring :=
  (fun s : Spring => s.step fxStep)^[n] s

theorem stepped_add (s : Spring) (m n : ℕ) : stepped s (m + n) = stepped (stepped s m) n := by
  rw [stepped, add_comm, Function.iterate_add_apply]
  rfl

/-- The steps of a frame, which has as many as its time says also when it takes no time. -/
theorem step_cases (fx : CameraFx) (h : 0 ≤ dtime ∧ dtime ≤ fxMaxCatchup) :
    ((fx.step dtime).leftover : ℚ) = remainder fxStep (fx.leftover + dtime) ∧
    (fx.rotationActive = true →
      (fx.step dtime).rotation = stepped fx.rotation (steps fxStep (fx.leftover + dtime))) ∧
    (fx.pushActive = true →
      (fx.step dtime).pushRot = stepped fx.pushRot (steps fxStep (fx.leftover + dtime)) ∧
      (fx.step dtime).pushPos = stepped fx.pushPos (steps fxStep (fx.leftover + dtime))) := by
  rw [step]
  by_cases hpos : 0 < dtime
  · have htime : fx.frameTime dtime = fx.leftover + dtime := by
      rw [frameTime, min_eq_left h.2]
    simp only [dif_pos hpos, htime]
    refine ⟨trivial, fun hactive => ?_, fun hactive => ⟨?_, ?_⟩⟩
    · exact if_pos hactive
    · exact if_pos hactive
    · exact if_pos hactive
  · have hzero : dtime = 0 := le_antisymm (not_lt.1 hpos) h.1
    have hnone := steps_of_lt fxStep_pos fx.leftover.2.2
    rw [dif_neg hpos, hzero, add_zero, hnone, remainder_of_lt fxStep_pos fx.leftover.2.2]
    exact ⟨rfl, fun _ => rfl, fun _ => ⟨rfl, rfl⟩⟩

/-! ## Any frames -/

theorem frames_sum_nonneg (h : Frames frames) : 0 ≤ frames.sum :=
  List.sum_nonneg fun dtime hmem => (h dtime hmem).1

/-- Only the time that the frames take together counts. -/
theorem run_eq (fx : CameraFx) (h : Frames frames) :
    ((fx.run frames).leftover : ℚ) = remainder fxStep (fx.leftover + frames.sum) ∧
    (Throughout rotationActive fx frames →
      (fx.run frames).rotation = stepped fx.rotation (steps fxStep (fx.leftover + frames.sum))) ∧
    (Throughout pushActive fx frames →
      (fx.run frames).pushRot = stepped fx.pushRot (steps fxStep (fx.leftover + frames.sum)) ∧
      (fx.run frames).pushPos = stepped fx.pushPos (steps fxStep (fx.leftover + frames.sum))) := by
  induction frames generalizing fx with
  | nil =>
    have hnone := steps_of_lt fxStep_pos fx.leftover.2.2
    rw [List.sum_nil, add_zero, hnone, remainder_of_lt fxStep_pos fx.leftover.2.2]
    exact ⟨rfl, fun _ => rfl, fun _ => ⟨rfl, rfl⟩⟩
  | cons dtime frames ih =>
    have hframe := h dtime List.mem_cons_self
    have hrest : Frames frames := fun d hd => h d (List.mem_cons_of_mem _ hd)
    have hsum := frames_sum_nonneg hrest
    rcases fx.step_cases hframe with ⟨hleft, hrot, hpush⟩
    rcases ih (fx.step dtime) hrest with ⟨ihleft, ihrot, ihpush⟩
    have hsteps := steps_add (t := fx.leftover + dtime) fxStep_pos hsum
    have hremainder := remainder_add (t := fx.leftover + dtime) fxStep_pos hsum
    rw [hleft] at ihleft ihrot ihpush
    rw [List.sum_cons, ← add_assoc, hsteps, hremainder]
    refine ⟨ihleft, fun hactive => ?_, fun hactive => ⟨?_, ?_⟩⟩
    · rw [stepped_add, ← hrot hactive.1]
      exact ihrot hactive.2
    · rw [stepped_add, ← (hpush hactive.1).1]
      exact (ihpush hactive.2).1
    · rw [stepped_add, ← (hpush hactive.1).2]
      exact (ihpush hactive.2).2

/-- The same time in other frames: what is left of it is the same, and so is each spring that moves
whenever a frame begins. -/
theorem run_sameTime (fx : CameraFx) (frames frames' : List ℚ) (h : Frames frames)
    (h' : Frames frames') (hsum : frames.sum = frames'.sum) :
    (fx.run frames).leftover = (fx.run frames').leftover ∧
    (Throughout rotationActive fx frames → Throughout rotationActive fx frames' →
      (fx.run frames).rotation = (fx.run frames').rotation) ∧
    (Throughout pushActive fx frames → Throughout pushActive fx frames' →
      (fx.run frames).pushRot = (fx.run frames').pushRot ∧
      (fx.run frames).pushPos = (fx.run frames').pushPos) := by
  rcases fx.run_eq h with ⟨hleft, hrot, hpush⟩
  rcases fx.run_eq h' with ⟨hleft', hrot', hpush'⟩
  rw [← hsum] at hleft' hrot' hpush'
  refine ⟨Subtype.ext (hleft.trans hleft'.symm), fun hactive hactive' => ?_,
    fun hactive hactive' => ⟨?_, ?_⟩⟩
  · rw [hrot hactive, hrot' hactive']
  · rw [(hpush hactive).1, (hpush' hactive').1]
  · rw [(hpush hactive).2, (hpush' hactive').2]

/-- The camera after a kick and a push. -/
def kicked : CameraFx :=
  (({} : CameraFx).addRotation { x := 1 } 90 19).addPush { y := 1 } { z := 1 } 120 0

theorem frames_halves : Frames [1 / 480, 1 / 480] ∧ Frames [1 / 240] := by
  constructor
  · intro dtime h
    have hone : dtime = 1 / 480 := by simpa using h
    rw [hone, fxMaxCatchup]
    norm_num
  · intro dtime h
    have hone : dtime = 1 / 240 := by simpa using h
    rw [hone, fxMaxCatchup]
    norm_num

theorem run_sameTime_halves :
    (kicked.run [1 / 480, 1 / 480]).leftover = (kicked.run [1 / 240]).leftover ∧
    (kicked.run [1 / 480, 1 / 480]).rotation = (kicked.run [1 / 240]).rotation ∧
    (kicked.run [1 / 480, 1 / 480]).pushRot = (kicked.run [1 / 240]).pushRot ∧
    (kicked.run [1 / 480, 1 / 480]).pushPos = (kicked.run [1 / 240]).pushPos := by
  have hsame := run_sameTime kicked [1 / 480, 1 / 480] [1 / 240] frames_halves.1 frames_halves.2
    (by norm_num)
  exact ⟨hsame.1, hsame.2.1 (by decide +kernel) (by decide +kernel),
    hsame.2.2 (by decide +kernel) (by decide +kernel)⟩

end CameraFx

end Client
end AxisEngine
