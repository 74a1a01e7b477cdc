import AxisEngine.Lib.Transition
import Mathlib.Data.List.Perm.Basic

/-!
# MutexedQueue — a queue between threads (`util/container.h`)

A semaphore counts the elements.  A pop waits for it, and then takes an element without looking
whether there is one.  A section of `iterLocked` may erase elements; when it is over it posts to the
semaphore, although it has put nothing into the queue.

* `MutexedQueue`, `QueueAct`, `MutexedQueue.step` — the queue, and what the threads do, one locked
  section at a time;
* `Finds`, `Balanced` — a pop finds an element, and no element is lost or returned twice;
* `finds_iff` — the queue is right as long as nobody has used `iterLocked`.
-/

namespace AxisEngine
namespace Util

open Lib

/-- `granted`: pops whose wait has succeeded.  `posts`: sections that are over and have not posted
yet.  The last three are what has happened so far. -/
structure MutexedQueue (T : Type*) where
  queue : List T := []
  signal : ℕ := 0
  granted : ℕ := 0
  posts : ℕ := 0
  pushed : List T := []
  returned : List T := []
  erased : List T := []

/-- `timeout`: a wait has failed.  `erase`: a section that goes through the queue and erases the
elements that are marked. -/
inductive QueueAct (T : Type*) where
  | push (t : T)
  | wait
  | timeout
  | popFront
  | popBack
  | erase (marks : List Bool)
  | post

namespace MutexedQueue

variable {T : Type*}

/-- What stays, and what is erased. -/
def sift : List Bool → List T → List T × List T
  | _, [] => ([], [])
  | [], l => (l, [])
  | marked :: marks, t :: l =>
    let rest := sift marks l
    if marked then (rest.1, t :: rest.2) else (t :: rest.1, rest.2)

/-- `none`: the thread waits.  A pop from an empty queue has no meaning. -/
def step (s : MutexedQueue T) : QueueAct T → Option (MutexedQueue T)
  | .push t => some
      { s with queue := s.queue ++ [t], signal := s.signal + 1, pushed := s.pushed ++ [t] }
  | .wait =>
    if s.signal = 0 then none
    else some { s with signal := s.signal - 1, granted := s.granted + 1 }
  | .timeout => some s
  | .popFront =>
    if s.granted = 0 then none
    else match s.queue with
      | [] => none
      | t :: rest => some
          { s with queue := rest, granted := s.granted - 1, returned := s.returned ++ [t] }
  | .popBack =>
    if s.granted = 0 then none
    else match s.queue.getLast? with
      | none => none
      | some t => some
          { s with
            queue := s.queue.dropLast
            granted := s.granted - 1
            returned := s.returned ++ [t] }
  | .erase marks => some
      { s with
        queue := (sift marks s.queue).1
        posts := s.posts + 1
        erased := s.erased ++ (sift marks s.queue).2 }
  | .post =>
    if s.posts = 0 then none
    else some { s with posts := s.posts - 1, signal := s.signal + 1 }

def Steps (s : MutexedQueue T) (act : QueueAct T) (t : MutexedQueue T) : Prop :=
  s.step act = some t

/-! ## What should hold -/

/-- A pop whose wait has succeeded finds an element. -/
def Finds (s : MutexedQueue T) : Prop :=
  s.granted ≠ 0 → s.queue ≠ []

/-- What was pushed was returned once, was erased, or is still there. -/
def Balanced (s : MutexedQueue T) : Prop :=
  s.pushed.Perm (s.returned ++ (s.erased ++ s.queue))

end MutexedQueue

def QueueAct.IsErase {T : Type*} : QueueAct T → Prop
  | .erase _ => True
  | _ => False

/-- Nobody uses `iterLocked`. -/
def NoErase {T : Type*} (acts : List (QueueAct T)) : Prop :=
  ∀ act ∈ acts, ¬ act.IsErase

namespace MutexedQueue

variable {T : Type*} {s t u : MutexedQueue T} {act : QueueAct T} {acts : List (QueueAct T)}

theorem sift_perm (marks : List Bool) (l : List T) :
    l.Perm ((sift marks l).2 ++ (sift marks l).1) := by
  induction l generalizing marks with
  | nil => cases marks <;> exact .nil
  | cons a l ih =>
    cases marks with
    | nil => exact .refl _
    | cons marked marks =>
      rw [sift]
      cases marked with
      | true => exact (ih marks).cons a
      | false => exact ((ih marks).cons a).trans List.perm_middle.symm

/-! ## No element is lost -/

theorem balanced_step (h : Balanced s) (hstep : Steps s act t) : Balanced t := by
  rw [Steps] at hstep
  cases act with
  | push a =>
    rw [← Option.some.inj hstep, Balanced]
    refine (h.append_right [a]).trans (.of_eq ?_)
    rw [List.append_assoc, List.append_assoc]
  | wait =>
    rw [step] at hstep
    split at hstep
    · cases hstep
    · rw [← Option.some.inj hstep]
      exact h
  | timeout =>
    rw [← Option.some.inj hstep]
    exact h
  | popFront =>
    rw [step] at hstep
    split at hstep
    · cases hstep
    · split at hstep
      · cases hstep
      · next a rest hqueue =>
        rw [← Option.some.inj hstep, Balanced]
        rw [Balanced, hqueue] at h
        refine h.trans ?_
        rw [List.append_assoc]
        exact List.perm_middle.append_left s.returned
  | popBack =>
    rw [step] at hstep
    split at hstep
    · cases hstep
    · split at hstep
      · cases hstep
      · next a hlast =>
        rw [← Option.some.inj hstep, Balanced]
        have hqueue : s.queue = s.queue.dropLast ++ [a] :=
          (List.dropLast_append_getLast? a hlast).symm
        rw [Balanced, hqueue] at h
        refine h.trans ?_
        rw [List.append_assoc]
        refine List.Perm.append_left s.returned ?_
        rw [← List.append_assoc]
        exact List.perm_append_comm
  | erase marks =>
    rw [← Option.some.inj hstep, Balanced]
    refine h.trans (List.Perm.append_left s.returned ?_)
    rw [List.append_assoc]
    exact (sift_perm marks s.queue).append_left s.erased
  | post =>
    rw [step] at hstep
    split at hstep
    · cases hstep
    · rw [← Option.some.inj hstep]
      exact h

/-! ## The semaphore and the queue -/

/-- The pops that the semaphore lets through, now or later. -/
def permits (s : MutexedQueue T) : ℕ :=
  s.signal + s.granted + s.posts

/-- What the semaphore has beyond the elements grows with each section and never shrinks. -/
theorem permits_step (hstep : Steps s act t) :
    (¬ act.IsErase → t.permits + s.queue.length = s.permits + t.queue.length) ∧
      (act.IsErase → t.permits + s.queue.length ≥ s.permits + t.queue.length + 1) := by
  rw [Steps] at hstep
  cases act with
  | push a =>
    rw [← Option.some.inj hstep]
    refine ⟨fun _ => ?_, fun h => h.elim⟩
    simp only [permits, List.length_append, List.length_singleton]
    omega
  | wait =>
    rw [step] at hstep
    split at hstep
    · cases hstep
    · rw [← Option.some.inj hstep]
      refine ⟨fun _ => ?_, fun h => h.elim⟩
      simp only [permits]
      omega
  | timeout =>
    rw [← Option.some.inj hstep]
    exact ⟨fun _ => rfl, fun h => h.elim⟩
  | popFront =>
    rw [step] at hstep
    split at hstep
    · cases hstep
    · split at hstep
      · cases hstep
      · next a rest hqueue =>
        rw [← Option.some.inj hstep]
        refine ⟨fun _ => ?_, fun h => h.elim⟩
        simp only [permits, hqueue, List.length_cons]
        omega
  | popBack =>
    rw [step] at hstep
    split at hstep
    · cases hstep
    · split at hstep
      · cases hstep
      · next a hlast =>
        rw [← Option.some.inj hstep]
        have hpos : s.queue.length ≠ 0 := fun hzero => by
          rw [List.length_eq_zero_iff.1 hzero] at hlast
          cases hlast
        refine ⟨fun _ => ?_, fun h => h.elim⟩
        simp only [permits, List.length_dropLast]
        omega
  | erase marks =>
    rw [← Option.some.inj hstep]
    refine ⟨fun h => absurd trivial h, fun _ => ?_⟩
    have hlength := (sift_perm marks s.queue).length_eq
    rw [List.length_append] at hlength
    simp only [permits]
    omega
  | post =>
    rw [step] at hstep
    split at hstep
    · cases hstep
    · rw [← Option.some.inj hstep]
      refine ⟨fun _ => ?_, fun h => h.elim⟩
      simp only [permits]
      omega

/-- Without a section the semaphore keeps in step with the queue. -/
theorem permits_run (hrun : Run Steps s acts t) (hacts : NoErase acts)
    (h : s.permits = s.queue.length) : t.permits = t.queue.length := by
  induction hrun with
  | nil s => exact h
  | cons hstep _ ih =>
    have hfirst := (permits_step hstep).1 (hacts _ List.mem_cons_self)
    exact ih (fun act hact => hacts act (List.mem_cons_of_mem _ hact)) (by omega)

theorem excess_step (hstep : Steps s act t) (h : s.queue.length ≤ s.permits) :
    t.queue.length ≤ t.permits ∧
      (s.queue.length < s.permits ∨ act.IsErase → t.queue.length < t.permits) := by
  rcases permits_step hstep with ⟨hsame, hmore⟩
  by_cases herase : act.IsErase
  · have hgrows := hmore herase
    exact ⟨by omega, fun _ => by omega⟩
  · have hequal := hsame herase
    refine ⟨by omega, fun hor => ?_⟩
    have hless := hor.resolve_right herase
    omega

/-- After a section the semaphore lets more pops through than there are elements. -/
theorem excess_run (hrun : Run Steps s acts t) (h : s.queue.length ≤ s.permits) :
    (s.queue.length < s.permits ∨ ¬ NoErase acts) → t.queue.length < t.permits := by
  induction hrun with
  | nil s => exact fun hor => hor.elim id fun hnot => absurd (fun act hact => by cases hact) hnot
  | @cons s u t act acts hstep _ ih =>
    rcases excess_step hstep h with ⟨hle, hless⟩
    intro hor
    refine ih hle ?_
    by_cases herase : act.IsErase
    · exact .inl (hless (.inr herase))
    · rcases hor with hlt | hnot
      · exact .inl (hless (.inl hlt))
      · refine .inr fun hrest => hnot fun act' hact' => ?_
        rcases List.mem_cons.1 hact' with rfl | hact'
        · exact herase
        · exact hrest act' hact'

/-! ## One pop too many -/

theorem noErase_cons (h : ¬ act.IsErase) (hacts : NoErase acts) : NoErase (act :: acts) :=
  List.forall_mem_cons.2 ⟨h, hacts⟩

theorem empty_of_step (hstep : Steps s act u) (hact : ¬ act.IsErase)
    (h : ∃ acts t, Run Steps u acts t ∧ NoErase acts ∧ ¬ Finds t) :
    ∃ acts t, Run Steps s acts t ∧ NoErase acts ∧ ¬ Finds t := by
  rcases h with ⟨acts, t, hrun, hacts, hnot⟩
  exact ⟨act :: acts, t, .cons hstep hrun, noErase_cons hact hacts, hnot⟩

/-- The threads post, wait and pop until the queue is empty, and then one more has waited. -/
theorem exists_empty (h : s.queue.length < s.permits) :
    ∃ acts t, Run Steps s acts t ∧ NoErase acts ∧ ¬ Finds t := by
  induction hm : 2 * s.posts + s.signal + s.queue.length generalizing s with
  | zero =>
    refine ⟨[], s, .nil s, List.forall_mem_nil _, fun hfinds => ?_⟩
    refine hfinds ?_ (List.length_eq_zero_iff.1 (by omega))
    rw [permits] at h
    omega
  | succ m ih =>
    rw [permits] at h
    by_cases hposts : s.posts = 0
    · by_cases hsignal : s.signal = 0
      · -- all that are let through have waited
        cases hqueue : s.queue with
        | nil =>
          rw [hqueue, List.length_nil] at hm
          omega
        | cons a rest =>
          rw [hqueue, List.length_cons] at h hm
          have hgranted : s.granted ≠ 0 := by omega
          have hstep : Steps s .popFront
              { s with
                queue := rest
                granted := s.granted - 1
                returned := s.returned ++ [a] } := by
            rw [Steps, step, if_neg hgranted, hqueue]
          refine empty_of_step hstep id (ih ?_ ?_)
          · simp only [permits]
            omega
          · change 2 * s.posts + s.signal + rest.length = m
            omega
      · have hstep : Steps s .wait
            { s with signal := s.signal - 1, granted := s.granted + 1 } := if_neg hsignal
        refine empty_of_step hstep id (ih ?_ ?_)
        · simp only [permits]
          omega
        · change 2 * s.posts + (s.signal - 1) + s.queue.length = m
          omega
    · have hstep : Steps s .post { s with posts := s.posts - 1, signal := s.signal + 1 } :=
        if_neg hposts
      refine empty_of_step hstep id (ih ?_ ?_)
      · simp only [permits]
        omega
      · change 2 * (s.posts - 1) + (s.signal + 1) + s.queue.length = m
        omega

/-! ## When a pop finds an element -/

theorem finds_of_permits (h : s.permits = s.queue.length) : Finds s := by
  intro hgranted hqueue
  rw [permits, hqueue, List.length_nil] at h
  omega

theorem balanced_run (hrun : Run Steps ({} : MutexedQueue T) acts t) : Balanced t :=
  hrun.invariant (fun _ _ _ => balanced_step) (.refl _)

/-- Whatever the threads do from here on, short of using `iterLocked`, a pop finds an element, and no
element is lost or returned twice. -/
def StaysRight (s : MutexedQueue T) : Prop :=
  ∀ acts t, Run Steps s acts t → NoErase acts → Finds t ∧ Balanced t

/-- The queue stays right if and only if nobody has used `iterLocked`. -/
theorem finds_iff (acts : List (QueueAct T)) (s : MutexedQueue T)
    (hrun : Run Steps ({} : MutexedQueue T) acts s) : StaysRight s ↔ NoErase acts := by
  constructor
  · intro hright
    by_contra hnot
    have hexcess := excess_run hrun (Nat.le_refl _) (.inr hnot)
    rcases exists_empty hexcess with ⟨more, t, hmore, hacts, hempty⟩
    exact hempty (hright more t hmore hacts).1
  · intro hacts more t hmore hmoreActs
    have hpermits := permits_run hmore hmoreActs (permits_run hrun hacts rfl)
    exact ⟨finds_of_permits hpermits, balanced_run (hrun.append hmore)⟩

theorem finds_iff_pop :
    Run Steps ({} : MutexedQueue ℕ) [.push 7, .push 8, .wait, .popBack]
      { queue := [7], signal := 1, pushed := [7, 8], returned := [8] } ∧
    StaysRight ({ queue := [7], signal := 1, pushed := [7, 8], returned := [8] } :
      MutexedQueue ℕ) := by
  have hrun : Run Steps ({} : MutexedQueue ℕ) [.push 7, .push 8, .wait, .popBack]
      { queue := [7], signal := 1, pushed := [7, 8], returned := [8] } :=
    .cons rfl (.cons rfl (.cons rfl (.cons rfl (.nil _))))
  refine ⟨hrun, (finds_iff _ _ hrun).2 fun act hact => ?_⟩
  simp only [List.mem_cons, List.not_mem_nil, or_false] at hact
  rcases hact with rfl | rfl | rfl | rfl <;> exact id

/-- A section that erases nothing, and two pops for one element. -/
theorem two_pops_not_finds :
    Run Steps ({} : MutexedQueue ℕ) [.push 7, .erase [], .post, .wait, .wait, .popFront]
      { granted := 1, pushed := [7], returned := [7] } ∧
    ¬ Finds ({ granted := 1, pushed := [7], returned := [7] } : MutexedQueue ℕ) :=
  ⟨.cons rfl (.cons rfl (.cons rfl (.cons rfl (.cons rfl (.cons rfl (.nil _)))))),
    fun h => h Nat.one_ne_zero rfl⟩

end MutexedQueue

end Util
end AxisEngine
