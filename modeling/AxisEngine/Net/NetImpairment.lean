import AxisEngine.Lib.StableInsert
import AxisEngine.Lib.Transition
import AxisEngine.Mtp.Packet

/-!
# NetImpairment — a worse network than there is (`network/net_impairment.cpp`)

Datagrams that come in are held back for a while, or dropped.  The queue is sorted by the time at
which each is due.  What the random numbers give is an input here: whether a datagram is lost, and
what jitter adds to its delay.  Times are in milliseconds and do not come near the end of `u64`.

* `NetImpairment.hold`, `NetImpairment.release`, `NetImpairment.waitMs` — the operations;
* `receiveDatagram` — the loop that reads the socket (`network/mtp/threads.cpp`);
* `ImpairmentRun` — calls one after the other, and what has been held and given back so far;
* `Delivers`, `Accounted`, `impairment_delivers` — what is kept comes back, and what is read does
  not vanish.
-/

namespace AxisEngine
namespace Net

open Lib
open Mtp (Address)

structure Datagram where
  sender : Address
  data : Bytes
  deriving DecidableEq

structure Held where
  dueMs : ℕ
  datagram : Datagram
  deriving DecidableEq

structure NetImpairment where
  latencyMs : ℕ := 0
  jitterMs : ℕ := 0
  queue : List Held := []

namespace NetImpairment

/-- `spread`: what the distribution draws. -/
def delay (n : NetImpairment) (spread : ℤ) : ℕ :=
  if n.jitterMs > 0 then (n.latencyMs + spread).toNat else n.latencyMs

/-- `lost`: the chance was below the loss.  The first part is what `hold` returns. -/
def hold (n : NetImpairment) (now : ℕ) (lost : Bool) (spread : ℤ) (d : Datagram) :
    Bool × NetImpairment :=
  if lost then (false, n)
  else (true, { n with queue := insertLast Held.dueMs ⟨now + n.delay spread, d⟩ n.queue })

/-- What fits into the buffer.  `none`: no datagram is due. -/
def release (n : NetImpairment) (now capacity : ℕ) : Option Datagram × NetImpairment :=
  match n.queue with
  | [] => (none, n)
  | front :: rest =>
    if front.dueMs > now then (none, n)
    else (some { front.datagram with data := front.datagram.data.take capacity },
      { n with queue := rest })

/-- The number that `release` returns. -/
def releasedSize (released : Option Datagram) : ℕ :=
  (released.map fun d => d.data.length).getD 0

def waitMs (n : NetImpairment) (now : ℕ) : ℕ :=
  match n.queue with
  | [] => 100
  | front :: _ => if front.dueMs ≤ now then 0 else min (front.dueMs - now) 100

end NetImpairment

/-! ## The receiver -/

/-- `handedOn`: what `receiveDatagram` returns.  `read`: what was taken from the socket. -/
structure Received where
  handedOn : Option Datagram := none
  read : Option Datagram := none
  /-- What `hold` said of it. -/
  held : Option Bool := none
  impairment : Option NetImpairment

/-- `socket`: what reading the socket gives, if anything, after it was waited for, if it was.  A new
datagram is held at a time `later`. -/
def receiveDatagram (impairment : Option NetImpairment) (socket : Option ℕ → Option Datagram)
    (now later capacity : ℕ) (lost : Bool) (spread : ℤ) : Received :=
  match impairment with
  | none => { handedOn := socket none, read := socket none, impairment := none }
  | some n =>
    let released := n.release now capacity
    if NetImpairment.releasedSize released.1 ≠ 0 then
      { handedOn := released.1, impairment := some released.2 }
    else
      match socket (some (released.2.waitMs now)) with
      | none => { impairment := some released.2 }
      | some d =>
        let held := released.2.hold later lost spread d
        { read := some d, held := some held.1, impairment := some held.2 }

/-! ## Runs -/

/-- `kept`: what `hold` said yes to.  `popped`: what has left the queue.  `returned`: what `release`
gave back, and when. -/
structure ImpairmentRun where
  impairment : NetImpairment
  clock : ℕ := 0
  kept : List Held := []
  popped : List Held := []
  returned : List (ℕ × Datagram) := []

inductive ImpairmentAct
  | hold (now : ℕ) (lost : Bool) (spread : ℤ) (d : Datagram)
  | release (now : ℕ)

def ImpairmentAct.now : ImpairmentAct → ℕ
  | .hold now _ _ _ => now
  | .release now => now

namespace ImpairmentRun

variable (capacity : ℕ) (s : ImpairmentRun)

def apply : ImpairmentAct → ImpairmentRun
  | .hold now lost spread d =>
    let held := s.impairment.hold now lost spread d
    { s with
      impairment := held.2
      clock := now
      kept := if held.1 then s.kept ++ [⟨now + s.impairment.delay spread, d⟩] else s.kept }
  | .release now =>
    let released := s.impairment.release now capacity
    { s with
      impairment := released.2
      clock := now
      popped := if released.1 = none then s.popped
        else s.popped ++ s.impairment.queue.head?.toList
      returned := if NetImpairment.releasedSize released.1 = 0 then s.returned
        else s.returned ++ released.1.toList.map fun d => (now, d) }

/-- The clock does not go back. -/
def Steps (act : ImpairmentAct) (t : ImpairmentRun) : Prop :=
  s.clock ≤ act.now ∧ s.apply capacity act = t

/-! ## What should hold -/

/-- What came back for a datagram: all of it, if it fits, and not too early. -/
structure Matches (capacity : ℕ) (h : Held) (r : ℕ × Datagram) : Prop where
  sender : r.2.sender = h.datagram.sender
  data : h.datagram.data.length ≤ capacity → r.2 = h.datagram
  due : h.dueMs ≤ r.1

/-- An empty datagram cannot be told from none. -/
def comesBack (capacity : ℕ) (h : Held) : Bool :=
  h.datagram.data.take capacity ≠ []

/-- What has left the queue, and then what is in it, is what was kept, by the time at which it is
due, and in the order of arrival where this is the same. -/
structure Delivers (capacity : ℕ) (s : ImpairmentRun) : Prop where
  all : (s.popped ++ s.impairment.queue).Perm s.kept
  sorted : InOrder Held.dueMs (s.popped ++ s.impairment.queue)
  stable : ∀ due, (s.popped ++ s.impairment.queue).filter (fun h => h.dueMs = due)
    = s.kept.filter fun h => h.dueMs = due
  returned : List.Forall₂ (Matches capacity) (s.popped.filter (comesBack capacity)) s.returned

/-- Everything can come back. -/
def CanDrain : Prop :=
  ∃ now n t, Run (Steps capacity) s (List.replicate n (.release now)) t ∧
    t.impairment.queue = [] ∧ t.kept = s.kept

end ImpairmentRun

/-- What was read is handed on, or it is in the queue, or it was dropped. -/
def Received.Accounted (r : Received) : Prop :=
  ∀ d, r.read = some d → r.handedOn = some d ∨
    (r.held = some true ∧ ∃ n h, r.impairment = some n ∧ h ∈ n.queue ∧ h.datagram = d) ∨
      r.held = some false

namespace ImpairmentRun

variable {capacity : ℕ} {s t : ImpairmentRun} {act : ImpairmentAct} {acts : List ImpairmentAct}

/-! ## One call -/

/-- Nothing that has left the queue was due later than now. -/
structure Kept (capacity : ℕ) (s : ImpairmentRun) : Prop extends Delivers capacity s where
  past : ∀ h ∈ s.popped, h.dueMs ≤ s.clock

theorem Kept.start (capacity : ℕ) (n : NetImpairment) (hempty : n.queue = []) :
    Kept capacity { impairment := n } := by
  constructor
  · constructor
    · rw [hempty]
      rfl
    · rw [hempty]
      exact .nil
    · intro due
      rw [hempty]
      rfl
    · exact .nil
  · intro h hmem
    cases hmem

theorem Kept.hold {now : ℕ} {lost : Bool} {spread : ℤ} {d : Datagram} (h : Kept capacity s)
    (hnow : s.clock ≤ now) : Kept capacity (s.apply capacity (.hold now lost spread d)) := by
  have hpast : ∀ x ∈ s.popped, x.dueMs ≤ now := fun x hx => (h.past x hx).trans hnow
  cases lost with
  | true => exact ⟨⟨h.all, h.sorted, h.stable, h.returned⟩, hpast⟩
  | false =>
    let held : Held := ⟨now + s.impairment.delay spread, d⟩
    -- what has left the queue may stand in front of the new datagram
    have hfront : ∀ x ∈ s.popped, x.dueMs ≤ held.dueMs := fun x hx =>
      (hpast x hx).trans (Nat.le_add_right _ _)
    have hqueue : s.popped ++ insertLast Held.dueMs held s.impairment.queue
        = insertLast Held.dueMs held (s.popped ++ s.impairment.queue) :=
      (append_insertLast hfront).symm
    refine ⟨⟨?_, ?_, fun due => ?_, h.returned⟩, hpast⟩
    · refine (List.Perm.of_eq hqueue).trans ((perm_insertLast _ _ _).trans ?_)
      exact (h.all.cons held).trans (List.perm_append_singleton held s.kept).symm
    · exact hqueue ▸ h.sorted.insertLast
    · refine (congrArg _ hqueue).trans ((filter_insertLast h.sorted due).trans ?_)
      rw [h.stable due, ← List.filter_append]
      rfl

theorem release_cases (n : NetImpairment) (now capacity : ℕ) :
    n.release now capacity = (none, n) ∨
    ∃ front rest, n.queue = front :: rest ∧ front.dueMs ≤ now ∧ n.release now capacity =
      (some { front.datagram with data := front.datagram.data.take capacity },
        { n with queue := rest }) := by
  rw [NetImpairment.release]
  cases hqueue : n.queue with
  | nil => exact .inl rfl
  | cons front rest =>
    by_cases hdue : front.dueMs > now
    · exact .inl (if_pos hdue)
    · exact .inr ⟨front, rest, rfl, Nat.not_lt.1 hdue, if_neg hdue⟩

theorem matches_take {front : Held} {now : ℕ} (hdue : front.dueMs ≤ now) :
    Matches capacity front
      (now, { front.datagram with data := front.datagram.data.take capacity }) where
  sender := rfl
  data := fun hfits => by rw [List.take_of_length_le hfits]
  due := hdue

theorem Kept.release {now : ℕ} (h : Kept capacity s) (hnow : s.clock ≤ now) :
    Kept capacity (s.apply capacity (.release now)) := by
  have hpast : ∀ x ∈ s.popped, x.dueMs ≤ now := fun x hx => (h.past x hx).trans hnow
  rcases release_cases s.impairment now capacity with
    hnone | ⟨front, rest, hqueue, hdue, hsome⟩
  · have happly : s.apply capacity (.release now) = { s with clock := now } := by
      rw [apply, hnone]
      rfl
    rw [happly]
    exact ⟨⟨h.all, h.sorted, h.stable, h.returned⟩, hpast⟩
  · -- the front goes from one list to the other
    have hlists : (s.popped ++ [front]) ++ rest = s.popped ++ s.impairment.queue := by
      rw [hqueue, List.append_assoc, List.singleton_append]
    have hpopped : (s.apply capacity (.release now)).popped = s.popped ++ [front] := by
      rw [apply, hsome, hqueue]
      rfl
    have hrest : (s.apply capacity (.release now)).impairment.queue = rest := by
      rw [apply, hsome]
    have hkept : (s.apply capacity (.release now)).kept = s.kept := rfl
    refine ⟨⟨?_, ?_, fun due => ?_, ?_⟩, ?_⟩
    · rw [hpopped, hrest, hkept, hlists]
      exact h.all
    · rw [hpopped, hrest, hlists]
      exact h.sorted
    · rw [hpopped, hrest, hkept, hlists]
      exact h.stable due
    · rw [hpopped, List.filter_append]
      by_cases hback : comesBack capacity front = true
      · have hsize : (front.datagram.data.take capacity).length ≠ 0 :=
          List.length_eq_zero_iff.not.2 (of_decide_eq_true hback)
        have hreturned : (s.apply capacity (.release now)).returned = s.returned ++
            [(now, { front.datagram with data := front.datagram.data.take capacity })] := by
          rw [apply, hsome]
          exact if_neg hsize
        rw [hreturned, List.filter_cons_of_pos hback, List.filter_nil]
        exact List.rel_append h.returned (.cons (matches_take hdue) .nil)
      · have hsize : (front.datagram.data.take capacity).length = 0 :=
          List.length_eq_zero_iff.2 (by_contra fun hne => hback (decide_eq_true hne))
        have hreturned : (s.apply capacity (.release now)).returned = s.returned := by
          rw [apply, hsome]
          exact if_pos hsize
        rw [hreturned, List.filter_cons_of_neg hback, List.filter_nil, List.append_nil]
        exact h.returned
    · rw [hpopped]
      intro x hx
      rcases List.mem_append.1 hx with hx | hx
      · exact hpast x hx
      · rw [List.mem_singleton.1 hx]
        exact hdue

theorem Kept.step (h : Kept capacity s) (hstep : Steps capacity s act t) : Kept capacity t := by
  rcases hstep with ⟨hnow, rfl⟩
  cases act with
  | hold now lost spread d => exact h.hold hnow
  | release now => exact h.release hnow

/-! ## Any calls -/

theorem exists_bound (queue : List Held) : ∃ now, ∀ h ∈ queue, h.dueMs ≤ now := by
  induction queue with
  | nil => exact ⟨0, fun h hmem => by cases hmem⟩
  | cons front rest ih =>
    rcases ih with ⟨now, hrest⟩
    refine ⟨max front.dueMs now, fun h hmem => ?_⟩
    rcases List.mem_cons.1 hmem with rfl | hmem
    · exact le_max_left _ _
    · exact (hrest h hmem).trans (le_max_right _ _)

/-- Once everything is due, each call takes one datagram out. -/
theorem drain {now : ℕ} (hclock : s.clock ≤ now) (hdue : ∀ h ∈ s.impairment.queue, h.dueMs ≤ now) :
    ∃ t, Run (Steps capacity) s (List.replicate s.impairment.queue.length (.release now)) t ∧
      t.impairment.queue = [] ∧ t.kept = s.kept := by
  induction hqueue : s.impairment.queue generalizing s with
  | nil => exact ⟨s, .nil s, hqueue, rfl⟩
  | cons front rest ih =>
    rw [hqueue] at hdue
    have hfront : ¬ front.dueMs > now := Nat.not_lt.2 (hdue front List.mem_cons_self)
    have hrest : (s.apply capacity (.release now)).impairment.queue = rest := by
      rw [apply, NetImpairment.release, hqueue]
      simp only [if_neg hfront]
    have hnext : ∀ h ∈ (s.apply capacity (.release now)).impairment.queue, h.dueMs ≤ now := by
      rw [hrest]
      exact fun h hmem => hdue h (List.mem_cons_of_mem _ hmem)
    rcases ih (le_refl now) hnext hrest with ⟨t, hrun, hempty, hkept⟩
    exact ⟨t, .cons ⟨hclock, rfl⟩ hrun, hempty, hkept⟩

theorem canDrain (capacity : ℕ) (s : ImpairmentRun) : CanDrain capacity s := by
  rcases exists_bound s.impairment.queue with ⟨bound, hbound⟩
  have hdue : ∀ h ∈ s.impairment.queue, h.dueMs ≤ max s.clock bound := fun h hmem =>
    (hbound h hmem).trans (le_max_right _ _)
  exact ⟨max s.clock bound, s.impairment.queue.length, drain (le_max_left _ _) hdue⟩

theorem receiveDatagram_accounted (impairment : Option NetImpairment)
    (socket : Option ℕ → Option Datagram) (now later : ℕ) (lost : Bool) (spread : ℤ) :
    (receiveDatagram impairment socket now later capacity lost spread).Accounted := by
  intro d hread
  cases impairment with
  | none => exact .inl hread
  | some n =>
    rw [receiveDatagram] at hread ⊢
    dsimp only at hread ⊢
    by_cases hsize : NetImpairment.releasedSize (n.release now capacity).1 ≠ 0
    · rw [if_pos hsize] at hread
      cases hread
    · rw [if_neg hsize] at hread ⊢
      cases hsocket : socket (some ((n.release now capacity).2.waitMs now)) with
      | none =>
        rw [hsocket] at hread
        cases hread
      | some read =>
        rw [hsocket] at hread
        have hsame : read = d := Option.some.inj hread
        cases lost with
        | true => exact .inr (.inr rfl)
        | false =>
          let held : Held := ⟨later + (n.release now capacity).2.delay spread, read⟩
          refine .inr (.inl ⟨rfl, _, held, rfl, ?_, hsame⟩)
          exact (perm_insertLast _ _ _).symm.subset List.mem_cons_self

/-- In every run, and in every call of the receiver. -/
theorem impairment_delivers (latencyMs jitterMs capacity : ℕ) (acts : List ImpairmentAct)
    (s : ImpairmentRun)
    (hrun : Run (Steps capacity)
      { impairment := { latencyMs := latencyMs, jitterMs := jitterMs } } acts s) :
    Delivers capacity s ∧ CanDrain capacity s ∧
    ∀ impairment socket now later lost spread,
      (receiveDatagram impairment socket now later capacity lost spread).Accounted := by
  have hstart := Kept.start capacity { latencyMs := latencyMs, jitterMs := jitterMs } rfl
  have hkept := hrun.invariant (P := Kept capacity) (fun _ _ _ h hstep => h.step hstep) hstart
  exact ⟨hkept.toDelivers, canDrain capacity s, receiveDatagram_accounted⟩

/-- Of two datagrams the second is due first, and it comes back first. -/
theorem impairment_delivers_jitter :
    Run (Steps 1500) { impairment := { latencyMs := 10, jitterMs := 5 } }
      [.hold 0 false 5 ⟨⟨[], 1⟩, [7]⟩, .hold 1 false (-5) ⟨⟨[], 2⟩, [8]⟩, .release 5, .release 6]
      { impairment := { latencyMs := 10, jitterMs := 5, queue := [⟨15, ⟨⟨[], 1⟩, [7]⟩⟩] }
        clock := 6
        kept := [⟨15, ⟨⟨[], 1⟩, [7]⟩⟩, ⟨6, ⟨⟨[], 2⟩, [8]⟩⟩]
        popped := [⟨6, ⟨⟨[], 2⟩, [8]⟩⟩]
        returned := [(6, ⟨⟨[], 2⟩, [8]⟩)] } ∧
    Delivers 1500
      { impairment := { latencyMs := 10, jitterMs := 5, queue := [⟨15, ⟨⟨[], 1⟩, [7]⟩⟩] }
        clock := 6
        kept := [⟨15, ⟨⟨[], 1⟩, [7]⟩⟩, ⟨6, ⟨⟨[], 2⟩, [8]⟩⟩]
        popped := [⟨6, ⟨⟨[], 2⟩, [8]⟩⟩]
        returned := [(6, ⟨⟨[], 2⟩, [8]⟩)] } := by
  have hrun : Run (Steps 1500) { impairment := { latencyMs := 10, jitterMs := 5 } }
      [.hold 0 false 5 ⟨⟨[], 1⟩, [7]⟩, .hold 1 false (-5) ⟨⟨[], 2⟩, [8]⟩, .release 5, .release 6]
      { impairment := { latencyMs := 10, jitterMs := 5, queue := [⟨15, ⟨⟨[], 1⟩, [7]⟩⟩] }
        clock := 6
        kept := [⟨15, ⟨⟨[], 1⟩, [7]⟩⟩, ⟨6, ⟨⟨[], 2⟩, [8]⟩⟩]
        popped := [⟨6, ⟨⟨[], 2⟩, [8]⟩⟩]
        returned := [(6, ⟨⟨[], 2⟩, [8]⟩)] } :=
    .cons ⟨by decide, rfl⟩ (.cons ⟨by decide, rfl⟩ (.cons ⟨by decide, rfl⟩
      (.single ⟨by decide, rfl⟩)))
  exact ⟨hrun, (impairment_delivers 10 5 1500 _ _ hrun).1⟩

end ImpairmentRun

end Net
end AxisEngine
