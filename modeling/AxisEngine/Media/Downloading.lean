import AxisEngine.Lib.Transition
import AxisEngine.Media.ClientMediaDownloader

/-!
# Downloading — the downloader among the answers and packets that come in

After the first step the downloader is told of two things: answers to its HTTP requests, which `step`
takes one after the other, and files from the game protocol, which come between two steps.  The
answer to any request under way may come next, and it may be anything.

* `Downloading` — the downloader, whether `step` is in its loop, and the answers so far;
* `Event`, `Step` — what comes in;
* `When`, `Downloading.run` — runs whose events meet a condition;
* `begin` — the state after the first step.
-/

namespace AxisEngine
namespace Media

open Lib

/-- An answer, the request it is for, and what the functions that are called then do. -/
structure Answer where
  request : HTTPFetchRequest
  result : HTTPFetchResult
  env : Env

structure Downloading where
  downloader : ClientMediaDownloader
  /-- `fetched_something`: the loop of `step` has taken an answer. -/
  fetchedSomething : Bool
  answers : List Answer

inductive Event
  /-- The loop of `step` takes an answer; a new step may begin with it. -/
  | answer (env : Env) (requestId : Nat) (result : HTTPFetchResult)
  /-- There is no further answer, and `step` goes on behind its loop. -/
  | finish
  /-- One file of a `TOCLIENT_MEDIA` packet. -/
  | media (name data : Bytes)

inductive State
  | running (x : Downloading)
  /-- An assertion has failed. -/
  | aborted

namespace Downloading

/-- What can come next. -/
def Enabled (x : Downloading) : Event → Prop
  | .answer _ requestId _ => (∃ q ∈ x.downloader.inFlight, q.requestId = requestId) ∧
      (x.fetchedSomething = true ∨ x.downloader.httpfetchActive ≠ 0)
  | .finish => x.fetchedSomething = true
  | .media _ _ => x.fetchedSomething = false

/-- What then happens.  A `PacketError` leaves `step` as well. -/
def step (x : Downloading) : Event → Option Downloading
  | .answer env requestId result =>
    (x.downloader.handleResult env requestId result).map fun (d, thrown) =>
      { downloader := d
        fetchedSomething := !thrown
        answers := x.answers ++
          (x.downloader.inFlight.filter fun q => q.requestId = requestId).map fun q =>
            { request := q, result := result, env := env } }
  | .finish => x.downloader.finishStep.map fun d =>
    { x with downloader := d, fetchedSomething := false }
  | .media name data => (x.downloader.conventionalTransferDone name data).map fun (d, _) =>
    { x with downloader := d }

end Downloading

inductive Step : State → Event → State → Prop
  | run {x y : Downloading} {e : Event} : x.Enabled e → x.step e = some y →
      Step (.running x) e (.running y)
  | abort {x : Downloading} {e : Event} : x.Enabled e → x.step e = none →
      Step (.running x) e .aborted

/-! ## Runs -/

/-- A condition on what comes in. -/
def When (G : Downloading → Event → Prop) : State → Event → Prop
  | .running x, e => G x e
  | .aborted, _ => True

namespace Downloading

instance (x : Downloading) (e : Event) : Decidable (x.Enabled e) :=
  match e with
  | .answer _ requestId _ => inferInstanceAs (Decidable
      ((∃ q ∈ x.downloader.inFlight, q.requestId = requestId) ∧
        (x.fetchedSomething = true ∨ x.downloader.httpfetchActive ≠ 0)))
  | .finish => inferInstanceAs (Decidable (x.fetchedSomething = true))
  | .media _ _ => inferInstanceAs (Decidable (x.fetchedSomething = false))

section

variable (G : Downloading → Event → Prop) [∀ x e, Decidable (G x e)]

/-- The state after the events, when each can come and meets the condition. -/
def run (x : Downloading) : List Event → Option Downloading
  | [] => some x
  | e :: es => if G x e ∧ x.Enabled e then (x.step e).bind fun y => y.run es else none

variable {G}

theorem guarded_of_run {es : List Event} {x y : Downloading} (h : x.run G es = some y) :
    Run.Guarded (When G) Step (.running x) es (.running y) := by
  induction es generalizing x with
  | nil =>
    cases h
    exact .nil _
  | cons e es ih =>
    rw [run] at h
    split at h
    · rename_i henabled
      rcases Option.bind_eq_some_iff.1 h with ⟨z, hz, hrest⟩
      exact .cons ⟨henabled.1, .run henabled.2 hz⟩ (ih hrest)
    · cases h

end

end Downloading

/-- The same from any state. -/
def State.run (G : Downloading → Event → Prop) [∀ x e, Decidable (G x e)] (es : List Event) :
    State → Option Downloading
  | .running x => x.run G es
  | .aborted => none

theorem State.guarded_of_run {G : Downloading → Event → Prop} [∀ x e, Decidable (G x e)]
    {es : List Event} {s : State} {y : Downloading} (h : s.run G es = some y) :
    Run.Guarded (When G) Step s es (.running y) := by
  cases s with
  | running x => exact Downloading.guarded_of_run h
  | aborted => cases h

/-! ## The beginning -/

/-- The files and the media servers that were announced. -/
def announce (files : List (Bytes × Bytes)) (remotes : List Bytes) : ClientMediaDownloader :=
  remotes.foldl ClientMediaDownloader.addRemoteServer
    (files.foldl (fun d file => d.addFile file.1 file.2) .initial)

/-- The first step, with what is announced, what the cache has, and the setting for the number of
requests at once. -/
def begin (env : Env) (cache : Bytes → Option Bytes) (curlParallelLimit : Int)
    (files : List (Bytes × Bytes)) (remotes : List Bytes) : State :=
  match (announce files remotes).initialStep env cache curlParallelLimit with
  | none => .aborted
  | some d => .running { downloader := d, fetchedSomething := false, answers := [] }

end Media
end AxisEngine
