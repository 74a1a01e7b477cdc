import Mathlib.Tactic.Abel
import AxisEngine.Lib.Slots
import AxisEngine.Lib.Transition
import AxisEngine.Mesh.MeshQueue

/-!
# Accounts — nothing is lost between the map and the client

References on blocks, acknowledgements and copies of data wander through the queue, the workers and the
two queues of results.

* `State.held`, `State.got`, `State.asked` — what is under way, what the client has, and what there is to
  account for;
* `Queued` — what holds of the queue and of the urgent positions;
* `accounts_of_run` — in every run each of them is in one place.
-/

namespace AxisEngine
namespace Mesh

open Lib

/-! ## References -/

theorem refs_nil : refs [] = 0 := rfl

theorem refs_cons_none (slots : List (Option Ref)) : refs (none :: slots) = refs slots := rfl

theorem refs_cons_some (ref : Ref) (slots : List (Option Ref)) :
    refs (some ref :: slots) = refs slots + {ref} := by
  rw [refs, List.filterMap_cons_some (f := id) rfl, refs, ← Multiset.cons_coe, add_comm,
    Multiset.singleton_add]

theorem refs_replicate (n : Nat) : refs (List.replicate n none) = 0 := by
  induction n with
  | zero => rfl
  | succ n ih =>
    rw [List.replicate_succ, refs_cons_none]
    exact ih

section

variable (client : Client) (n : Nat) (slots : List (Option Ref)) (positions : List V3s16)

/-- Free slots get new references, and the others keep theirs. -/
theorem refs_grabMissing : refs (grabMissing client n slots positions).1 =
    refs slots + ↑(grabMissing client n slots positions).2 := by
  fun_induction grabMissing client n slots positions with
  | case1 n slots pos rest block hblock slots' grabbed hrest ih =>
    rw [hrest] at ih
    rw [refs_cons_some, refs_cons_none, ih, add_assoc, ← Multiset.cons_coe,
      ← Multiset.singleton_add, add_comm {_}]
  | case2 n slots pos rest hblock slots' grabbed hrest ih =>
    rw [hrest] at ih
    rw [refs_cons_none, refs_cons_none]
    exact ih
  | case3 n ref slots pos rest slots' grabbed hrest ih =>
    rw [hrest] at ih
    rw [refs_cons_some, refs_cons_some, ih, add_right_comm]
  | case4 n slots rest => rw [Multiset.coe_nil, add_zero]

theorem length_grabMissing : (grabMissing client n slots positions).1.length = slots.length := by
  fun_induction grabMissing client n slots positions with
  | case1 n slots pos rest block hblock slots' grabbed hrest ih =>
    rw [hrest] at ih
    rw [List.length_cons, List.length_cons, ih]
  | case2 n slots pos rest hblock slots' grabbed hrest ih =>
    rw [hrest] at ih
    rw [List.length_cons, List.length_cons, ih]
  | case3 n ref slots pos rest slots' grabbed hrest ih =>
    rw [hrest] at ih
    rw [List.length_cons, List.length_cons, ih]
  | case4 n slots rest => rfl

theorem grab_grabMissing : (grabMissing client n slots positions).2.map Ref.grab =
    List.range' n (grabMissing client n slots positions).2.length := by
  fun_induction grabMissing client n slots positions with
  | case1 n slots pos rest block hblock slots' grabbed hrest ih =>
    rw [hrest] at ih
    rw [List.map_cons, List.length_cons, List.range'_succ, ih]
  | case2 n slots pos rest hblock slots' grabbed hrest ih =>
    rw [hrest] at ih
    exact ih
  | case3 n ref slots pos rest slots' grabbed hrest ih =>
    rw [hrest] at ih
    exact ih
  | case4 n slots rest => rfl

end

/-! ## Updates -/

section

variable {client : Client} {g : MeshGrid} {n : Nat} {q : QueuedMeshUpdate} {m : V3s16}
variable {acks : List V3s16} {urgent : Bool} {queue queue' : List QueuedMeshUpdate}
variable {grabbed : List Ref}

/-- Acknowledgements and references, and no copy of data. -/
def cargoOf (acks : List V3s16) (grabbed : List Ref) : Cargo :=
  (↑acks, ↑grabbed, 0)

theorem cargoOf_append (acks acks' : List V3s16) (grabbed grabbed' : List Ref) :
    cargoOf (acks ++ acks') (grabbed ++ grabbed') = cargoOf acks grabbed + cargoOf acks' grabbed' := by
  simp only [cargoOf, Prod.mk_add_mk, add_zero, Multiset.coe_add]

/-- An update has a slot for each position of its mesh. -/
def QueuedMeshUpdate.Whole (g : MeshGrid) (q : QueuedMeshUpdate) : Prop :=
  q.mapBlocks.length = (g.positions q.p).length

theorem cargo_retrieveBlocks (client : Client) (g : MeshGrid) (n : Nat) (q : QueuedMeshUpdate) :
    (q.retrieveBlocks client g n).1.cargo = q.cargo + cargoOf [] (q.retrieveBlocks client g n).2 := by
  have hslots : refs (if q.mapBlocks.isEmpty then List.replicate (g.positions q.p).length none
      else q.mapBlocks) = refs q.mapBlocks := by
    split
    · rename_i hempty
      rw [refs_replicate, List.isEmpty_iff.1 hempty, refs_nil]
    · rfl
  simp only [QueuedMeshUpdate.retrieveBlocks, QueuedMeshUpdate.cargo, cargoOf, Prod.mk_add_mk,
    add_zero, refs_grabMissing, hslots, Multiset.coe_nil]

theorem grab_retrieveBlocks (client : Client) (g : MeshGrid) (n : Nat) (q : QueuedMeshUpdate) :
    (q.retrieveBlocks client g n).2.map Ref.grab =
      List.range' n (q.retrieveBlocks client g n).2.length :=
  grab_grabMissing ..

theorem whole_retrieveBlocks (h : q.mapBlocks = [] ∨ q.Whole g) :
    (q.retrieveBlocks client g n).1.Whole g := by
  refine (length_grabMissing ..).trans ?_
  split
  · exact List.length_replicate
  · rename_i hsome
    rcases h with hnil | hwhole
    · rw [hnil] at hsome
      exact absurd rfl hsome
    · exact hwhole

theorem cargo_request : (q.request client acks urgent).cargo = q.cargo + cargoOf acks [] := by
  simp only [QueuedMeshUpdate.request, QueuedMeshUpdate.cargo, cargoOf, Prod.mk_add_mk, add_zero,
    Multiset.coe_add, Multiset.coe_nil]

/-- No update is queued for the position. -/
theorem requestQueued_none (h : requestQueued client g n m acks urgent queue = none) :
    m ∉ queue.map QueuedMeshUpdate.p := by
  induction queue with
  | nil => exact List.not_mem_nil
  | cons q rest ih =>
    rw [requestQueued] at h
    split at h
    · cases h
    · rename_i hne
      rw [List.map_cons, List.mem_cons, not_or]
      exact ⟨Ne.symm hne, ih (Option.map_eq_none_iff.1 h)⟩

/-- What is asked for is added to an update of the queue, and no position comes or goes. -/
theorem requestQueued_some (h : requestQueued client g n m acks urgent queue = some (queue', grabbed)) :
    (queue'.map QueuedMeshUpdate.cargo).sum =
        (queue.map QueuedMeshUpdate.cargo).sum + cargoOf acks grabbed ∧
      queue'.map QueuedMeshUpdate.p = queue.map QueuedMeshUpdate.p ∧
      m ∈ queue.map QueuedMeshUpdate.p ∧
      grabbed.map Ref.grab = List.range' n grabbed.length ∧
      ((∀ q ∈ queue, q.Whole g) → ∀ q ∈ queue', q.Whole g) := by
  induction queue generalizing queue' with
  | nil => cases h
  | cons q rest ih =>
    rw [requestQueued] at h
    split at h
    · rename_i hp
      have hcargo := cargo_retrieveBlocks client g n (q.request client acks urgent)
      rw [cargo_request, add_assoc, ← cargoOf_append, List.append_nil, List.nil_append] at hcargo
      have hgrab := grab_retrieveBlocks client g n (q.request client acks urgent)
      have hwhole : q.Whole g → ((q.request client acks urgent).retrieveBlocks client g n).1.Whole g :=
        fun hq => whole_retrieveBlocks (.inr hq)
      have hp' : ((q.request client acks urgent).retrieveBlocks client g n).1.p = q.p := rfl
      generalize (q.request client acks urgent).retrieveBlocks client g n = r at h hcargo hgrab hwhole hp'
      cases h
      refine ⟨?_, ?_, List.mem_cons.2 (.inl hp.symm), hgrab, ?_⟩
      · rw [List.map_cons, List.sum_cons, List.map_cons, List.sum_cons, hcargo, add_right_comm]
      · rw [List.map_cons, List.map_cons, hp']
      · intro hall q' hq'
        rcases List.mem_cons.1 hq' with rfl | hq'
        · exact hwhole (hall q (List.mem_cons_self ..))
        · exact hall q' (List.mem_cons_of_mem _ hq')
    · rcases Option.map_eq_some_iff.1 h with ⟨⟨queue₁, grabbed₁⟩, hrest, heq⟩
      cases heq
      rcases ih hrest with ⟨hsum, hpos, hmem, hgrab, hwhole⟩
      refine ⟨?_, ?_, List.mem_cons_of_mem _ hmem, hgrab, ?_⟩
      · rw [List.map_cons, List.sum_cons, List.map_cons, List.sum_cons, hsum, add_assoc]
      · rw [List.map_cons, List.map_cons, hpos]
      · intro hall q' hq'
        rcases List.mem_cons.1 hq' with rfl | hq'
        · exact hall q' (List.mem_cons_self ..)
        · exact hwhole (fun q'' hq'' => hall q'' (List.mem_cons_of_mem _ hq'')) q' hq'

variable {urgents inflight : Finset V3s16}

/-- An update is taken that is not in flight, and that is urgent if anything is. -/
theorem popFirst_some (h : popFirst urgents inflight queue = some (q, queue')) :
    queue.Perm (q :: queue') ∧ q.p ∉ inflight ∧ queue'.Sublist queue := by
  induction queue generalizing queue' with
  | nil => cases h
  | cons q₀ rest ih =>
    rw [popFirst] at h
    split at h
    · rcases Option.map_eq_some_iff.1 h with ⟨⟨q₁, rest₁⟩, hrest, heq⟩
      cases heq
      rcases ih hrest with ⟨hperm, hnot, hsub⟩
      exact ⟨(hperm.cons q₀).trans (.swap ..), hnot, hsub.cons_cons q₀⟩
    · rename_i hfree
      cases h
      exact ⟨.refl _, fun hin => hfree (.inr hin), List.sublist_cons_self ..⟩

theorem popFirst_none (h : popFirst urgents inflight queue = none) :
    ∀ q ∈ queue, (urgents ≠ ∅ ∧ q.p ∉ urgents) ∨ q.p ∈ inflight := by
  induction queue with
  | nil => exact fun q hq => absurd hq List.not_mem_nil
  | cons q₀ rest ih =>
    rw [popFirst] at h
    split at h
    · rename_i hskip
      intro q hq
      rcases List.mem_cons.1 hq with rfl | hq
      · exact hskip
      · exact ih (Option.map_eq_none_iff.1 h) q hq
    · cases h

theorem sum_filter_drops {α : Type*} (f : α → Cargo) (drop : α → Bool) (l : List α) :
    ((l.filter fun a => !drop a).map f).sum + ((l.filter drop).map f).sum = (l.map f).sum := by
  have hperm := (List.filter_append_perm drop l).map f
  rw [← hperm.sum_eq, List.map_append, List.sum_append, add_comm]

end

/-! ## Conservation -/

namespace State

/-- What is in the queue, with the workers, and in the two queues of results. -/
def held (s : State) : Cargo :=
  (s.queue.map QueuedMeshUpdate.cargo).sum + (s.workers.map Worker.cargo).sum +
    (s.outUrgent.map MeshUpdateResult.cargo).sum + (s.out.map MeshUpdateResult.cargo).sum

/-- What the client has got. -/
def got (s : State) : Cargo :=
  (s.handed.map MeshUpdateResult.cargo).sum

def total (s : State) : Cargo :=
  s.held + s.got + s.cleared

/-- What there is to account for. -/
def asked (s : State) : Cargo :=
  (↑s.requested, ↑s.grabbed, Multiset.range s.snapshots.length)

end State

/-- The queue: one update for a position, and urgent marks for these positions only. -/
structure Queued (g : MeshGrid) (s : State) : Prop where
  distinct : (s.queue.map QueuedMeshUpdate.p).Nodup
  urgents : ∀ p ∈ s.urgents, p ∈ s.queue.map QueuedMeshUpdate.p
  whole : ∀ q ∈ s.queue, q.Whole g

structure Balanced (g : MeshGrid) (s : State) : Prop where
  total : s.total = s.asked
  numbered : s.grabbed.map Ref.grab = List.range s.grabbed.length
  queued : Queued g s

section

variable {cfg : Config} {g : MeshGrid} {s t : State} {a : Label} {p : V3s16} {w : Nat}

theorem initial_balanced (client : Client) (workers : Nat) :
    Balanced g (State.initial client workers) := by
  refine ⟨?_, rfl, ⟨List.nodup_nil, ?_, ?_⟩⟩
  · have hworkers : ((List.replicate workers Worker.idle).map Worker.cargo).sum = 0 := by
      simp [Worker.cargo]
    simp only [State.initial, State.total, State.held, State.got, State.asked, hworkers]
    rfl
  · exact fun p hp => absurd hp (Finset.notMem_empty p)
  · exact fun q hq => absurd hq List.not_mem_nil

theorem Balanced.numbered_append (h : Balanced g s) {grabbed : List Ref}
    (hgrabbed : grabbed.map Ref.grab = List.range' s.grabbed.length grabbed.length) :
    (s.grabbed ++ grabbed).map Ref.grab = List.range (s.grabbed ++ grabbed).length := by
  have hrange : List.range' 0 s.grabbed.length ++ List.range' s.grabbed.length grabbed.length =
      List.range' 0 (s.grabbed.length + grabbed.length) := by
    rw [← List.range'_append_1, Nat.zero_add]
  rw [List.map_append, h.numbered, hgrabbed, List.length_append, List.range_eq_range',
    List.range_eq_range', hrange]

theorem Balanced.total_add (h : Balanced g s) (acks : List V3s16) (grabbed : List Ref) :
    s.total + cargoOf acks grabbed =
      (↑(s.requested ++ acks), ↑(s.grabbed ++ grabbed), Multiset.range s.snapshots.length) := by
  rw [h.total, State.asked, cargoOf, ← Multiset.coe_add, ← Multiset.coe_add, Prod.mk_add_mk,
    Prod.mk_add_mk, add_zero]

/-- The urgent marks while a block is added. -/
theorem Queued.mem_urgents (h : Queued g s) {m p : V3s16} {urgent : Bool}
    (hp : p ∈ if urgent then insert m s.urgents else s.urgents) :
    p = m ∨ p ∈ s.queue.map QueuedMeshUpdate.p := by
  split at hp
  · rcases Finset.mem_insert.1 hp with rfl | hp
    · exact .inl rfl
    · exact .inr (h.urgents p hp)
  · exact .inr (h.urgents p hp)

theorem Balanced.place (h : Balanced g s) {acks : List V3s16} {urgent fromNeighbor : Bool}
    {r : QueuedMeshUpdate × List Ref} (hnew : r.1.p ∉ s.queue.map QueuedMeshUpdate.p)
    (hcargo : r.1.cargo = cargoOf acks r.2)
    (hgrab : r.2.map Ref.grab = List.range' s.grabbed.length r.2.length) (hwhole : r.1.Whole g) :
    Balanced g (State.place g { s with
      urgents := if urgent then insert r.1.p s.urgents else s.urgents } acks fromNeighbor r) := by
  have htotal := h.total_add acks r.2
  rw [State.place]
  dsimp only
  split
  · refine ⟨?_, h.numbered_append hgrab, ⟨h.queued.distinct, ?_, h.queued.whole⟩⟩
    · refine Eq.trans ?_ htotal
      simp only [State.total, State.held, State.got, hcargo]
      abel
    · intro p' hp'
      rcases Finset.mem_erase.1 hp' with ⟨hne, hp'⟩
      exact (h.queued.mem_urgents hp').resolve_left hne
  · refine ⟨?_, h.numbered_append hgrab, ⟨?_, ?_, ?_⟩⟩
    · refine Eq.trans ?_ htotal
      simp only [State.total, State.held, State.got, List.map_append, List.sum_append, List.map_singleton,
        List.sum_singleton, hcargo]
      abel
    · rw [List.map_append, List.map_singleton]
      refine List.nodup_append.2 ⟨h.queued.distinct, List.nodup_singleton _, ?_⟩
      intro p' hp' p'' hp'' heq
      rw [List.mem_singleton.1 hp''] at heq
      exact hnew (heq ▸ hp')
    · intro p' hp'
      rw [List.map_append, List.map_singleton]
      rcases h.queued.mem_urgents hp' with rfl | hp'
      · exact List.mem_append_right _ (List.mem_singleton_self _)
      · exact List.mem_append_left _ hp'
    · intro q hq
      rcases List.mem_append.1 hq with hq | hq
      · exact h.queued.whole q hq
      · rw [List.mem_singleton.1 hq]
        exact hwhole

theorem Balanced.addBlock (h : Balanced g s) (p : V3s16) (ack urgent fromNeighbor : Bool) :
    Balanced g (s.addBlock g p ack urgent fromNeighbor).2 := by
  rw [State.addBlock]
  split
  · exact h
  · dsimp only
    generalize (if ack then [p] else []) = acks
    generalize g.getMeshPos p = m
    split
    · rename_i queue grabbed hqueue
      rcases requestQueued_some hqueue with ⟨hsum, hpos, hmem, hgrab, hwhole⟩
      refine ⟨?_, h.numbered_append hgrab, ⟨?_, ?_, hwhole h.queued.whole⟩⟩
      · refine Eq.trans ?_ (h.total_add acks grabbed)
        simp only [State.total, State.held, State.got, hsum]
        abel
      · dsimp only
        rw [hpos]
        exact h.queued.distinct
      · intro p' hp'
        dsimp only
        rw [hpos]
        rcases h.queued.mem_urgents hp' with rfl | hp'
        · exact hmem
        · exact hp'
    · rename_i hqueue
      let blank : QueuedMeshUpdate := { p := m, crackPos := ⟨0, 0, 0⟩ }
      let request := blank.request s.client acks urgent
      have hcargo := cargo_retrieveBlocks s.client g s.grabbed.length request
      have hblank : request.cargo = cargoOf acks [] := cargo_request.trans (zero_add _)
      rw [hblank, ← cargoOf_append, List.append_nil, List.nil_append] at hcargo
      exact h.place (requestQueued_none hqueue) hcargo (grab_retrieveBlocks ..)
        (whole_retrieveBlocks (.inl rfl))

/-! ## The other sections -/

section

variable (h : Balanced g s)

include h

/-- What neither the queue nor the sums see. -/
theorem Balanced.congr (htotal : t.total = s.total) (hasked : t.asked = s.asked)
    (hgrabbed : t.grabbed = s.grabbed) (hqueue : t.queue = s.queue) (hurgents : t.urgents = s.urgents) :
    Balanced g t := by
  refine ⟨htotal.trans (h.total.trans hasked.symm), ?_, ?_⟩
  · rw [hgrabbed]
    exact h.numbered
  · rcases h.queued with ⟨hdistinct, hmarks, hwhole⟩
    refine ⟨?_, ?_, ?_⟩
    · rw [hqueue]
      exact hdistinct
    · rw [hqueue, hurgents]
      exact hmarks
    · rw [hqueue]
      exact hwhole

theorem Balanced.clear (finish : Bool) : Balanced g (s.clear finish) := by
  have hsub : (s.queue.filter fun q => !State.drops finish q.ackList).Sublist s.queue :=
    List.filter_sublist
  refine ⟨?_, h.numbered, ⟨h.queued.distinct.sublist (hsub.map _), ?_, ?_⟩⟩
  · refine Eq.trans ?_ h.total
    have hsplit := sum_filter_drops QueuedMeshUpdate.cargo (fun q => State.drops finish q.ackList) s.queue
    simp only [State.total, State.held, State.got, State.clear, ← hsplit]
    abel
  · intro p hp
    rcases Finset.mem_sdiff.1 hp with ⟨hp, hkept⟩
    rcases List.mem_map.1 (h.queued.urgents p hp) with ⟨q, hq, rfl⟩
    refine List.mem_map_of_mem (List.mem_filter.2 ⟨hq, ?_⟩)
    rw [Bool.not_eq_true']
    by_contra hdrop
    rw [Bool.not_eq_false] at hdrop
    exact hkept (List.mem_toFinset.2 (List.mem_map_of_mem (List.mem_filter.2 ⟨hq, hdrop⟩)))
  · exact fun q hq => h.queued.whole q (List.mem_of_mem_filter hq)

theorem Balanced.pop (hw : s.workers[w]? = some .idle) : Balanced g (s.pop w) := by
  rw [State.pop]
  split
  · exact h
  · rename_i q rest hpop
    rcases popFirst_some hpop with ⟨hperm, -, hsub⟩
    have hworkers := sum_map_set (w := Worker.cargo) (x := .popped q) hw
    have hqueue := (hperm.map QueuedMeshUpdate.cargo).sum_eq
    have hdistinct := (hperm.map QueuedMeshUpdate.p).nodup_iff.1 h.queued.distinct
    refine ⟨?_, h.numbered, ⟨(List.nodup_cons.1 hdistinct).2, ?_, ?_⟩⟩
    · refine Eq.trans ?_ h.total
      have hidle : Worker.idle.cargo = 0 := rfl
      have hpopped : (Worker.popped q).cargo = q.cargo := rfl
      rw [hidle, add_zero, hpopped] at hworkers
      simp only [State.total, State.held, State.got, State.setWorker, hworkers, hqueue, List.map_cons, List.sum_cons]
      abel
    · intro p hp
      rcases Finset.mem_erase.1 hp with ⟨hne, hp⟩
      have hmem := (hperm.map QueuedMeshUpdate.p).mem_iff.1 (h.queued.urgents p hp)
      rw [List.map_cons, List.mem_cons] at hmem
      exact hmem.resolve_left hne
    · exact fun q' hq' => h.queued.whole q' (hsub.subset hq')

theorem Balanced.snapshot {q : QueuedMeshUpdate} (hw : s.workers[w]? = some (.popped q)) :
    Balanced g (s.snapshot w q) := by
  let n := s.snapshots.length
  have hworkers := sum_map_set (w := Worker.cargo) (x := .making q ⟨n, q.crackLevel, q.crackPos⟩) hw
  have hcopied : ((s.workers.set w (.making q ⟨n, q.crackLevel, q.crackPos⟩)).map Worker.cargo).sum =
      (s.workers.map Worker.cargo).sum + ((0, 0, {n}) : Cargo) := by
    refine add_right_cancel (hworkers.trans ?_ : _ + q.cargo = _)
    simp only [Worker.cargo]
    abel
  refine ⟨?_, h.numbered, ⟨h.queued.distinct, h.queued.urgents, h.queued.whole⟩⟩
  have hasked : (s.snapshot w q).asked = s.asked + ((0, 0, {n}) : Cargo) := by
    simp only [State.asked, State.snapshot, State.setWorker, List.length_append,
      List.length_singleton, Multiset.range_succ, Prod.mk_add_mk, add_zero]
    rw [← Multiset.singleton_add, add_comm]
  rw [hasked, ← h.total]
  simp only [State.total, State.held, State.got, State.snapshot, State.setWorker]
  rw [hcopied]
  abel

theorem Balanced.putResult {q : QueuedMeshUpdate} {data : MeshMakeData}
    (hw : s.workers[w]? = some (.making q data)) :
    Balanced g ((s.putResult ⟨q.p, data, q.ackList, q.urgent, q.mapBlocks⟩).setWorker w
      (.finished q.p)) := by
  let r : MeshUpdateResult := ⟨q.p, data, q.ackList, q.urgent, q.mapBlocks⟩
  have hworkers := sum_map_set (w := Worker.cargo) (x := .finished q.p) hw
  have hcargo : (Worker.making q data).cargo = r.cargo := by
    simp only [Worker.cargo, QueuedMeshUpdate.cargo, MeshUpdateResult.cargo, r, Prod.mk_add_mk,
      add_zero, zero_add]
  have hfinished : (Worker.finished q.p).cargo = 0 := rfl
  rw [hcargo, hfinished, add_zero] at hworkers
  rw [State.putResult]
  split
  · refine h.congr ?_ rfl rfl rfl rfl
    simp only [State.total, State.held, State.got, State.setWorker, List.map_append, List.sum_append,
      List.map_singleton, List.sum_singleton, ← hworkers]
    abel
  · refine h.congr ?_ rfl rfl rfl rfl
    simp only [State.total, State.held, State.got, State.setWorker, List.map_append, List.sum_append,
      List.map_singleton, List.sum_singleton, ← hworkers]
    abel

theorem Balanced.done (hw : s.workers[w]? = some (.finished p)) :
    Balanced g (State.setWorker { s with inflight := s.inflight.erase p } w .idle) := by
  have hworkers := sum_map_set (w := Worker.cargo) (x := .idle) hw
  have hidle : Worker.idle.cargo = 0 := rfl
  have hfinished : (Worker.finished p).cargo = 0 := rfl
  rw [hidle, hfinished, add_zero, add_zero] at hworkers
  refine h.congr ?_ rfl rfl rfl rfl
  simp only [State.total, State.held, State.got, State.setWorker, hworkers]

end

theorem Balanced.runSection (h : Balanced cfg.grid s) {sec : Section}
    (hsec : s.runSection cfg sec = some t) : Balanced cfg.grid t := by
  cases sec with
  | updateBlock p ack urgent updateNeighbors =>
    have hadded := h.addBlock p ack urgent false
    rw [State.runSection] at hsec
    dsimp only at hsec
    split at hsec
    · cases hsec
      exact hadded.congr rfl rfl rfl rfl rfl
    · cases hsec
      exact hadded
  | neighbor p urgent =>
    cases hsec
    exact h.addBlock p false urgent true
  | urgentEmpty =>
    cases hsec
    exact h.congr rfl rfl rfl rfl rfl
  | outEmpty =>
    cases hsec
    split
    · exact h
    · exact h.congr rfl rfl rfl rfl rfl
  | popUrgent =>
    rw [State.runSection] at hsec
    split at hsec
    · cases hsec
    · rename_i r rest hout
      cases hsec
      refine h.congr ?_ rfl rfl rfl rfl
      simp only [State.total, State.held, State.got, hout, List.map_append, List.sum_append,
        List.map_cons, List.sum_cons, List.map_nil, List.sum_nil, add_zero]
      abel
  | popOut =>
    rw [State.runSection] at hsec
    split at hsec
    · cases hsec
    · rename_i r rest hout
      cases hsec
      refine h.congr ?_ rfl rfl rfl rfl
      simp only [State.total, State.held, State.got, hout, List.map_append, List.sum_append,
        List.map_cons, List.sum_cons, List.map_nil, List.sum_nil, add_zero]
      abel
  | clearQueue finish =>
    cases hsec
    exact h.clear finish
  | clearUrgent finish =>
    cases hsec
    have hsplit := sum_filter_drops MeshUpdateResult.cargo
      (fun r => State.drops finish r.ackList) s.outUrgent
    refine h.congr ?_ rfl rfl rfl rfl
    simp only [State.total, State.held, State.got, ← hsplit]
    abel
  | clearOut finish =>
    cases hsec
    have hsplit := sum_filter_drops MeshUpdateResult.cargo
      (fun r => State.drops finish r.ackList) s.out
    refine h.congr ?_ rfl rfl rfl rfl
    simp only [State.total, State.held, State.got, ← hsplit]
    abel

theorem Balanced.step (h : Balanced cfg.grid s) (hstep : Step cfg s a t) : Balanced cfg.grid t := by
  rw [Step] at hstep
  cases a with
  | world client =>
    rw [State.step] at hstep
    split at hstep
    · cases hstep
      exact h.congr rfl rfl rfl rfl rfl
    · cases hstep
  | call op =>
    rw [State.step] at hstep
    split at hstep
    · cases hstep
      exact h.congr rfl rfl rfl rfl rfl
    · cases hstep
  | main =>
    rw [State.step] at hstep
    split at hstep
    · cases hstep
    · rename_i sec rest htodo
      have hrest : Balanced cfg.grid { s with todo := rest } := h.congr rfl rfl rfl rfl rfl
      exact hrest.runSection hstep
  | pop w =>
    rw [State.step] at hstep
    split at hstep
    · rename_i hw
      cases hstep
      exact h.pop hw
    · cases hstep
  | snapshot w =>
    rw [State.step] at hstep
    split at hstep
    · rename_i q hw
      cases hstep
      exact h.snapshot hw
    · cases hstep
  | putResult w =>
    rw [State.step] at hstep
    split at hstep
    · rename_i q data hw
      cases hstep
      exact h.putResult hw
    · cases hstep
  | done w =>
    rw [State.step] at hstep
    split at hstep
    · rename_i p hw
      cases hstep
      exact h.done hw
    · cases hstep

end

/-! ## Acknowledgements -/

/-- The sections of `clearAllQueues(true)`. -/
def Section.finishes : Section → Bool
  | .clearQueue finish => finish
  | .clearUrgent finish => finish
  | .clearOut finish => finish
  | _ => false

/-- No acknowledgement is dropped, and none will be by the call that is under way. -/
structure Acknowledging (s : State) : Prop where
  cleared : s.cleared.1 = 0
  todo : ∀ sec ∈ s.todo, sec.finishes = false

section

variable {cfg : Config} {g : MeshGrid} {s t : State} {a : Label}

/-- What is dropped without `finish` has no acknowledgements. -/
theorem acks_sum_dropped {α : Type*} (acks : α → List V3s16) (f : α → Cargo)
    (hf : ∀ a, (f a).1 = ↑(acks a)) (l : List α) :
    ((l.filter fun a => State.drops false (acks a)).map f).sum.1 = 0 := by
  induction l with
  | nil => rfl
  | cons a rest ih =>
    rw [List.filter_cons]
    split
    · rename_i hdrop
      have hnone : acks a = [] := by
        rw [State.drops, Bool.or_false] at hdrop
        exact List.isEmpty_iff.1 hdrop
      rw [List.map_cons, List.sum_cons, Prod.fst_add, ih, hf, hnone]
      rfl
    · exact ih

theorem acks_place {acks : List V3s16} {fromNeighbor : Bool} {r : QueuedMeshUpdate × List Ref}
    (hr : fromNeighbor = true → r.1.cargo.1 = 0) :
    (State.place g s acks fromNeighbor r).cleared.1 = s.cleared.1 ∧
      (State.place g s acks fromNeighbor r).todo = s.todo := by
  rw [State.place]
  dsimp only
  split
  · rename_i hskip
    rw [Bool.and_eq_true] at hskip
    refine ⟨?_, rfl⟩
    rw [Prod.fst_add, hr hskip.1, add_zero]
  · exact ⟨rfl, rfl⟩

/-- A neighbor is queued without an acknowledgement, and only neighbors are skipped. -/
theorem acks_addBlock (p : V3s16) (ack urgent fromNeighbor : Bool)
    (hack : fromNeighbor = true → ack = false) :
    (s.addBlock g p ack urgent fromNeighbor).2.cleared.1 = s.cleared.1 ∧
      (s.addBlock g p ack urgent fromNeighbor).2.todo = s.todo := by
  rw [State.addBlock]
  by_cases hmissing : (s.client.map p).isNone = true
  · rw [if_pos hmissing]
    exact ⟨rfl, rfl⟩
  · rw [if_neg hmissing]
    dsimp only
    split
    · exact ⟨rfl, rfl⟩
    · refine acks_place (s := { s with
        urgents := if urgent then insert (g.getMeshPos p) s.urgents else s.urgents }) ?_
      intro hneighbor
      rw [hack hneighbor]
      rfl

theorem Acknowledging.addBlock (h : Acknowledging s) (p : V3s16) (ack urgent fromNeighbor : Bool)
    (hack : fromNeighbor = true → ack = false) :
    Acknowledging (s.addBlock g p ack urgent fromNeighbor).2 := by
  rcases acks_addBlock (s := s) (g := g) p ack urgent fromNeighbor hack with ⟨hcleared, htodo⟩
  refine ⟨hcleared.trans h.cleared, ?_⟩
  rw [htodo]
  exact h.todo

theorem Acknowledging.runSection (h : Acknowledging s) {sec : Section}
    (hfinish : sec.finishes = false) (hsec : s.runSection cfg sec = some t) : Acknowledging t := by
  cases sec with
  | updateBlock p ack urgent updateNeighbors =>
    have hadded := h.addBlock (g := cfg.grid) p ack urgent false nofun
    rw [State.runSection] at hsec
    dsimp only at hsec
    split at hsec
    · cases hsec
      refine ⟨hadded.cleared, ?_⟩
      intro sec hsec
      rcases List.mem_append.1 hsec with hsec | hsec
      · rcases List.mem_map.1 hsec with ⟨dp, -, rfl⟩
        rfl
      · exact hadded.todo sec hsec
    · cases hsec
      exact hadded
  | neighbor p urgent =>
    cases hsec
    exact h.addBlock p false urgent true fun _ => rfl
  | urgentEmpty =>
    cases hsec
    refine ⟨h.cleared, ?_⟩
    intro sec hsec
    rcases List.mem_cons.1 hsec with rfl | hsec
    · split <;> rfl
    · exact h.todo sec hsec
  | outEmpty =>
    cases hsec
    split
    · exact h
    · refine ⟨h.cleared, ?_⟩
      intro sec hsec
      rcases List.mem_cons.1 hsec with rfl | hsec
      · rfl
      · exact h.todo sec hsec
  | popUrgent =>
    rw [State.runSection] at hsec
    split at hsec
    · cases hsec
    · cases hsec
      exact ⟨h.cleared, h.todo⟩
  | popOut =>
    rw [State.runSection] at hsec
    split at hsec
    · cases hsec
    · cases hsec
      exact ⟨h.cleared, h.todo⟩
  | clearQueue finish =>
    cases hfinish
    cases hsec
    refine ⟨?_, h.todo⟩
    change (s.cleared + _).1 = 0
    rw [Prod.fst_add, h.cleared, zero_add]
    exact acks_sum_dropped _ _ (fun _ => rfl) s.queue
  | clearUrgent finish =>
    cases hfinish
    cases hsec
    refine ⟨?_, h.todo⟩
    change (s.cleared + _).1 = 0
    rw [Prod.fst_add, h.cleared, zero_add]
    exact acks_sum_dropped _ _ (fun _ => rfl) s.outUrgent
  | clearOut finish =>
    cases hfinish
    cases hsec
    refine ⟨?_, h.todo⟩
    change (s.cleared + _).1 = 0
    rw [Prod.fst_add, h.cleared, zero_add]
    exact acks_sum_dropped _ _ (fun _ => rfl) s.out

theorem Acknowledging.step (h : Acknowledging s) (ha : a ≠ .call (.clearAllQueues true))
    (hstep : Step cfg s a t) : Acknowledging t := by
  rw [Step] at hstep
  cases a with
  | world client =>
    rw [State.step] at hstep
    split at hstep
    · cases hstep
      exact ⟨h.cleared, h.todo⟩
    · cases hstep
  | call op =>
    rw [State.step] at hstep
    split at hstep
    · cases hstep
      refine ⟨h.cleared, ?_⟩
      intro sec hsec
      cases op with
      | updateBlock p ack urgent updateNeighbors =>
        rw [List.mem_singleton.1 hsec]
        rfl
      | getNextResult =>
        rw [List.mem_singleton.1 hsec]
        rfl
      | clearAllQueues finish =>
        have hfinish : finish = false := by
          cases finish with
          | true => exact absurd rfl ha
          | false => rfl
        subst hfinish
        simp only [State.sections, List.mem_cons, List.not_mem_nil, or_false] at hsec
        rcases hsec with rfl | rfl | rfl
        · rfl
        · rfl
        · rfl
    · cases hstep
  | main =>
    rw [State.step] at hstep
    split at hstep
    · cases hstep
    · rename_i sec rest htodo
      have hrest : Acknowledging { s with todo := rest } :=
        ⟨h.cleared, fun sec' hsec' => h.todo sec' (htodo ▸ List.mem_cons_of_mem _ hsec')⟩
      exact hrest.runSection (h.todo sec (htodo ▸ List.mem_cons_self ..)) hstep
  | pop w =>
    rw [State.step] at hstep
    split at hstep
    · cases hstep
      rw [State.pop]
      split
      · exact h
      · exact ⟨h.cleared, h.todo⟩
    · cases hstep
  | snapshot w =>
    rw [State.step] at hstep
    split at hstep
    · cases hstep
      exact ⟨h.cleared, h.todo⟩
    · cases hstep
  | putResult w =>
    rw [State.step] at hstep
    split at hstep
    · cases hstep
      rw [State.putResult]
      split
      · exact ⟨h.cleared, h.todo⟩
      · exact ⟨h.cleared, h.todo⟩
    · cases hstep
  | done w =>
    rw [State.step] at hstep
    split at hstep
    · cases hstep
      exact ⟨h.cleared, h.todo⟩
    · cases hstep

/-! ## Runs -/

/-- Where an update may be taken and no urgent mark is in the way, an idle worker gets one. -/
theorem Queued.pop_takes (h : Queued g s) {w : Nat} (hw : s.workers[w]? = some .idle)
    (hfree : ∃ q ∈ s.queue, q.p ∉ s.inflight) (hurgents : ∀ p ∈ s.urgents, p ∉ s.inflight) :
    ∃ q, (s.pop w).workers[w]? = some (.popped q) := by
  cases hpop : popFirst s.urgents s.inflight s.queue with
  | some r =>
    refine ⟨r.1, ?_⟩
    have hlt := (List.getElem?_eq_some_iff.1 hw).1
    rw [State.pop, hpop]
    exact List.getElem?_set_self hlt
  | none =>
    -- an urgent update, or any one that is not in flight, would have been taken
    have hskipped := popFirst_none hpop
    exfalso
    by_cases hnone : s.urgents = ∅
    · rcases hfree with ⟨q, hq, hin⟩
      rcases hskipped q hq with ⟨hsome, -⟩ | hin'
      · exact hsome hnone
      · exact hin hin'
    · rcases Finset.nonempty_iff_ne_empty.2 hnone with ⟨p, hp⟩
      rcases List.mem_map.1 (h.urgents p hp) with ⟨q, hq, rfl⟩
      rcases hskipped q hq with ⟨-, hnot⟩ | hin
      · exact hnot hp
      · exact hurgents _ hp hin

/-- Every reference is under way, with the client, or dropped, and in one place only; so is every
acknowledgement, and none is dropped before `clearAllQueues(true)`.  Each position is queued once, the
urgent positions are queued, and `pop` finds what may be taken. -/
theorem accounts_of_run {client : Client} {workers : Nat} {labels : List Label}
    (hrun : Run (Step cfg) (State.initial client workers) labels s) :
    (∀ ref ∈ s.grabbed, s.held.2.1.count ref + s.got.2.1.count ref + s.cleared.2.1.count ref = 1) ∧
      ((∀ a ∈ labels, a ≠ .call (.clearAllQueues true)) →
        ∀ p, s.held.1.count p + s.got.1.count p = s.requested.count p) ∧
      (s.queue.map QueuedMeshUpdate.p).Nodup ∧
      (∀ p ∈ s.urgents, p ∈ s.queue.map QueuedMeshUpdate.p) ∧
      ∀ w, s.workers[w]? = some .idle → (∃ q ∈ s.queue, q.p ∉ s.inflight) →
        (∀ p ∈ s.urgents, p ∉ s.inflight) →
        ∃ q t, Step cfg s (.pop w) t ∧ t.workers[w]? = some (.popped q) := by
  have h : Balanced cfg.grid s :=
    Run.invariant (P := Balanced cfg.grid) (fun _ _ _ hs hst => hs.step hst) hrun
      (initial_balanced client workers)
  refine ⟨?_, ?_, h.queued.distinct, h.queued.urgents, ?_⟩
  · intro ref href
    have hnodup : s.grabbed.Nodup := by
      refine List.Nodup.of_map Ref.grab ?_
      rw [h.numbered]
      exact List.nodup_range
    have htotal := congrArg (fun c : Cargo => c.2.1.count ref) h.total
    simp only [State.total, State.asked, Prod.snd_add, Prod.fst_add, Multiset.count_add,
      Multiset.coe_count] at htotal
    rw [htotal]
    exact List.count_eq_one_of_mem hnodup href
  · intro hlabels p
    have hacks : Acknowledging s := by
      refine Run.invariant_avoiding (P := Acknowledging) ?_ hrun hlabels ⟨rfl, ?_⟩
      · exact fun _ _ _ hs ha hst => hs.step ha hst
      · exact fun sec hsec => absurd hsec List.not_mem_nil
    have htotal := congrArg (fun c : Cargo => c.1.count p) h.total
    simp only [State.total, State.asked, Prod.fst_add, Multiset.count_add, Multiset.coe_count,
      hacks.cleared, add_zero] at htotal
    exact htotal
  · intro w hw hfree hurgents
    rcases h.queued.pop_takes hw hfree hurgents with ⟨q, hq⟩
    refine ⟨q, s.pop w, ?_, hq⟩
    rw [Step, State.step, hw]

end

/-- A map of one block, and meshes of one block. -/
def oneBlock : Client where
  map p := if p = ⟨0, 0, 0⟩ then some 0 else none
  blockPos _ := ⟨0, 0, 0⟩
  isAir _ := false

def smallGrid : Config where
  grid := ⟨1⟩

/-- A block arrives, its mesh is made and fetched. -/
def oneUpdate : List Label :=
  [.call (.updateBlock ⟨0, 0, 0⟩ true false false), .main, .pop 0, .snapshot 0, .putResult 0, .done 0,
    .call .getNextResult, .main, .main, .main]

theorem accounts_of_run_oneUpdate : ∃ s, Run (Step smallGrid) (State.initial oneBlock 1) oneUpdate s ∧
    s.requested = [⟨0, 0, 0⟩] ∧ s.held.1.count ⟨0, 0, 0⟩ + s.got.1.count ⟨0, 0, 0⟩ = 1 := by
  have hsome : (oneUpdate.foldlM (State.step smallGrid) (State.initial oneBlock 1)).map
      State.requested = some [⟨0, 0, 0⟩] := by
    decide +kernel
  rcases Option.map_eq_some_iff.1 hsome with ⟨s, hs, hrequested⟩
  have hrun : Run (Step smallGrid) (State.initial oneBlock 1) oneUpdate s := run_of_foldlM hs
  refine ⟨s, hrun, hrequested, ?_⟩
  have hcount := (accounts_of_run hrun).2.1 (by simp [oneUpdate]) ⟨0, 0, 0⟩
  rw [hcount, hrequested]
  rfl

end Mesh
end AxisEngine
