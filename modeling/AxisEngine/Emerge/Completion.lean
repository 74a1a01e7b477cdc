import AxisEngine.Emerge.Bookkeeping

/-!
# Completion — which callbacks are called

A callback that was accepted waits in the entry of its block until a thread takes the entry, and is
then held by the thread until it is called.  The thread drops what it holds in two places: when the
block is outside the world, and when an exception leaves the loop.  What is queued at a thread that
has stopped is not taken at all.

* `waiting` — the callbacks that a thread has yet to call;
* `Kept` — the condition on a step that no callback is dropped;
* `answered_once` — in runs whose steps meet the condition, what a thread has accepted is what it
  has called and what waits, and nothing waits once its queue is drained or it has stopped.
-/

namespace AxisEngine
namespace Emerge

open Lib EmergeManager

variable {Callback : Type}

/-! ## What waits -/

/-- The callbacks of an entry, with their block. -/
def callbacksAt (l : AList fun _ : V3s16 => BlockEmergeData Callback) (pos : V3s16) :
    List (V3s16 × Callback) :=
  ((l.lookup pos).map BlockEmergeData.callbacks).getD [] |>.map fun c => (pos, c)

/-- The callbacks that the thread holds. -/
def Phase.held : Phase Callback → List (V3s16 × Callback)
  | .popped pos bedata => bedata.callbacks.map fun c => (pos, c)
  | .completing pos _ callbacks => callbacks.map fun c => (pos, c)
  | _ => []

/-- The callbacks that the thread has yet to call. -/
def waiting (l : AList fun _ : V3s16 => BlockEmergeData Callback) (t : EmergeThread Callback) :
    List (V3s16 × Callback) :=
  t.blockQueue.flatMap (callbacksAt l) ++ t.phase.held

namespace EmergeThread

/-- The callbacks called, with their blocks. -/
def answers (t : EmergeThread Callback) : List (V3s16 × Callback) :=
  t.called.map fun c => (c.1, c.2.2)

/-- The thread has nothing in its queue and holds nothing, or it has stopped. -/
def Done (t : EmergeThread Callback) : Prop :=
  t.phase = .stopped ∨ t.blockQueue = [] ∧ t.phase.held = []

end EmergeThread

/-- What the thread accepted, it has called or has yet to call. -/
structure Answered (l : AList fun _ : V3s16 => BlockEmergeData Callback)
    (t : EmergeThread Callback) : Prop where
  accepted : t.accepted.Perm (t.answers ++ waiting l t)
  stopped : t.phase = .stopped → waiting l t = []

/-- The condition: what a thread drops has no callbacks, and no callback is queued at a thread that
has stopped. -/
def Kept (m : EmergeManager Callback) : Event Callback → Prop
  | .enqueue r _ => r.callback = none ∨
      (∀ t ∈ m.threads, r.blockpos ∈ t.blockQueue → t.phase ≠ .stopped) ∧
        ∀ i t, r.blockpos ∉ m.blocksEnqueued → m.getOptimalThread = some i →
          m.threads[i]? = some t → t.phase ≠ .stopped
  | .skip i => ∀ t, m.threads[i]? = some t → t.phase.held = []
  | .throw i => ∀ t, m.threads[i]? = some t → t.phase.held = []
  | _ => True

/-- The callbacks that were accepted on the way. -/
def acceptedCallbacks (es : List (Event Callback)) : List (V3s16 × Callback) :=
  es.flatMap fun e =>
    match e with
    | .enqueue r true => r.callback.toList.map fun c => (r.blockpos, c)
    | _ => []

variable {l l' : AList fun _ : V3s16 => BlockEmergeData Callback}
  {m m' : EmergeManager Callback} {i : Nat} {t : EmergeThread Callback} {pos : V3s16}
  {bedata : BlockEmergeData Callback}

/-! ## Changes of the entries -/

theorem waiting_congr (h : ∀ pos ∈ t.blockQueue, l'.lookup pos = l.lookup pos) :
    waiting l' t = waiting l t := by
  rw [waiting, waiting]
  congr 1
  refine List.flatMap_congr fun pos hpos => ?_
  rw [callbacksAt, callbacksAt, h pos hpos]

theorem waiting_insert (h : pos ∉ t.blockQueue) :
    waiting (l.insert pos bedata) t = waiting l t :=
  waiting_congr fun _ hq => AList.lookup_insert_ne fun heq => h (heq ▸ hq)

theorem waiting_erase (h : pos ∉ t.blockQueue) : waiting (l.erase pos) t = waiting l t :=
  waiting_congr fun _ hq => AList.lookup_erase_ne fun heq => h (heq ▸ hq)

theorem callbacksAt_eq (h : l.lookup pos = some bedata) :
    callbacksAt l pos = bedata.callbacks.map fun c => (pos, c) := by
  rw [callbacksAt, h]
  rfl

/-- A callback more in one entry is one more to call. -/
theorem waiting_merge {bedata' : BlockEmergeData Callback} {callbacks : List Callback}
    (hlookup : l.lookup pos = some bedata)
    (hcallbacks : bedata'.callbacks = bedata.callbacks ++ callbacks) (hpos : pos ∈ t.blockQueue)
    (hnodup : t.blockQueue.Nodup) :
    (waiting (l.insert pos bedata') t).Perm (waiting l t ++ callbacks.map fun c => (pos, c)) := by
  rcases List.append_of_mem hpos with ⟨before, behind, hqueue⟩
  rw [hqueue] at hnodup
  have hnot : ∀ q ∈ before ++ behind, q ≠ pos := by
    intro q hq heq
    have hnodup' := List.perm_middle.nodup_iff.1 hnodup
    exact (List.nodup_cons.1 hnodup').1 (heq ▸ hq)
  have hsame : ∀ qs : List V3s16, (∀ q ∈ qs, q ∈ before ++ behind) →
      qs.flatMap (callbacksAt (l.insert pos bedata')) = qs.flatMap (callbacksAt l) := by
    intro qs hqs
    refine List.flatMap_congr fun q hq => ?_
    rw [callbacksAt, callbacksAt, AList.lookup_insert_ne (hnot q (hqs q hq))]
  have hbefore := hsame before fun q hq => List.mem_append_left _ hq
  have hbehind := hsame behind fun q hq => List.mem_append_right _ hq
  rw [waiting, waiting, hqueue, List.flatMap_append, List.flatMap_append, List.flatMap_cons,
    List.flatMap_cons, hbefore, hbehind, callbacksAt_eq (AList.lookup_insert l), hcallbacks,
    List.map_append, callbacksAt_eq hlookup]
  simp only [List.append_assoc]
  refine (List.Perm.append_left _ ?_).append_left _
  rw [← List.append_assoc (behind.flatMap _)]
  exact List.perm_append_comm

/-! ## One thread -/

theorem Answered.congr (h : Answered l t) (hsame : waiting l' t = waiting l t) :
    Answered l' t := by
  refine ⟨?_, fun hstopped => ?_⟩
  · rw [hsame]
    exact h.accepted
  · rw [hsame]
    exact h.stopped hstopped

variable {phase : Phase Callback} {r : Request Callback}
  {f : EmergeThread Callback → EmergeThread Callback}

theorem Answered.setPhase (h : Answered l t) (hheld : phase.held = t.phase.held)
    (hstopped : phase = .stopped → waiting l t = []) : Answered l { t with phase := phase } := by
  have hsame : waiting l { t with phase := phase } = waiting l t := by
    rw [waiting, waiting]
    exact congrArg _ hheld
  refine ⟨?_, fun hphase => ?_⟩
  · rw [hsame]
    exact h.accepted
  · rw [hsame]
    exact hstopped hphase

theorem answers_call (t : EmergeThread Callback) (pos : V3s16) (action : EmergeAction)
    (callbacks : List Callback) :
    EmergeThread.answers { t with called := t.called ++ callbacks.map fun c => (pos, action, c) } =
      t.answers ++ callbacks.map fun c => (pos, c) := by
  rw [EmergeThread.answers, List.map_append, List.map_map]
  rfl

theorem Answered.take {rest : List V3s16} (h : Answered l t) (hqueue : t.blockQueue = pos :: rest)
    (hlookup : l.lookup pos = some bedata) (hnodup : t.blockQueue.Nodup) :
    t.accepted.Perm (t.answers ++ ((bedata.callbacks.map fun c => (pos, c)) ++
      waiting (l.erase pos) { t with blockQueue := rest })) := by
  rw [hqueue, List.nodup_cons] at hnodup
  have hrest : waiting (l.erase pos) { t with blockQueue := rest } =
      waiting l { t with blockQueue := rest } := waiting_erase hnodup.1
  have hwaiting : waiting l t = (bedata.callbacks.map fun c => (pos, c)) ++
      waiting l { t with blockQueue := rest } := by
    rw [waiting, hqueue, List.flatMap_cons, callbacksAt_eq hlookup, List.append_assoc]
    rfl
  rw [hrest, ← hwaiting]
  exact h.accepted

/-! ## All threads -/

/-- The books are kept, and each thread answers for what it accepted. -/
structure Answering (m : EmergeManager Callback) : Prop where
  booked : Booked m
  each : ∀ t ∈ m.threads, Answered m.blocksEnqueued t

theorem Answering.nodup_queued (h : Answering m) : m.queued.Nodup :=
  h.booked.queues.nodup_iff.2 m.blocksEnqueued.keys_nodup

theorem changeThread_changeThread (m : EmergeManager Callback) (i : Nat)
    (f g : EmergeThread Callback → EmergeThread Callback) :
    (m.changeThread i f).changeThread i g = m.changeThread i (g ∘ f) := by
  rw [EmergeManager.changeThread, EmergeManager.changeThread, EmergeManager.changeThread]
  dsimp only
  rw [List.modify_modify_eq]

/-- A step of one thread that leaves queues and entries alone. -/
theorem Answering.changeThread (h : Answering m) (ht : m.threads[i]? = some t)
    (hf : ∀ t, (f t).blockQueue = t.blockQueue) (hanswered : Answered m.blocksEnqueued (f t)) :
    Answering (m.changeThread i f) := by
  refine ⟨h.booked.changeThread hf, fun s hs => ?_⟩
  rcases exists_thread ht with ⟨l₁, l₂, hthreads, hmodify⟩
  have hs' : s ∈ l₁ ++ f t :: l₂ := hmodify f ▸ hs
  rcases List.mem_append.1 hs' with hs' | hs'
  · exact h.each s (hthreads ▸ List.mem_append_left _ hs')
  · rcases List.mem_cons.1 hs' with rfl | hs'
    · exact hanswered
    · exact h.each s (hthreads ▸ List.mem_append_right _ (List.mem_cons_of_mem _ hs'))

theorem Answering.setPhase (h : Answering m) (ht : m.threads[i]? = some t)
    (hheld : phase.held = t.phase.held) (hstopped : phase = .stopped → waiting m.blocksEnqueued t = []) :
    Answering (m.setPhase i phase) :=
  h.changeThread ht (fun _ => rfl) ((h.each t (List.mem_of_getElem? ht)).setPhase hheld hstopped)

theorem queue_disjoint {l₁ l₂ : List (EmergeThread Callback)}
    (h : ((l₁ ++ t :: l₂).flatMap EmergeThread.blockQueue).Nodup) :
    t.blockQueue.Nodup ∧ ∀ s ∈ l₁ ++ l₂, ∀ pos ∈ t.blockQueue, pos ∉ s.blockQueue := by
  have hperm : ((l₁ ++ t :: l₂).flatMap EmergeThread.blockQueue).Perm
      (t.blockQueue ++ (l₁ ++ l₂).flatMap EmergeThread.blockQueue) := by
    have hmiddle : (l₁ ++ t :: l₂).Perm (t :: (l₁ ++ l₂)) := List.perm_middle
    exact hmiddle.flatMap_right _
  rcases List.nodup_append.1 (hperm.nodup_iff.1 h) with ⟨hself, -, hcross⟩
  refine ⟨hself, fun s hs pos hpos hmem => ?_⟩
  exact hcross pos hpos pos (List.mem_flatMap.2 ⟨s, hs, hmem⟩) rfl

/-- Taking an entry off and doing `f` with the thread then. -/
theorem Answering.take (h : Answering m) (ht : m.threads[i]? = some t)
    (hpop : m.popBlockEmerge i t = some (pos, bedata, m')) (hf : ∀ t, (f t).blockQueue = t.blockQueue)
    (hanswered : ∀ rest, t.accepted.Perm (t.answers ++ ((bedata.callbacks.map fun c => (pos, c)) ++
      waiting m'.blocksEnqueued { t with blockQueue := rest })) →
        Answered m'.blocksEnqueued (f { t with blockQueue := rest })) :
    Answering (m'.changeThread i f) := by
  refine ⟨(h.booked.popBlockEmerge ht hpop).changeThread hf, fun s hs => ?_⟩
  rcases popBlockEmerge_eq hpop with ⟨rest, m₁, hqueue, hdata, rfl⟩
  rcases h.booked.pop (mem_queued ht (hqueue ▸ List.mem_cons_self)) with ⟨bedata', hlookup, hdata', -⟩
  rw [hdata] at hdata'
  cases hdata'
  rcases exists_thread ht with ⟨l₁, l₂, hthreads, hmodify⟩
  have hnodup := h.nodup_queued
  rw [queued, hthreads] at hnodup
  rcases queue_disjoint hnodup with ⟨hself, hothers⟩
  have hpos : pos ∈ t.blockQueue := hqueue ▸ List.mem_cons_self
  have hother : ∀ s ∈ l₁ ++ l₂, s ∈ m.threads →
      Answered (m.blocksEnqueued.erase pos) s := fun s hs hmem =>
    (h.each s hmem).congr (waiting_erase (hothers s hs pos hpos))
  have hs' : s ∈ l₁ ++ f { t with blockQueue := rest } :: l₂ := by
    have hmodify' := hmodify (f ∘ fun t => { t with blockQueue := rest })
    rw [← List.modify_modify_eq] at hmodify'
    exact hmodify' ▸ hs
  rcases List.mem_append.1 hs' with hs' | hs'
  · exact hother s (List.mem_append_left _ hs') (hthreads ▸ List.mem_append_left _ hs')
  · rcases List.mem_cons.1 hs' with rfl | hs'
    · exact hanswered rest
        ((h.each t (List.mem_of_getElem? ht)).take hqueue hlookup hself)
    · exact hother s (List.mem_append_right _ hs')
        (hthreads ▸ List.mem_append_right _ (List.mem_cons_of_mem _ hs'))

/-! ## Requests -/

/-- The log of a thread after a request. -/
def note (r : Request Callback) (t : EmergeThread Callback) : EmergeThread Callback :=
  if r.blockpos ∈ t.blockQueue then
    { t with accepted := t.accepted ++ r.callback.toList.map fun c => (r.blockpos, c) }
  else t

theorem noteAccepted_eq (m : EmergeManager Callback) (r : Request Callback) :
    m.noteAccepted r = { m with threads := m.threads.map (note r) } := rfl

theorem Answered.note (h : Answered l t)
    (hout : r.blockpos ∉ t.blockQueue → waiting l' t = waiting l t)
    (hin : r.blockpos ∈ t.blockQueue → (waiting l' t).Perm
      (waiting l t ++ r.callback.toList.map fun c => (r.blockpos, c)))
    (hphase : r.blockpos ∈ t.blockQueue → r.callback = none ∨ t.phase ≠ .stopped) :
    Answered l' (note r t) := by
  rw [Emerge.note]
  split
  · rename_i hpos
    refine ⟨?_, fun hstopped => ?_⟩
    · refine ((h.accepted.append_right _).trans ?_)
      rw [List.append_assoc]
      exact (hin hpos).symm.append_left _
    · rcases hphase hpos with hnone | hnot
      · have hperm := hin hpos
        rw [h.stopped hstopped, hnone] at hperm
        exact hperm.eq_nil
      · exact absurd hstopped hnot
  · rename_i hpos
    exact h.congr (hout hpos)

theorem Answered.push (h : Answered l t)
    (hlookup : l'.lookup r.blockpos = some bedata) (hcallbacks : bedata.callbacks = r.callback.toList)
    (hsame : ∀ pos ∈ t.blockQueue, l'.lookup pos = l.lookup pos)
    (hphase : r.callback = none ∨ t.phase ≠ .stopped) :
    Answered l' (Emerge.note r { t with blockQueue := t.blockQueue ++ [r.blockpos] }) := by
  have hwaiting : (waiting l' { t with blockQueue := t.blockQueue ++ [r.blockpos] }).Perm
      (waiting l t ++ r.callback.toList.map fun c => (r.blockpos, c)) := by
    have hold : waiting l' t = waiting l t := waiting_congr hsame
    rw [← hold, waiting, waiting, List.flatMap_append, List.flatMap_singleton,
      callbacksAt_eq hlookup, hcallbacks, List.append_assoc, List.append_assoc]
    exact List.perm_append_comm.append_left _
  rw [Emerge.note, if_pos (List.mem_append_right _ List.mem_cons_self)]
  refine ⟨?_, fun hstopped => ?_⟩
  · refine (h.accepted.append_right _).trans ?_
    rw [List.append_assoc]
    exact hwaiting.symm.append_left _
  · rcases hphase with hnone | hnot
    · rw [h.stopped hstopped, hnone] at hwaiting
      exact hwaiting.eq_nil
    · exact absurd hstopped hnot

theorem Answering.enqueue {accepted : Bool} (h : Answering m) (hkept : Kept m (.enqueue r accepted))
    (henqueue : m.enqueueBlockEmergeEx r = some (m', accepted)) : Answering m' := by
  refine ⟨h.booked.enqueue henqueue, fun s hs => ?_⟩
  rw [enqueueBlockEmergeEx] at henqueue
  rcases pushBlockEmergeData_cases m r with ⟨hpush, -⟩ | ⟨-, ⟨bedata, hlookup, hpush⟩ | ⟨hnew, hpush⟩⟩
  · rw [hpush] at henqueue
    cases henqueue
    exact h.each s hs
  · rw [hpush] at henqueue
    cases henqueue
    rw [noteAccepted_eq] at hs
    rcases List.mem_map.1 hs with ⟨t, ht, rfl⟩
    have ht : t ∈ m.threads := ht
    refine (h.each t ht).note waiting_insert (fun hpos => ?_) fun hpos => ?_
    · have hnodup : t.blockQueue.Nodup := by
        rcases List.append_of_mem ht with ⟨l₁, l₂, hthreads⟩
        have hqueued := h.nodup_queued
        rw [queued, hthreads] at hqueued
        exact (queue_disjoint hqueued).1
      exact waiting_merge hlookup rfl hpos hnodup
    · exact hkept.imp_right fun hrest => hrest.1 t ht hpos
  · rw [hpush] at henqueue
    rcases Option.map_eq_some_iff.1 henqueue with ⟨i, hoptimal, heq⟩
    cases heq
    rcases getOptimalThread_spec hoptimal with ⟨t, ht⟩
    have ht : m.threads[i]? = some t := ht
    rcases exists_thread ht with ⟨l₁, l₂, hthreads, hmodify⟩
    have hnot : r.blockpos ∉ m.queued := fun hmem =>
      hnew (AList.mem_keys.2 (h.booked.queues.mem_iff.1 hmem))
    have hfree : ∀ s ∈ m.threads, r.blockpos ∉ s.blockQueue := fun s hs hmem =>
      hnot (List.mem_flatMap.2 ⟨s, hs, hmem⟩)
    have hother : ∀ s ∈ m.threads, Answered (m.blocksEnqueued.insert r.blockpos
        { peerRequested := r.peerId, flags := r.flags, callbacks := r.callback.toList })
        (note r s) := fun s hs =>
      (h.each s hs).note waiting_insert (fun hpos => absurd hpos (hfree s hs))
        fun hpos => absurd hpos (hfree s hs)
    rw [noteAccepted_eq] at hs
    rcases List.mem_map.1 hs with ⟨u, hu, rfl⟩
    have hu : u ∈ l₁ ++ { t with blockQueue := t.blockQueue ++ [r.blockpos] } :: l₂ :=
      hmodify (fun t => { t with blockQueue := t.blockQueue ++ [r.blockpos] }) ▸ hu
    rcases List.mem_append.1 hu with hu | hu
    · exact hother u (hthreads ▸ List.mem_append_left _ hu)
    · rcases List.mem_cons.1 hu with rfl | hu
      · have hmem := List.mem_of_getElem? ht
        refine (h.each t hmem).push (AList.lookup_insert _) rfl
          (fun pos hpos => AList.lookup_insert_ne fun heq => hfree t hmem (heq ▸ hpos)) ?_
        exact hkept.imp_right fun hrest => hrest.2 i t hnew hoptimal ht
      · exact hother u (hthreads ▸ List.mem_append_right _ (List.mem_cons_of_mem _ hu))

/-! ## What was accepted in all -/

namespace EmergeManager

def accepted (m : EmergeManager Callback) : List (V3s16 × Callback) :=
  m.threads.flatMap EmergeThread.accepted

end EmergeManager

theorem accepted_changeThread {f : EmergeThread Callback → EmergeThread Callback}
    (ht : m.threads[i]? = some t) (hf : (f t).accepted = t.accepted) :
    (m.changeThread i f).accepted = m.accepted := by
  rcases exists_thread ht with ⟨l₁, l₂, hthreads, hmodify⟩
  rw [EmergeManager.accepted, EmergeManager.changeThread]
  dsimp only
  rw [hmodify, EmergeManager.accepted, hthreads, List.flatMap_append, List.flatMap_append,
    List.flatMap_cons, List.flatMap_cons, hf]

/-- A block that is in a queue is in one, so the callback is noted once. -/
theorem accepted_noteAccepted {r : Request Callback} (hnodup : m.queued.Nodup)
    (hpos : r.blockpos ∈ m.queued) : (m.noteAccepted r).accepted.Perm
      (m.accepted ++ r.callback.toList.map fun c => (r.blockpos, c)) := by
  rcases List.mem_flatMap.1 hpos with ⟨t, ht, hmem⟩
  rcases List.append_of_mem ht with ⟨l₁, l₂, hthreads⟩
  rw [queued, hthreads] at hnodup
  have hother : ∀ s ∈ l₁ ++ l₂, note r s = s := fun s hs =>
    if_neg ((queue_disjoint hnodup).2 s hs r.blockpos hmem)
  have hsame : ∀ l : List (EmergeThread Callback), (∀ s ∈ l, s ∈ l₁ ++ l₂) →
      l.map (note r) = l := by
    intro l hl
    exact (List.map_congr_left (g := id) fun s hs => hother s (hl s hs)).trans (List.map_id l)
  rw [noteAccepted_eq, EmergeManager.accepted, EmergeManager.accepted]
  dsimp only
  rw [hthreads, List.map_append, List.map_cons, hsame l₁ fun s hs => List.mem_append_left _ hs,
    hsame l₂ fun s hs => List.mem_append_right _ hs, List.flatMap_append, List.flatMap_append,
    List.flatMap_cons, List.flatMap_cons, show (note r t).accepted = t.accepted ++
      r.callback.toList.map fun c => (r.blockpos, c) by rw [note, if_pos hmem],
    List.append_assoc, List.append_assoc, List.append_assoc]
  exact (List.perm_append_comm.append_left _).append_left _

theorem accepted_enqueue {r : Request Callback} {accepted : Bool} (h : Booked m)
    (henqueue : m.enqueueBlockEmergeEx r = some (m', accepted)) :
    m'.accepted.Perm (m.accepted ++ acceptedCallbacks [.enqueue r accepted]) := by
  have hnodup : m.queued.Nodup := h.queues.nodup_iff.2 m.blocksEnqueued.keys_nodup
  have hone : acceptedCallbacks [.enqueue r true] =
      r.callback.toList.map fun c => (r.blockpos, c) := List.append_nil _
  rw [enqueueBlockEmergeEx] at henqueue
  rcases pushBlockEmergeData_cases m r with ⟨hpush, -⟩ | ⟨-, ⟨bedata, hlookup, hpush⟩ | ⟨hnew, hpush⟩⟩
  · rw [hpush] at henqueue
    cases henqueue
    exact .of_eq (List.append_nil _).symm
  · rw [hpush] at henqueue
    cases henqueue
    have hpos : r.blockpos ∈ m.queued := by
      refine h.queues.mem_iff.2 (AList.mem_keys.1 (AList.lookup_isSome.1 ?_))
      rw [hlookup]
      rfl
    rw [hone]
    exact accepted_noteAccepted hnodup hpos
  · rw [hpush] at henqueue
    rcases Option.map_eq_some_iff.1 henqueue with ⟨i, hoptimal, heq⟩
    cases heq
    rcases getOptimalThread_spec hoptimal with ⟨t, ht⟩
    have hpushed := queued_pushBlock ht r.blockpos
    have hnot : r.blockpos ∉ m.queued := fun hmem =>
      hnew (AList.mem_keys.2 (h.queues.mem_iff.1 hmem))
    rw [hone]
    refine (accepted_noteAccepted (hpushed.nodup_iff.2 (List.nodup_cons.2 ⟨hnot, hnodup⟩))
      (hpushed.mem_iff.2 List.mem_cons_self)).trans (.of_eq ?_)
    refine congrArg (· ++ r.callback.toList.map fun c => (r.blockpos, c)) ?_
    exact accepted_changeThread (f := fun t =>
      { t with blockQueue := t.blockQueue ++ [r.blockpos] }) ht rfl

/-! ## Every step, and every run -/

theorem Answering.step {e : Event Callback} (h : Answering m) (hkept : Kept m e)
    (hstep : Step m e m') : Answering m' := by
  cases hstep with
  | enqueue henqueue => exact h.enqueue hkept henqueue
  | @start i t ht hphase =>
    have hanswered := h.each t (List.mem_of_getElem? ht)
    refine h.changeThread ht (fun _ => rfl) ⟨?_, fun hstopped => nomatch hstopped⟩
    have hheld : t.phase.held = [] := by
      rcases hphase with hphase | hphase <;> rw [hphase] <;> rfl
    have haccepted := hanswered.accepted
    rw [waiting, hheld] at haccepted
    exact haccepted
  | requestStop ht =>
    have hanswered := h.each _ (List.mem_of_getElem? ht)
    exact h.changeThread ht (fun _ => rfl) ⟨hanswered.accepted, hanswered.stopped⟩
  | @pop m₁ i t pos bedata ht hphase _ hpop =>
    refine h.take ht hpop (fun _ => rfl) fun rest haccepted => ⟨?_, fun hstopped => nomatch hstopped⟩
    refine haccepted.trans (List.Perm.append_left _ ?_)
    have hwaiting : waiting m₁.blocksEnqueued { t with blockQueue := rest } =
        rest.flatMap (callbacksAt m₁.blocksEnqueued) := by
      rw [waiting]
      dsimp only
      rw [hphase]
      exact List.append_nil _
    rw [hwaiting]
    exact List.perm_append_comm
  | @skip i t pos bedata ht hphase _ =>
    exact h.setPhase ht (hkept t ht).symm fun hstopped => nomatch hstopped
  | processed ht hphase _ =>
    refine h.setPhase ht ?_ fun hstopped => nomatch hstopped
    rw [hphase]
    rfl
  | @throw i t pos bedata ht hphase _ =>
    exact h.setPhase ht (hkept t ht).symm fun hstopped => nomatch hstopped
  | @call i t pos action c callbacks ht hphase =>
    have hanswered := h.each t (List.mem_of_getElem? ht)
    rw [EmergeManager.call, EmergeManager.setPhase, changeThread_changeThread]
    refine h.changeThread ht (fun _ => rfl) ⟨?_, fun hstopped => nomatch hstopped⟩
    have haccepted := hanswered.accepted
    have hheld : t.phase.held = (pos, c) :: callbacks.map fun c => (pos, c) := by
      rw [hphase]
      rfl
    refine haccepted.trans ?_
    change List.Perm _ (EmergeThread.answers
      { t with called := t.called ++ [c].map fun c => (pos, action, c) } ++
        (t.blockQueue.flatMap (callbacksAt m.blocksEnqueued) ++ callbacks.map fun c => (pos, c)))
    rw [answers_call, waiting, hheld, List.append_assoc]
    exact List.perm_middle.append_left _
  | next ht hphase =>
    refine h.setPhase ht ?_ fun hstopped => nomatch hstopped
    rw [hphase]
    rfl
  | leave ht hphase _ =>
    refine h.setPhase ht ?_ fun hstopped => nomatch hstopped
    rw [hphase]
    rfl
  | @cancel m₁ i t pos bedata ht hphase hpop =>
    refine h.take ht hpop (fun _ => rfl) fun rest haccepted => ⟨?_, fun hstopped => ?_⟩
    · rw [answers_call, List.append_assoc]
      exact haccepted
    · rw [hphase] at hstopped
      cases hstopped
  | stopped ht hphase hqueue =>
    refine h.setPhase ht ?_ fun _ => ?_
    · rw [hphase]
      rfl
    · rw [waiting, hqueue, hphase]
      rfl

theorem accepted_step {e : Event Callback} (h : Booked m) (hstep : Step m e m') :
    m'.accepted.Perm (m.accepted ++ acceptedCallbacks [e]) := by
  have hpopped : ∀ {m₁ : EmergeManager Callback} {i : Nat} {t : EmergeThread Callback}
      {pos : V3s16} {bedata : BlockEmergeData Callback}
      (f : EmergeThread Callback → EmergeThread Callback), (∀ t, (f t).accepted = t.accepted) →
      m.threads[i]? = some t → m.popBlockEmerge i t = some (pos, bedata, m₁) →
      (m₁.changeThread i f).accepted = m.accepted := by
    intro m₁ i t pos bedata f hf ht hpop
    rcases popBlockEmerge_eq hpop with ⟨rest, m₂, hqueue, hdata, rfl⟩
    rcases h.pop (mem_queued ht (hqueue ▸ List.mem_cons_self)) with ⟨bedata', -, hdata', -⟩
    rw [hdata] at hdata'
    cases hdata'
    rw [changeThread_changeThread]
    exact accepted_changeThread (t := t) ht (hf _)
  have hsame : ∀ {m₁ : EmergeManager Callback}, m₁.accepted = m.accepted →
      m₁.accepted.Perm (m.accepted ++ []) := fun heq =>
    .of_eq (heq.trans (List.append_nil _).symm)
  cases hstep with
  | enqueue henqueue => exact accepted_enqueue h henqueue
  | start ht _ => exact hsame (accepted_changeThread ht rfl)
  | requestStop ht => exact hsame (accepted_changeThread ht rfl)
  | pop ht _ _ hpop => exact hsame (hpopped _ (fun _ => rfl) ht hpop)
  | skip ht _ _ => exact hsame (accepted_changeThread ht rfl)
  | processed ht _ _ => exact hsame (accepted_changeThread ht rfl)
  | throw ht _ _ => exact hsame (accepted_changeThread ht rfl)
  | call ht _ =>
    refine hsame ?_
    rw [EmergeManager.call, EmergeManager.setPhase, changeThread_changeThread]
    exact accepted_changeThread ht rfl
  | next ht _ => exact hsame (accepted_changeThread ht rfl)
  | leave ht _ _ => exact hsame (accepted_changeThread ht rfl)
  | cancel ht _ hpop => exact hsame (hpopped _ (fun _ => rfl) ht hpop)
  | stopped ht _ _ => exact hsame (accepted_changeThread ht rfl)

theorem EmergeManager.Started.answering (h : m.Started) : Answering m := by
  refine ⟨h.booked, fun t ht => ?_⟩
  rw [h.threads t ht]
  exact ⟨.refl [], fun hstopped => nomatch hstopped⟩

/-- In a run whose steps meet the condition, the callbacks accepted are those the threads have
noted, and what a thread has noted it has called once or has yet to call; it has nothing left to
call once its queue is drained or it has stopped. -/
theorem answered_once {es : List (Event Callback)} (hstart : m.Started)
    (hrun : Run.Guarded Kept Step m es m') :
    (acceptedCallbacks es).Perm m'.accepted ∧
      ∀ t ∈ m'.threads, t.accepted.Perm (t.answers ++ waiting m'.blocksEnqueued t) ∧
        (t.Done → t.accepted.Perm t.answers) := by
  have hkept : Answering m' ∧ (acceptedCallbacks es).Perm m'.accepted := by
    refine hrun.snoc_induction
      (P := fun es m' => Answering m' ∧ (acceptedCallbacks es).Perm m'.accepted) ?_ ?_
    · have hnone : m.accepted = [] := List.flatMap_eq_nil_iff.2 fun t ht => by
        rw [hstart.threads t ht]
      exact ⟨hstart.answering, .of_eq hnone.symm⟩
    · intro as t a u _ ih hstep
      refine ⟨ih.1.step hstep.1 hstep.2, ?_⟩
      have hsplit : acceptedCallbacks (as ++ [a]) =
          acceptedCallbacks as ++ acceptedCallbacks [a] := List.flatMap_append
      rw [hsplit]
      exact (ih.2.append_right _).trans (accepted_step ih.1.booked hstep.2).symm
  refine ⟨hkept.2, fun t ht => ?_⟩
  have hanswered := hkept.1.each t ht
  refine ⟨hanswered.accepted, fun hdone => ?_⟩
  have hwaiting : waiting m'.blocksEnqueued t = [] := by
    rcases hdone with hstopped | ⟨hqueue, hheld⟩
    · exact hanswered.stopped hstopped
    · rw [waiting, hqueue, hheld]
      rfl
  have haccepted := hanswered.accepted
  rw [hwaiting, List.append_nil] at haccepted
  exact haccepted

/-! ## A block outside the world -/

/-- A script asks for a block outside the world, with a callback. -/
def farRequest : Request Nat where
  blockpos := ⟨2000, 0, 0⟩
  peerId := peerIdInexistent
  flags := 3
  callback := some 7

/-- The thread takes the entry and goes on to the next without calling anything. -/
def farRequestSkipped : List (Event Nat) :=
  [.enqueue farRequest true, .start 0, .pop 0, .skip 0]

theorem skipped_never_answered : ¬ ∀ (es : List (Event Nat)) (m : EmergeManager Nat),
    Run Step newManager es m → ∀ t ∈ m.threads, t.Done → t.accepted.Perm t.answers := by
  intro hclaim
  have hrun : Run Step newManager farRequestSkipped _ :=
    .cons (.enqueue rfl) <| .cons (.start rfl (.inl rfl)) <| .cons (.pop rfl rfl rfl rfl) <|
      .single (.skip rfl rfl (by decide))
  have hperm := hclaim _ _ hrun _ List.mem_cons_self (.inr ⟨rfl, rfl⟩)
  exact absurd hperm.length_eq (by decide)

theorem answered_once_first : ∃ m, Run.Guarded Kept Step newManager
    [.enqueue firstRequest true, .start 0, .pop 0, .processed 0 .generated, .call 0, .next 0] m ∧
    ∀ t ∈ m.threads, t.Done → t.accepted.Perm t.answers := by
  have hnotStopped : Kept newManager (.enqueue firstRequest true) := by
    refine .inr ⟨fun t ht hpos => ?_, fun i t _ _ ht hstopped => ?_⟩
    · rw [List.mem_singleton.1 ht] at hpos
      cases hpos
    · have hmem := List.mem_of_getElem? ht
      rw [List.mem_singleton.1 hmem] at hstopped
      cases hstopped
  have hrun : Run.Guarded Kept Step newManager [.enqueue firstRequest true, .start 0, .pop 0,
      .processed 0 .generated, .call 0, .next 0] _ :=
    .cons ⟨hnotStopped, .enqueue rfl⟩ <| .cons ⟨trivial, .start rfl (.inl rfl)⟩ <|
      .cons ⟨trivial, .pop rfl rfl rfl rfl⟩ <| .cons ⟨trivial, .processed rfl rfl (by decide)⟩ <|
        .cons ⟨trivial, .call rfl rfl⟩ <| .single ⟨trivial, .next rfl rfl⟩
  have hstart : newManager.Started :=
    ⟨rfl, fun _ => rfl, fun t ht => List.mem_singleton.1 ht⟩
  exact ⟨_, hrun, fun t ht => ((answered_once hstart hrun).2 t ht).2⟩

end Emerge
end AxisEngine
