import AxisEngine.Emerge.EmergeManager
import Mathlib.Data.List.Perm.Subperm

/-!
# Bookkeeping — queues, entries and counts agree

Three structures say which blocks are asked for: the entries, the queues of the threads, and the
counts of the peers.  They are changed by different functions.

* `Booked` — every entry is in one queue, once, and the counts count the entries;
* `Booked.step` — each step keeps it;
* `queue_bookkeeping` — it holds in every state, no entry is ever missed when it is popped, and a
  request is only accepted below the limits.
-/

namespace AxisEngine
namespace Emerge

open Lib

variable {Callback : Type}

abbrev Entry (Callback : Type) := Sigma fun _ : V3s16 => BlockEmergeData Callback

/-! ## Entries -/

theorem entries_perm {l : AList fun _ : V3s16 => BlockEmergeData Callback} {pos : V3s16}
    {bedata : BlockEmergeData Callback} (h : l.lookup pos = some bedata) :
    l.entries.Perm (⟨pos, bedata⟩ :: (l.erase pos).entries) := by
  have hmem : (⟨pos, bedata⟩ : Entry Callback) ∈ l.entries := List.of_mem_dlookup h
  rcases List.exists_of_kerase (List.mem_keys_of_mem hmem) with ⟨b, l₁, l₂, hnot, heq, herase⟩
  have hb : b = bedata := by
    have hmem' : (⟨pos, b⟩ : Entry Callback) ∈ l.entries := by
      rw [heq]
      exact List.mem_append_right _ List.mem_cons_self
    have hlookup : l.lookup pos = some b := AList.mem_lookup_iff.2 hmem'
    rw [h] at hlookup
    exact (Option.some.inj hlookup).symm
  subst hb
  rw [show (l.erase pos).entries = l₁ ++ l₂ from herase]
  rw [heq]
  exact List.perm_middle

namespace EmergeManager

/-- The number of entries of a peer. -/
def entriesOf (m : EmergeManager Callback) (peer : UInt16) : Nat :=
  m.blocksEnqueued.entries.countP fun e => e.2.peerRequested = peer

/-- What is in the queues. -/
def queued (m : EmergeManager Callback) : List V3s16 :=
  m.threads.flatMap EmergeThread.blockQueue

theorem countPeer_setCount (m : EmergeManager Callback) (peer p : UInt16) (n : Nat) :
    (m.setCount peer n).countPeer p = if p = peer then n else m.countPeer p := by
  rw [countPeer, setCount]
  dsimp only
  split
  · rfl
  · rfl

end EmergeManager

open EmergeManager

/-- Every entry is in exactly one queue, and each count is the number of the peer's entries. -/
structure Booked (m : EmergeManager Callback) : Prop where
  queues : m.queued.Perm m.blocksEnqueued.keys
  counts : ∀ peer, m.countPeer peer = m.entriesOf peer

variable {m m' : EmergeManager Callback} {i : Nat} {t : EmergeThread Callback} {pos : V3s16}
  {bedata : BlockEmergeData Callback}

/-! ## Threads -/

theorem exists_thread {ts : List (EmergeThread Callback)} (h : ts[i]? = some t) :
    ∃ l₁ l₂, ts = l₁ ++ t :: l₂ ∧ ∀ f, ts.modify i f = l₁ ++ f t :: l₂ := by
  induction ts generalizing i with
  | nil => cases h
  | cons s ts ih =>
    cases i with
    | zero =>
      rw [List.getElem?_cons_zero] at h
      cases h
      exact ⟨[], ts, rfl, fun f => rfl⟩
    | succ i =>
      rw [List.getElem?_cons_succ] at h
      rcases ih h with ⟨l₁, l₂, rfl, hmodify⟩
      refine ⟨s :: l₁, l₂, rfl, fun f => ?_⟩
      rw [List.modify_succ_cons, hmodify f]
      rfl

variable {f : EmergeThread Callback → EmergeThread Callback}

theorem queued_changeThread (hf : ∀ t, (f t).blockQueue = t.blockQueue) :
    (m.changeThread i f).queued = m.queued := by
  have hmodify : ∀ (ts : List (EmergeThread Callback)) (i : Nat),
      (ts.modify i f).flatMap EmergeThread.blockQueue = ts.flatMap EmergeThread.blockQueue := by
    intro ts
    induction ts with
    | nil =>
      intro i
      cases i <;> rfl
    | cons s ts ih =>
      intro i
      cases i with
      | zero =>
        rw [List.modify_zero_cons, List.flatMap_cons, List.flatMap_cons, hf]
      | succ i =>
        rw [List.modify_succ_cons, List.flatMap_cons, List.flatMap_cons, ih i]
  exact hmodify m.threads i

/-- What leaves the queues alone keeps the books. -/
theorem Booked.changeThread (h : Booked m) (hf : ∀ t, (f t).blockQueue = t.blockQueue) :
    Booked (m.changeThread i f) := by
  refine ⟨?_, h.counts⟩
  rw [queued_changeThread hf]
  exact h.queues

theorem Booked.setPhase (h : Booked m) (i : Nat) (phase : Phase Callback) :
    Booked (m.setPhase i phase) :=
  h.changeThread fun _ => rfl

theorem Booked.call (h : Booked m) (i : Nat) (pos : V3s16) (action : EmergeAction)
    (callbacks : List Callback) : Booked (m.call i pos action callbacks) :=
  h.changeThread fun _ => rfl

theorem queued_pushBlock (ht : m.threads[i]? = some t) (pos : V3s16) :
    (m.pushBlock i pos).queued.Perm (pos :: m.queued) := by
  rcases exists_thread ht with ⟨l₁, l₂, hthreads, hmodify⟩
  have hpushed : (m.pushBlock i pos).queued = l₁.flatMap EmergeThread.blockQueue ++
      ((t.blockQueue ++ [pos]) ++ l₂.flatMap EmergeThread.blockQueue) := by
    rw [queued, pushBlock, EmergeManager.changeThread]
    dsimp only
    rw [hmodify, List.flatMap_append, List.flatMap_cons]
  have hqueued : m.queued = l₁.flatMap EmergeThread.blockQueue ++
      (t.blockQueue ++ l₂.flatMap EmergeThread.blockQueue) := by
    rw [queued, hthreads, List.flatMap_append, List.flatMap_cons]
  rw [hpushed, hqueued, List.append_assoc, List.singleton_append, ← List.append_assoc,
    ← List.append_assoc]
  exact List.perm_middle

theorem queued_take {rest : List V3s16} (ht : m.threads[i]? = some t)
    (hqueue : t.blockQueue = pos :: rest) :
    m.queued.Perm (pos :: (m.changeThread i fun t => { t with blockQueue := rest }).queued) := by
  rcases exists_thread ht with ⟨l₁, l₂, hthreads, hmodify⟩
  have htaken : (m.changeThread i fun t => { t with blockQueue := rest }).queued =
      l₁.flatMap EmergeThread.blockQueue ++ (rest ++ l₂.flatMap EmergeThread.blockQueue) := by
    rw [queued, EmergeManager.changeThread]
    dsimp only
    rw [hmodify, List.flatMap_append, List.flatMap_cons]
  rw [htaken, queued, hthreads, List.flatMap_append, List.flatMap_cons, hqueue, List.cons_append]
  exact List.perm_middle

theorem queued_noteAccepted (m : EmergeManager Callback) (r : Request Callback) :
    (m.noteAccepted r).queued = m.queued := by
  rw [queued, noteAccepted, List.flatMap_map]
  refine List.flatMap_congr fun t _ => ?_
  split <;> rfl

theorem Booked.noteAccepted (h : Booked m) (r : Request Callback) : Booked (m.noteAccepted r) := by
  refine ⟨?_, h.counts⟩
  rw [queued_noteAccepted]
  exact h.queues

theorem optimalLoop_lt {index lowest : Nat} (rest : List (EmergeThread Callback))
    (hindex : index < i) : optimalLoop index lowest i rest < i + rest.length := by
  induction rest generalizing index lowest i with
  | nil => exact hindex
  | cons t rest ih =>
    rw [optimalLoop, List.length_cons]
    split
    · have h := @ih (i + 1) i t.blockQueue.length (Nat.lt_succ_self i)
      omega
    · have h := @ih (i + 1) index lowest (by omega)
      omega

theorem getOptimalThread_spec (h : m.getOptimalThread = some i) :
    ∃ t, m.threads[i]? = some t := by
  rw [getOptimalThread] at h
  split at h
  · cases h
  · rename_i t rest hthreads
    cases h
    have hlt : optimalLoop 0 t.blockQueue.length 1 rest < 1 + rest.length :=
      optimalLoop_lt rest Nat.zero_lt_one
    refine ⟨_, List.getElem?_eq_getElem ?_⟩
    rw [hthreads, List.length_cons]
    omega

/-! ## Requests -/

/-- What `pushBlockEmergeData` can do: refuse, add to an entry, or make one. -/
theorem pushBlockEmergeData_cases (m : EmergeManager Callback) (r : Request Callback) :
    (m.pushBlockEmergeData r = (m.setCount r.peerId (m.countPeer r.peerId), none) ∧
        isForced r.flags = false ∧ m.belowLimits r.peerId r.flags = false) ∨
      (isForced r.flags = true ∨ m.belowLimits r.peerId r.flags = true) ∧
        ((∃ bedata, m.blocksEnqueued.lookup r.blockpos = some bedata ∧
            m.pushBlockEmergeData r = ({ m.setCount r.peerId (m.countPeer r.peerId) with
              blocksEnqueued := m.blocksEnqueued.insert r.blockpos { bedata with
                flags := bedata.flags ||| r.flags
                callbacks := bedata.callbacks ++ r.callback.toList } }, some true)) ∨
          (r.blockpos ∉ m.blocksEnqueued ∧
            m.pushBlockEmergeData r = ({ m.setCount r.peerId (m.countPeer r.peerId) with
              blocksEnqueued := m.blocksEnqueued.insert r.blockpos
                { peerRequested := r.peerId, flags := r.flags,
                  callbacks := r.callback.toList } }.setCount r.peerId
                (m.countPeer r.peerId + 1), some false))) := by
  have hcount : (m.setCount r.peerId (m.countPeer r.peerId)).countPeer r.peerId =
      m.countPeer r.peerId := by
    rw [countPeer_setCount, if_pos rfl]
  have hbelow : (m.setCount r.peerId (m.countPeer r.peerId)).belowLimits r.peerId r.flags =
      m.belowLimits r.peerId r.flags := by
    rw [belowLimits, belowLimits, hcount]
    rfl
  rw [pushBlockEmergeData]
  dsimp only
  rw [hbelow, hcount]
  split
  · rename_i hrefused
    rw [Bool.and_eq_true, Bool.not_eq_true', Bool.not_eq_true'] at hrefused
    exact .inl ⟨rfl, hrefused⟩
  · rename_i haccepted
    have hor : isForced r.flags = true ∨ m.belowLimits r.peerId r.flags = true := by
      cases hforced : isForced r.flags with
      | true => exact .inl rfl
      | false =>
        refine .inr ?_
        rw [hforced, Bool.not_false, Bool.true_and, Bool.not_eq_true', Bool.not_eq_false]
          at haccepted
        exact haccepted
    refine .inr ⟨hor, ?_⟩
    split
    · rename_i bedata hlookup
      exact .inl ⟨bedata, hlookup, rfl⟩
    · rename_i hlookup
      exact .inr ⟨AList.lookup_eq_none.1 hlookup, rfl⟩

theorem Booked.touch (h : Booked m) (peer : UInt16) :
    Booked (m.setCount peer (m.countPeer peer)) := by
  refine ⟨h.queues, fun p => ?_⟩
  rw [countPeer_setCount]
  split
  · rename_i hp
    rw [hp]
    exact h.counts peer
  · exact h.counts p

/-- A changed entry keeps its peer. -/
theorem Booked.merge {bedata' : BlockEmergeData Callback} (h : Booked m)
    (hlookup : m.blocksEnqueued.lookup pos = some bedata)
    (hpeer : bedata'.peerRequested = bedata.peerRequested) :
    Booked { m with blocksEnqueued := m.blocksEnqueued.insert pos bedata' } := by
  have hmem : pos ∈ m.blocksEnqueued.keys :=
    AList.mem_keys.1 (AList.lookup_isSome.1 (by rw [hlookup]; rfl))
  refine ⟨?_, fun peer => ?_⟩
  · dsimp only
    rw [AList.keys_insert]
    exact h.queues.trans (List.perm_cons_erase hmem)
  · have hcount := (entries_perm hlookup).countP_eq fun e => decide (e.2.peerRequested = peer)
    have hentries : (m.blocksEnqueued.insert pos bedata').entries =
        ⟨pos, bedata'⟩ :: (m.blocksEnqueued.erase pos).entries := AList.entries_insert
    rw [entriesOf]
    dsimp only
    rw [hentries, List.countP_cons, hpeer, ← List.countP_cons (a := (⟨pos, bedata⟩ : Entry Callback)),
      ← hcount]
    exact h.counts peer

theorem Booked.enqueue {r : Request Callback} {accepted : Bool} (h : Booked m)
    (henqueue : m.enqueueBlockEmergeEx r = some (m', accepted)) : Booked m' := by
  have htouch := h.touch r.peerId
  rw [enqueueBlockEmergeEx] at henqueue
  rcases pushBlockEmergeData_cases m r with ⟨hpush, -⟩ | ⟨-, ⟨bedata, hlookup, hpush⟩ | ⟨hnew, hpush⟩⟩
  · rw [hpush] at henqueue
    cases henqueue
    exact htouch
  · rw [hpush] at henqueue
    cases henqueue
    refine Booked.noteAccepted ?_ r
    exact htouch.merge hlookup rfl
  · rw [hpush] at henqueue
    rcases Option.map_eq_some_iff.1 henqueue with ⟨i, hoptimal, heq⟩
    cases heq
    refine Booked.noteAccepted ⟨?_, fun peer => ?_⟩ r
    · rcases getOptimalThread_spec hoptimal with ⟨t, ht⟩
      refine (queued_pushBlock ht r.blockpos).trans ?_
      have hkeys : r.blockpos ∉ m.blocksEnqueued.keys := fun hmem => hnew (AList.mem_keys.2 hmem)
      have hinsert : ∀ b : BlockEmergeData Callback,
          (m.blocksEnqueued.insert r.blockpos b).keys = r.blockpos :: m.blocksEnqueued.keys := by
        intro b
        rw [AList.keys_insert, List.erase_of_not_mem hkeys]
      exact (h.queues.cons r.blockpos).trans (.of_eq (hinsert _).symm)
    · have hentries : ∀ b : BlockEmergeData Callback,
          (m.blocksEnqueued.insert r.blockpos b).entries =
            ⟨r.blockpos, b⟩ :: m.blocksEnqueued.entries := fun b =>
        AList.entries_insert_of_notMem hnew
      refine (countPeer_setCount _ r.peerId peer _).trans ?_
      refine Eq.trans ?_ (congrArg (List.countP _) (hentries _)).symm
      rw [List.countP_cons]
      have hcount := htouch.counts peer
      split
      · rename_i hpeer
        subst hpeer
        rw [if_pos (decide_eq_true rfl)]
        rw [countPeer_setCount, if_pos rfl] at hcount
        exact congrArg (· + 1) hcount
      · rename_i hpeer
        rw [if_neg (by simpa using Ne.symm hpeer)]
        exact hcount

/-! ## Popping -/

/-- What is in a queue has an entry, and its peer a count that is not zero. -/
theorem Booked.pop (h : Booked m) (hpos : pos ∈ m.queued) :
    ∃ bedata, m.blocksEnqueued.lookup pos = some bedata ∧
      m.popBlockEmergeData pos = .ok bedata ({ m with
        blocksEnqueued := m.blocksEnqueued.erase pos }.setCount bedata.peerRequested
          (m.countPeer bedata.peerRequested - 1)) ∧
      m.countPeer bedata.peerRequested ≠ 0 := by
  have hmem : pos ∈ m.blocksEnqueued := AList.mem_keys.2 (h.queues.mem_iff.1 hpos)
  rcases Option.isSome_iff_exists.1 (AList.lookup_isSome.2 hmem) with ⟨bedata, hlookup⟩
  have hentry : (⟨pos, bedata⟩ : Entry Callback) ∈ m.blocksEnqueued.entries :=
    List.of_mem_dlookup hlookup
  have hcount : m.countPeer bedata.peerRequested ≠ 0 := by
    rw [h.counts, entriesOf]
    refine (List.countP_pos_iff.2 ⟨⟨pos, bedata⟩, hentry, ?_⟩).ne'
    exact decide_eq_true rfl
  refine ⟨bedata, hlookup, ?_, hcount⟩
  rw [popBlockEmergeData, hlookup]
  dsimp only
  cases hpeer : m.peerQueueCount bedata.peerRequested with
  | none =>
    rw [countPeer, hpeer] at hcount
    exact absurd rfl hcount
  | some n =>
    have hn : m.countPeer bedata.peerRequested = n := by
      rw [countPeer, hpeer]
      rfl
    rw [hn] at hcount ⊢
    exact if_neg hcount

/-- What `popBlockEmerge` takes off the queue and the entries. -/
theorem popBlockEmerge_eq (h : m.popBlockEmerge i t = some (pos, bedata, m')) :
    ∃ rest m₁, t.blockQueue = pos :: rest ∧ m.popBlockEmergeData pos = .ok bedata m₁ ∧
      m' = m₁.changeThread i fun t => { t with blockQueue := rest } := by
  rw [popBlockEmerge] at h
  split at h
  · cases h
  · rename_i pos' rest hqueue
    split at h
    · rename_i bedata' m₁ hpop
      cases h
      exact ⟨rest, m₁, hqueue, hpop, rfl⟩
    · cases h

theorem mem_queued (ht : m.threads[i]? = some t) (hpos : pos ∈ t.blockQueue) : pos ∈ m.queued :=
  List.mem_flatMap.2 ⟨t, List.mem_of_getElem? ht, hpos⟩

theorem Booked.popBlockEmerge (h : Booked m) (ht : m.threads[i]? = some t)
    (hpop : m.popBlockEmerge i t = some (pos, bedata, m')) : Booked m' := by
  rcases popBlockEmerge_eq hpop with ⟨rest, m₁, hqueue, hdata, rfl⟩
  have hpos : pos ∈ m.queued := mem_queued ht (hqueue ▸ List.mem_cons_self)
  rcases h.pop hpos with ⟨bedata', hlookup, hdata', hcount⟩
  rw [hdata] at hdata'
  cases hdata'
  refine ⟨?_, fun peer => ?_⟩
  · have hperm := (queued_take ht hqueue).symm.trans h.queues
    have herase : (m.blocksEnqueued.erase pos).keys = m.blocksEnqueued.keys.erase pos :=
      AList.keys_erase pos _
    exact (List.cons_perm_iff_perm_erase.1 hperm).2.trans (.of_eq herase.symm)
  · have hentries := (entries_perm hlookup).countP_eq fun e => decide (e.2.peerRequested = peer)
    have hpeer := h.counts peer
    rw [entriesOf, hentries, List.countP_cons] at hpeer
    refine (countPeer_setCount _ bedata.peerRequested peer _).trans ?_
    split
    · rename_i heq
      subst heq
      rw [if_pos (decide_eq_true rfl)] at hpeer
      rw [hpeer, Nat.add_sub_cancel]
      rfl
    · rename_i hne
      rw [if_neg (by simpa using Ne.symm hne), Nat.add_zero] at hpeer
      exact hpeer

/-! ## Every step, and every run -/

theorem Booked.step {e : Event Callback} (h : Booked m) (hstep : Step m e m') : Booked m' := by
  cases hstep with
  | enqueue henqueue => exact h.enqueue henqueue
  | start _ _ => exact h.changeThread fun _ => rfl
  | requestStop _ => exact h.changeThread fun _ => rfl
  | pop ht _ _ hpop => exact (h.popBlockEmerge ht hpop).setPhase _ _
  | skip _ _ _ => exact h.setPhase _ _
  | processed _ _ _ => exact h.setPhase _ _
  | throw _ _ _ => exact h.setPhase _ _
  | call _ _ => exact (h.call _ _ _ _).setPhase _ _
  | next _ _ => exact h.setPhase _ _
  | leave _ _ _ => exact h.setPhase _ _
  | cancel ht _ hpop => exact (h.popBlockEmerge ht hpop).call _ _ _ _
  | stopped _ _ _ => exact h.setPhase _ _

/-- The manager as it is set up: nothing is asked for, and the threads are new. -/
structure EmergeManager.Started (m : EmergeManager Callback) : Prop where
  enqueued : m.blocksEnqueued = ∅
  counts : ∀ peer, m.peerQueueCount peer = none
  threads : ∀ t ∈ m.threads, t = {}

theorem EmergeManager.Started.booked (h : m.Started) : Booked m := by
  refine ⟨?_, fun peer => ?_⟩
  · have hqueued : m.queued = [] := List.flatMap_eq_nil_iff.2 fun t ht => by
      rw [h.threads t ht]
    rw [hqueued, h.enqueued]
    exact .refl []
  · rw [countPeer, h.counts, entriesOf, h.enqueued]
    rfl

/-- However requests, pops and cancellations follow each other: every entry is in exactly one queue
and there once, each count is the number of the peer's entries, so that popping what a queue holds
always succeeds, and a request without the force flag is only accepted when the total and the peer
were below their limits. -/
theorem queue_bookkeeping {es : List (Event Callback)} (hstart : m.Started)
    (hrun : Run Step m es m') :
    m'.queued.Perm m'.blocksEnqueued.keys ∧ m'.queued.Nodup ∧
      (∀ peer, m'.countPeer peer = m'.entriesOf peer) ∧
      (∀ t ∈ m'.threads, ∀ pos ∈ t.blockQueue, ∃ bedata m'',
        m'.popBlockEmergeData pos = .ok bedata m'' ∧ m'.countPeer bedata.peerRequested ≠ 0) ∧
      ∀ (r : Request Callback) (m'' : EmergeManager Callback),
        m'.enqueueBlockEmergeEx r = some (m'', true) → isForced r.flags = false →
          m'.blocksEnqueued.entries.length < m'.qlimitTotal ∧
            (r.peerId ≠ peerIdInexistent → m'.countPeer r.peerId < m'.qlimitPeer r.flags) ∧
            (r.peerId = peerIdInexistent → m'.countPeer r.peerId * 2 < m'.qlimitTotal) := by
  have hbooked : Booked m' :=
    hrun.invariant (P := Booked) (fun _ _ _ h hst => h.step hst) hstart.booked
  refine ⟨hbooked.queues, hbooked.queues.nodup_iff.2 m'.blocksEnqueued.keys_nodup, hbooked.counts,
    fun t ht pos hpos => ?_, fun r m'' henqueue hforced => ?_⟩
  · rcases hbooked.pop (List.mem_flatMap.2 ⟨t, ht, hpos⟩) with ⟨bedata, -, hpop, hcount⟩
    exact ⟨bedata, _, hpop, hcount⟩
  · rw [enqueueBlockEmergeEx] at henqueue
    rcases pushBlockEmergeData_cases m' r with ⟨hpush, -⟩ | ⟨hlimits, -⟩
    · rw [hpush] at henqueue
      cases henqueue
    · rw [hforced] at hlimits
      have hbelow := hlimits.resolve_left Bool.false_ne_true
      rw [belowLimits, Bool.and_eq_true, decide_eq_true_eq] at hbelow
      refine ⟨hbelow.1, fun hpeer => ?_, fun hpeer => ?_⟩
      · have hpeer' := hbelow.2
        rw [if_pos hpeer, decide_eq_true_eq] at hpeer'
        exact hpeer'
      · have hpeer' := hbelow.2
        rw [if_neg (not_not_intro hpeer), decide_eq_true_eq] at hpeer'
        exact hpeer'

/-- One thread, and the limits as they are set by default. -/
def newManager : EmergeManager Nat where
  qlimitTotal := 1024
  qlimitDiskonly := 128
  qlimitGenerate := 128
  blocksEnqueued := ∅
  peerQueueCount := fun _ => none
  threads := [{}]

/-- Peer 1 asks for a block, with a callback. -/
def firstRequest : Request Nat where
  blockpos := ⟨0, 0, 0⟩
  peerId := 1
  flags := 1
  callback := some 7

theorem queue_bookkeeping_one : ∃ m, Run Step newManager [.enqueue firstRequest true] m ∧
    m.queued = [⟨0, 0, 0⟩] ∧ m.countPeer 1 = m.entriesOf 1 := by
  have hrun : Run Step newManager [.enqueue firstRequest true] _ := .single (.enqueue rfl)
  have hstart : newManager.Started :=
    ⟨rfl, fun _ => rfl, fun t ht => List.mem_singleton.1 ht⟩
  exact ⟨_, hrun, rfl, (queue_bookkeeping hstart hrun).2.2.1 1⟩

/-! ## How much may be asked for -/

/-- The counter of the active blocks has half of the total, rounded up. -/
structure WithinLimits (m : EmergeManager Callback) : Prop where
  total : m.blocksEnqueued.entries.length ≤ m.qlimitTotal
  peer : ∀ p, p ≠ peerIdInexistent → m.countPeer p ≤ max m.qlimitDiskonly m.qlimitGenerate
  active : 2 * m.countPeer peerIdInexistent ≤ m.qlimitTotal + 1

def Unforced : Event Callback → Prop
  | .enqueue r _ => isForced r.flags = false
  | _ => True

theorem WithinLimits.setCount {peer : UInt16} {n : Nat} (h : WithinLimits m)
    (hpeer : peer ≠ peerIdInexistent → n ≤ max m.qlimitDiskonly m.qlimitGenerate)
    (hactive : peer = peerIdInexistent → 2 * n ≤ m.qlimitTotal + 1) :
    WithinLimits (m.setCount peer n) := by
  refine ⟨h.total, fun p hp => ?_, ?_⟩
  · rw [countPeer_setCount]
    split
    · rename_i heq
      exact hpeer (heq ▸ hp)
    · exact h.peer p hp
  · rw [countPeer_setCount]
    split
    · rename_i heq
      exact hactive heq.symm
    · exact h.active

theorem WithinLimits.lower {peer : UInt16} {n : Nat} (h : WithinLimits m) (hn : n ≤ m.countPeer peer) :
    WithinLimits (m.setCount peer n) :=
  h.setCount (fun hp => hn.trans (h.peer peer hp)) fun hp => by
    have hactive := h.active
    subst hp
    omega

theorem WithinLimits.enqueue {r : Request Callback} {accepted : Bool} (h : WithinLimits m)
    (hforced : isForced r.flags = false) (henqueue : m.enqueueBlockEmergeEx r = some (m', accepted)) :
    WithinLimits m' := by
  have htouch : WithinLimits (m.setCount r.peerId (m.countPeer r.peerId)) := h.lower le_rfl
  rw [enqueueBlockEmergeEx] at henqueue
  rcases pushBlockEmergeData_cases m r with ⟨hpush, -⟩ | ⟨hbelow, ⟨bedata, hlookup, hpush⟩ | ⟨hnew, hpush⟩⟩
  · rw [hpush] at henqueue
    cases henqueue
    exact htouch
  · rw [hpush] at henqueue
    cases henqueue
    refine ⟨le_of_eq_of_le ?_ h.total, htouch.peer, htouch.active⟩
    exact (entries_perm hlookup).length_eq.symm
  · have hlimits := hbelow.resolve_left (by rw [hforced]; exact Bool.false_ne_true)
    rw [belowLimits, Bool.and_eq_true, decide_eq_true_eq] at hlimits
    rw [hpush] at henqueue
    rcases Option.map_eq_some_iff.1 henqueue with ⟨i, -, heq⟩
    cases heq
    have htotal : ∀ b, (m.blocksEnqueued.insert r.blockpos b).entries.length ≤ m.qlimitTotal := fun b => by
      rw [AList.entries_insert_of_notMem hnew]
      exact hlimits.1
    have hset : WithinLimits ((m.setCount r.peerId (m.countPeer r.peerId)).setCount r.peerId
        (m.countPeer r.peerId + 1)) := by
      refine htouch.setCount (fun hp => ?_) fun hp => ?_
      · have hpeer := hlimits.2
        rw [if_pos hp, decide_eq_true_eq, qlimitPeer] at hpeer
        change _ ≤ max m.qlimitDiskonly m.qlimitGenerate
        split at hpeer <;> omega
      · have hactive := hlimits.2
        rw [if_neg (not_not_intro hp), decide_eq_true_eq] at hactive
        change _ ≤ m.qlimitTotal + 1
        omega
    exact ⟨htotal _, hset.peer, hset.active⟩

theorem WithinLimits.pop (h : WithinLimits m) (hpop : m.popBlockEmerge i t = some (pos, bedata, m')) :
    WithinLimits m' := by
  rcases popBlockEmerge_eq hpop with ⟨rest, m₁, -, hdata, rfl⟩
  rw [popBlockEmergeData] at hdata
  split at hdata
  · cases hdata
  split at hdata
  · cases hdata
  case h_2 count hcount =>
    split at hdata
    · cases hdata
    cases hdata
    have hlower : WithinLimits (m.setCount bedata.peerRequested (count - 1)) := h.lower (by
      rw [countPeer, hcount]
      exact Nat.sub_le _ _)
    exact ⟨(List.kerase_sublist _ _).length_le.trans h.total, hlower.peer, hlower.active⟩

theorem WithinLimits.step {e : Event Callback} (h : WithinLimits m) (he : Unforced e)
    (hstep : Step m e m') : WithinLimits m' := by
  cases hstep with
  | enqueue henqueue => exact h.enqueue he henqueue
  | pop _ _ _ hpop => exact ⟨(h.pop hpop).total, (h.pop hpop).peer, (h.pop hpop).active⟩
  | cancel _ _ hpop => exact ⟨(h.pop hpop).total, (h.pop hpop).peer, (h.pop hpop).active⟩
  | _ => exact ⟨h.total, h.peer, h.active⟩

/-- As long as no request is forced, no more is queued than the limits say. -/
theorem within_limits {es : List (Event Callback)} (hstart : m.Started)
    (hrun : Run.Guarded (fun _ => Unforced) Step m es m') : WithinLimits m' := by
  refine hrun.guarded_invariant (fun _ _ _ h he hstep => h.step he hstep) ⟨?_, fun p _ => ?_, ?_⟩
  · rw [hstart.enqueued]
    exact Nat.zero_le _
  · rw [countPeer, hstart.counts]
    exact Nat.zero_le _
  · rw [countPeer, hstart.counts]
    exact Nat.zero_le _

theorem within_limits_one : ∃ m, Run Step newManager [.enqueue firstRequest true] m ∧ WithinLimits m := by
  have hrun : Run.Guarded (fun _ => Unforced) Step newManager [.enqueue firstRequest true] _ :=
    .single ⟨rfl, .enqueue rfl⟩
  exact ⟨_, hrun.of_guarded, within_limits ⟨rfl, fun _ => rfl, fun t ht => List.mem_singleton.1 ht⟩ hrun⟩

end Emerge
end AxisEngine
