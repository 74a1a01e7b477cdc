import AxisEngine.Lib.CountP
import AxisEngine.Media.Downloading

/-!
# Requests — the tables of requests and the requests under way

The downloader writes down in four tables what each request was for, counts the requests under way,
and counts for each server the files that come from it.

* `Recorded` — tables and counters say what is under way;
* `Asks`, `Recorded.ask` — a new request;
* `Takes`, `Recorded.take` — a request that is answered.
-/

namespace AxisEngine
namespace Media

open Lib Util

namespace HTTPFetchRequest

/-! What the tables have for a request. -/

variable (q : HTTPFetchRequest)

def indexEntry : Option Nat :=
  match q.asked with
  | .bundleIndex => some q.requestId
  | _ => none

def partEntry : Option Nat :=
  match q.asked with
  | .bundlePart _ => some q.requestId
  | _ => none

def hashSetEntry : Option (Nat × Nat) :=
  match q.asked with
  | .hashSet remote => some (q.requestId, remote)
  | _ => none

def fileEntry : Option (Nat × Bytes) :=
  match q.asked with
  | .file name _ => some (q.requestId, name)
  | _ => none

end HTTPFetchRequest

namespace ClientMediaDownloader

open HTTPFetchRequest

structure Recorded (d : ClientMediaDownloader) : Prop where
  sorted : StrictSorted nameKey d.files
  fresh : ∀ q ∈ d.inFlight, q.requestId < d.httpfetchNextId
  ids : (d.inFlight.map HTTPFetchRequest.requestId).Nodup
  active : d.httpfetchActive = d.inFlight.length
  index : d.bundleRequests = d.inFlight.filterMap indexEntry
  parts : d.bundlePartRequests = d.inFlight.filterMap partEntry
  hashSets : d.hashsetRequests = d.inFlight.filterMap hashSetEntry
  transfers : d.remoteFileTransfers = d.inFlight.filterMap fileEntry
  outstandingHashSets : d.outstandingHashSets = d.hashsetRequests.length
  outstandingBundles : d.outstandingBundles = d.bundlePartRequests.length
  remotes : ∀ q ∈ d.inFlight, ∀ remote, q.asked = .hashSet remote → remote < d.remotes.length
  names : ∀ q ∈ d.inFlight, ∀ name remote, q.asked = .file name remote → name ∈ d.files
  once : ∀ q ∈ d.inFlight, ∀ q' ∈ d.inFlight, ∀ name remote remote',
    q.asked = .file name remote → q'.asked = .file name remote' → q = q'
  current : ∀ name ∈ d.files, ∀ remote, (d.status name).currentRemote = some remote ↔
    ∃ q ∈ d.inFlight, q.asked = .file name remote
  activeCount : ∀ remote, d.activeCount remote =
    d.files.countP fun name => decide ((d.status name).currentRemote = some remote)

/-- The two differ in nothing that is recorded about requests. -/
structure SameRequests (d d' : ClientMediaDownloader) : Prop where
  files : d'.files = d.files
  remotes : d'.remotes = d.remotes
  currentRemote : ∀ name, (d'.status name).currentRemote = (d.status name).currentRemote
  activeCount : d'.activeCount = d.activeCount
  httpfetchNextId : d'.httpfetchNextId = d.httpfetchNextId
  httpfetchActive : d'.httpfetchActive = d.httpfetchActive
  outstandingHashSets : d'.outstandingHashSets = d.outstandingHashSets
  bundleRequests : d'.bundleRequests = d.bundleRequests
  bundlePartRequests : d'.bundlePartRequests = d.bundlePartRequests
  hashsetRequests : d'.hashsetRequests = d.hashsetRequests
  outstandingBundles : d'.outstandingBundles = d.outstandingBundles
  remoteFileTransfers : d'.remoteFileTransfers = d.remoteFileTransfers
  inFlight : d'.inFlight = d.inFlight

section

variable {d d' d'' : ClientMediaDownloader} {env : Env} {name : Bytes}

theorem SameRequests.refl (d : ClientMediaDownloader) : SameRequests d d :=
  ⟨rfl, rfl, fun _ => rfl, rfl, rfl, rfl, rfl, rfl, rfl, rfl, rfl, rfl, rfl⟩

theorem SameRequests.trans (h : SameRequests d d') (h' : SameRequests d' d'') :
    SameRequests d d'' where
  files := h'.files.trans h.files
  remotes := h'.remotes.trans h.remotes
  currentRemote := fun name => (h'.currentRemote name).trans (h.currentRemote name)
  activeCount := h'.activeCount.trans h.activeCount
  httpfetchNextId := h'.httpfetchNextId.trans h.httpfetchNextId
  httpfetchActive := h'.httpfetchActive.trans h.httpfetchActive
  outstandingHashSets := h'.outstandingHashSets.trans h.outstandingHashSets
  bundleRequests := h'.bundleRequests.trans h.bundleRequests
  bundlePartRequests := h'.bundlePartRequests.trans h.bundlePartRequests
  hashsetRequests := h'.hashsetRequests.trans h.hashsetRequests
  outstandingBundles := h'.outstandingBundles.trans h.outstandingBundles
  remoteFileTransfers := h'.remoteFileTransfers.trans h.remoteFileTransfers
  inFlight := h'.inFlight.trans h.inFlight

variable {remote : Nat} {α : Type} {q : HTTPFetchRequest}

theorem SameRequests.foldl {f : ClientMediaDownloader → α → ClientMediaDownloader}
    (hf : ∀ d a, SameRequests d (f d a)) (l : List α) (d : ClientMediaDownloader) :
    SameRequests d (l.foldl f d) := by
  induction l generalizing d with
  | nil => exact .refl d
  | cons a l ih => exact (hf d a).trans (ih (f d a))

theorem Recorded.of_same (h : d.Recorded) (hsame : SameRequests d d') : d'.Recorded where
  sorted := hsame.files ▸ h.sorted
  fresh := hsame.inFlight ▸ hsame.httpfetchNextId ▸ h.fresh
  ids := hsame.inFlight ▸ h.ids
  active := hsame.inFlight ▸ hsame.httpfetchActive ▸ h.active
  index := hsame.inFlight ▸ hsame.bundleRequests ▸ h.index
  parts := hsame.inFlight ▸ hsame.bundlePartRequests ▸ h.parts
  hashSets := hsame.inFlight ▸ hsame.hashsetRequests ▸ h.hashSets
  transfers := hsame.inFlight ▸ hsame.remoteFileTransfers ▸ h.transfers
  outstandingHashSets := hsame.hashsetRequests ▸ hsame.outstandingHashSets ▸ h.outstandingHashSets
  outstandingBundles := hsame.bundlePartRequests ▸ hsame.outstandingBundles ▸ h.outstandingBundles
  remotes := hsame.inFlight ▸ hsame.remotes ▸ h.remotes
  names := hsame.inFlight ▸ hsame.files ▸ h.names
  once := hsame.inFlight ▸ h.once
  current := by
    rw [hsame.files, hsame.inFlight]
    simp only [hsame.currentRemote]
    exact h.current
  activeCount := by
    rw [hsame.files, hsame.activeCount]
    simp only [hsame.currentRemote]
    exact h.activeCount

theorem sameRequests_setStatus {f : FileStatus}
    (h : f.currentRemote = (d.status name).currentRemote) : SameRequests d (d.setStatus name f) := by
  refine { SameRequests.refl d with currentRemote := fun name' => ?_ }
  rw [status_setStatus]
  split
  · rename_i hname
    rw [h, hname]
  · rfl

theorem sameRequests_markReceived (d : ClientMediaDownloader) (name : Bytes) (size : Nat) :
    SameRequests d (d.markReceived name size) := by
  have h : SameRequests d (d.setStatus name { d.status name with received := true }) :=
    sameRequests_setStatus rfl
  exact { h with }

theorem sameRequests_takeFile (want : Bytes → Option Bytes) (d : ClientMediaDownloader)
    (file : Bytes × Bytes) : SameRequests d (takeFile env want d file) := by
  rw [takeFile]
  split
  · exact .refl d
  · split
    · exact sameRequests_markReceived d _ _
    · exact .refl d

theorem sameRequests_unpackBundle (d : ClientMediaDownloader) (packed : Bytes) :
    SameRequests d (unpackBundle env d packed).1 :=
  SameRequests.foldl (sameRequests_takeFile d.byHash) _ d

/-! ## A new request -/

/-- `d'` is `d` with one more request under way. -/
structure Asks (d : ClientMediaDownloader) (q : HTTPFetchRequest) (d' : ClientMediaDownloader) :
    Prop where
  requestId : q.requestId = d.httpfetchNextId
  files : d'.files = d.files
  remotes : d'.remotes = d.remotes
  httpfetchNextId : d'.httpfetchNextId = d.httpfetchNextId + 1
  httpfetchActive : d'.httpfetchActive = d.httpfetchActive + 1
  inFlight : d'.inFlight = d.inFlight ++ [q]
  bundleRequests : d'.bundleRequests = d.bundleRequests ++ q.indexEntry.toList
  bundlePartRequests : d'.bundlePartRequests = d.bundlePartRequests ++ q.partEntry.toList
  hashsetRequests : d'.hashsetRequests = d.hashsetRequests ++ q.hashSetEntry.toList
  remoteFileTransfers : d'.remoteFileTransfers = d.remoteFileTransfers ++ q.fileEntry.toList
  outstandingHashSets :
    d'.outstandingHashSets = d.outstandingHashSets + q.hashSetEntry.toList.length
  outstandingBundles : d'.outstandingBundles = d.outstandingBundles + q.partEntry.toList.length
  remote_lt : ∀ remote, q.asked = .hashSet remote → remote < d.remotes.length
  file : ∀ name remote, q.asked = .file name remote → name ∈ d.files ∧
    (d.status name).currentRemote = none ∧ (d'.status name).currentRemote = some remote ∧
    d'.activeCount = Function.update d.activeCount remote (d.activeCount remote + 1)
  other : ∀ name, (∀ remote, q.asked ≠ .file name remote) →
    (d'.status name).currentRemote = (d.status name).currentRemote
  noFile : (∀ name remote, q.asked ≠ .file name remote) → d'.activeCount = d.activeCount

theorem Recorded.ask (h : d.Recorded) (hask : Asks d q d') :
    d'.Recorded where
  sorted := hask.files ▸ h.sorted
  fresh := by
    intro p hp
    rw [hask.inFlight, List.mem_append, List.mem_singleton] at hp
    rw [hask.httpfetchNextId]
    rcases hp with hp | rfl
    · exact (h.fresh p hp).trans (Nat.lt_succ_self _)
    · rw [hask.requestId]
      exact Nat.lt_succ_self _
  ids := by
    rw [hask.inFlight, List.map_append, List.map_singleton]
    refine List.nodup_append.2 ⟨h.ids, List.nodup_singleton _, fun id hid id' hid' => ?_⟩
    rcases List.mem_map.1 hid with ⟨p, hp, rfl⟩
    rw [List.mem_singleton.1 hid', hask.requestId]
    exact (h.fresh p hp).ne
  active := by
    rw [hask.httpfetchActive, hask.inFlight, h.active, List.length_append]
    rfl
  index := by
    rw [hask.bundleRequests, hask.inFlight, List.filterMap_append, h.index]
    cases hq : q.indexEntry <;> simp [hq]
  parts := by
    rw [hask.bundlePartRequests, hask.inFlight, List.filterMap_append, h.parts]
    cases hq : q.partEntry <;> simp [hq]
  hashSets := by
    rw [hask.hashsetRequests, hask.inFlight, List.filterMap_append, h.hashSets]
    cases hq : q.hashSetEntry <;> simp [hq]
  transfers := by
    rw [hask.remoteFileTransfers, hask.inFlight, List.filterMap_append, h.transfers]
    cases hq : q.fileEntry <;> simp [hq]
  outstandingHashSets := by
    rw [hask.outstandingHashSets, hask.hashsetRequests, h.outstandingHashSets, List.length_append]
    exact (Int.natCast_add _ _).symm
  outstandingBundles := by
    rw [hask.outstandingBundles, hask.bundlePartRequests, h.outstandingBundles, List.length_append]
    exact (Int.natCast_add _ _).symm
  remotes := by
    intro p hp remote hremote
    rw [hask.inFlight, List.mem_append, List.mem_singleton] at hp
    rw [hask.remotes]
    rcases hp with hp | rfl
    · exact h.remotes p hp remote hremote
    · exact hask.remote_lt remote hremote
  names := by
    intro p hp name remote hfile
    rw [hask.inFlight, List.mem_append, List.mem_singleton] at hp
    rw [hask.files]
    rcases hp with hp | rfl
    · exact h.names p hp name remote hfile
    · exact (hask.file name remote hfile).1
  once := by
    intro p hp p' hp' name remote remote' hfile hfile'
    rw [hask.inFlight, List.mem_append, List.mem_singleton] at hp hp'
    -- a file that is asked for was not under way before
    have hnone : ∀ p ∈ d.inFlight, ∀ remote remote', p.asked = .file name remote →
        q.asked ≠ .file name remote' := by
      intro p hp remote remote' hfile hfile'
      rcases hask.file name remote' hfile' with ⟨hname, hcurrent, -⟩
      rw [(h.current name hname remote).2 ⟨p, hp, hfile⟩] at hcurrent
      cases hcurrent
    rcases hp with hp | rfl
    · rcases hp' with hp' | rfl
      · exact h.once p hp p' hp' name remote remote' hfile hfile'
      · exact absurd hfile' (hnone p hp remote remote' hfile)
    · rcases hp' with hp' | rfl
      · exact absurd hfile (hnone p' hp' remote' remote hfile')
      · rfl
  current := by
    intro name hname remote
    rw [hask.files] at hname
    have happend : (∃ p ∈ d'.inFlight, p.asked = .file name remote) ↔
        (∃ p ∈ d.inFlight, p.asked = .file name remote) ∨ q.asked = .file name remote := by
      simp [hask.inFlight, or_and_right, exists_or]
    rw [happend, ← h.current name hname remote]
    by_cases hfile : ∃ remote', q.asked = .file name remote'
    · rcases hfile with ⟨remote', hfile⟩
      rcases hask.file name remote' hfile with ⟨-, hcurrent, hcurrent', -⟩
      rw [hcurrent, hcurrent', hfile]
      simp
    · have hne : ∀ remote, q.asked ≠ .file name remote := not_exists.1 hfile
      rw [hask.other name hne]
      simp [hne]
  activeCount := by
    intro remote
    rw [hask.files]
    by_cases hfile : ∃ name remote', q.asked = .file name remote'
    · rcases hfile with ⟨name, remote', hfile⟩
      rcases hask.file name remote' hfile with ⟨hname, hcurrent, hcurrent', hcount⟩
      have hother : ∀ name' ∈ d.files, name' ≠ name →
          (d'.status name').currentRemote = (d.status name').currentRemote := by
        intro name' _ hne
        refine hask.other name' fun remote hfile' => hne ?_
        rw [hfile] at hfile'
        cases hfile'
        rfl
      rw [hcount]
      by_cases hremote : remote = remote'
      · subst hremote
        have hflip : d.files.countP (fun name => decide ((d'.status name).currentRemote =
            some remote)) = d.files.countP (fun name => decide ((d.status name).currentRemote =
              some remote)) + 1 := by
          refine countP_of_flip h.sorted.nodup hname ?_ ?_ fun name' hname' hne => ?_
          · simp [hcurrent]
          · simp [hcurrent']
          · rw [hother name' hname' hne]
        rw [Function.update_self, h.activeCount, hflip]
        rfl
      · rw [Function.update_of_ne hremote, h.activeCount]
        refine congrArg Nat.cast (List.countP_congr fun name' hname' => ?_)
        by_cases hne : name' = name
        · subst hne
          simp [hcurrent, hcurrent', Ne.symm hremote]
        · rw [hother name' hname' hne]
    · have hne : ∀ name remote, q.asked ≠ .file name remote := fun name remote hq =>
        hfile ⟨name, remote, hq⟩
      rw [hask.noFile hne, h.activeCount]
      refine congrArg Nat.cast (List.countP_congr fun name' _ => ?_)
      rw [hask.other name' (hne name')]

/-! ## An answer -/

/-- `d'` is `d` without a request that was answered. -/
structure Takes (d : ClientMediaDownloader) (q : HTTPFetchRequest) (d' : ClientMediaDownloader) :
    Prop where
  mem : q ∈ d.inFlight
  files : d'.files = d.files
  remotes : d'.remotes = d.remotes
  httpfetchNextId : d'.httpfetchNextId = d.httpfetchNextId
  httpfetchActive : d'.httpfetchActive = d.httpfetchActive - 1
  inFlight : d'.inFlight = d.inFlight.filter fun p => p.requestId ≠ q.requestId
  bundleRequests : d'.bundleRequests = d.bundleRequests.filter fun id => id ≠ q.requestId
  bundlePartRequests :
    d'.bundlePartRequests = d.bundlePartRequests.filter fun id => id ≠ q.requestId
  hashsetRequests : d'.hashsetRequests = d.hashsetRequests.filter fun r => r.1 ≠ q.requestId
  remoteFileTransfers :
    d'.remoteFileTransfers = d.remoteFileTransfers.filter fun t => t.1 ≠ q.requestId
  outstandingHashSets :
    d'.outstandingHashSets = d.outstandingHashSets - q.hashSetEntry.toList.length
  outstandingBundles : d'.outstandingBundles = d.outstandingBundles - q.partEntry.toList.length
  file : ∀ name remote, q.asked = .file name remote → (d'.status name).currentRemote = none ∧
    d'.activeCount = Function.update d.activeCount remote (d.activeCount remote - 1)
  other : ∀ name, (∀ remote, q.asked ≠ .file name remote) →
    (d'.status name).currentRemote = (d.status name).currentRemote
  noFile : (∀ name remote, q.asked ≠ .file name remote) → d'.activeCount = d.activeCount

theorem filterMap_filter (entry : HTTPFetchRequest → Option α) (key : α → Nat)
    (hentry : ∀ q a, entry q = some a → key a = q.requestId) (l : List HTTPFetchRequest) (id : Nat) :
    (l.filterMap entry).filter (fun a => key a ≠ id) =
      (l.filter fun q => q.requestId ≠ id).filterMap entry := by
  induction l with
  | nil => rfl
  | cons q l ih =>
    rw [List.filterMap_cons, List.filter_cons]
    cases hq : entry q with
    | none =>
      rw [ih]
      split
      · rw [List.filterMap_cons, hq]
      · rfl
    | some a =>
      rw [List.filter_cons, hentry q a hq, ih]
      split
      · rw [List.filterMap_cons, hq]
      · rfl

theorem key_indexEntry (q : HTTPFetchRequest) (id : Nat) (h : q.indexEntry = some id) :
    id = q.requestId := by
  rw [indexEntry] at h
  split at h
  · exact (Option.some.inj h).symm
  · cases h

theorem key_partEntry (q : HTTPFetchRequest) (id : Nat) (h : q.partEntry = some id) :
    id = q.requestId := by
  rw [partEntry] at h
  split at h
  · exact (Option.some.inj h).symm
  · cases h

theorem key_hashSetEntry (q : HTTPFetchRequest) (r : Nat × Nat) (h : q.hashSetEntry = some r) :
    r.1 = q.requestId := by
  rw [hashSetEntry] at h
  split at h
  · rw [← Option.some.inj h]
  · cases h

theorem key_fileEntry (q : HTTPFetchRequest) (t : Nat × Bytes) (h : q.fileEntry = some t) :
    t.1 = q.requestId := by
  rw [fileEntry] at h
  split at h
  · rw [← Option.some.inj h]
  · cases h

/-- The requests under way are the one and the others. -/
theorem Recorded.perm_cons (h : d.Recorded) (hq : q ∈ d.inFlight) :
    d.inFlight.Perm (q :: d.inFlight.filter fun p => p.requestId ≠ q.requestId) := by
  have hids := h.ids
  generalize d.inFlight = l at hq hids
  induction l with
  | nil => exact absurd hq List.not_mem_nil
  | cons p l ih =>
    rw [List.map_cons, List.nodup_cons] at hids
    rcases List.mem_cons.1 hq with rfl | hq
    · have hall : l.filter (fun p => decide (p.requestId ≠ q.requestId)) = l := by
        refine List.filter_eq_self.2 fun p hp => decide_eq_true fun heq => hids.1 ?_
        exact heq ▸ List.mem_map_of_mem hp
      rw [List.filter_cons_of_neg (by simp), hall]
    · have hne : p.requestId ≠ q.requestId := fun heq =>
        hids.1 (heq ▸ List.mem_map_of_mem hq)
      rw [List.filter_cons_of_pos (by simpa using hne)]
      exact ((ih hq hids.2).cons p).trans (List.Perm.swap q p _)

/-- How many entries of a table are left. -/
theorem Recorded.length_filterMap (h : d.Recorded) (hq : q ∈ d.inFlight)
    (entry : HTTPFetchRequest → Option α) :
    (((d.inFlight.filter fun p => p.requestId ≠ q.requestId).filterMap entry).length : Int) =
      (d.inFlight.filterMap entry).length - (entry q).toList.length := by
  have hperm := ((h.perm_cons hq).filterMap entry).length_eq
  rw [hperm, List.filterMap_cons]
  cases entry q with
  | none => simp
  | some a => simp

theorem Recorded.take (h : d.Recorded) (htake : Takes d q d') :
    d'.Recorded where
  sorted := htake.files ▸ h.sorted
  fresh := by
    intro p hp
    rw [htake.inFlight] at hp
    rw [htake.httpfetchNextId]
    exact h.fresh p (List.mem_of_mem_filter hp)
  ids := by
    rw [htake.inFlight]
    exact (List.filter_sublist.map _).nodup h.ids
  active := by
    have hlength := (h.perm_cons htake.mem).length_eq
    rw [htake.httpfetchActive, htake.inFlight, h.active, hlength, List.length_cons]
    omega
  index := by
    rw [htake.bundleRequests, htake.inFlight, h.index]
    exact filterMap_filter indexEntry id key_indexEntry _ _
  parts := by
    rw [htake.bundlePartRequests, htake.inFlight, h.parts]
    exact filterMap_filter partEntry id key_partEntry _ _
  hashSets := by
    rw [htake.hashsetRequests, htake.inFlight, h.hashSets]
    exact filterMap_filter hashSetEntry Prod.fst key_hashSetEntry _ _
  transfers := by
    rw [htake.remoteFileTransfers, htake.inFlight, h.transfers]
    exact filterMap_filter fileEntry Prod.fst key_fileEntry _ _
  outstandingHashSets := by
    have hfilter := filterMap_filter hashSetEntry Prod.fst key_hashSetEntry d.inFlight q.requestId
    rw [htake.outstandingHashSets, htake.hashsetRequests, h.outstandingHashSets, h.hashSets, hfilter,
      h.length_filterMap htake.mem]
  outstandingBundles := by
    have hfilter := filterMap_filter partEntry id key_partEntry d.inFlight q.requestId
    simp only [id] at hfilter
    rw [htake.outstandingBundles, htake.bundlePartRequests, h.outstandingBundles, h.parts, hfilter,
      h.length_filterMap htake.mem]
  remotes := by
    intro p hp remote hremote
    rw [htake.inFlight] at hp
    rw [htake.remotes]
    exact h.remotes p (List.mem_of_mem_filter hp) remote hremote
  names := by
    intro p hp name remote hfile
    rw [htake.inFlight] at hp
    rw [htake.files]
    exact h.names p (List.mem_of_mem_filter hp) name remote hfile
  once := by
    intro p hp p' hp'
    rw [htake.inFlight] at hp hp'
    exact h.once p (List.mem_of_mem_filter hp) p' (List.mem_of_mem_filter hp')
  current := by
    intro name hname remote
    rw [htake.files] at hname
    have hmem : ∀ p, p ∈ d'.inFlight ↔ p ∈ d.inFlight ∧ p.requestId ≠ q.requestId := by
      simp [htake.inFlight]
    by_cases hfile : ∃ remote', q.asked = .file name remote'
    · -- the one request for this file is gone
      rcases hfile with ⟨remote', hfile⟩
      rw [(htake.file name remote' hfile).1]
      constructor
      · intro hnone
        cases hnone
      · rintro ⟨p, hp, hfile'⟩
        rcases (hmem p).1 hp with ⟨hp, hne⟩
        exact absurd (congrArg HTTPFetchRequest.requestId
          (h.once p hp q htake.mem name remote remote' hfile' hfile)) hne
    · have hne : ∀ remote, q.asked ≠ .file name remote := not_exists.1 hfile
      rw [htake.other name hne, h.current name hname remote]
      refine ⟨fun ⟨p, hp, hfile⟩ => ⟨p, (hmem p).2 ⟨hp, fun heq => ?_⟩, hfile⟩,
        fun ⟨p, hp, hfile⟩ => ⟨p, ((hmem p).1 hp).1, hfile⟩⟩
      have hsame : p = q := List.inj_on_of_nodup_map h.ids hp htake.mem heq
      exact hne remote (hsame ▸ hfile)
  activeCount := by
    intro remote
    rw [htake.files]
    by_cases hfile : ∃ name remote', q.asked = .file name remote'
    · rcases hfile with ⟨name, remote', hfile⟩
      have hname := h.names q htake.mem name remote' hfile
      have hcurrent := (h.current name hname remote').2 ⟨q, htake.mem, hfile⟩
      rcases htake.file name remote' hfile with ⟨hcurrent', hcount⟩
      have hother : ∀ name' ∈ d.files, name' ≠ name →
          (d'.status name').currentRemote = (d.status name').currentRemote := by
        intro name' _ hne
        refine htake.other name' fun remote hfile' => hne ?_
        rw [hfile] at hfile'
        cases hfile'
        rfl
      rw [hcount]
      by_cases hremote : remote = remote'
      · subst hremote
        have hflip : d.files.countP (fun name => decide ((d.status name).currentRemote =
            some remote)) = d.files.countP (fun name => decide ((d'.status name).currentRemote =
              some remote)) + 1 := by
          refine countP_of_flip h.sorted.nodup hname ?_ ?_ fun name' hname' hne => ?_
          · simp [hcurrent']
          · simp [hcurrent]
          · rw [hother name' hname' hne]
        rw [Function.update_self, h.activeCount, hflip]
        omega
      · rw [Function.update_of_ne hremote, h.activeCount]
        refine congrArg Nat.cast (List.countP_congr fun name' hname' => ?_)
        by_cases hne : name' = name
        · subst hne
          simp [hcurrent, hcurrent', Ne.symm hremote]
        · rw [hother name' hname' hne]
    · have hne : ∀ name remote, q.asked ≠ .file name remote := fun name remote hq =>
        hfile ⟨name, remote, hq⟩
      rw [htake.noFile hne, h.activeCount]
      refine congrArg Nat.cast (List.countP_congr fun name' _ => ?_)
      rw [htake.other name' (hne name')]

/-! ## What the functions ask for -/

theorem asks_startHashSetFetch (hremote : remote < d.remotes.length) :
    ∃ q, Asks d q (d.startHashSetFetch remote) := by
  refine ⟨{ requestId := d.httpfetchNextId
            url := d.remotes.getD remote [] ++ hashSetFileName
            asked := .hashSet remote }, ?_⟩
  constructor
  case remote_lt =>
    intro remote' heq
    cases heq
    exact hremote
  case file =>
    intro name remote' heq
    cases heq
  case other => exact fun _ _ => rfl
  case noFile => exact fun _ => rfl
  all_goals first | rfl | exact (List.append_nil _).symm | exact (Int.add_zero _).symm

theorem asks_requestBundlePart (d : ClientMediaDownloader) : ∃ q, Asks d q d.requestBundlePart := by
  refine ⟨{ requestId := d.httpfetchNextId
            url := d.remotes.getD 0 [] ++ bundleFileName ++ ascii "/" ++
              itos (Int32.ofNat d.bundleNextPart)
            asked := .bundlePart d.bundleNextPart }, ?_⟩
  constructor
  case remote_lt =>
    intro remote' heq
    cases heq
  case file =>
    intro name remote' heq
    cases heq
  case other => exact fun _ _ => rfl
  case noFile => exact fun _ => rfl
  all_goals first | rfl | exact (List.append_nil _).symm | exact (Int.add_zero _).symm

theorem asks_startTransfer (hname : name ∈ d.files) (hnone : (d.status name).currentRemote = none) :
    ∃ q, q.asked = .file name remote ∧ Asks d q (d.startTransfer name remote) := by
  refine ⟨{ requestId := d.httpfetchNextId
            url := d.remotes.getD remote [] ++ hexEncode (d.status name).sha1
            asked := .file name remote }, rfl, ?_⟩
  constructor
  case remote_lt =>
    intro remote' heq
    cases heq
  case file =>
    intro name' remote' heq
    cases heq
    exact ⟨hname, hnone, congrArg FileStatus.currentRemote (status_setStatus_self _ _ _), rfl⟩
  case other =>
    intro name' hne
    have hne' : name' ≠ name := by
      rintro rfl
      exact hne remote rfl
    exact congrArg FileStatus.currentRemote (status_setStatus_of_ne _ _ hne')
  case noFile =>
    intro hne
    exact absurd rfl (hne name remote)
  all_goals first | rfl | exact (List.append_nil _).symm | exact (Int.add_zero _).symm

theorem Recorded.startHashSetFetches (h : d.Recorded) : d.startHashSetFetches.Recorded := by
  have hfold : ∀ (l : List Nat) (d : ClientMediaDownloader), d.Recorded →
      (∀ remote ∈ l, remote < d.remotes.length) →
        (l.foldl ClientMediaDownloader.startHashSetFetch d).Recorded := by
    intro l
    induction l with
    | nil => exact fun d hd _ => hd
    | cons remote l ih =>
      intro d hd hl
      rw [List.forall_mem_cons] at hl
      rcases asks_startHashSetFetch hl.1 with ⟨q, hask⟩
      exact ih _ (hd.ask hask) hl.2
  exact hfold _ d h fun remote hremote => List.mem_range.1 hremote

theorem Recorded.requestMoreLoop (h : d.Recorded) (fuel : Nat) :
    (ClientMediaDownloader.requestMoreLoop fuel d).Recorded := by
  induction fuel generalizing d with
  | zero => exact h
  | succ fuel ih =>
    rw [ClientMediaDownloader.requestMoreLoop]
    split
    · rcases asks_requestBundlePart d with ⟨q, hask⟩
      exact ih (h.ask hask)
    · exact h

theorem Recorded.startBundleFetch (h : d.Recorded) : d.startBundleFetch.Recorded := by
  rw [ClientMediaDownloader.startBundleFetch]
  split
  · exact h.startHashSetFetches
  · let q : HTTPFetchRequest :=
      { requestId := d.httpfetchNextId
        url := d.remotes.getD 0 [] ++ bundleFileName
        asked := .bundleIndex }
    refine h.ask (q := q) ?_
    constructor
    case remote_lt =>
      intro remote' heq
      cases heq
    case file =>
      intro name remote' heq
      cases heq
    case other => exact fun _ _ => rfl
    case noFile => exact fun _ => rfl
    all_goals first | rfl | exact (List.append_nil _).symm | exact (Int.add_zero _).symm

end

end ClientMediaDownloader

end Media
end AxisEngine
