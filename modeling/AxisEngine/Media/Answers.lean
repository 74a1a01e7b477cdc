import AxisEngine.Media.Requests

/-!
# Answers — what `step` does with the answers

An answer is dealt with according to the table that its number stands in, and afterwards new
requests are made.

* `handleResult_bundleIndex`, `handleResult_bundlePart`, `handleResult_hashSet`, `handleResult_file`
  — an answer finds the table of its request;
* `tryRemoteServer_cases` — what the search for a server does;
* `Recorded.handleResult`, `Recorded.finishStep` — the two parts of a step keep the records.
-/

namespace AxisEngine
namespace Media

open Lib Util

namespace ClientMediaDownloader

open HTTPFetchRequest

section

variable {d d' : ClientMediaDownloader} {env : Env} {name : Bytes}

/-! ## Where an answer goes -/

/-- `d` without the entries of a request. -/
def without (d : ClientMediaDownloader) (q : HTTPFetchRequest) : ClientMediaDownloader :=
  { d with
    inFlight := d.inFlight.filter fun p => p.requestId ≠ q.requestId
    httpfetchActive := d.httpfetchActive - 1
    bundleRequests := d.bundleRequests.filter fun id => id ≠ q.requestId
    bundlePartRequests := d.bundlePartRequests.filter fun id => id ≠ q.requestId
    hashsetRequests := d.hashsetRequests.filter fun r => r.1 ≠ q.requestId
    remoteFileTransfers := d.remoteFileTransfers.filter fun t => t.1 ≠ q.requestId }

variable {α : Type} {entry : HTTPFetchRequest → Option α} {q : HTTPFetchRequest}

/-- In a table with the entries of the requests under way, an entry with the number of a request is
the entry of this request. -/
theorem Recorded.entry_eq {a : α} (h : d.Recorded) (key : α → Nat) (hq : q ∈ d.inFlight)
    (hentry : ∀ q a, entry q = some a → key a = q.requestId) (ha : a ∈ d.inFlight.filterMap entry)
    (hkey : key a = q.requestId) : entry q = some a := by
  rcases List.mem_filterMap.1 ha with ⟨p, hp, hpa⟩
  have hsame : p = q :=
    List.inj_on_of_nodup_map h.ids hp hq ((hentry p a hpa).symm.trans hkey)
  exact hsame ▸ hpa

/-- A table without an entry of the request stays as it is. -/
theorem Recorded.filter_eq_self (h : d.Recorded) (key : α → Nat) (hq : q ∈ d.inFlight)
    (hentry : ∀ q a, entry q = some a → key a = q.requestId) (hnone : entry q = none) :
    (d.inFlight.filterMap entry).filter (fun a => key a ≠ q.requestId) =
      d.inFlight.filterMap entry := by
  refine List.filter_eq_self.2 fun a ha => decide_eq_true fun hkey => ?_
  rw [h.entry_eq key hq hentry ha hkey] at hnone
  cases hnone

/-- A table finds the entry of a request under its number. -/
theorem Recorded.lookup_eq {entry : HTTPFetchRequest → Option (Nat × α)} (h : d.Recorded)
    (hq : q ∈ d.inFlight) (hentry : ∀ q a, entry q = some a → a.1 = q.requestId) :
    (d.inFlight.filterMap entry).lookup q.requestId = (entry q).map Prod.snd := by
  cases hfound : (d.inFlight.filterMap entry).lookup q.requestId with
  | none =>
    cases hcase : entry q with
    | none => rfl
    | some a =>
      have hne := List.lookup_eq_none_iff.1 hfound a (List.mem_filterMap.2 ⟨q, hq, hcase⟩)
      rw [hentry q a hcase] at hne
      simp at hne
  | some b =>
    rcases List.lookup_eq_some_iff.1 hfound with ⟨front, back, hsplit, -⟩
    have hmem : (q.requestId, b) ∈ d.inFlight.filterMap entry := by
      rw [hsplit]
      exact List.mem_append_right _ (List.mem_cons_self ..)
    rw [h.entry_eq Prod.fst hq hentry hmem rfl]
    rfl

theorem Recorded.mem_iff {entry : HTTPFetchRequest → Option Nat} (h : d.Recorded)
    (hq : q ∈ d.inFlight) (hentry : ∀ q a, entry q = some a → a = q.requestId) :
    q.requestId ∈ d.inFlight.filterMap entry ↔ entry q ≠ none := by
  constructor
  · intro hmem hnone
    have hsome := h.entry_eq id hq hentry hmem rfl
    rw [hnone] at hsome
    cases hsome
  · intro hne
    rcases Option.ne_none_iff_exists'.1 hne with ⟨a, ha⟩
    have hkey := hentry q a ha
    exact List.mem_filterMap.2 ⟨q, hq, hkey ▸ ha⟩

section

variable {q : HTTPFetchRequest} {result : HTTPFetchResult}

variable {thrown : Bool} {number : Nat} {remote : Nat}

section

variable (h : d.Recorded) (hq : q ∈ d.inFlight)

include h hq

theorem Recorded.bundleRequests_without (hnone : q.indexEntry = none) :
    (d.without q).bundleRequests = d.bundleRequests := by
  rw [without, h.index]
  exact h.filter_eq_self id hq key_indexEntry hnone

theorem Recorded.bundlePartRequests_without (hnone : q.partEntry = none) :
    (d.without q).bundlePartRequests = d.bundlePartRequests := by
  rw [without, h.parts]
  exact h.filter_eq_self id hq key_partEntry hnone

theorem Recorded.hashsetRequests_without (hnone : q.hashSetEntry = none) :
    (d.without q).hashsetRequests = d.hashsetRequests := by
  rw [without, h.hashSets]
  exact h.filter_eq_self Prod.fst hq key_hashSetEntry hnone

theorem Recorded.remoteFileTransfers_without (hnone : q.fileEntry = none) :
    (d.without q).remoteFileTransfers = d.remoteFileTransfers := by
  rw [without, h.transfers]
  exact h.filter_eq_self Prod.fst hq key_fileEntry hnone

theorem handleResult_bundleIndex (hasked : q.asked = .bundleIndex) :
    handleResult env d q.requestId result =
      some ((d.without q).bundleIndexReceived result, false) := by
  have hmem : q.requestId ∈ d.bundleRequests := by
    rw [h.index, h.mem_iff hq key_indexEntry, indexEntry, hasked]
    exact Option.some_ne_none _
  have hparts := h.bundlePartRequests_without hq (by rw [partEntry, hasked])
  have hhashSets := h.hashsetRequests_without hq (by rw [hashSetEntry, hasked])
  have htransfers := h.remoteFileTransfers_without hq (by rw [fileEntry, hasked])
  simp only [without] at hparts hhashSets htransfers
  rw [handleResult]
  simp only [if_pos hmem, without, hparts, hhashSets, htransfers]

theorem handleResult_bundlePart (hasked : q.asked = .bundlePart number) :
    handleResult env d q.requestId result = some (bundlePartReceived env (d.without q) result) := by
  have hindex : q.requestId ∉ d.bundleRequests := by
    rw [h.index, h.mem_iff hq key_indexEntry, indexEntry, hasked]
    exact fun hne => hne rfl
  have hmem : q.requestId ∈ d.bundlePartRequests := by
    rw [h.parts, h.mem_iff hq key_partEntry, partEntry, hasked]
    exact Option.some_ne_none _
  have hbundles := h.bundleRequests_without hq (by rw [indexEntry, hasked])
  have hhashSets := h.hashsetRequests_without hq (by rw [hashSetEntry, hasked])
  have htransfers := h.remoteFileTransfers_without hq (by rw [fileEntry, hasked])
  simp only [without] at hbundles hhashSets htransfers
  rw [handleResult]
  simp only [if_neg hindex, if_pos hmem, without, hbundles, hhashSets, htransfers]

theorem handleResult_hashSet (hasked : q.asked = .hashSet remote) :
    handleResult env d q.requestId result =
      ((d.without q).remoteHashSetReceived result remote).map fun d => (d, false) := by
  have hindex : q.requestId ∉ d.bundleRequests := by
    rw [h.index, h.mem_iff hq key_indexEntry, indexEntry, hasked]
    exact fun hne => hne rfl
  have hpart : q.requestId ∉ d.bundlePartRequests := by
    rw [h.parts, h.mem_iff hq key_partEntry, partEntry, hasked]
    exact fun hne => hne rfl
  have hlookup : d.hashsetRequests.lookup q.requestId = some remote := by
    rw [h.hashSets, h.lookup_eq hq key_hashSetEntry, hashSetEntry, hasked]
    rfl
  have hbundles := h.bundleRequests_without hq (by rw [indexEntry, hasked])
  have hparts := h.bundlePartRequests_without hq (by rw [partEntry, hasked])
  have htransfers := h.remoteFileTransfers_without hq (by rw [fileEntry, hasked])
  simp only [without] at hbundles hparts htransfers
  rw [handleResult]
  simp only [if_neg hindex, if_neg hpart, hlookup, without, hbundles, hparts, htransfers]

theorem handleResult_file (hasked : q.asked = .file name remote) :
    handleResult env d q.requestId result = remoteFileReceived env (d.without q) name result := by
  have hindex : q.requestId ∉ d.bundleRequests := by
    rw [h.index, h.mem_iff hq key_indexEntry, indexEntry, hasked]
    exact fun hne => hne rfl
  have hpart : q.requestId ∉ d.bundlePartRequests := by
    rw [h.parts, h.mem_iff hq key_partEntry, partEntry, hasked]
    exact fun hne => hne rfl
  have hlookup : d.hashsetRequests.lookup q.requestId = none := by
    rw [h.hashSets, h.lookup_eq hq key_hashSetEntry, hashSetEntry, hasked]
    rfl
  have hlookup' : d.remoteFileTransfers.lookup q.requestId = some name := by
    rw [h.transfers, h.lookup_eq hq key_fileEntry, fileEntry, hasked]
    rfl
  have hbundles := h.bundleRequests_without hq (by rw [indexEntry, hasked])
  have hparts := h.bundlePartRequests_without hq (by rw [partEntry, hasked])
  have hhashSets := h.hashsetRequests_without hq (by rw [hashSetEntry, hasked])
  simp only [without] at hbundles hparts hhashSets
  rw [handleResult]
  simp only [if_neg hindex, if_neg hpart, hlookup, remoteMediaReceived, hlookup', without, hbundles,
    hparts, hhashSets]

end

/-! ## What an answer leaves -/

section

variable (hq : q ∈ d.inFlight)

include hq

theorem takes_bundleIndex (hasked : q.asked = .bundleIndex) : Takes d q (d.without q) := by
  have hpart : q.partEntry = none := by rw [partEntry, hasked]
  have hhashSet : q.hashSetEntry = none := by rw [hashSetEntry, hasked]
  refine ⟨hq, rfl, rfl, rfl, rfl, rfl, rfl, rfl, rfl, rfl, ?_, ?_, ?_, fun _ _ => rfl, fun _ => rfl⟩
  · rw [hhashSet]
    exact (Int.sub_zero _).symm
  · rw [hpart]
    exact (Int.sub_zero _).symm
  · intro name remote hfile
    rw [hasked] at hfile
    cases hfile

theorem takes_bundlePart (hasked : q.asked = .bundlePart number) :
    Takes d q { d.without q with outstandingBundles := d.outstandingBundles - 1 } := by
  have hpart : q.partEntry = some q.requestId := by rw [partEntry, hasked]
  have hhashSet : q.hashSetEntry = none := by rw [hashSetEntry, hasked]
  refine ⟨hq, rfl, rfl, rfl, rfl, rfl, rfl, rfl, rfl, rfl, ?_, ?_, ?_, fun _ _ => rfl, fun _ => rfl⟩
  · rw [hhashSet]
    exact (Int.sub_zero _).symm
  · rw [hpart]
    rfl
  · intro name remote hfile
    rw [hasked] at hfile
    cases hfile

theorem takes_hashSet (hasked : q.asked = .hashSet remote) :
    Takes d q { d.without q with outstandingHashSets := d.outstandingHashSets - 1 } := by
  have hpart : q.partEntry = none := by rw [partEntry, hasked]
  have hhashSet : q.hashSetEntry = some (q.requestId, remote) := by rw [hashSetEntry, hasked]
  refine ⟨hq, rfl, rfl, rfl, rfl, rfl, rfl, rfl, rfl, rfl, ?_, ?_, ?_, fun _ _ => rfl, fun _ => rfl⟩
  · rw [hhashSet]
    rfl
  · rw [hpart]
    exact (Int.sub_zero _).symm
  · intro name remote hfile
    rw [hasked] at hfile
    cases hfile

theorem takes_file (hasked : q.asked = .file name remote) :
    Takes d q ((d.without q).endTransfer name remote) := by
  have hpart : q.partEntry = none := by rw [partEntry, hasked]
  have hhashSet : q.hashSetEntry = none := by rw [hashSetEntry, hasked]
  refine ⟨hq, rfl, rfl, rfl, rfl, rfl, rfl, rfl, rfl, rfl, ?_, ?_, ?_, ?_, ?_⟩
  · rw [hhashSet]
    exact (Int.sub_zero _).symm
  · rw [hpart]
    exact (Int.sub_zero _).symm
  · intro name' remote' hfile
    rw [hasked] at hfile
    cases hfile
    exact ⟨congrArg FileStatus.currentRemote (status_setStatus_self _ _ _), rfl⟩
  · intro name' hne
    have hne' : name' ≠ name := by
      rintro rfl
      exact hne remote hasked
    exact congrArg FileStatus.currentRemote (status_setStatus_of_ne _ _ hne')
  · intro hne
    exact absurd hasked (hne name remote)

end

/-- What becomes of a file that was asked for: the answer is of use, or it is not. -/
theorem remoteFileReceived_eq (h : d.Recorded) (hq : q ∈ d.inFlight)
    (hasked : q.asked = .file name remote) (hmissing : (d.status name).received = false) :
    remoteFileReceived env (d.without q) name result =
      if (result.succeeded && checkAndLoad env name (d.status name).sha1 result.data) = true then
        if d.uncachedReceivedCount < d.uncachedCount then
          some (((d.without q).endTransfer name remote).markReceived name result.data.length,
            (((d.without q).endTransfer name remote).markReceived name
              result.data.length).exceedsTotalSize)
        else none
      else some ((d.without q).endTransfer name remote, false) := by
  have hname := h.names q hq name remote hasked
  have hcurrent := (h.current name hname remote).2 ⟨q, hq, hasked⟩
  have hname' : ¬ name ∉ (d.without q).files := not_not.2 hname
  have hreceived : ¬ ((d.without q).status name).received = true := by
    rw [show (d.without q).status = d.status from rfl, hmissing]
    exact Bool.false_ne_true
  have hcurrent' : ((d.without q).status name).currentRemote = some remote := hcurrent
  have hstatus : ((d.without q).endTransfer name remote).status name =
      { d.status name with currentRemote := none } := status_setStatus_self _ _ _
  rw [remoteFileReceived, if_neg hname', if_neg hreceived, hcurrent']
  simp only [hstatus]
  split
  · rw [ite_not]
    rfl
  · rfl

theorem remoteFileReceived_of_received (hreceived : (d.status name).received = true) :
    remoteFileReceived env (d.without q) name result = none := by
  rw [remoteFileReceived]
  split
  · rfl
  · exact if_pos hreceived

theorem sameRequests_addAvailable (sha1Set : List Bytes) (remote : Nat)
    (d : ClientMediaDownloader) (name : Bytes) :
    SameRequests d (d.setStatus name (addAvailable sha1Set remote (d.status name))) := by
  refine sameRequests_setStatus ?_
  rw [addAvailable]
  split
  · rfl
  · rfl

/-! ## Every answer is recorded -/

theorem Recorded.bundleIndexReceived (h : d.Recorded) (hq : q ∈ d.inFlight)
    (hasked : q.asked = .bundleIndex) : ((d.without q).bundleIndexReceived result).Recorded := by
  have hwithout := h.take (takes_bundleIndex hq hasked)
  rw [ClientMediaDownloader.bundleIndexReceived]
  split
  · exact hwithout.startHashSetFetches
  · refine Recorded.requestMoreLoop ?_ _
    exact hwithout.of_same { SameRequests.refl (d.without q) with }

theorem sameRequests_unpackPart (env : Env) (d : ClientMediaDownloader) (result : HTTPFetchResult) :
    SameRequests d (unpackPart env d result).1 := by
  rw [unpackPart]
  split
  · exact sameRequests_unpackBundle d result.data
  · exact .refl d

section

variable (h : d.Recorded) (hq : q ∈ d.inFlight)

include h hq

theorem Recorded.bundlePartReceived (hasked : q.asked = .bundlePart number) :
    (ClientMediaDownloader.bundlePartReceived env (d.without q) result).1.Recorded := by
  have hunpacked := (h.take (takes_bundlePart hq hasked)).of_same
    (sameRequests_unpackPart env _ result)
  rw [ClientMediaDownloader.bundlePartReceived]
  split
  · exact hunpacked
  · have hmore := hunpacked.requestMoreLoop
    dsimp only
    split
    · exact hmore _
    · exact (hmore _).startHashSetFetches

theorem Recorded.remoteHashSetReceived (hasked : q.asked = .hashSet remote)
    (hstep : (d.without q).remoteHashSetReceived result remote = some d') : d'.Recorded := by
  have hwithout := h.take (takes_hashSet hq hasked)
  rw [ClientMediaDownloader.remoteHashSetReceived] at hstep
  split at hstep
  · cases hstep
  · simp only at hstep
    split at hstep
    · cases hstep
      exact hwithout
    · split at hstep
      · cases hstep
        exact hwithout
      · cases hstep
        exact hwithout.of_same (SameRequests.foldl (sameRequests_addAvailable _ remote) _ _)

theorem Recorded.remoteFileReceived (hasked : q.asked = .file name remote)
    (hstep : ClientMediaDownloader.remoteFileReceived env (d.without q) name result =
      some (d', thrown)) : d'.Recorded := by
  have hended := h.take (takes_file hq hasked)
  cases hreceived : (d.status name).received with
  | true =>
    rw [remoteFileReceived_of_received hreceived] at hstep
    cases hstep
  | false =>
    rw [remoteFileReceived_eq h hq hasked hreceived] at hstep
    split at hstep
    · split at hstep
      · cases hstep
        exact hended.of_same (sameRequests_markReceived _ _ _)
      · cases hstep
    · cases hstep
      exact hended

theorem Recorded.handleResult
    (hstep : ClientMediaDownloader.handleResult env d q.requestId result = some (d', thrown)) :
    d'.Recorded := by
  cases hasked : q.asked with
  | bundleIndex =>
    rw [handleResult_bundleIndex h hq hasked] at hstep
    cases hstep
    exact h.bundleIndexReceived hq hasked
  | bundlePart number =>
    rw [handleResult_bundlePart h hq hasked] at hstep
    have heq : (ClientMediaDownloader.bundlePartReceived env (d.without q) result).1 = d' :=
      congrArg Prod.fst (Option.some.inj hstep)
    exact heq ▸ h.bundlePartReceived hq hasked
  | hashSet remote =>
    rw [handleResult_hashSet h hq hasked] at hstep
    rcases Option.map_eq_some_iff.1 hstep with ⟨d₁, hd₁, heq⟩
    cases heq
    exact h.remoteHashSetReceived hq hasked hd₁
  | file name remote =>
    rw [handleResult_file h hq hasked] at hstep
    exact h.remoteFileReceived hq hasked hstep

end

end

/-! ## The rest of a step -/

/-- The server that is chosen is the one at the index that is chosen. -/
theorem selectLoop_getElem? (activeCount : Nat → Int) (l rest : List Nat) (i best bestRemote : Nat)
    (hrest : l.drop i = rest) (hbest : l[best]? = some bestRemote) :
    l[(selectLoop activeCount rest i best bestRemote).1]? =
      some (selectLoop activeCount rest i best bestRemote).2 := by
  induction rest generalizing i best bestRemote with
  | nil => exact hbest
  | cons remote rest ih =>
    have hnext : l.drop (i + 1) = rest := by
      rw [← List.drop_drop, hrest, List.drop_one, List.tail_cons]
    have hhere : l[i]? = some remote := by
      rw [← List.head?_drop, hrest, List.head?_cons]
    rw [selectLoop]
    split
    · exact ih (i + 1) i remote hnext hhere
    · exact ih (i + 1) best bestRemote hnext hbest

variable {f f' : FileStatus} {activeCount : Nat → Int}

/-- No server is chosen when none is left. -/
theorem selectRemoteServer_none (h : selectRemoteServer activeCount f = some (none, f')) :
    f' = f ∧ f.availableRemotes = [] := by
  rw [selectRemoteServer] at h
  split at h
  · cases h
  · split at h
    · rename_i hnil
      cases h
      exact ⟨rfl, hnil⟩
    · cases h

/-- A server that is chosen was left, and the others stay. -/
theorem selectRemoteServer_some {remote : Nat}
    (h : selectRemoteServer activeCount f = some (some remote, f')) :
    remote ∈ f.availableRemotes ∧ ∃ available, f' = { f with availableRemotes := available } ∧
      ∀ remote' ∈ f.availableRemotes, remote' = remote ∨ remote' ∈ available := by
  rw [selectRemoteServer] at h
  split at h
  · cases h
  · split at h
    · cases h
    · rename_i first rest hcons
      have hbest : f.availableRemotes[(selectLoop activeCount rest 1 0 first).1]? =
          some (selectLoop activeCount rest 1 0 first).2 := by
        refine selectLoop_getElem? activeCount f.availableRemotes rest 1 0 first ?_ ?_
        · rw [hcons, List.drop_one, List.tail_cons]
        · rw [hcons]
          rfl
      simp only [Option.some.injEq, Prod.mk.injEq] at h
      rcases h with ⟨rfl, rfl⟩
      refine ⟨List.mem_of_getElem? hbest, _, rfl, fun remote' hremote' => ?_⟩
      rcases List.mem_iff_getElem?.1 hremote' with ⟨i, hi⟩
      by_cases hsame : i = (selectLoop activeCount rest 1 0 first).1
      · left
        rw [hsame, hbest] at hi
        exact (Option.some.inj hi).symm
      · exact .inr (List.mem_eraseIdx_iff_getElem?.2 ⟨i, hsame, hi⟩)

/-- What the search for a server does with a file: nothing, or it starts to fetch it. -/
theorem tryRemoteServer_cases (d : ClientMediaDownloader) (name : Bytes) :
    (d.tryRemoteServer name = some d ∧ ((d.status name).received = true ∨
      (d.status name).currentRemote ≠ none ∨ (d.status name).availableRemotes = [])) ∨
    ((d.status name).received = false ∧ (d.status name).currentRemote = none ∧
      ∃ remote ∈ (d.status name).availableRemotes, ∃ available,
        d.tryRemoteServer name = some ((d.setStatus name
          { d.status name with availableRemotes := available }).startTransfer name remote) ∧
        ∀ remote' ∈ (d.status name).availableRemotes, remote' = remote ∨ remote' ∈ available) := by
  rw [tryRemoteServer]
  by_cases hskip : (d.status name).received = true ∨ (d.status name).currentRemote ≠ none
  · rw [if_pos hskip]
    exact .inl ⟨rfl, hskip.imp_right .inl⟩
  · rw [if_neg hskip]
    have hmissing := not_or.1 hskip
    rw [Bool.not_eq_true, not_not] at hmissing
    cases hselect : selectRemoteServer d.activeCount (d.status name) with
    | none =>
      rw [selectRemoteServer, if_neg hskip] at hselect
      split at hselect
      · cases hselect
      · cases hselect
    | some selected =>
      rcases selected with ⟨remote, f⟩
      cases remote with
      | none =>
        rcases selectRemoteServer_none hselect with ⟨rfl, hnil⟩
        refine .inl ⟨?_, .inr (.inr hnil)⟩
        simp only [setStatus, Function.update_eq_self]
      | some remote =>
        rcases selectRemoteServer_some hselect with ⟨hremote, available, rfl, hall⟩
        exact .inr ⟨hmissing.1, hmissing.2, remote, hremote, available, rfl, hall⟩

theorem Recorded.tryRemoteServer (h : d.Recorded) (hname : name ∈ d.files)
    (hstep : d.tryRemoteServer name = some d') : d'.Recorded ∧ d'.files = d.files := by
  rcases tryRemoteServer_cases d name with ⟨heq, -⟩ | ⟨-, hnone, remote, -, available, heq, -⟩
  · rw [heq] at hstep
    cases hstep
    exact ⟨h, rfl⟩
  · rw [heq] at hstep
    cases hstep
    have hsame : SameRequests d (d.setStatus name
        { d.status name with availableRemotes := available }) := sameRequests_setStatus rfl
    have hnone' : ((d.setStatus name { d.status name with availableRemotes := available }).status
        name).currentRemote = none := by
      rw [status_setStatus_self]
      exact hnone
    have hask : ∃ q, q.asked = .file name remote ∧ Asks (d.setStatus name
        { d.status name with availableRemotes := available }) q _ := asks_startTransfer hname hnone'
    rcases hask with ⟨q, -, hask⟩
    exact ⟨(h.of_same hsame).ask hask, rfl⟩

/-- The search for a server never fails an assertion. -/
theorem exists_startLoop (names : List Bytes) (changing : Bool) (d : ClientMediaDownloader) :
    ∃ d', startLoop names changing d = some d' := by
  induction names generalizing changing d with
  | nil => exact ⟨d, rfl⟩
  | cons name names ih =>
    rw [startLoop]
    split
    · exact ⟨d, rfl⟩
    · rcases tryRemoteServer_cases d name with ⟨heq, -⟩ | ⟨-, -, remote, -, available, heq, -⟩
      · rw [heq]
        dsimp only
        split
        · exact ih _ _
        · exact ih _ _
      · rw [heq]
        dsimp only
        split
        · exact ih _ _
        · exact ih _ _

theorem Recorded.startLoop {names : List Bytes} {changing : Bool} (h : d.Recorded)
    (hnames : ∀ name ∈ names, name ∈ d.files)
    (hstep : ClientMediaDownloader.startLoop names changing d = some d') : d'.Recorded := by
  induction names generalizing changing d with
  | nil =>
    cases hstep
    exact h
  | cons name names ih =>
    rw [List.forall_mem_cons] at hnames
    rw [ClientMediaDownloader.startLoop] at hstep
    split at hstep
    · cases hstep
      exact h
    · split at hstep
      · cases hstep
      · rename_i d₁ htry
        rcases h.tryRemoteServer hnames.1 htry with ⟨hd₁, hfiles⟩
        have hnames' : ∀ name ∈ names, name ∈ d₁.files := hfiles ▸ hnames.2
        split at hstep
        · split at hstep
          · have hbound : Recorded { d₁ with nameBound := name } :=
              hd₁.of_same { SameRequests.refl d₁ with }
            exact ih hbound hnames' hstep
          · exact ih hd₁ hnames' hstep
        · exact ih hd₁ hnames' hstep

theorem mem_of_mem_upperBound (h : name ∈ d.upperBound) : name ∈ d.files :=
  (List.dropWhile_sublist _).subset h

theorem Recorded.startConventionalTransfers (h : d.Recorded)
    (hstep : d.startConventionalTransfers = some d') : d'.Recorded := by
  rw [ClientMediaDownloader.startConventionalTransfers] at hstep
  split at hstep
  · cases hstep
  · split at hstep
    · dsimp only at hstep
      split at hstep
      · cases hstep
      · cases hstep
        exact h.of_same { SameRequests.refl d with }
    · cases hstep
      exact h

theorem Recorded.finishStep (h : d.Recorded) (hstep : d.finishStep = some d') : d'.Recorded := by
  rw [ClientMediaDownloader.finishStep, ClientMediaDownloader.startRemoteMediaTransfers] at hstep
  split at hstep
  · cases hstep
  · rename_i d₁ hloop
    have hd₁ := h.startLoop (fun name => mem_of_mem_upperBound) hloop
    split at hstep
    · exact hd₁.startConventionalTransfers hstep
    · cases hstep
      exact hd₁

theorem Recorded.conventionalTransferDone {data : Bytes} {thrown : Bool} (h : d.Recorded)
    (hstep : d.conventionalTransferDone name data = some (d', thrown)) : d'.Recorded := by
  rw [ClientMediaDownloader.conventionalTransferDone] at hstep
  split at hstep
  · cases hstep
    exact h
  · split at hstep
    · cases hstep
      exact h
    · split at hstep
      · cases hstep
      · cases hstep
        exact h.of_same (sameRequests_markReceived _ _ _)

end

end ClientMediaDownloader

end Media
end AxisEngine
