import AxisEngine.Media.Answers

/-!
# Counting — files that are marked, and the count of them

`m_uncached_received_count` is raised wherever a file is marked as received.  It is the number of
marked files as long as no file is marked twice.

* `SameMarks` — no file is marked, and nothing is counted;
* `Counts` — the counters say how many files are marked;
* `Counts.unpackBundle` — a part of the bundle that does not bring a file twice;
* `Counts.handleResult`, `Counts.conventionalTransferDone` — the count after an answer, and after a
  file from the game protocol.
-/

namespace AxisEngine
namespace Media

open Lib Util

namespace ClientMediaDownloader

/-! ## Functions that mark nothing -/

structure SameMarks (d d' : ClientMediaDownloader) : Prop where
  files : d'.files = d.files
  received : ∀ name, (d'.status name).received = (d.status name).received
  sha1 : ∀ name, (d'.status name).sha1 = (d.status name).sha1
  initialStepDone : d'.initialStepDone = d.initialStepDone
  uncachedCount : d'.uncachedCount = d.uncachedCount
  uncachedReceivedCount : d'.uncachedReceivedCount = d.uncachedReceivedCount

section

variable {d d' d'' : ClientMediaDownloader} {env : Env} {name : Bytes} {result : HTTPFetchResult}

theorem SameMarks.refl (d : ClientMediaDownloader) : SameMarks d d :=
  ⟨rfl, fun _ => rfl, fun _ => rfl, rfl, rfl, rfl⟩

theorem SameMarks.trans (h : SameMarks d d') (h' : SameMarks d' d'') : SameMarks d d'' where
  files := h'.files.trans h.files
  received := fun name => (h'.received name).trans (h.received name)
  sha1 := fun name => (h'.sha1 name).trans (h.sha1 name)
  initialStepDone := h'.initialStepDone.trans h.initialStepDone
  uncachedCount := h'.uncachedCount.trans h.uncachedCount
  uncachedReceivedCount := h'.uncachedReceivedCount.trans h.uncachedReceivedCount

theorem SameMarks.foldl {α : Type} {f : ClientMediaDownloader → α → ClientMediaDownloader}
    (hf : ∀ d a, SameMarks d (f d a)) (l : List α) (d : ClientMediaDownloader) :
    SameMarks d (l.foldl f d) := by
  induction l generalizing d with
  | nil => exact .refl d
  | cons a l ih => exact (hf d a).trans (ih (f d a))

theorem sameMarks_setStatus {f : FileStatus} (hreceived : f.received = (d.status name).received)
    (hsha1 : f.sha1 = (d.status name).sha1) : SameMarks d (d.setStatus name f) := by
  refine { SameMarks.refl d with received := fun name' => ?_, sha1 := fun name' => ?_ }
  · rw [status_setStatus]
    split
    · rename_i hname
      rw [hreceived, hname]
    · rfl
  · rw [status_setStatus]
    split
    · rename_i hname
      rw [hsha1, hname]
    · rfl

theorem sameMarks_startHashSetFetches (d : ClientMediaDownloader) :
    SameMarks d d.startHashSetFetches := by
  have hone : ∀ (d : ClientMediaDownloader) (remote : Nat), SameMarks d (d.startHashSetFetch remote) :=
    fun d _ => { SameMarks.refl d with }
  exact SameMarks.foldl hone _ d

theorem sameMarks_requestMoreLoop (fuel : Nat) (d : ClientMediaDownloader) :
    SameMarks d (requestMoreLoop fuel d) := by
  induction fuel generalizing d with
  | zero => exact .refl d
  | succ fuel ih =>
    rw [requestMoreLoop]
    split
    · have hpart : SameMarks d d.requestBundlePart := { SameMarks.refl d with }
      exact hpart.trans (ih d.requestBundlePart)
    · exact .refl d

theorem sameMarks_bundleIndexReceived (d : ClientMediaDownloader) (result : HTTPFetchResult) :
    SameMarks d (d.bundleIndexReceived result) := by
  rw [bundleIndexReceived]
  split
  · exact sameMarks_startHashSetFetches d
  · have hparts : SameMarks d { d with bundlePartsLeft := bundleParts result, bundleNextPart := 0 } :=
      { SameMarks.refl d with }
    exact hparts.trans (sameMarks_requestMoreLoop _ _)

theorem sameMarks_addAvailable (sha1Set : List Bytes) (remote : Nat) (d : ClientMediaDownloader)
    (name : Bytes) : SameMarks d (d.setStatus name (addAvailable sha1Set remote (d.status name))) := by
  rw [addAvailable]
  split
  · exact sameMarks_setStatus rfl rfl
  · exact sameMarks_setStatus rfl rfl

theorem sameMarks_remoteHashSetReceived {remote : Nat}
    (h : d.remoteHashSetReceived result remote = some d') : SameMarks d d' := by
  have hcount : SameMarks d { d with outstandingHashSets := d.outstandingHashSets - 1 } :=
    { SameMarks.refl d with }
  rw [remoteHashSetReceived] at h
  split at h
  · cases h
  · dsimp only at h
    split at h
    · cases h
      exact hcount
    · split at h
      · cases h
        exact hcount
      · cases h
        exact hcount.trans (SameMarks.foldl (sameMarks_addAvailable _ remote) _ _)

theorem sameMarks_endTransfer (d : ClientMediaDownloader) (name : Bytes) (remote : Nat) :
    SameMarks d (d.endTransfer name remote) := by
  have hstatus : SameMarks d (d.setStatus name { d.status name with currentRemote := none }) :=
    sameMarks_setStatus rfl rfl
  exact { hstatus with }

theorem sameMarks_startTransfer (d : ClientMediaDownloader) (name : Bytes) (remote : Nat) :
    SameMarks d (d.startTransfer name remote) := by
  have hstatus : SameMarks d
      (d.setStatus name { d.status name with currentRemote := some remote }) :=
    sameMarks_setStatus rfl rfl
  exact { hstatus with }

theorem sameMarks_tryRemoteServer (h : d.tryRemoteServer name = some d') : SameMarks d d' := by
  rcases tryRemoteServer_cases d name with ⟨heq, -⟩ | ⟨-, -, remote, -, available, heq, -⟩
  · have hd := Option.some.inj (heq.symm.trans h)
    subst hd
    exact .refl d
  · have hd := Option.some.inj (heq.symm.trans h)
    subst hd
    have hstatus : SameMarks d
        (d.setStatus name { d.status name with availableRemotes := available }) :=
      sameMarks_setStatus rfl rfl
    exact hstatus.trans (sameMarks_startTransfer _ name remote)

theorem sameMarks_startLoop {names : List Bytes} {changing : Bool}
    (h : startLoop names changing d = some d') : SameMarks d d' := by
  induction names generalizing changing d with
  | nil =>
    cases h
    exact .refl _
  | cons name names ih =>
    rw [startLoop] at h
    split at h
    · cases h
      exact .refl _
    · split at h
      · cases h
      · rename_i d₁ htry
        have hd₁ := sameMarks_tryRemoteServer htry
        split at h
        · split at h
          · have hbound : SameMarks d₁ { d₁ with nameBound := name } :=
              { SameMarks.refl d₁ with }
            exact hd₁.trans (hbound.trans (ih h))
          · exact hd₁.trans (ih h)
        · exact hd₁.trans (ih h)

theorem sameMarks_startConventionalTransfers (h : d.startConventionalTransfers = some d') :
    SameMarks d d' := by
  rw [startConventionalTransfers] at h
  split at h
  · cases h
  · split at h
    · dsimp only at h
      split at h
      · cases h
      · cases h
        exact { SameMarks.refl d with }
    · cases h
      exact .refl d

theorem sameMarks_finishStep (h : d.finishStep = some d') : SameMarks d d' := by
  rw [finishStep] at h
  split at h
  · cases h
  · rename_i d₁ hloop
    have hd₁ := sameMarks_startLoop hloop
    split at h
    · exact hd₁.trans (sameMarks_startConventionalTransfers h)
    · cases h
      exact hd₁

end

/-! ## The counters -/

/-- After the first step the counters say how many of the announced files were not in the cache, and
how many of these have been received. -/
structure Counts (cached : Bytes → Bool) (files : List Bytes) (d : ClientMediaDownloader) :
    Prop where
  files : d.files = files
  initialStepDone : d.initialStepDone = true
  uncached : d.uncachedCount = d.files.countP fun name => !cached name
  received : d.uncachedReceivedCount =
    d.files.countP fun name => (d.status name).received && !cached name
  cached : ∀ name ∈ d.files, cached name = true → (d.status name).received = true

section

variable {cached : Bytes → Bool} {announced : List Bytes} {d d' : ClientMediaDownloader}
variable {env : Env} {name : Bytes}

section

variable (h : Counts cached announced d)

include h

theorem Counts.of_same (hsame : SameMarks d d') :
    Counts cached announced d' where
  files := hsame.files.trans h.files
  initialStepDone := hsame.initialStepDone.trans h.initialStepDone
  uncached := by
    rw [hsame.uncachedCount, hsame.files]
    exact h.uncached
  received := by
    rw [hsame.uncachedReceivedCount, hsame.files]
    simp only [hsame.received]
    exact h.received
  cached := by
    rw [hsame.files]
    simp only [hsame.received]
    exact h.cached

theorem Counts.markReceived (hd : StrictSorted nameKey d.files) (hname : name ∈ d.files)
    (hmissing : (d.status name).received = false) (size : Nat) :
    Counts cached announced (d.markReceived name size) := by
  have huncached : cached name = false := by
    by_contra hcached
    rw [h.cached name hname (Bool.not_eq_false _ ▸ hcached)] at hmissing
    cases hmissing
  have hself : ((d.markReceived name size).status name).received = true :=
    congrArg FileStatus.received (status_setStatus_self _ _ _)
  have hother : ∀ name', name' ≠ name → (d.markReceived name size).status name' = d.status name' :=
    fun name' hne => status_setStatus_of_ne _ _ hne
  refine ⟨h.files, h.initialStepDone, h.uncached, ?_, fun name' hname' hcached => ?_⟩
  · have hflip : d.files.countP (fun name' =>
        ((d.markReceived name size).status name').received && !cached name') =
          d.files.countP (fun name' => (d.status name').received && !cached name') + 1 := by
      refine countP_of_flip hd.nodup hname ?_ ?_ fun name' _ hne => ?_
      · rw [hmissing, Bool.false_and]
      · rw [hself, huncached]
        rfl
      · rw [hother name' hne]
    change d.uncachedReceivedCount + 1 = _
    rw [h.received]
    exact congrArg Nat.cast hflip.symm
  · by_cases hne : name' = name
    · rw [hne, hself]
    · rw [hother name' hne]
      exact h.cached name' hname' hcached

/-- What is missing is what the counters leave. -/
theorem Counts.length_missing :
    (d.missing.length : Int) = d.uncachedCount - d.uncachedReceivedCount := by
  have hsplit : d.files.countP (fun name => !cached name) =
      d.files.countP (fun name => (d.status name).received && !cached name) + d.missing.length := by
    have hcached := h.cached
    rw [missing]
    generalize d.files = files at hcached
    induction files with
    | nil => rfl
    | cons name files ih =>
      rw [List.forall_mem_cons] at hcached
      rw [List.countP_cons, List.countP_cons, List.filter_cons, ih hcached.2]
      cases hreceived : (d.status name).received with
      | true => simp; omega
      | false =>
        have hfalse : cached name = false := by
          by_contra htrue
          rw [hcached.1 (Bool.not_eq_false _ ▸ htrue)] at hreceived
          cases hreceived
        simp [hfalse]
        omega
  rw [h.uncached, h.received, hsplit]
  omega

/-- A file that is still missing is still counted as missing. -/
theorem Counts.lt_of_missing (hname : name ∈ d.files) (hmissing : (d.status name).received = false) :
    d.uncachedReceivedCount < d.uncachedCount := by
  have hmem : name ∈ d.missing := List.mem_filter.2 ⟨hname, by rw [hmissing]; rfl⟩
  have hlength := List.length_pos_of_mem hmem
  have heq := h.length_missing
  omega

/-- What the counters say when they are right. -/
theorem Counts.isDone_iff : d.isDone = true ↔ ∀ name ∈ announced, (d.status name).received = true := by
  have hlength := h.length_missing
  have hmissing : d.missing = [] ↔ ∀ name ∈ announced, (d.status name).received = true := by
    rw [missing, List.filter_eq_nil_iff, h.files]
    simp
  rw [isDone, h.initialStepDone, Bool.true_and, decide_eq_true_eq, ← hmissing,
    ← List.length_eq_zero_iff]
  omega

end

end

/-! ## A part of the bundle -/

/-- The file that an entry of a part is taken for, by the table of the files that are wanted. -/
def accepts (env : Env) (want : Bytes → Option Bytes) (d : ClientMediaDownloader)
    (file : Bytes × Bytes) : Option Bytes :=
  (want file.1).filter fun name => checkAndLoad env name (d.status name).sha1 file.2

/-- The files that a part of the bundle brings. -/
def accepted (env : Env) (d : ClientMediaDownloader) (packed : Bytes) : List Bytes :=
  (bundleFiles env packed).1.filterMap (accepts env d.byHash d)

section

variable {cached : Bytes → Bool} {announced : List Bytes} {d d' : ClientMediaDownloader}
variable {env : Env} {name : Bytes}
variable {want : Bytes → Option Bytes} {file : Bytes × Bytes}

theorem takeFile_of_none (h : accepts env want d file = none) : takeFile env want d file = d := by
  rw [accepts] at h
  rw [takeFile]
  split
  · rfl
  · rename_i name hwant
    rw [hwant, Option.filter_some] at h
    split at h
    · cases h
    · rename_i hrefused
      rw [if_neg hrefused]

theorem takeFile_of_some (h : accepts env want d file = some name) :
    takeFile env want d file = d.markReceived name file.2.length := by
  rw [accepts, Option.filter_eq_some_iff] at h
  rw [takeFile, h.1]
  exact if_pos h.2

/-- Marking a file changes nothing about what is accepted. -/
theorem accepts_markReceived (size : Nat) :
    accepts env want (d.markReceived name size) = accepts env want d := by
  have hsha1 : ∀ name', ((d.markReceived name size).status name').sha1 = (d.status name').sha1 := by
    intro name'
    change ((d.setStatus name { d.status name with received := true }).status name').sha1 = _
    rw [status_setStatus]
    split
    · rename_i hname
      rw [hname]
    · rfl
  funext file
  simp only [accepts, hsha1]

/-- A file is wanted when it is announced and missing. -/
theorem byHash_some {sha1Hex : Bytes} (h : d.byHash sha1Hex = some name) :
    name ∈ d.files ∧ (d.status name).received = false ∧
      hexEncode (d.status name).sha1 = sha1Hex := by
  have hfound := List.find?_some h
  simp only [Bool.and_eq_true, Bool.not_eq_true', decide_eq_true_eq] at hfound
  exact ⟨List.mem_of_find?_eq_some h, hfound⟩

/-- Files that are taken one after the other are counted rightly when none is taken twice. -/
theorem Counts.foldl_takeFile {files : List (Bytes × Bytes)} (h : Counts cached announced d)
    (hd : StrictSorted nameKey d.files)
    (hmissing : ∀ name ∈ files.filterMap (accepts env want d),
      name ∈ d.files ∧ (d.status name).received = false)
    (hnodup : (files.filterMap (accepts env want d)).Nodup) :
    Counts cached announced (files.foldl (takeFile env want) d) := by
  induction files generalizing d with
  | nil => exact h
  | cons file files ih =>
    rw [List.foldl_cons]
    cases haccepts : accepts env want d file with
    | none =>
      rw [takeFile_of_none haccepts]
      rw [List.filterMap_cons_none haccepts] at hmissing hnodup
      exact ih h hd hmissing hnodup
    | some name =>
      rw [takeFile_of_some haccepts]
      rw [List.filterMap_cons_some haccepts] at hmissing hnodup
      rw [List.forall_mem_cons] at hmissing
      rw [List.nodup_cons] at hnodup
      have hmark := h.markReceived hd hmissing.1.1 hmissing.1.2 file.2.length
      refine ih hmark hd ?_ ?_
      · rw [accepts_markReceived]
        intro name' hname'
        have hne : name' ≠ name := by
          rintro rfl
          exact hnodup.1 hname'
        refine ⟨(hmissing.2 name' hname').1, ?_⟩
        rw [show (d.markReceived name file.2.length).status name' = d.status name' from
          status_setStatus_of_ne _ _ hne]
        exact (hmissing.2 name' hname').2
      · rw [accepts_markReceived]
        exact hnodup.2

theorem Counts.unpackBundle {packed : Bytes} (h : Counts cached announced d)
    (hd : StrictSorted nameKey d.files) (hnodup : (accepted env d packed).Nodup) :
    Counts cached announced (ClientMediaDownloader.unpackBundle env d packed).1 := by
  refine Counts.foldl_takeFile h hd (fun name hname => ?_) hnodup
  rcases List.mem_filterMap.1 hname with ⟨file, -, haccepts⟩
  rw [accepts, Option.filter_eq_some_iff] at haccepts
  have hwanted := byHash_some haccepts.1
  exact ⟨hwanted.1, hwanted.2.1⟩

/-! ## Every answer is counted -/

variable {q : HTTPFetchRequest} {result : HTTPFetchResult}

theorem sameMarks_without (d : ClientMediaDownloader) (q : HTTPFetchRequest) :
    SameMarks d (d.without q) :=
  { SameMarks.refl d with }

theorem Counts.bundlePartReceived (h : Counts cached announced d) (hd : StrictSorted nameKey d.files)
    (hnodup : result.succeeded = true → (accepted env d result.data).Nodup) :
    Counts cached announced (ClientMediaDownloader.bundlePartReceived env d result).1 := by
  have hcount : Counts cached announced { d with outstandingBundles := d.outstandingBundles - 1 } :=
    h.of_same { SameMarks.refl d with }
  have hunpacked : Counts cached announced (unpackPart env
      { d with outstandingBundles := d.outstandingBundles - 1 } result).1 := by
    rw [unpackPart]
    split
    · rename_i hsucceeded
      exact hcount.unpackBundle hd (hnodup hsucceeded)
    · exact hcount
  have hmore : ∀ fuel, Counts cached announced (requestMoreLoop fuel (unpackPart env
      { d with outstandingBundles := d.outstandingBundles - 1 } result).1) :=
    fun fuel => hunpacked.of_same (sameMarks_requestMoreLoop fuel _)
  rw [ClientMediaDownloader.bundlePartReceived]
  split
  · exact hunpacked
  · dsimp only
    split
    · exact hmore _
    · exact (hmore _).of_same (sameMarks_startHashSetFetches _)

/-- An answer is counted, if it does not bring a file twice. -/
theorem Counts.handleResult {thrown : Bool} (h : Counts cached announced d) (hd : d.Recorded)
    (hq : q ∈ d.inFlight)
    (hnodup : ∀ number, q.asked = .bundlePart number → result.succeeded = true →
      (accepted env d result.data).Nodup)
    (hstep : ClientMediaDownloader.handleResult env d q.requestId result = some (d', thrown)) :
    Counts cached announced d' := by
  have hwithout := h.of_same (sameMarks_without d q)
  cases hasked : q.asked with
  | bundleIndex =>
    rw [handleResult_bundleIndex hd hq hasked] at hstep
    cases hstep
    exact hwithout.of_same (sameMarks_bundleIndexReceived _ result)
  | bundlePart number =>
    rw [handleResult_bundlePart hd hq hasked] at hstep
    have heq : (ClientMediaDownloader.bundlePartReceived env (d.without q) result).1 = d' :=
      congrArg Prod.fst (Option.some.inj hstep)
    exact heq ▸ hwithout.bundlePartReceived hd.sorted (hnodup number hasked)
  | hashSet remote =>
    rw [handleResult_hashSet hd hq hasked] at hstep
    rcases Option.map_eq_some_iff.1 hstep with ⟨d₁, hd₁, heq⟩
    cases heq
    exact hwithout.of_same (sameMarks_remoteHashSetReceived hd₁)
  | file name remote =>
    rw [handleResult_file hd hq hasked] at hstep
    have hended := hwithout.of_same (sameMarks_endTransfer (d.without q) name remote)
    have hname := hd.names q hq name remote hasked
    cases hreceived : (d.status name).received with
    | true =>
      rw [remoteFileReceived_of_received hreceived] at hstep
      cases hstep
    | false =>
      rw [remoteFileReceived_eq hd hq hasked hreceived] at hstep
      split at hstep
      · split at hstep
        · cases hstep
          refine hended.markReceived hd.sorted hname ?_ _
          rw [(sameMarks_endTransfer (d.without q) name remote).received]
          exact hreceived
        · cases hstep
      · cases hstep
        exact hended

theorem Counts.conventionalTransferDone {data : Bytes} {thrown : Bool} (h : Counts cached announced d)
    (hd : StrictSorted nameKey d.files)
    (hstep : d.conventionalTransferDone name data = some (d', thrown)) : Counts cached announced d' := by
  rw [ClientMediaDownloader.conventionalTransferDone] at hstep
  split at hstep
  · cases hstep
    exact h
  · rename_i hname
    split at hstep
    · cases hstep
      exact h
    · rename_i hmissing
      split at hstep
      · cases hstep
      · cases hstep
        exact h.markReceived hd (not_not.1 hname) (Bool.not_eq_true _ ▸ hmissing) _

end

end ClientMediaDownloader

end Media
end AxisEngine
