import AxisEngine.Media.Received

/-!
# Phases — bundles first, then hash sets and files

The index of the bundle is under way alone, its parts come next, and hash sets and files are only
asked for when no part is left.

* `Grows` — files were marked, and requests of one kind were made;
* `Recorded.bundleIndex_grows`, `Recorded.bundlePart_grows`, `Listing` — what the answers bring about;
* `startLoop_induction` — what each round of the search for a server keeps;
* `Phased` — no file is offered or under way as long as a part of the bundle is.
-/

namespace AxisEngine
namespace Media

open Lib Util

namespace Asked

/-! The kinds of requests. -/

def isPart : Asked → Bool
  | .bundlePart _ => true
  | _ => false

def isHashSet : Asked → Bool
  | .hashSet _ => true
  | _ => false

def isBundle : Asked → Bool
  | .bundleIndex => true
  | .bundlePart _ => true
  | _ => false

end Asked

namespace ClientMediaDownloader

/-! ## Requests of one kind -/

/-- `d'` has the requests of `d` and perhaps further ones of one kind, and perhaps more files are
marked. -/
structure Grows (kind : Asked → Bool) (d d' : ClientMediaDownloader) : Prop where
  files : d'.files = d.files
  sha1 : ∀ name, (d'.status name).sha1 = (d.status name).sha1
  received : ∀ name, (d.status name).received = true → (d'.status name).received = true
  currentRemote : ∀ name, (d'.status name).currentRemote = (d.status name).currentRemote
  availableRemotes : ∀ name, (d'.status name).availableRemotes = (d.status name).availableRemotes
  nameBound : d'.nameBound = d.nameBound
  requestedMedia : d'.requestedMedia = d.requestedMedia
  httpfetchActiveLimit : d'.httpfetchActiveLimit = d.httpfetchActiveLimit
  inFlight : ∃ new, d'.inFlight = d.inFlight ++ new ∧ ∀ q ∈ new, kind q.asked = true

section

variable {kind : Asked → Bool} {d d' d'' : ClientMediaDownloader} {env : Env} {name : Bytes}

theorem Grows.refl (kind : Asked → Bool) (d : ClientMediaDownloader) : Grows kind d d :=
  ⟨rfl, fun _ => rfl, fun _ h => h, fun _ => rfl, fun _ => rfl, rfl, rfl, rfl, [],
    (List.append_nil _).symm, fun _ hq => absurd hq List.not_mem_nil⟩

theorem Grows.trans (h : Grows kind d d') (h' : Grows kind d' d'') : Grows kind d d'' where
  files := h'.files.trans h.files
  sha1 := fun name => (h'.sha1 name).trans (h.sha1 name)
  received := fun name hname => h'.received name (h.received name hname)
  currentRemote := fun name => (h'.currentRemote name).trans (h.currentRemote name)
  availableRemotes := fun name => (h'.availableRemotes name).trans (h.availableRemotes name)
  nameBound := h'.nameBound.trans h.nameBound
  requestedMedia := h'.requestedMedia.trans h.requestedMedia
  httpfetchActiveLimit := h'.httpfetchActiveLimit.trans h.httpfetchActiveLimit
  inFlight := by
    rcases h.inFlight with ⟨new, hnew, hkind⟩
    rcases h'.inFlight with ⟨new', hnew', hkind'⟩
    refine ⟨new ++ new', by rw [hnew', hnew, List.append_assoc], fun q hq => ?_⟩
    rcases List.mem_append.1 hq with hq | hq
    · exact hkind q hq
    · exact hkind' q hq

theorem Grows.foldl {α : Type} {f : ClientMediaDownloader → α → ClientMediaDownloader}
    (hf : ∀ d a, Grows kind d (f d a)) (l : List α) (d : ClientMediaDownloader) :
    Grows kind d (l.foldl f d) := by
  induction l generalizing d with
  | nil => exact .refl kind d
  | cons a l ih => exact (hf d a).trans (ih (f d a))

/-- Requests of a kind of which none is under way are not made. -/
theorem Grows.of_none (h : Grows kind d d') (kind' : Asked → Bool)
    (hnone : ∀ q ∈ d'.inFlight, kind q.asked = false) : Grows kind' d d' := by
  refine { h with inFlight := ?_ }
  rcases h.inFlight with ⟨new, hnew, hkind⟩
  cases new with
  | nil => exact ⟨[], hnew, fun q hq => absurd hq List.not_mem_nil⟩
  | cons q new =>
    have hq := hkind q (List.mem_cons_self ..)
    rw [hnone q (hnew ▸ List.mem_append_right _ (List.mem_cons_self ..))] at hq
    cases hq

theorem grows_startHashSetFetches (d : ClientMediaDownloader) :
    Grows Asked.isHashSet d d.startHashSetFetches := by
  have hone : ∀ (d : ClientMediaDownloader) (remote : Nat),
      Grows Asked.isHashSet d (d.startHashSetFetch remote) := by
    intro d remote
    refine { Grows.refl Asked.isHashSet d with inFlight := ⟨_, rfl, fun q hq => ?_⟩ }
    rw [List.mem_singleton.1 hq]
    rfl
  exact Grows.foldl hone _ d

theorem grows_requestMoreLoop (fuel : Nat) (d : ClientMediaDownloader) :
    Grows Asked.isPart d (requestMoreLoop fuel d) := by
  induction fuel generalizing d with
  | zero => exact .refl _ d
  | succ fuel ih =>
    rw [requestMoreLoop]
    split
    · have hpart : Grows Asked.isPart d d.requestBundlePart := by
        refine { Grows.refl Asked.isPart d with inFlight := ⟨_, rfl, fun q hq => ?_⟩ }
        rw [List.mem_singleton.1 hq]
        rfl
      exact hpart.trans (ih d.requestBundlePart)
    · exact .refl _ d

theorem grows_markReceived (kind : Asked → Bool) (d : ClientMediaDownloader) (name : Bytes)
    (size : Nat) : Grows kind d (d.markReceived name size) := by
  have hstatus : ∀ name', (d.markReceived name size).status name' = if name' = name then
      { d.status name with received := true } else d.status name' :=
    fun name' => status_setStatus d name name' _
  refine { Grows.refl kind d with
    sha1 := fun name' => ?_, received := fun name' hname' => ?_, currentRemote := fun name' => ?_,
    availableRemotes := fun name' => ?_ }
  all_goals rw [hstatus]
  all_goals split
  all_goals first | rfl | exact hname' | simp [*]

theorem grows_takeFile (kind : Asked → Bool) (want : Bytes → Option Bytes)
    (d : ClientMediaDownloader) (file : Bytes × Bytes) : Grows kind d (takeFile env want d file) := by
  rw [takeFile]
  split
  · exact .refl kind d
  · split
    · exact grows_markReceived kind d _ _
    · exact .refl kind d

theorem grows_unpackPart (kind : Asked → Bool) (env : Env) (d : ClientMediaDownloader)
    (result : HTTPFetchResult) : Grows kind d (unpackPart env d result).1 := by
  rw [unpackPart]
  split
  · exact Grows.foldl (grows_takeFile kind d.byHash) _ d
  · exact .refl kind d

/-! ## The answers -/

variable {q : HTTPFetchRequest} {result : HTTPFetchResult}

/-- After the index its parts are asked for, or hash sets. -/
theorem bundleIndex_grows (d : ClientMediaDownloader) (result : HTTPFetchResult) :
    Grows Asked.isPart d (d.bundleIndexReceived result) ∨
      Grows Asked.isHashSet d (d.bundleIndexReceived result) := by
  rw [bundleIndexReceived]
  split
  · exact .inr (grows_startHashSetFetches d)
  · left
    have hparts : Grows Asked.isPart d
        { d with bundlePartsLeft := bundleParts result, bundleNextPart := 0 } :=
      { Grows.refl Asked.isPart d with }
    exact hparts.trans (grows_requestMoreLoop _ _)

theorem Recorded.not_isPart (h : d.Recorded) (hnone : ¬ d.outstandingBundles > 0) :
    ∀ q ∈ d.inFlight, q.asked.isPart = false := by
  intro q hq
  by_contra hpart
  have hentry : q.partEntry = some q.requestId := by
    rw [HTTPFetchRequest.partEntry]
    cases hasked : q.asked with
    | bundlePart number => rfl
    | bundleIndex => exact absurd (by rw [hasked]; rfl) hpart
    | hashSet remote => exact absurd (by rw [hasked]; rfl) hpart
    | file name remote => exact absurd (by rw [hasked]; rfl) hpart
  have hmem : q.requestId ∈ d.bundlePartRequests := by
    rw [h.parts]
    exact List.mem_filterMap.2 ⟨q, hq, hentry⟩
  have hlength := List.length_pos_of_mem hmem
  have heq := h.outstandingBundles
  omega

variable {number : Nat} {thrown : Bool} {remote : Nat}

/-- After a part further parts are asked for, or hash sets when no part is left. -/
theorem Recorded.bundlePart_grows (h : d.Recorded) (hq : q ∈ d.inFlight)
    (hasked : q.asked = .bundlePart number) :
    Grows Asked.isPart (d.without q)
        (ClientMediaDownloader.bundlePartReceived env (d.without q) result).1 ∨
      Grows Asked.isHashSet (d.without q)
        (ClientMediaDownloader.bundlePartReceived env (d.without q) result).1 ∧
        ∀ p ∈ (d.without q).inFlight, p.asked.isPart = false := by
  have hcount : Grows Asked.isPart (d.without q) { d.without q with
      outstandingBundles := d.outstandingBundles - 1 } :=
    { Grows.refl Asked.isPart (d.without q) with }
  have hunpacked := hcount.trans (grows_unpackPart _ env _ result)
  have hrecorded := (h.take (takes_bundlePart hq hasked)).of_same
    (sameRequests_unpackPart env _ result)
  rw [ClientMediaDownloader.bundlePartReceived]
  split
  · exact .inl hunpacked
  · dsimp only
    have hmore := fun fuel => hunpacked.trans (grows_requestMoreLoop fuel _)
    split
    · exact .inl (hmore _)
    · rename_i hnone
      have hnoPart := (hrecorded.requestMoreLoop _).not_isPart hnone
      have hgrows := (hmore _).of_none Asked.isHashSet hnoPart
      refine .inr ⟨hgrows.trans (grows_startHashSetFetches _), fun p hp => ?_⟩
      rcases hgrows.inFlight with ⟨new, hnew, -⟩
      exact hnoPart p (hnew ▸ List.mem_append_left new hp)

/-- The checksums that a hash set lists. -/
def offered (result : HTTPFetchResult) : List Bytes :=
  if result.succeeded then (deSerializeHashSet result.data).getD [] else []

/-- `d'` is `d` after the files behind the bound have been looked up in a hash set. -/
structure Listing (d : ClientMediaDownloader) (sha1Set : List Bytes) (remote : Nat)
    (d' : ClientMediaDownloader) : Prop where
  files : d'.files = d.files
  nameBound : d'.nameBound = d.nameBound
  requestedMedia : d'.requestedMedia = d.requestedMedia
  httpfetchActiveLimit : d'.httpfetchActiveLimit = d.httpfetchActiveLimit
  inFlight : d'.inFlight = d.inFlight
  status : ∀ name, d'.status name = if name ∈ d.upperBound then
    addAvailable sha1Set remote (d.status name) else d.status name

theorem foldl_addAvailable (sha1Set : List Bytes) (remote : Nat) {l : List Bytes} (hl : l.Nodup)
    (d : ClientMediaDownloader) :
    ∃ status, l.foldl
        (fun d name => d.setStatus name (addAvailable sha1Set remote (d.status name))) d =
          { d with status := status } ∧
      ∀ name, status name = if name ∈ l then addAvailable sha1Set remote (d.status name) else
        d.status name := by
  induction l generalizing d with
  | nil => exact ⟨d.status, rfl, fun name => by rw [if_neg List.not_mem_nil]⟩
  | cons name l ih =>
    rw [List.nodup_cons] at hl
    rcases ih hl.2 (d.setStatus name (addAvailable sha1Set remote (d.status name)))
      with ⟨status, hfold, hstatus⟩
    refine ⟨status, hfold, fun name' => ?_⟩
    rw [hstatus, status_setStatus]
    by_cases hname : name' = name
    · subst hname
      simp [hl.1]
    · simp [hname]

theorem addAvailable_nil (remote : Nat) (f : FileStatus) : addAvailable [] remote f = f := by
  rw [addAvailable, if_neg]
  exact fun h => absurd h.2 List.not_mem_nil

theorem listing_nil (d : ClientMediaDownloader) (remote : Nat) : Listing d [] remote d := by
  refine ⟨rfl, rfl, rfl, rfl, rfl, fun name => ?_⟩
  rw [addAvailable_nil, ite_self]

theorem remoteHashSetReceived_listing (hd : StrictSorted nameKey d.files)
    (h : d.remoteHashSetReceived result remote = some d') : Listing d (offered result) remote d' := by
  have hnil := listing_nil d remote
  rw [remoteHashSetReceived] at h
  rw [offered]
  split at h
  · cases h
  · dsimp only at h
    split at h
    · rename_i hfailed
      rw [if_neg (by simpa using hfailed)]
      cases h
      exact { hnil with }
    · rename_i hsucceeded
      rw [if_pos (by simpa using hsucceeded)]
      split at h
      · rename_i hbad
        rw [hbad]
        cases h
        exact { hnil with }
      · rename_i sha1Set hgood
        rw [hgood]
        have hnodup : d.upperBound.Nodup := (hd.sublist (List.dropWhile_sublist _)).nodup
        rcases foldl_addAvailable sha1Set remote hnodup
          { d with outstandingHashSets := d.outstandingHashSets - 1 } with ⟨status, hfold, hstatus⟩
        have heq := hfold.symm.trans (Option.some.inj h)
        subst heq
        exact ⟨rfl, rfl, rfl, rfl, rfl, hstatus⟩

theorem exists_remoteHashSetReceived (h : remote < d.remotes.length) (result : HTTPFetchResult) :
    ∃ d', d.remoteHashSetReceived result remote = some d' := by
  rw [remoteHashSetReceived, if_neg (not_not.2 h)]
  dsimp only
  split
  · exact ⟨_, rfl⟩
  · split
    · exact ⟨_, rfl⟩
    · exact ⟨_, rfl⟩

/-- `d'` is `d` after the transfer of a file has ended, well or not. -/
structure Ends (d : ClientMediaDownloader) (name : Bytes) (ok : Bool) (d' : ClientMediaDownloader) :
    Prop where
  files : d'.files = d.files
  nameBound : d'.nameBound = d.nameBound
  requestedMedia : d'.requestedMedia = d.requestedMedia
  httpfetchActiveLimit : d'.httpfetchActiveLimit = d.httpfetchActiveLimit
  inFlight : d'.inFlight = d.inFlight
  status : ∀ name', d'.status name' = if name' = name then
    { d.status name with currentRemote := none, received := ok } else d.status name'

theorem ends_endTransfer (hmissing : (d.status name).received = false) :
    Ends d name false (d.endTransfer name remote) := by
  refine ⟨rfl, rfl, rfl, rfl, rfl, fun name' => ?_⟩
  rw [← hmissing]
  exact status_setStatus d name name' _

theorem ends_markReceived (size : Nat) :
    Ends d name true ((d.endTransfer name remote).markReceived name size) := by
  refine ⟨rfl, rfl, rfl, rfl, rfl, fun name' => ?_⟩
  have hended : (d.endTransfer name remote).status name = { d.status name with
      currentRemote := none } := status_setStatus_self d name _
  change (((d.setStatus name _).setStatus name _).status name') = _
  rw [status_setStatus, status_setStatus, hended]
  split
  · rfl
  · rfl

/-- An answer for a file that had come already fails an assertion. -/
theorem Recorded.remoteFileReceived_ends (h : d.Recorded) (hq : q ∈ d.inFlight)
    (hasked : q.asked = .file name remote)
    (hstep : ClientMediaDownloader.remoteFileReceived env (d.without q) name result =
      some (d', thrown)) :
    (d.status name).received = false ∧ Ends (d.without q) name
      (result.succeeded && checkAndLoad env name (d.status name).sha1 result.data) d' := by
  cases hreceived : (d.status name).received with
  | true =>
    rw [remoteFileReceived_of_received hreceived] at hstep
    cases hstep
  | false =>
    refine ⟨rfl, ?_⟩
    rw [remoteFileReceived_eq h hq hasked hreceived] at hstep
    split at hstep
    · rename_i hok
      rw [hok]
      split at hstep
      · cases hstep
        exact ends_markReceived _
      · cases hstep
    · rename_i hfailed
      rw [Bool.not_eq_true] at hfailed
      rw [hfailed]
      cases hstep
      exact ends_endTransfer hreceived

/-! ## The search for a server -/

theorem startLoop_induction {P : ClientMediaDownloader → Prop} {names : List Bytes} {changing : Bool}
    (htry : ∀ d d' name, P d → name ∈ names → d.tryRemoteServer name = some d' → P d')
    (hbound : ∀ d name, P d → P { d with nameBound := name }) (hd : P d)
    (h : startLoop names changing d = some d') : P d' := by
  induction names generalizing changing d with
  | nil =>
    cases h
    exact hd
  | cons name names ih =>
    have htail : ∀ d d' name', P d → name' ∈ names → d.tryRemoteServer name' = some d' → P d' :=
      fun d d' name' hd hname' => htry d d' name' hd (List.mem_cons_of_mem _ hname')
    rw [startLoop] at h
    split at h
    · cases h
      exact hd
    · split at h
      · cases h
      · rename_i d₁ hfirst
        have hd₁ := htry d d₁ name hd (List.mem_cons_self ..) hfirst
        split at h
        · split at h
          · exact ih htail (hbound d₁ name hd₁) h
          · exact ih htail hd₁ h
        · exact ih htail hd₁ h

/-! ## Phases -/

/-- While the index or a part of the bundle is under way, nothing else is, and no file can be had
from a server; and the index is under way alone. -/
structure Phased (d : ClientMediaDownloader) : Prop where
  index : ∀ q ∈ d.inFlight, q.asked = .bundleIndex → d.inFlight = [q]
  bundles : ∀ q ∈ d.inFlight, q.asked.isBundle = true →
    (∀ p ∈ d.inFlight, p.asked.isBundle = true) ∧ ∀ name, (d.status name).availableRemotes = []

theorem Phased.congr (h : d.Phased) (hinFlight : d'.inFlight = d.inFlight)
    (havailable : ∀ name, (d'.status name).availableRemotes = (d.status name).availableRemotes) :
    d'.Phased where
  index := hinFlight ▸ h.index
  bundles := by
    simp only [hinFlight, havailable]
    exact h.bundles

theorem phased_of_noBundle (h : ∀ q ∈ d.inFlight, q.asked.isBundle = false) : d.Phased := by
  constructor
  · intro q hq hasked
    have hno := h q hq
    rw [hasked] at hno
    cases hno
  · intro q hq hbundle
    rw [h q hq] at hbundle
    cases hbundle

theorem phased_of_parts (h : ∀ q ∈ d.inFlight, q.asked.isPart = true)
    (havailable : ∀ name, (d.status name).availableRemotes = []) : d.Phased := by
  constructor
  · intro q hq hasked
    have hpart := h q hq
    rw [hasked] at hpart
    cases hpart
  · refine fun q hq _ => ⟨fun p hp => ?_, havailable⟩
    have hpart := h p hp
    cases hasked : p.asked with
    | bundlePart number => rfl
    | bundleIndex => rw [hasked] at hpart; cases hpart
    | hashSet remote => rw [hasked] at hpart; cases hpart
    | file name remote => rw [hasked] at hpart; cases hpart

section

variable (h : d.Phased) (hq : q ∈ d.inFlight)

include h hq

/-- When something else is under way, no bundle is. -/
theorem Phased.noBundle (hother : q.asked.isBundle = false) :
    ∀ p ∈ d.inFlight, p.asked.isBundle = false := by
  intro p hp
  by_contra hbundle
  rw [(h.bundles p hp (Bool.not_eq_false _ ▸ hbundle)).1 q hq] at hother
  cases hother

theorem Phased.without_index (hasked : q.asked = .bundleIndex) : (d.without q).inFlight = [] := by
  change d.inFlight.filter _ = []
  rw [h.index q hq hasked]
  simp

/-- With a part under way there are only parts. -/
theorem Phased.without_part (hasked : q.asked = .bundlePart number) :
    ∀ p ∈ (d.without q).inFlight, p.asked.isPart = true := by
  intro p hp
  have hmem : p ∈ d.inFlight := List.mem_of_mem_filter hp
  have hbundle := (h.bundles q hq (by rw [hasked]; rfl)).1 p hmem
  cases hkind : p.asked with
  | bundlePart number => rfl
  | bundleIndex =>
    have halone := h.index p hmem hkind
    rw [halone, List.mem_singleton] at hq
    rw [hq, hkind] at hasked
    cases hasked
  | hashSet remote => rw [hkind] at hbundle; cases hbundle
  | file name remote => rw [hkind] at hbundle; cases hbundle

end

/-- Behind a phase of bundles comes one of bundles, or one of hash sets. -/
theorem Phased.grows_part (h : Grows Asked.isPart d d')
    (hparts : ∀ p ∈ d.inFlight, p.asked.isPart = true)
    (havailable : ∀ name, (d.status name).availableRemotes = []) : d'.Phased := by
  rcases h.inFlight with ⟨new, hnew, hkind⟩
  refine phased_of_parts (fun p hp => ?_) fun name => (h.availableRemotes name).trans (havailable name)
  rw [hnew, List.mem_append] at hp
  rcases hp with hp | hp
  · exact hparts p hp
  · exact hkind p hp

theorem Phased.grows_hashSet (h : Grows Asked.isHashSet d d') (hnone : d.inFlight = []) :
    d'.Phased := by
  rcases h.inFlight with ⟨new, hnew, hkind⟩
  refine phased_of_noBundle fun p hp => ?_
  rw [hnew, hnone, List.nil_append] at hp
  have hhashSet := hkind p hp
  cases hasked : p.asked with
  | hashSet remote => rfl
  | bundlePart number => rw [hasked] at hhashSet; cases hhashSet
  | bundleIndex => rw [hasked] at hhashSet; cases hhashSet
  | file name remote => rfl

theorem Phased.handleResult (h : d.Phased) (hd : d.Recorded) (hq : q ∈ d.inFlight)
    (hstep : ClientMediaDownloader.handleResult env d q.requestId result = some (d', thrown)) :
    d'.Phased := by
  cases hasked : q.asked with
  | bundleIndex =>
    rw [handleResult_bundleIndex hd hq hasked] at hstep
    cases hstep
    have hnone := h.without_index hq hasked
    rcases bundleIndex_grows (d.without q) result with hgrows | hgrows
    · refine grows_part hgrows (fun p hp => ?_) (h.bundles q hq (by rw [hasked]; rfl)).2
      rw [hnone] at hp
      exact absurd hp List.not_mem_nil
    · exact grows_hashSet hgrows hnone
  | bundlePart number =>
    rw [handleResult_bundlePart hd hq hasked] at hstep
    have heq : (bundlePartReceived env (d.without q) result).1 = d' :=
      congrArg Prod.fst (Option.some.inj hstep)
    have hparts := h.without_part hq hasked
    subst heq
    rcases hd.bundlePart_grows hq hasked with hgrows | ⟨hgrows, hnoPart⟩
    · exact grows_part hgrows hparts (h.bundles q hq (by rw [hasked]; rfl)).2
    · refine grows_hashSet hgrows (List.eq_nil_iff_forall_not_mem.2 fun p hp => ?_)
      have hpart := hparts p hp
      rw [hnoPart p hp] at hpart
      cases hpart
  | hashSet remote =>
    rw [handleResult_hashSet hd hq hasked] at hstep
    rcases Option.map_eq_some_iff.1 hstep with ⟨d₁, hd₁, heq⟩
    cases heq
    have hnoBundle := h.noBundle hq (by rw [hasked]; rfl)
    have hlisting : Listing (d.without q) _ _ _ := remoteHashSetReceived_listing hd.sorted hd₁
    refine phased_of_noBundle fun p hp => hnoBundle p ?_
    rw [hlisting.inFlight] at hp
    exact List.mem_of_mem_filter hp
  | file name remote =>
    rw [handleResult_file hd hq hasked] at hstep
    have hnoBundle := h.noBundle hq (by rw [hasked]; rfl)
    have hends := (hd.remoteFileReceived_ends hq hasked hstep).2
    refine phased_of_noBundle fun p hp => hnoBundle p ?_
    rw [hends.inFlight] at hp
    exact List.mem_of_mem_filter hp

theorem Phased.tryRemoteServer (h : d.Phased) (hstep : d.tryRemoteServer name = some d') :
    d'.Phased := by
  rcases tryRemoteServer_cases d name with ⟨heq, -⟩ | ⟨-, -, remote, hremote, available, heq, -⟩
  · rw [heq] at hstep
    cases hstep
    exact h
  · rw [heq] at hstep
    cases hstep
    refine phased_of_noBundle fun p hp => ?_
    rcases List.mem_append.1 hp with hp | hp
    · -- a file that can be had from a server: the bundles are over
      by_contra hbundle
      have hnone := (h.bundles p hp (Bool.not_eq_false _ ▸ hbundle)).2 name
      rw [hnone] at hremote
      exact absurd hremote List.not_mem_nil
    · rw [List.mem_singleton.1 hp]
      rfl

theorem Phased.startConventionalTransfers (h : d.Phased)
    (hstep : d.startConventionalTransfers = some d') : d'.Phased := by
  rw [ClientMediaDownloader.startConventionalTransfers] at hstep
  split at hstep
  · cases hstep
  · split at hstep
    · dsimp only at hstep
      split at hstep
      · cases hstep
      · cases hstep
        exact h.congr rfl fun _ => rfl
    · cases hstep
      exact h

theorem Phased.finishStep (h : d.Phased) (hstep : d.finishStep = some d') : d'.Phased := by
  rw [ClientMediaDownloader.finishStep, startRemoteMediaTransfers] at hstep
  split at hstep
  · cases hstep
  · rename_i d₁ hloop
    have hd₁ : d₁.Phased := by
      refine startLoop_induction (fun d d' name hd _ htry => hd.tryRemoteServer htry) ?_ h hloop
      exact fun d name hd => hd.congr rfl fun _ => rfl
    split at hstep
    · exact hd₁.startConventionalTransfers hstep
    · cases hstep
      exact hd₁

/-- A file that comes over the game protocol is marked, or there is nothing to mark. -/
theorem conventionalTransferDone_cases {data : Bytes}
    (h : d.conventionalTransferDone name data = some (d', thrown)) :
    d' = d ∨ name ∈ d.files ∧ d' = d.markReceived name data.length := by
  rw [conventionalTransferDone] at h
  split at h
  · cases h
    exact .inl rfl
  · rename_i hname
    split at h
    · cases h
      exact .inl rfl
    · split at h
      · cases h
      · cases h
        exact .inr ⟨not_not.1 hname, rfl⟩

theorem Begun.phased {cached : Bytes → Bool} {announced : List Bytes}
    (h : Begun cached announced d) : d.Phased := by
  rcases h.underWay with hnone | ⟨q, hq, hasked, -⟩
  · refine phased_of_noBundle ?_
    rw [hnone]
    exact fun q hq => absurd hq List.not_mem_nil
  · constructor
    · intro p hp _
      rw [hq] at hp
      rw [hq, List.mem_singleton.1 hp]
    · refine fun _ _ _ => ⟨fun p hp => ?_, h.availableRemotes⟩
      rw [hq] at hp
      rw [List.mem_singleton.1 hp, hasked]
      rfl

end

end ClientMediaDownloader

end Media
end AxisEngine
