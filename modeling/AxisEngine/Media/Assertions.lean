import AxisEngine.Media.Phases

/-!
# Assertions — whether the downloader can be made to abort

The functions that take an answer or a file assert what the tables, the marks and the counters should
say.  They are right about it as long as no file is counted twice and no file comes over the game
protocol while it is on its way from a media server.

* `Awaited` — a file that is under way has not come yet;
* `Sound` — all that the assertions rely on;
* `never_aborted` — no assertion fails;
* `overtaken_aborts` — a file that comes from both sides.
-/

namespace AxisEngine
namespace Media

open Lib Util

namespace ClientMediaDownloader

open HTTPFetchRequest

/-- No file that is under way from a media server is marked. -/
def Awaited (d : ClientMediaDownloader) : Prop :=
  ∀ q ∈ d.inFlight, ∀ name remote, q.asked = .file name remote → (d.status name).received = false

section

variable {kind : Asked → Bool} {d d' : ClientMediaDownloader} {env : Env} {name : Bytes}
variable {q : HTTPFetchRequest} {result : HTTPFetchResult}

theorem awaited_of_noFile (h : ∀ q ∈ d.inFlight, ∀ name remote, q.asked ≠ .file name remote) :
    d.Awaited :=
  fun q hq name remote hasked => absurd hasked (h q hq name remote)

/-- After an answer about the bundle no file is under way. -/
theorem awaited_of_grows (h : Grows kind d d') (hkind : ∀ name remote, kind (.file name remote) = false)
    (hparts : ∀ p ∈ d.inFlight, p.asked.isPart = true) : d'.Awaited := by
  refine awaited_of_noFile fun p hp name remote hasked => ?_
  rcases h.inFlight with ⟨new, hnew, hall⟩
  rw [hnew, List.mem_append] at hp
  rcases hp with hp | hp
  · have hpart := hparts p hp
    rw [hasked] at hpart
    cases hpart
  · have htrue := hall p hp
    rw [hasked, hkind] at htrue
    cases htrue

variable {thrown : Bool} {announced : List Bytes} {cached : Bytes → Bool}

theorem Awaited.handleResult (h : d.Awaited) (hphased : d.Phased) (hd : d.Recorded)
    (hq : q ∈ d.inFlight)
    (hstep : ClientMediaDownloader.handleResult env d q.requestId result = some (d', thrown)) :
    d'.Awaited := by
  cases hasked : q.asked with
  | bundleIndex =>
    rw [handleResult_bundleIndex hd hq hasked] at hstep
    cases hstep
    have hnone := hphased.without_index hq hasked
    have hparts : ∀ p ∈ (d.without q).inFlight, p.asked.isPart = true := by
      rw [hnone]
      exact fun p hp => absurd hp List.not_mem_nil
    rcases bundleIndex_grows (d.without q) result with hgrows | hgrows
    · exact awaited_of_grows hgrows (fun _ _ => rfl) hparts
    · exact awaited_of_grows hgrows (fun _ _ => rfl) hparts
  | bundlePart number =>
    rw [handleResult_bundlePart hd hq hasked] at hstep
    have heq : (bundlePartReceived env (d.without q) result).1 = d' :=
      congrArg Prod.fst (Option.some.inj hstep)
    have hparts := hphased.without_part hq hasked
    subst heq
    rcases hd.bundlePart_grows hq hasked with hgrows | ⟨hgrows, -⟩
    · exact awaited_of_grows hgrows (fun _ _ => rfl) hparts
    · exact awaited_of_grows hgrows (fun _ _ => rfl) hparts
  | hashSet remote =>
    rw [handleResult_hashSet hd hq hasked] at hstep
    rcases Option.map_eq_some_iff.1 hstep with ⟨d₁, hd₁, heq⟩
    cases heq
    have hreceived := (sameMarks_remoteHashSetReceived hd₁).received
    have hlisting : Listing (d.without q) _ _ _ := remoteHashSetReceived_listing hd.sorted hd₁
    intro p hp name remote' hfile
    rw [hlisting.inFlight] at hp
    rw [hreceived]
    exact h p (List.mem_of_mem_filter hp) name remote' hfile
  | file name remote =>
    rw [handleResult_file hd hq hasked] at hstep
    have hends := (hd.remoteFileReceived_ends hq hasked hstep).2
    intro p hp name' remote' hfile
    rw [hends.inFlight] at hp
    have hmem : p ∈ d.inFlight := List.mem_of_mem_filter hp
    have hid : p.requestId ≠ q.requestId := by simpa using (List.mem_filter.1 hp).2
    have hne : name' ≠ name := by
      rintro rfl
      exact hid (congrArg _ (hd.once p hmem q hq name' remote' remote hfile hasked))
    rw [hends.status, if_neg hne]
    exact h p hmem name' remote' hfile

theorem Awaited.tryRemoteServer (h : d.Awaited) (hstep : d.tryRemoteServer name = some d') :
    d'.Awaited := by
  have hreceived := (sameMarks_tryRemoteServer hstep).received
  rcases tryRemoteServer_cases d name with ⟨heq, -⟩ | ⟨hmissing, -, remote, -, available, heq, -⟩
  · rw [heq] at hstep
    cases hstep
    exact h
  · rw [heq] at hstep
    cases hstep
    intro p hp name' remote' hfile
    rw [hreceived]
    rcases List.mem_append.1 hp with hp | hp
    · exact h p hp name' remote' hfile
    · rw [List.mem_singleton.1 hp] at hfile
      cases hfile
      exact hmissing

theorem startConventionalTransfers_cases (h : d.startConventionalTransfers = some d') :
    d.httpfetchActive = 0 ∧
      (d' = d ∨ d' = { d with requestedMedia := d.requestedMedia ++ [d.missing] }) := by
  rw [startConventionalTransfers] at h
  split at h
  · cases h
  · rename_i hactive
    refine ⟨not_not.1 hactive, ?_⟩
    split at h
    · dsimp only at h
      split at h
      · cases h
      · cases h
        exact .inr rfl
    · cases h
      exact .inl rfl

theorem Awaited.finishStep (h : d.Awaited) (hstep : d.finishStep = some d') : d'.Awaited := by
  rw [ClientMediaDownloader.finishStep, startRemoteMediaTransfers] at hstep
  split at hstep
  · cases hstep
  · rename_i d₁ hloop
    have hd₁ : d₁.Awaited := by
      refine startLoop_induction (fun d d' name hd _ htry => hd.tryRemoteServer htry) ?_ h hloop
      exact fun d name hd => hd
    split at hstep
    · rcases (startConventionalTransfers_cases hstep).2 with rfl | rfl
      · exact hd₁
      · exact hd₁
    · cases hstep
      exact hd₁

theorem Awaited.conventionalTransferDone {data : Bytes} (h : d.Awaited) (hd : d.Recorded)
    (hfree : (d.status name).received = true ∨ (d.status name).currentRemote = none)
    (hstep : d.conventionalTransferDone name data = some (d', thrown)) : d'.Awaited := by
  rcases conventionalTransferDone_cases hstep with rfl | ⟨hname, rfl⟩
  · exact h
  · intro p hp name' remote hfile
    have hne : name' ≠ name := by
      rintro rfl
      have hcurrent := (hd.current name' hname remote).2 ⟨p, hp, hfile⟩
      rcases hfree with hreceived | hnone
      · rw [h p hp name' remote hfile] at hreceived
        cases hreceived
      · rw [hcurrent] at hnone
        cases hnone
    rw [show (d.markReceived name data.length).status name' = d.status name' from
      status_setStatus_of_ne _ _ hne]
    exact h p hp name' remote hfile

theorem Begun.awaited (h : Begun cached announced d) : d.Awaited := by
  refine awaited_of_noFile fun p hp name remote hfile => ?_
  rcases h.underWay with hnone | ⟨q, hq, hasked, -⟩
  · rw [hnone] at hp
    exact absurd hp List.not_mem_nil
  · rw [hq] at hp
    rw [List.mem_singleton.1 hp, hasked] at hfile
    cases hfile

/-! ## The assertions -/

theorem exists_handleResult (hd : d.Recorded) (hcounts : Counts cached announced d)
    (hawaited : d.Awaited) (hq : q ∈ d.inFlight) :
    ∃ r, ClientMediaDownloader.handleResult env d q.requestId result = some r := by
  cases hasked : q.asked with
  | bundleIndex => exact ⟨_, handleResult_bundleIndex hd hq hasked⟩
  | bundlePart number => exact ⟨_, handleResult_bundlePart hd hq hasked⟩
  | hashSet remote =>
    have hremote : remote < (d.without q).remotes.length := hd.remotes q hq remote hasked
    rcases exists_remoteHashSetReceived hremote result with ⟨d₁, hd₁⟩
    rw [handleResult_hashSet hd hq hasked, hd₁]
    exact ⟨_, rfl⟩
  | file name remote =>
    have hmissing := hawaited q hq name remote hasked
    have hlt := hcounts.lt_of_missing (hd.names q hq name remote hasked) hmissing
    rw [handleResult_file hd hq hasked, remoteFileReceived_eq hd hq hasked hmissing, if_pos hlt]
    split
    · exact ⟨_, rfl⟩
    · exact ⟨_, rfl⟩

section

variable (hcounts : Counts cached announced d)

include hcounts

theorem exists_startConventionalTransfers (hactive : d.httpfetchActive = 0) :
    ∃ d', d.startConventionalTransfers = some d' := by
  rw [startConventionalTransfers, if_neg (not_not.2 hactive)]
  dsimp only
  rw [if_neg (not_not.2 hcounts.length_missing)]
  split
  · exact ⟨_, rfl⟩
  · exact ⟨_, rfl⟩

theorem exists_finishStep : ∃ d', d.finishStep = some d' := by
  rcases exists_startLoop d.upperBound true d with ⟨d₁, hloop⟩
  have hcounts₁ := hcounts.of_same (sameMarks_startLoop hloop)
  rw [finishStep, startRemoteMediaTransfers, hloop]
  dsimp only
  split
  · rename_i hactive
    exact exists_startConventionalTransfers hcounts₁ hactive
  · exact ⟨d₁, rfl⟩

theorem exists_conventionalTransferDone (name data : Bytes) :
    ∃ r, d.conventionalTransferDone name data = some r := by
  rw [ClientMediaDownloader.conventionalTransferDone]
  split
  · exact ⟨_, rfl⟩
  · rename_i hname
    split
    · exact ⟨_, rfl⟩
    · rename_i hmissing
      rw [if_neg (not_not.2 (hcounts.lt_of_missing (not_not.1 hname) (Bool.not_eq_true _ ▸ hmissing)))]
      exact ⟨_, rfl⟩

end

/-- Every request under way stands in one of the four tables. -/
theorem Recorded.active_eq (h : d.Recorded) :
    d.httpfetchActive = d.bundleRequests.length + d.bundlePartRequests.length +
      d.hashsetRequests.length + d.remoteFileTransfers.length := by
  rw [h.active, h.index, h.parts, h.hashSets, h.transfers]
  generalize d.inFlight = l
  induction l with
  | nil => rfl
  | cons q l ih =>
    rw [List.length_cons, Int.natCast_add, ih]
    cases hasked : q.asked
    all_goals
      simp only [List.filterMap_cons, indexEntry, partEntry, hashSetEntry, fileEntry, hasked,
        List.length_cons]
      omega

end

end ClientMediaDownloader

open ClientMediaDownloader

/-- A file comes over the game protocol only when it is not on its way from a media server, or has
come already. -/
def NotOvertaken (x : Downloading) : Event → Prop
  | .media name _ => (x.downloader.status name).received = true ∨
      (x.downloader.status name).currentRemote = none
  | _ => True

instance (x : Downloading) (e : Event) : Decidable (NotOvertaken x e) :=
  match e with
  | .answer _ _ _ => inferInstanceAs (Decidable True)
  | .finish => inferInstanceAs (Decidable True)
  | .media name _ => inferInstanceAs (Decidable ((x.downloader.status name).received = true ∨
      (x.downloader.status name).currentRemote = none))

section

variable {cached : Bytes → Bool} {announced : List Bytes} {s t : State} {e : Event}

/-- What the assertions rely on. -/
def Sound (cached : Bytes → Bool) (announced : List Bytes) : State → Prop
  | .running x => x.downloader.Recorded ∧ Counts cached announced x.downloader ∧
      x.downloader.Phased ∧ x.downloader.Awaited
  | .aborted => False

theorem Sound.step (h : Sound cached announced s)
    (hguard : When (fun x e => NoFileTwice x e ∧ NotOvertaken x e) s e) (hstep : Step s e t) :
    Sound cached announced t := by
  cases hstep with
  | @abort x e henabled hnone =>
    rcases h with ⟨hrecorded, hcounts, -, hawaited⟩
    cases e with
    | answer env requestId result =>
      rcases henabled.1 with ⟨q, hq, rfl⟩
      rcases exists_handleResult hrecorded hcounts hawaited hq with ⟨r, hr⟩
      rw [Downloading.step, hr] at hnone
      cases hnone
    | finish =>
      rcases exists_finishStep hcounts with ⟨d, hd⟩
      rw [Downloading.step, hd] at hnone
      cases hnone
    | media name data =>
      rcases exists_conventionalTransferDone hcounts name data with ⟨r, hr⟩
      rw [Downloading.step, hr] at hnone
      cases hnone
  | @run x y e henabled hrun =>
    have haccounted : Accounted cached announced (.running x) := ⟨h.1, h.2.1⟩
    have haccounted' := haccounted.step (e := e) hguard.1 (.run henabled hrun)
    rcases h with ⟨hrecorded, -, hphased, hawaited⟩
    refine ⟨haccounted'.1, haccounted'.2, ?_⟩
    cases e with
    | answer env requestId result =>
      rcases henabled.1 with ⟨q, hq, rfl⟩
      rcases Option.map_eq_some_iff.1 hrun with ⟨⟨d, thrown⟩, hd, rfl⟩
      exact ⟨hphased.handleResult hrecorded hq hd, hawaited.handleResult hphased hrecorded hq hd⟩
    | finish =>
      rcases Option.map_eq_some_iff.1 hrun with ⟨d, hd, rfl⟩
      exact ⟨hphased.finishStep hd, hawaited.finishStep hd⟩
    | media name data =>
      rcases Option.map_eq_some_iff.1 hrun with ⟨⟨d, thrown⟩, hd, rfl⟩
      refine ⟨?_, hawaited.conventionalTransferDone hrecorded hguard.2 hd⟩
      rcases conventionalTransferDone_cases hd with rfl | ⟨-, rfl⟩
      · exact hphased
      · have hgrows := grows_markReceived Asked.isPart x.downloader name data.length
        exact hphased.congr rfl hgrows.availableRemotes

end

/-- As long as no part of the bundle brings a file twice and no file overtakes its transfer from a
media server, no assertion fails, and the tables and counts are right. -/
theorem never_aborted {env : Env} {cache : Bytes → Option Bytes} {curlParallelLimit : Int}
    {files : List (Bytes × Bytes)} {remotes : List Bytes} {es : List Event} {s : State}
    (h : Run.Guarded (When fun x e => NoFileTwice x e ∧ NotOvertaken x e) Step
      (begin env cache curlParallelLimit files remotes) es s) :
    ∃ x, s = .running x ∧
      x.downloader.httpfetchActive = x.downloader.bundleRequests.length +
        x.downloader.bundlePartRequests.length + x.downloader.hashsetRequests.length +
          x.downloader.remoteFileTransfers.length ∧
      ∀ remote, x.downloader.activeCount remote = (announce files remotes).files.countP
        fun name => decide ((x.downloader.status name).currentRemote = some remote) := by
  have hend : Sound (inCache env cache files remotes) (announce files remotes).files s := by
    refine Run.guarded_invariant (fun s e t hs hguard hstep => hs.step hguard hstep) h ?_
    rcases begin_running env cache curlParallelLimit files remotes with ⟨d, hbegin, hd⟩
    rw [hbegin]
    exact ⟨hd.recorded, hd.counts, hd.phased, hd.awaited⟩
  cases s with
  | aborted => exact hend.elim
  | running x =>
    refine ⟨x, rfl, hend.1.active_eq, fun remote => ?_⟩
    rw [hend.1.activeCount, hend.2.1.files]

/-! ## A file from both sides -/

/-- Two files and one media server. -/
def twoFilesMissing : State :=
  begin plainEnv (fun _ => none) 8
    [(ascii "a.png", List.replicate 20 7), (ascii "b.png", List.replicate 20 8)] [ascii "http://a/"]

def failed : HTTPFetchResult :=
  { succeeded := false, data := [] }

/-- The hash set of a server that has both files. -/
def hashSetOfBoth : HTTPFetchResult :=
  { succeeded := true
    data := writeU32 hashSetSignature ++ writeU16 1 ++ List.replicate 20 7 ++ List.replicate 20 8 }

theorem never_aborted_two : ∃ x, Run.Guarded
      (When fun x e => NoFileTwice x e ∧ NotOvertaken x e) Step twoFilesMissing
      [.answer plainEnv 0 failed, .answer plainEnv 1 hashSetOfBoth, .finish,
        .answer plainEnv 2 { succeeded := true, data := [] }] (.running x) ∧
    x.downloader.httpfetchActive = 1 ∧ x.downloader.activeCount 0 = 1 := by
  have hrun : Run.Guarded (When fun x e => NoFileTwice x e ∧ NotOvertaken x e) Step twoFilesMissing
      [.answer plainEnv 0 failed, .answer plainEnv 1 hashSetOfBoth, .finish,
        .answer plainEnv 2 { succeeded := true, data := [] }] (.running _) :=
    State.guarded_of_run (Option.some_get (by decide)).symm
  rcases never_aborted hrun with ⟨x, heq, hactive, hcount⟩
  cases heq
  exact ⟨_, hrun, hactive.trans (by decide), (hcount 0).trans (by decide)⟩

/-- A file that comes over the game protocol and then from the media server. -/
theorem overtaken_aborts : Run Step twoFilesMissing
    [.answer plainEnv 0 failed, .answer plainEnv 1 hashSetOfBoth, .finish, .media (ascii "a.png") [],
      .answer plainEnv 2 { succeeded := true, data := [] }] .aborted := by
  have hrun : Run.Guarded (When fun _ _ => True) Step twoFilesMissing
      [.answer plainEnv 0 failed, .answer plainEnv 1 hashSetOfBoth, .finish,
        .media (ascii "a.png") []] (.running _) :=
    State.guarded_of_run (Option.some_get (by decide)).symm
  exact (Run.of_guarded hrun).snoc (.abort (by decide) (Option.isNone_iff_eq_none.1 (by decide)))

end Media
end AxisEngine
