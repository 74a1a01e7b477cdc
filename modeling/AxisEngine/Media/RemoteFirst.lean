import AxisEngine.Media.NameBound

/-!
# RemoteFirst — the media servers come before the game protocol

A file is asked for over the game protocol when every server that lists it has failed to give it, as
long as the search for servers waits for the bundles.

* `NoSearchInBundles` — the search waits;
* `RemoteFirst` — what then holds all along, kept by an answer, the end of a step and a file;
* `remote_first` — what is asked for over the game protocol was tried everywhere else;
* `bound_passes` — a hash set that comes too late.
-/

namespace AxisEngine
namespace Media

open Lib Util ClientMediaDownloader

/-- `step` does not get to the search for servers while a part of the bundle is outstanding and a
file is missing. -/
def NoSearchInBundles (x : Downloading) : Event → Prop
  | .finish => x.downloader.outstandingBundles = 0 ∨ x.downloader.missing = []
  | _ => True

instance (x : Downloading) (e : Event) : Decidable (NoSearchInBundles x e) :=
  match e with
  | .answer _ _ _ => inferInstanceAs (Decidable True)
  | .finish => inferInstanceAs (Decidable (x.downloader.outstandingBundles = 0 ∨
      x.downloader.missing = []))
  | .media _ _ => inferInstanceAs (Decidable True)

/-- What holds all along when the search waits for the bundles. -/
structure RemoteFirst (x : Downloading) : Prop where
  recorded : x.downloader.Recorded
  phased : x.downloader.Phased
  bound : x.downloader.Bound
  offers : x.downloader.Offers x.answers
  index : ∀ q ∈ x.downloader.inFlight, q.asked = .bundleIndex → x.fetchedSomething = false
  limit : x.fetchedSomething = true ∨ x.downloader.inFlight ≠ [] →
    0 < x.downloader.httpfetchActiveLimit
  done : x.downloader.requestedMedia ≠ [] → x.downloader.inFlight = [] ∧ x.fetchedSomething = false
  requested : ∀ names ∈ x.downloader.requestedMedia, ∀ name ∈ names, ∀ remote,
    Listed x.answers (x.downloader.status name).sha1 remote →
      Tried x.answers name (x.downloader.status name).sha1 remote

section

variable {x y : Downloading} {e : Event} {s t : State}

variable {thrown : Bool} {q : HTTPFetchRequest} {d : ClientMediaDownloader}

/-- The answers for a request under way: this one. -/
theorem ClientMediaDownloader.Recorded.filter_requestId (h : d.Recorded) (hq : q ∈ d.inFlight) :
    (d.inFlight.filter fun p => p.requestId = q.requestId) = [q] := by
  have hperm := (h.perm_cons hq).filter fun p => decide (p.requestId = q.requestId)
  rw [List.filter_cons_of_pos (by simp), List.filter_filter] at hperm
  have hnone : d.inFlight.filter (fun p => decide (p.requestId = q.requestId) &&
      decide (p.requestId ≠ q.requestId)) = [] := by
    refine List.filter_eq_nil_iff.2 fun p _ => ?_
    simp
  rw [hnone] at hperm
  exact List.perm_singleton.1 hperm

theorem RemoteFirst.answer {env : Env} {result : HTTPFetchResult} (h : RemoteFirst x)
    (hq : q ∈ x.downloader.inFlight)
    (hstep : x.downloader.handleResult env q.requestId result = some (d, thrown)) :
    RemoteFirst
      { downloader := d
        fetchedSomething := !thrown
        answers := x.answers ++ [{ request := q, result := result, env := env }] } := by
  have hkeeps := h.recorded.handleResult_keeps hq hstep
  have hunasked : x.downloader.requestedMedia = [] := by
    by_contra hne
    rw [(h.done hne).1] at hq
    exact absurd hq List.not_mem_nil
  have hunasked' : d.requestedMedia = [] := hkeeps.requestedMedia.trans hunasked
  refine
    { recorded := h.recorded.handleResult hq hstep
      phased := h.phased.handleResult h.recorded hq hstep
      bound := h.bound.handleResult h.recorded hq hstep
      offers := h.offers.handleResult h.bound h.recorded hq hstep
      index := fun p hp hasked => ?_
      limit := fun _ => ?_
      done := fun hne => absurd hunasked' hne
      requested := fun names hnames => ?_ }
  · -- the index was under way alone
    have hmem := List.mem_filter.1 (hkeeps.index p hp hasked)
    have halone := h.phased.index p hmem.1 hasked
    rw [halone, List.mem_singleton] at hq
    subst hq
    exact absurd rfl (of_decide_eq_true hmem.2)
  · change 0 < d.httpfetchActiveLimit
    rw [hkeeps.httpfetchActiveLimit]
    exact h.limit (.inr (List.ne_nil_of_mem hq))
  · change names ∈ d.requestedMedia at hnames
    rw [hunasked'] at hnames
    exact absurd hnames List.not_mem_nil

theorem RemoteFirst.finish (h : RemoteFirst x) (hguard : NoSearchInBundles x .finish)
    (hfetched : x.fetchedSomething = true) (hstep : x.downloader.finishStep = some d) :
    RemoteFirst { x with downloader := d, fetchedSomething := false } := by
  have hover : x.downloader.BundlesOver := by
    rcases hguard with hnone | hmissing
    · refine .inr fun q hq => ?_
      have hpart := h.recorded.not_isPart (by rw [hnone]; exact lt_irrefl 0) q hq
      cases hasked : q.asked with
      | bundleIndex =>
        have hfalse := h.index q hq hasked
        rw [hfetched] at hfalse
        cases hfalse
      | bundlePart number => rw [hasked] at hpart; cases hpart
      | hashSet remote => rfl
      | file name remote => rfl
    · exact .inl hmissing
  have hlimit := h.limit (.inl hfetched)
  have hunasked : x.downloader.requestedMedia = [] := by
    by_contra hne
    rw [(h.done hne).2] at hfetched
    cases hfetched
  have hphased := h.phased.finishStep hstep
  rw [finishStep] at hstep
  split at hstep
  · cases hstep
  · rename_i d₁ hsearch
    rcases startRemoteMediaTransfers_bound h.recorded h.bound h.offers hover hsearch
      with ⟨hrecorded₁, hbound₁, hoffers₁⟩
    rcases startRemoteMediaTransfers_keeps hsearch with ⟨hrequested, hactiveLimit⟩
    have hrequested₁ : d₁.requestedMedia = [] := hrequested.trans hunasked
    have hlimit₁ : 0 < d₁.httpfetchActiveLimit := hactiveLimit ▸ hlimit
    -- the search alone
    have hsearched : d₁.Phased → RemoteFirst
        { downloader := d₁, fetchedSomething := false, answers := x.answers } := fun hphased₁ =>
      { recorded := hrecorded₁
        phased := hphased₁
        bound := hbound₁
        offers := hoffers₁
        index := fun _ _ _ => rfl
        limit := fun _ => hlimit₁
        done := fun hne => absurd hrequested₁ hne
        requested := fun names hnames => absurd (hrequested₁ ▸ hnames) List.not_mem_nil }
    split at hstep
    · rcases startConventionalTransfers_cases hstep with ⟨hactive, rfl | rfl⟩
      · exact hsearched hphased
      · have hnone : d₁.inFlight = [] := by
          have hlength := hrecorded₁.active
          rw [hactive] at hlength
          exact List.length_eq_zero_iff.1 (by omega)
        refine
          { recorded := hrecorded₁.of_same { SameRequests.refl d₁ with }
            phased := hphased
            bound := hbound₁
            offers := hoffers₁
            index := fun _ _ _ => rfl
            limit := fun _ => hlimit₁
            done := fun _ => ⟨hnone, rfl⟩
            requested := fun names hnames name hname remote hlisted => ?_ }
        change names ∈ d₁.requestedMedia ++ [d₁.missing] at hnames
        rw [hrequested₁, List.nil_append, List.mem_singleton] at hnames
        subst hnames
        exact tried_of_missing h.recorded h.bound hoffers₁ hrecorded₁ hlimit hsearch hactive hname
          hlisted
    · cases hstep
      exact hsearched hphased

theorem RemoteFirst.media {name data : Bytes} (h : RemoteFirst x)
    (hstep : x.downloader.conventionalTransferDone name data = some (d, thrown)) :
    RemoteFirst { x with downloader := d } := by
  rcases conventionalTransferDone_cases hstep with rfl | ⟨-, rfl⟩
  · exact h
  · have hgrows := grows_markReceived Asked.isPart x.downloader name data.length
    have hmissing : ∀ name', ((x.downloader.markReceived name data.length).status name').received =
        false → (x.downloader.status name').received = false := by
      intro name' hfalse
      by_contra hreceived
      rw [hgrows.received name' (Bool.not_eq_false _ ▸ hreceived)] at hfalse
      cases hfalse
    refine
      { recorded := h.recorded.of_same (sameRequests_markReceived _ _ _)
        phased := h.phased.congr rfl hgrows.availableRemotes
        bound := fun name' hname' hle hfalse => ?_
        offers := fun name' hname' hfalse remote hlisted => ?_
        index := h.index
        limit := h.limit
        done := h.done
        requested := fun names hnames name' hname' remote hlisted => ?_ }
    · rw [hgrows.currentRemote, hgrows.availableRemotes]
      exact h.bound name' hname' hle (hmissing name' hfalse)
    · rw [hgrows.sha1] at hlisted ⊢
      rw [hgrows.currentRemote, hgrows.availableRemotes]
      exact h.offers name' hname' (hmissing name' hfalse) remote hlisted
    · change Listed x.answers ((x.downloader.markReceived name data.length).status name').sha1 remote
        at hlisted
      change Tried x.answers name' ((x.downloader.markReceived name data.length).status name').sha1
        remote
      rw [hgrows.sha1] at hlisted ⊢
      exact h.requested names hnames name' hname' remote hlisted

/-- What holds in the states that are reached. -/
def Ordered : State → Prop
  | .running x => RemoteFirst x
  | .aborted => True

theorem Ordered.step (h : Ordered s) (hguard : When NoSearchInBundles s e) (hstep : Step s e t) :
    Ordered t := by
  cases hstep with
  | abort _ _ => trivial
  | @run x y e henabled hrun =>
    have hx : RemoteFirst x := h
    cases e with
    | answer env requestId result =>
      rcases henabled.1 with ⟨q, hq, rfl⟩
      rcases Option.map_eq_some_iff.1 hrun with ⟨⟨d, thrown⟩, hd, rfl⟩
      have hy := hx.answer hq hd
      rw [Ordered, hx.recorded.filter_requestId hq]
      exact hy
    | finish =>
      rcases Option.map_eq_some_iff.1 hrun with ⟨d, hd, rfl⟩
      exact hx.finish hguard henabled hd
    | media name data =>
      rcases Option.map_eq_some_iff.1 hrun with ⟨⟨d, thrown⟩, hd, rfl⟩
      exact hx.media hd

theorem ClientMediaDownloader.Begun.remoteFirst {cached : Bytes → Bool} {announced : List Bytes}
    (h : Begun cached announced d) :
    RemoteFirst { downloader := d, fetchedSomething := false, answers := [] } := by
  have hunlisted : ∀ sha1 remote, ¬ Listed [] sha1 remote := by
    rintro sha1 remote ⟨a, ha, -⟩
    exact absurd ha List.not_mem_nil
  refine
    { recorded := h.recorded
      phased := h.phased
      bound := fun name hname hle _ => absurd ?_ (h.named name hname)
      offers := fun name _ _ remote hlisted => absurd hlisted (hunlisted _ remote)
      index := fun _ _ _ => rfl
      limit := fun hbusy => ?_
      done := fun hne => ⟨?_, rfl⟩
      requested := fun _ _ _ _ remote hlisted => absurd hlisted (hunlisted _ remote) }
  · -- before the first file there is no bound
    rw [h.nameBound] at hle
    cases name with
    | nil => rfl
    | cons c name => exact absurd hle (not_le.2 (List.nil_lt_cons _ _))
  · rcases h.underWay with hnone | ⟨q, -, -, -, hlimit⟩
    · rcases hbusy with hfalse | hsome
      · cases hfalse
      · exact absurd hnone hsome
    · exact lt_of_lt_of_le (by decide) hlimit
  · rcases h.underWay with hnone | ⟨q, -, -, hrequested, -⟩
    · exact hnone
    · exact absurd hrequested hne

end

/-- When the search for servers waits for the bundles, what is asked for over the game protocol was
asked for from every server whose hash set came and lists it, and did not come from there. -/
theorem remote_first {env : Env} {cache : Bytes → Option Bytes} {curlParallelLimit : Int}
    {files : List (Bytes × Bytes)} {remotes : List Bytes} {es : List Event} {x : Downloading}
    (h : Run.Guarded (When NoSearchInBundles) Step
      (begin env cache curlParallelLimit files remotes) es (.running x)) :
    ∀ names ∈ x.downloader.requestedMedia, ∀ name ∈ names, ∀ remote,
      Listed x.answers (x.downloader.status name).sha1 remote →
        Tried x.answers name (x.downloader.status name).sha1 remote := by
  have hend : Ordered (.running x) := by
    refine Run.guarded_invariant (fun s e t hs hguard hstep => hs.step hguard hstep) h ?_
    rcases begin_running env cache curlParallelLimit files remotes with ⟨d, hbegin, hd⟩
    rw [hbegin]
    exact hd.remoteFirst
  exact hend.requested

/-! ## A hash set that comes too late -/

/-- The hash set of a server that has the one file. -/
def hashSetOfOne : HTTPFetchResult :=
  { succeeded := true
    data := writeU32 hashSetSignature ++ writeU16 1 ++ List.replicate 20 7 }

theorem remote_first_one : ∃ x, Run.Guarded (When NoSearchInBundles) Step oneFileMissing
      [.answer plainEnv 0 failed, .answer plainEnv 1 hashSetOfOne, .finish,
        .answer plainEnv 2 failed, .finish] (.running x) ∧
    x.downloader.requestedMedia = [[ascii "a.png"]] ∧
    Tried x.answers (ascii "a.png") (x.downloader.status (ascii "a.png")).sha1 0 := by
  have hrun : Run.Guarded (When NoSearchInBundles) Step oneFileMissing
      [.answer plainEnv 0 failed, .answer plainEnv 1 hashSetOfOne, .finish,
        .answer plainEnv 2 failed, .finish] (.running _) :=
    State.guarded_of_run (Option.some_get (by decide)).symm
  exact ⟨_, hrun, by decide, remote_first hrun [ascii "a.png"] (by decide) _ (by decide) 0
    (by decide)⟩

/-- The index of the bundle, a search, a part that fails: the hash set is of no use any more, and the
file is asked for over the game protocol although no server was asked for it. -/
theorem bound_passes : ∃ x, Run Step oneFileMissing
      [.answer plainEnv 0 (bundleIndex 1), .finish, .answer plainEnv 1 failed, .finish,
        .answer plainEnv 2 hashSetOfOne, .finish] (.running x) ∧
    x.downloader.requestedMedia = [[ascii "a.png"]] ∧
    Listed x.answers (x.downloader.status (ascii "a.png")).sha1 0 ∧
    ¬ Tried x.answers (ascii "a.png") (x.downloader.status (ascii "a.png")).sha1 0 := by
  have hrun : Run.Guarded (When fun _ _ => True) Step oneFileMissing
      [.answer plainEnv 0 (bundleIndex 1), .finish, .answer plainEnv 1 failed, .finish,
        .answer plainEnv 2 hashSetOfOne, .finish] (.running _) :=
    State.guarded_of_run (Option.some_get (by decide)).symm
  exact ⟨_, Run.of_guarded hrun, by decide, by decide, by decide⟩

end Media
end AxisEngine
