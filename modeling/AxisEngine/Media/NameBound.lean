import AxisEngine.Media.Assertions

/-!
# NameBound — the files that the search for a server skips

The search for a server skips the files up to `m_name_bound`.  For these nothing can change any more:
a hash set that comes later is not looked up for them.  So the bound must not pass a file that is
missing while a part of the bundle is under way, since the hash sets are asked for behind the last
part.

* `Listed`, `Tried` — what the answers so far say about a file and a server;
* `Bound` — nothing can change for the files up to the bound;
* `startLoop_bound`, `startLoop_idle` — the search moves the bound past such files only, and when
  nothing is under way behind it, it has found nothing to ask for;
* `Offers` — a server that lists a missing file is left, or is being asked, or was tried;
* `Bound.handleResult`, `Offers.handleResult` — the answers keep both.
-/

namespace AxisEngine
namespace Media

open Lib Util

namespace Asked

def isFile : Asked → Bool
  | .file _ _ => true
  | _ => false

end Asked

/-- The hash set of the server came and lists the checksum. -/
def Listed (answers : List Answer) (sha1 : Bytes) (remote : Nat) : Prop :=
  ∃ a ∈ answers, a.request.asked = .hashSet remote ∧ sha1 ∈ ClientMediaDownloader.offered a.result

/-- The file was asked for from the server, and the answer was of no use. -/
def Tried (answers : List Answer) (name sha1 : Bytes) (remote : Nat) : Prop :=
  ∃ a ∈ answers, a.request.asked = .file name remote ∧
    (a.result.succeeded && ClientMediaDownloader.checkAndLoad a.env name sha1 a.result.data) = false

instance (answers : List Answer) (sha1 : Bytes) (remote : Nat) :
    Decidable (Listed answers sha1 remote) :=
  inferInstanceAs (Decidable (∃ a ∈ answers, a.request.asked = .hashSet remote ∧
    sha1 ∈ ClientMediaDownloader.offered a.result))

instance (answers : List Answer) (name sha1 : Bytes) (remote : Nat) :
    Decidable (Tried answers name sha1 remote) :=
  inferInstanceAs (Decidable (∃ a ∈ answers, a.request.asked = .file name remote ∧
    (a.result.succeeded && ClientMediaDownloader.checkAndLoad a.env name sha1 a.result.data) =
      false))

namespace ClientMediaDownloader

/-! ## The bound -/

/-- For the files up to the bound that are missing nothing can change: they are not under way, there
is no server left for them, and nothing but files is under way. -/
def Bound (d : ClientMediaDownloader) : Prop :=
  ∀ name ∈ d.files, nameKey name ≤ nameKey d.nameBound → (d.status name).received = false →
    (d.status name).currentRemote = none ∧ (d.status name).availableRemotes = [] ∧
      ∀ q ∈ d.inFlight, q.asked.isFile = true

section

variable {d d' : ClientMediaDownloader} {env : Env} {name : Bytes} {q : HTTPFetchRequest}
variable {result : HTTPFetchResult}

theorem mem_upperBound_or (h : name ∈ d.files) :
    name ∈ d.upperBound ∨ nameKey name ≤ nameKey d.nameBound :=
  mem_dropWhile_or h

theorem status_started (d : ClientMediaDownloader) (name : Bytes) (remote : Nat)
    (available : List Nat) (name' : Bytes) :
    ((d.setStatus name { d.status name with availableRemotes := available }).startTransfer name
        remote).status name' =
      if name' = name then
        { d.status name with availableRemotes := available, currentRemote := some remote }
      else d.status name' := by
  split
  · rename_i heq
    subst heq
    exact (status_setStatus_self _ _ _).trans (congrArg
      (fun f : FileStatus => { f with currentRemote := some remote }) (status_setStatus_self d _ _))
  · rename_i hne
    exact (status_setStatus_of_ne _ _ hne).trans (status_setStatus_of_ne _ _ hne)

/-- A file that is tried is beyond the bound, or nothing is done. -/
theorem Bound.tryRemoteServer (h : d.Bound) (hname : name ∈ d.files)
    (hstep : d.tryRemoteServer name = some d') : d'.Bound := by
  rcases tryRemoteServer_cases d name with
    ⟨heq, -⟩ | ⟨hmissing, -, remote, hremote, available, heq, -⟩
  · rw [heq] at hstep
    cases hstep
    exact h
  · rw [heq] at hstep
    cases hstep
    intro name' hname' hle hmissing'
    have hne : name' ≠ name := by
      rintro rfl
      rw [(h name' hname hle hmissing).2.1] at hremote
      exact absurd hremote List.not_mem_nil
    rw [status_started, if_neg hne] at hmissing' ⊢
    rcases h name' hname' hle hmissing' with ⟨hcurrent, havailable, hfiles⟩
    refine ⟨hcurrent, havailable, fun p hp => ?_⟩
    rcases List.mem_append.1 hp with hp | hp
    · exact hfiles p hp
    · rw [List.mem_singleton.1 hp]
      rfl

theorem tryRemoteServer_keeps (h : d.tryRemoteServer name = some d') :
    d'.files = d.files ∧ d'.nameBound = d.nameBound ∧
      (∀ q ∈ d'.inFlight, q ∈ d.inFlight ∨ q.asked.isFile = true) ∧
      ((d'.status name).received = true ∨ (d'.status name).currentRemote ≠ none ∨
        (d'.status name).availableRemotes = []) := by
  rcases tryRemoteServer_cases d name with ⟨heq, hidle⟩ | ⟨-, -, remote, -, available, heq, -⟩
  · rw [heq] at h
    cases h
    exact ⟨rfl, rfl, fun q hq => .inl hq, hidle⟩
  · rw [heq] at h
    cases h
    refine ⟨rfl, rfl, fun q hq => ?_, .inr (.inl ?_)⟩
    · rcases List.mem_append.1 hq with hq | hq
      · exact .inl hq
      · rw [List.mem_singleton.1 hq]
        exact .inr rfl
    · rw [status_started, if_pos rfl]
      exact Option.some_ne_none _

theorem Recorded.not_isHashSet (h : d.Recorded) (hnone : d.outstandingHashSets = 0) :
    ∀ q ∈ d.inFlight, q.asked.isHashSet = false := by
  intro q hq
  by_contra hhashSet
  have hentry : ∃ r, q.hashSetEntry = some r := by
    rw [HTTPFetchRequest.hashSetEntry]
    cases hasked : q.asked with
    | hashSet remote => exact ⟨_, rfl⟩
    | bundlePart number => exact absurd (by rw [hasked]; rfl) hhashSet
    | bundleIndex => exact absurd (by rw [hasked]; rfl) hhashSet
    | file name remote => exact absurd (by rw [hasked]; rfl) hhashSet
  rcases hentry with ⟨r, hr⟩
  have hmem : r ∈ d.hashsetRequests := by
    rw [h.hashSets]
    exact List.mem_filterMap.2 ⟨q, hq, hr⟩
  have hlength := List.length_pos_of_mem hmem
  have heq := h.outstandingHashSets
  omega

/-- No file that is missing waits for a bundle. -/
def BundlesOver (d : ClientMediaDownloader) : Prop :=
  d.missing = [] ∨ ∀ q ∈ d.inFlight, q.asked.isBundle = false

theorem BundlesOver.tryRemoteServer (h : d.BundlesOver) (hstep : d.tryRemoteServer name = some d') :
    d'.BundlesOver := by
  rcases h with h | h
  · left
    have hmarks := sameMarks_tryRemoteServer hstep
    rw [missing, hmarks.files]
    simp only [hmarks.received]
    exact h
  · right
    intro q hq
    rcases (tryRemoteServer_keeps hstep).2.2.1 q hq with hq | hfile
    · exact h q hq
    · cases hasked : q.asked with
      | file name remote => rfl
      | hashSet remote => rfl
      | bundlePart number => rw [hasked] at hfile; cases hfile
      | bundleIndex => rw [hasked] at hfile; cases hfile

variable {remote : Nat} {sha1 : Bytes} {kind : Asked → Bool} {thrown : Bool} {changing : Bool}
  {names : List Bytes} {answers : List Answer}

/-- The bound may pass a file that has been looked at and is concluded. -/
theorem Bound.pass (h : d.Bound) (hd : d.Recorded) (hover : d.BundlesOver)
    (hrest : d.upperBound = name :: names) (hconcluded : d.concluded name = true)
    (hidle : (d.status name).received = true ∨ (d.status name).currentRemote ≠ none ∨
      (d.status name).availableRemotes = []) : Bound { d with nameBound := name } := by
  intro name' hname' hle hmissing
  change (d.status name').received = false at hmissing
  rcases d.mem_upperBound_or hname' with hbeyond | hbefore
  · -- of the files beyond the old bound only the first one is not beyond the new one
    have heq : name' = name := by
      rw [hrest] at hbeyond
      have hsorted : StrictSorted nameKey (name :: names) :=
        hrest ▸ hd.sorted.sublist (List.dropWhile_sublist _)
      rcases List.mem_cons.1 hbeyond with heq | htail
      · exact heq
      · exact absurd hle (not_le.2 (hsorted.head_lt htail))
    subst heq
    rw [concluded, hmissing, Bool.false_or, Bool.and_eq_true, decide_eq_true_eq,
      decide_eq_true_eq] at hconcluded
    refine ⟨hconcluded.1, ?_, fun q hq => ?_⟩
    · rcases hidle with hreceived | hcurrent | hnone
      · rw [hmissing] at hreceived
        cases hreceived
      · exact absurd hconcluded.1 hcurrent
      · exact hnone
    · have hhashSet := hd.not_isHashSet hconcluded.2 q hq
      have hbundle : q.asked.isBundle = false := by
        rcases hover with hnone | hover
        · have hmem : name' ∈ d.missing := List.mem_filter.2 ⟨hname', by rw [hmissing]; rfl⟩
          rw [hnone] at hmem
          exact absurd hmem List.not_mem_nil
        · exact hover q hq
      cases hasked : q.asked with
      | file name remote => rfl
      | hashSet remote => rw [hasked] at hhashSet; cases hhashSet
      | bundlePart number => rw [hasked] at hbundle; cases hbundle
      | bundleIndex => rw [hasked] at hbundle; cases hbundle
  · exact h name' hname' hbefore hmissing

theorem startLoop_bound (hd : d.Recorded) (hbound : d.Bound) (hover : d.BundlesOver)
    (hnames : ∀ name ∈ names, name ∈ d.files) (hrest : changing = true → d.upperBound = names)
    (h : startLoop names changing d = some d') : d'.Bound := by
  induction names generalizing changing d with
  | nil =>
    cases h
    exact hbound
  | cons name names ih =>
    rw [List.forall_mem_cons] at hnames
    rw [startLoop] at h
    split at h
    · cases h
      exact hbound
    · split at h
      · cases h
      · rename_i d₁ htry
        rcases tryRemoteServer_keeps htry with ⟨hfiles, hnameBound, -, hidle⟩
        have hd₁ := (hd.tryRemoteServer hnames.1 htry).1
        have hbound₁ := hbound.tryRemoteServer hnames.1 htry
        have hover₁ := hover.tryRemoteServer htry
        have hnames₁ : ∀ name ∈ names, name ∈ d₁.files := hfiles ▸ hnames.2
        have hrest₁ : changing = true → d₁.upperBound = name :: names := by
          rw [upperBound, hfiles, hnameBound]
          exact hrest
        split at h
        · rename_i hconcluded
          split at h
          · rename_i hchanging
            have hpassed := hbound₁.pass hd₁ hover₁ (hrest₁ hchanging) hconcluded hidle
            have hnext : upperBound { d₁ with nameBound := name } = names :=
              hd₁.sorted.dropWhile_next (hrest₁ hchanging)
            have hpassedRecorded : Recorded { d₁ with nameBound := name } :=
              hd₁.of_same { SameRequests.refl d₁ with }
            exact ih hpassedRecorded hpassed hover₁ hnames₁ (fun _ => hnext) h
          · rename_i hunchanging
            exact ih hd₁ hbound₁ hover₁ hnames₁ (fun hchanging => absurd hchanging hunchanging) h
        · exact ih hd₁ hbound₁ hover₁ hnames₁ (fun hfalse => absurd hfalse Bool.false_ne_true) h

/-! ## A search that finds nothing -/

theorem startLoop_active_le (h : startLoop names changing d = some d') :
    d.httpfetchActive ≤ d'.httpfetchActive := by
  refine startLoop_induction (P := fun d' => d.httpfetchActive ≤ d'.httpfetchActive) ?_ ?_ le_rfl h
  · intro d₁ d₂ name hle _ htry
    rcases tryRemoteServer_cases d₁ name with ⟨heq, -⟩ | ⟨-, -, remote, -, available, heq, -⟩
    · rw [heq] at htry
      cases htry
      exact hle
    · rw [heq] at htry
      cases htry
      change d.httpfetchActive ≤ d₁.httpfetchActive + 1
      omega
  · exact fun d₁ name hle => hle

/-- When nothing is under way behind the search, nothing could be asked for. -/
theorem startLoop_idle (hnonneg : 0 ≤ d.httpfetchActive) (hlimit : 0 < d.httpfetchActiveLimit)
    (h : startLoop names changing d = some d') (hactive : d'.httpfetchActive = 0) :
    d'.status = d.status ∧ ∀ name ∈ names, (d.status name).received = true ∨
      (d.status name).currentRemote ≠ none ∨ (d.status name).availableRemotes = [] := by
  induction names generalizing changing d with
  | nil =>
    cases h
    exact ⟨rfl, fun name hname => absurd hname List.not_mem_nil⟩
  | cons name names ih =>
    have hle := startLoop_active_le h
    rw [startLoop, if_neg (by omega)] at h
    rcases tryRemoteServer_cases d name with ⟨heq, hidle⟩ | ⟨-, -, remote, -, available, heq, -⟩
    · rw [heq] at h
      dsimp only at h
      rw [List.forall_mem_cons]
      split at h
      · split at h
        · have hrest := @ih { d with nameBound := name } _ hnonneg hlimit h
          exact ⟨hrest.1, hidle, hrest.2⟩
        · have hrest := ih hnonneg hlimit h
          exact ⟨hrest.1, hidle, hrest.2⟩
      · have hrest := ih hnonneg hlimit h
        exact ⟨hrest.1, hidle, hrest.2⟩
    · -- a transfer that was started would still be under way
      rw [heq] at h
      dsimp only at h
      have hstarted : d.httpfetchActive + 1 ≤ d'.httpfetchActive := by
        split at h
        · split at h
          · exact startLoop_active_le h
          · exact startLoop_active_le h
        · exact startLoop_active_le h
      omega

/-! ## What the answers say -/

/-- Of a file that is missing: whichever server lists it is left, or is being asked, or was tried. -/
def Offers (answers : List Answer) (d : ClientMediaDownloader) : Prop :=
  ∀ name ∈ d.files, (d.status name).received = false → ∀ remote,
    Listed answers (d.status name).sha1 remote → remote ∈ (d.status name).availableRemotes ∨
      (d.status name).currentRemote = some remote ∨
      Tried answers name (d.status name).sha1 remote

theorem Offers.tryRemoteServer (h : d.Offers answers) (hstep : d.tryRemoteServer name = some d') :
    d'.Offers answers := by
  rcases tryRemoteServer_cases d name with
    ⟨heq, -⟩ | ⟨hmissing, hnone, remote, -, available, heq, hall⟩
  · rw [heq] at hstep
    cases hstep
    exact h
  · rw [heq] at hstep
    cases hstep
    intro name' hname' hmissing' remote' hlisted
    rw [status_started] at hmissing' hlisted ⊢
    by_cases hne : name' = name
    · subst hne
      rw [if_pos rfl] at hlisted ⊢
      rcases h name' hname' hmissing remote' hlisted with hleft | hcurrent | htried
      · rcases hall remote' hleft with rfl | hleft
        · exact .inr (.inl rfl)
        · exact .inl hleft
      · rw [hnone] at hcurrent
        cases hcurrent
      · exact .inr (.inr htried)
    · rw [if_neg hne] at hmissing' hlisted ⊢
      exact h name' hname' hmissing' remote' hlisted

/-! ## An answer -/

theorem listed_append {a : Answer} :
    Listed (answers ++ [a]) sha1 remote ↔
      Listed answers sha1 remote ∨ a.request.asked = .hashSet remote ∧ sha1 ∈ offered a.result := by
  simp [Listed, or_and_right, exists_or]

theorem Tried.append (h : Tried answers name sha1 remote) (a : Answer) :
    Tried (answers ++ [a]) name sha1 remote := by
  rcases h with ⟨b, hb, htried⟩
  exact ⟨b, List.mem_append_left _ hb, htried⟩

/-- What does not touch servers keeps what the answers say, as long as no hash set came. -/
theorem Offers.grows {a : Answer} (h : d.Offers answers) (hgrows : Grows kind d d')
    (hother : ∀ remote, a.request.asked ≠ .hashSet remote) : d'.Offers (answers ++ [a]) := by
  intro name hname hmissing remote hlisted
  rw [hgrows.files] at hname
  rw [hgrows.sha1] at hlisted ⊢
  rw [hgrows.availableRemotes, hgrows.currentRemote]
  have hmissing' : (d.status name).received = false := by
    by_contra hreceived
    rw [hgrows.received name (Bool.not_eq_false _ ▸ hreceived)] at hmissing
    cases hmissing
  rcases listed_append.1 hlisted with hlisted | ⟨hasked, -⟩
  · exact (h name hname hmissing' remote hlisted).imp_right (Or.imp_right (Tried.append · a))
  · exact absurd hasked (hother remote)

theorem Offers.handleResult (h : d.Offers answers) (hbound : d.Bound) (hd : d.Recorded)
    (hq : q ∈ d.inFlight)
    (hstep : ClientMediaDownloader.handleResult env d q.requestId result = some (d', thrown)) :
    d'.Offers (answers ++ [{ request := q, result := result, env := env }]) := by
  have hwithout : (d.without q).Offers answers := h
  cases hasked : q.asked with
  | bundleIndex =>
    have hother : ∀ remote, q.asked ≠ .hashSet remote := by simp [hasked]
    rw [handleResult_bundleIndex hd hq hasked] at hstep
    cases hstep
    rcases bundleIndex_grows (d.without q) result with hgrows | hgrows
    · exact hwithout.grows hgrows hother
    · exact hwithout.grows hgrows hother
  | bundlePart number =>
    have hother : ∀ remote, q.asked ≠ .hashSet remote := by simp [hasked]
    rw [handleResult_bundlePart hd hq hasked] at hstep
    have heq : (bundlePartReceived env (d.without q) result).1 = d' :=
      congrArg Prod.fst (Option.some.inj hstep)
    subst heq
    rcases hd.bundlePart_grows hq hasked with hgrows | ⟨hgrows, -⟩
    · exact hwithout.grows hgrows hother
    · exact hwithout.grows hgrows hother
  | hashSet remote =>
    rw [handleResult_hashSet hd hq hasked] at hstep
    rcases Option.map_eq_some_iff.1 hstep with ⟨d₁, hd₁, heq⟩
    cases heq
    have hlisting : Listing (d.without q) (offered result) remote d' :=
      remoteHashSetReceived_listing hd.sorted hd₁
    intro name hname hmissing remote' hlisted
    rw [hlisting.files] at hname
    have hsha1 : (d'.status name).sha1 = (d.status name).sha1 :=
      (sameMarks_remoteHashSetReceived hd₁).sha1 name
    have hmissing' : (d.status name).received = false :=
      ((sameMarks_remoteHashSetReceived hd₁).received name).symm.trans hmissing
    -- up to the bound there would be no hash set under way
    have hbeyond : name ∈ (d.without q).upperBound := by
      rcases (d.without q).mem_upperBound_or hname with hbeyond | hbefore
      · exact hbeyond
      · have hfile := (hbound name hname hbefore hmissing').2.2 q hq
        rw [hasked] at hfile
        cases hfile
    have hstatus : d'.status name = addAvailable (offered result) remote (d.status name) :=
      (hlisting.status name).trans (if_pos hbeyond)
    rw [hsha1] at hlisted ⊢
    rcases listed_append.1 hlisted with hlisted | ⟨heq, hmem⟩
    · rcases h name hname hmissing' remote' hlisted with hleft | hcurrent | htried
      · left
        rw [hstatus, addAvailable]
        split
        · exact List.mem_append_left _ hleft
        · exact hleft
      · right; left
        rw [hstatus, addAvailable]
        split
        · exact hcurrent
        · exact hcurrent
      · exact .inr (.inr (Tried.append htried _))
    · left
      have hremote : remote' = remote := by
        rw [hasked] at heq
        cases heq
        rfl
      have hlists : (!(d.status name).received) = true ∧ (d.status name).sha1 ∈ offered result :=
        ⟨by rw [hmissing']; rfl, hmem⟩
      rw [hstatus, addAvailable, if_pos hlists, hremote]
      exact List.mem_append_right _ (List.mem_singleton_self _)
  | file name remote =>
    rw [handleResult_file hd hq hasked] at hstep
    rcases hd.remoteFileReceived_ends hq hasked hstep with ⟨hmissing, hends⟩
    intro name' hname' hmissing' remote' hlisted
    rw [hends.files] at hname'
    rw [hends.status] at hmissing' hlisted ⊢
    by_cases hne : name' = name
    · subst hne
      rw [if_pos rfl] at hmissing' hlisted ⊢
      rcases listed_append.1 hlisted with hlisted | ⟨heq, -⟩
      · rcases h name' hname' hmissing remote' hlisted with hleft | hcurrent | htried
        · exact .inl hleft
        · -- the server that was being asked is the one of this answer
          rcases (hd.current name' hname' remote').1 hcurrent with ⟨p, hp, hfile⟩
          rw [hd.once p hp q hq name' remote' remote hfile hasked] at hfile
          exact .inr (.inr ⟨_, List.mem_append_right _ (List.mem_singleton_self _), hfile,
            hmissing'⟩)
        · exact .inr (.inr (Tried.append htried _))
      · rw [hasked] at heq
        cases heq
    · rw [if_neg hne] at hmissing' hlisted ⊢
      rcases listed_append.1 hlisted with hlisted | ⟨heq, -⟩
      · exact (h name' hname' hmissing' remote' hlisted).imp_right
          (Or.imp_right (Tried.append · _))
      · rw [hasked] at heq
        cases heq

/-- What no answer changes. -/
structure Keeps (d : ClientMediaDownloader) (q : HTTPFetchRequest) (d' : ClientMediaDownloader) :
    Prop where
  files : d'.files = d.files
  nameBound : d'.nameBound = d.nameBound
  requestedMedia : d'.requestedMedia = d.requestedMedia
  httpfetchActiveLimit : d'.httpfetchActiveLimit = d.httpfetchActiveLimit
  received : ∀ name, (d.status name).received = true → (d'.status name).received = true
  index : ∀ p ∈ d'.inFlight, p.asked = .bundleIndex → p ∈ (d.without q).inFlight

theorem Grows.keeps (h : Grows kind (d.without q) d') (hkind : kind .bundleIndex = false) :
    Keeps d q d' := by
  refine ⟨h.files, h.nameBound, h.requestedMedia, h.httpfetchActiveLimit, h.received,
    fun p hp hasked => ?_⟩
  rcases h.inFlight with ⟨new, hnew, hall⟩
  rw [hnew, List.mem_append] at hp
  rcases hp with hp | hp
  · exact hp
  · have htrue := hall p hp
    rw [hasked, hkind] at htrue
    cases htrue

theorem Recorded.handleResult_keeps (hd : d.Recorded) (hq : q ∈ d.inFlight)
    (hstep : ClientMediaDownloader.handleResult env d q.requestId result = some (d', thrown)) :
    Keeps d q d' := by
  cases hasked : q.asked with
  | bundleIndex =>
    rw [handleResult_bundleIndex hd hq hasked] at hstep
    cases hstep
    rcases bundleIndex_grows (d.without q) result with hgrows | hgrows
    · exact hgrows.keeps rfl
    · exact hgrows.keeps rfl
  | bundlePart number =>
    rw [handleResult_bundlePart hd hq hasked] at hstep
    have heq : (ClientMediaDownloader.bundlePartReceived env (d.without q) result).1 = d' :=
      congrArg Prod.fst (Option.some.inj hstep)
    subst heq
    rcases hd.bundlePart_grows hq hasked with hgrows | ⟨hgrows, -⟩
    · exact hgrows.keeps rfl
    · exact hgrows.keeps rfl
  | hashSet remote =>
    rw [handleResult_hashSet hd hq hasked] at hstep
    rcases Option.map_eq_some_iff.1 hstep with ⟨d₁, hd₁, heq⟩
    cases heq
    have hlisting : Listing (d.without q) _ _ _ := remoteHashSetReceived_listing hd.sorted hd₁
    have hreceived := (sameMarks_remoteHashSetReceived hd₁).received
    exact ⟨hlisting.files, hlisting.nameBound, hlisting.requestedMedia,
      hlisting.httpfetchActiveLimit, fun name h => (hreceived name).trans h,
      fun p hp _ => hlisting.inFlight ▸ hp⟩
  | file name remote =>
    rw [handleResult_file hd hq hasked] at hstep
    rcases hd.remoteFileReceived_ends hq hasked hstep with ⟨hmissing, hends⟩
    refine ⟨hends.files, hends.nameBound, hends.requestedMedia, hends.httpfetchActiveLimit,
      fun name' hreceived => ?_, fun p hp _ => hends.inFlight ▸ hp⟩
    have hne : name' ≠ name := by
      rintro rfl
      rw [hreceived] at hmissing
      cases hmissing
    rw [hends.status, if_neg hne]
    exact hreceived

theorem Bound.handleResult (h : d.Bound) (hd : d.Recorded) (hq : q ∈ d.inFlight)
    (hstep : ClientMediaDownloader.handleResult env d q.requestId result = some (d', thrown)) :
    d'.Bound := by
  have hkeeps := hd.handleResult_keeps hq hstep
  intro name hname hle hmissing
  rw [hkeeps.files] at hname
  rw [hkeeps.nameBound] at hle
  have hmissing' : (d.status name).received = false := by
    by_contra hreceived
    rw [hkeeps.received name (Bool.not_eq_false _ ▸ hreceived)] at hmissing
    cases hmissing
  rcases h name hname hle hmissing' with ⟨hcurrent, havailable, hfiles⟩
  -- only an answer for a file can come
  have hfile := hfiles q hq
  cases hasked : q.asked with
  | file name' remote =>
    rw [handleResult_file hd hq hasked] at hstep
    have hends := (hd.remoteFileReceived_ends hq hasked hstep).2
    have hne : name ≠ name' := by
      rintro rfl
      rw [(hd.current name hname remote).2 ⟨q, hq, hasked⟩] at hcurrent
      cases hcurrent
    rw [hends.status, if_neg hne]
    refine ⟨hcurrent, havailable, fun p hp => hfiles p ?_⟩
    rw [hends.inFlight] at hp
    exact List.mem_of_mem_filter hp
  | bundleIndex => rw [hasked] at hfile; cases hfile
  | bundlePart number => rw [hasked] at hfile; cases hfile
  | hashSet remote => rw [hasked] at hfile; cases hfile

/-! ## The rest of a step -/

/-- What the search leaves: the bound is right, and everything that is offered is taken note of. -/
theorem startRemoteMediaTransfers_bound (hd : d.Recorded) (hbound : d.Bound)
    (hoffers : d.Offers answers) (hover : d.BundlesOver) (h : d.startRemoteMediaTransfers = some d') :
    d'.Recorded ∧ d'.Bound ∧ d'.Offers answers := by
  refine ⟨hd.startLoop (fun name => mem_of_mem_upperBound) h,
    startLoop_bound hd hbound hover (fun name => mem_of_mem_upperBound) (fun _ => rfl) h, ?_⟩
  exact startLoop_induction (fun d d' name hd _ htry => hd.tryRemoteServer htry)
    (fun d name hd => hd) hoffers h

theorem startRemoteMediaTransfers_keeps (h : d.startRemoteMediaTransfers = some d') :
    d'.requestedMedia = d.requestedMedia ∧ d'.httpfetchActiveLimit = d.httpfetchActiveLimit := by
  refine startLoop_induction (P := fun d' => d'.requestedMedia = d.requestedMedia ∧
    d'.httpfetchActiveLimit = d.httpfetchActiveLimit) ?_ (fun _ _ hd => hd) ⟨rfl, rfl⟩ h
  intro d₁ d₂ name hd₁ _ htry
  rcases tryRemoteServer_cases d₁ name with ⟨heq, -⟩ | ⟨-, -, remote, -, available, heq, -⟩
  · rw [heq] at htry
    cases htry
    exact hd₁
  · rw [heq] at htry
    cases htry
    exact hd₁

/-- A file that is missing when nothing is under way behind the search was tried wherever it is
listed. -/
theorem tried_of_missing (hd : d.Recorded) (hbound : d.Bound) (hoffers : d'.Offers answers)
    (hd' : d'.Recorded) (hlimit : 0 < d.httpfetchActiveLimit)
    (h : d.startRemoteMediaTransfers = some d') (hactive : d'.httpfetchActive = 0)
    (hname : name ∈ d'.missing) {remote : Nat}
    (hlisted : Listed answers (d'.status name).sha1 remote) :
    Tried answers name (d'.status name).sha1 remote := by
  have hnonneg : 0 ≤ d.httpfetchActive := by
    rw [hd.active]
    exact Int.natCast_nonneg _
  have hnone : d'.inFlight = [] := by
    have hlength := hd'.active
    rw [hactive] at hlength
    exact List.length_eq_zero_iff.1 (by omega)
  rcases startLoop_idle hnonneg hlimit h hactive with ⟨hstatus, hidle⟩
  rcases List.mem_filter.1 hname with ⟨hmem, hmissing⟩
  have hfalse : (d'.status name).received = false := by simpa using hmissing
  have hcurrent : (d'.status name).currentRemote = none := by
    by_contra hsome
    rcases Option.ne_none_iff_exists'.1 hsome with ⟨remote', hremote'⟩
    rcases (hd'.current name hmem remote').1 hremote' with ⟨q, hq, -⟩
    rw [hnone] at hq
    exact absurd hq List.not_mem_nil
  have havailable : (d'.status name).availableRemotes = [] := by
    rw [hstatus] at hfalse hcurrent ⊢
    rw [(sameMarks_startLoop h).files] at hmem
    rcases d.mem_upperBound_or hmem with hbeyond | hbefore
    · rcases hidle name hbeyond with hreceived | hsome | hnil
      · rw [hfalse] at hreceived
        cases hreceived
      · exact absurd hcurrent hsome
      · exact hnil
    · exact (hbound name hmem hbefore hfalse).2.1
  rcases hoffers name hmem hfalse remote hlisted with hleft | hsome | htried
  · rw [havailable] at hleft
    exact absurd hleft List.not_mem_nil
  · rw [hcurrent] at hsome
    cases hsome
  · exact htried

end

end ClientMediaDownloader

end Media
end AxisEngine
