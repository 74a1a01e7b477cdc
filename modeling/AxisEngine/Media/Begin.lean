import AxisEngine.Media.Counting

/-!
# Begin — the announcement and the first step

What the downloader is like when the first answer or packet can come.

* `Announced` — the files and servers that the announcement gives;
* `Begun` — what the first step leaves: nothing has been asked for, or the index of the bundle;
* `begin_running` — the first step fails no assertion.
-/

namespace AxisEngine
namespace Media

open Lib Util

namespace ClientMediaDownloader

/-- Nothing but files and servers is there. -/
structure Announced (d : ClientMediaDownloader) : Prop where
  sorted : StrictSorted nameKey d.files
  named : ∀ name ∈ d.files, name ≠ []
  received : ∀ name, (d.status name).received = false
  currentRemote : ∀ name, (d.status name).currentRemote = none
  availableRemotes : ∀ name, (d.status name).availableRemotes = []
  activeCount : ∀ remote, d.activeCount remote = 0
  rest : d = { initial with
    files := d.files
    status := d.status
    remotes := d.remotes
    activeCount := d.activeCount }

section

variable {d d' : ClientMediaDownloader} {env : Env} {name : Bytes}

theorem nameKey_injective {name name' : Bytes} (h : nameKey name = nameKey name') : name = name' :=
  List.map_injective_iff.2 (fun _ _ => UInt8.toNat_inj.1) h

theorem announced_initial : initial.Announced where
  sorted := strictSorted_nil
  named := fun _ hname => absurd hname List.not_mem_nil
  received := fun _ => rfl
  currentRemote := fun _ => rfl
  availableRemotes := fun _ => rfl
  activeCount := fun _ => rfl
  rest := rfl

/-- What all files have in common, the new one has too. -/
theorem forall_setStatus {α : Type} (field : FileStatus → α) {a : α} {f : FileStatus}
    (hall : ∀ name, field (d.status name) = a) (hnew : field f = a) :
    ∀ name', field ((d.setStatus name f).status name') = a := by
  intro name'
  rw [status_setStatus]
  split
  · exact hnew
  · exact hall name'

theorem Announced.addFile (h : d.Announced) (name sha1 : Bytes) : (d.addFile name sha1).Announced := by
  rw [ClientMediaDownloader.addFile]
  split
  · exact h
  · rename_i hnew
    split
    · exact h
    · rename_i hallowed
      split
      · exact h
      · split
        · exact h
        · split
          · exact h
          · refine ⟨?_, ?_, forall_setStatus FileStatus.received h.received rfl,
              forall_setStatus FileStatus.currentRemote h.currentRemote rfl,
              forall_setStatus FileStatus.availableRemotes h.availableRemotes rfl, h.activeCount, ?_⟩
            · refine h.sorted.insertAt fun name' hname' hkey => hnew ?_
              exact nameKey_injective hkey ▸ hname'
            · intro name' hname'
              rcases mem_insertAt.1 hname' with rfl | hname'
              · exact fun hnil => hallowed (.inl hnil)
              · exact h.named name' hname'
            · rw [h.rest]
              rfl

theorem Announced.addRemoteServer (h : d.Announced) (baseurl : Bytes) :
    (d.addRemoteServer baseurl).Announced := by
  refine ⟨h.sorted, h.named, h.received, h.currentRemote, h.availableRemotes, ?_, ?_⟩
  · intro remote
    change Function.update d.activeCount d.remotes.length 0 remote = 0
    rw [Function.update_apply]
    split
    · rfl
    · exact h.activeCount remote
  · rw [h.rest]
    rfl

theorem Announced.recorded (h : d.Announced) : d.Recorded := by
  have hrest := h.rest
  have hinFlight : d.inFlight = [] := by rw [hrest]; rfl
  refine
    { sorted := h.sorted
      fresh := by rw [hinFlight]; exact fun q hq => absurd hq List.not_mem_nil
      ids := by rw [hinFlight]; exact List.nodup_nil
      active := by rw [hrest]; rfl
      index := by rw [hrest]; rfl
      parts := by rw [hrest]; rfl
      hashSets := by rw [hrest]; rfl
      transfers := by rw [hrest]; rfl
      outstandingHashSets := by rw [hrest]; rfl
      outstandingBundles := by rw [hrest]; rfl
      remotes := by rw [hinFlight]; exact fun q hq => absurd hq List.not_mem_nil
      names := by rw [hinFlight]; exact fun q hq => absurd hq List.not_mem_nil
      once := by rw [hinFlight]; exact fun q hq => absurd hq List.not_mem_nil
      current := fun name hname remote => ?_
      activeCount := fun remote => ?_ }
  · rw [h.currentRemote, hinFlight]
    simp
  · rw [h.activeCount]
    have hnone : d.files.countP (fun name =>
        decide ((d.status name).currentRemote = some remote)) = 0 := by
      refine List.countP_eq_zero.2 fun name _ => ?_
      rw [h.currentRemote]
      simp
    rw [hnone]
    rfl

/-! ## The cache -/

/-- What the loop over the cache leaves of `d`, when it has gone through the files in `l`. -/
structure CacheChecked (cached : Bytes → Bool) (l : List Bytes) (d d' : ClientMediaDownloader) :
    Prop where
  same : SameRequests d d'
  received : ∀ name, (d'.status name).received =
    ((d.status name).received || (decide (name ∈ l) && cached name))
  sha1 : ∀ name, (d'.status name).sha1 = (d.status name).sha1
  availableRemotes : ∀ name, (d'.status name).availableRemotes = (d.status name).availableRemotes
  uncachedCount : d'.uncachedCount = d.uncachedCount - l.countP cached
  uncachedReceivedCount : d'.uncachedReceivedCount = d.uncachedReceivedCount
  nameBound : d'.nameBound = d.nameBound
  requestedMedia : d'.requestedMedia = d.requestedMedia
  initialStepDone : d'.initialStepDone = d.initialStepDone

variable {cached : Bytes → Bool} {cache : Bytes → Option Bytes}

theorem checkCache_of_cached (h : tryLoadFromCache env cache name (d.status name).sha1 = true) :
    checkCache env cache d name =
      { d.setStatus name { d.status name with received := true } with
        uncachedCount := d.uncachedCount - 1 } := by
  rw [checkCache, if_pos h]
  rfl

theorem checkCache_of_uncached (h : tryLoadFromCache env cache name (d.status name).sha1 = false) :
    checkCache env cache d name = d := by
  rw [checkCache, if_neg (Bool.not_eq_true _ ▸ h)]

theorem cacheChecked_foldl (l : List Bytes)
    (hcached : ∀ name, tryLoadFromCache env cache name (d.status name).sha1 = cached name) :
    CacheChecked cached l d (l.foldl (checkCache env cache) d) := by
  induction l generalizing d with
  | nil => exact ⟨.refl d, by simp, fun _ => rfl, fun _ => rfl, by simp, rfl, rfl, rfl, rfl⟩
  | cons name l ih =>
    rw [List.foldl_cons]
    cases hname : cached name with
    | false =>
      rw [checkCache_of_uncached ((hcached name).trans hname)]
      have hd := ih hcached
      refine { hd with received := fun name' => ?_, uncachedCount := ?_ }
      · rw [hd.received]
        by_cases hne : name' = name
        · subst hne
          simp [hname]
        · simp [hne]
      · rw [hd.uncachedCount, List.countP_cons_of_neg (by rw [hname]; exact Bool.false_ne_true)]
    | true =>
      rw [checkCache_of_cached ((hcached name).trans hname)]
      -- only the mark changes
      have hstatus : SameRequests d (d.setStatus name { d.status name with received := true }) :=
        sameRequests_setStatus rfl
      have hsame : SameRequests d
          { d.setStatus name { d.status name with received := true } with
            uncachedCount := d.uncachedCount - 1 } := { hstatus with }
      have hsha1 : ∀ name', ((d.setStatus name { d.status name with
          received := true }).status name').sha1 = (d.status name').sha1 := by
        intro name'
        rw [status_setStatus]
        split
        · rename_i heq
          rw [heq]
        · rfl
      have havailable : ∀ name', ((d.setStatus name { d.status name with
          received := true }).status name').availableRemotes =
            (d.status name').availableRemotes := by
        intro name'
        rw [status_setStatus]
        split
        · rename_i heq
          rw [heq]
        · rfl
      have hd := @ih { d.setStatus name { d.status name with received := true } with
        uncachedCount := d.uncachedCount - 1 } fun name' => by
          change tryLoadFromCache env cache name' ((d.setStatus name _).status name').sha1 = _
          rw [hsha1]
          exact hcached name'
      refine ⟨hsame.trans hd.same, fun name' => ?_,
        fun name' => (hd.sha1 name').trans (hsha1 name'),
        fun name' => (hd.availableRemotes name').trans (havailable name'), ?_,
        hd.uncachedReceivedCount, hd.nameBound, hd.requestedMedia, hd.initialStepDone⟩
      · rw [hd.received]
        change (((d.setStatus name _).status name').received || _) = _
        rw [status_setStatus]
        by_cases hne : name' = name
        · simp [hne, hname]
        · simp [hne]
      · rw [hd.uncachedCount, List.countP_cons_of_pos hname]
        change d.uncachedCount - 1 - _ = _
        omega

/-! ## The first step -/

/-- What the first step leaves: nothing is under way, or the index of the bundle is. -/
structure Begun (cached : Bytes → Bool) (files : List Bytes) (d : ClientMediaDownloader) :
    Prop where
  recorded : d.Recorded
  counts : Counts cached files d
  named : ∀ name ∈ d.files, name ≠ []
  availableRemotes : ∀ name, (d.status name).availableRemotes = []
  nameBound : d.nameBound = []
  underWay : d.inFlight = [] ∨ ∃ q, d.inFlight = [q] ∧ q.asked = .bundleIndex ∧
    d.requestedMedia = [] ∧ 84 ≤ d.httpfetchActiveLimit

theorem Announced.counts (h : d.Announced)
    (hchecked : CacheChecked cached d.files { d with uncachedCount := d.files.length } d') :
    Counts cached d.files { d' with initialStepDone := true } := by
  have hfiles : d'.files = d.files := hchecked.same.files
  have hmarks : ∀ name ∈ d'.files, (d'.status name).received = cached name := by
    intro name hname
    rw [hchecked.received, decide_eq_true (hfiles ▸ hname)]
    change ((d.status name).received || _) = _
    rw [h.received, Bool.false_or, Bool.true_and]
  refine ⟨hfiles, rfl, ?_, ?_, fun name hname hcached => (hmarks name hname).trans hcached⟩
  · have hsplit := List.length_eq_countP_add_countP cached (l := d.files)
    have hnot : d.files.countP (fun name => !cached name) =
        d.files.countP fun name => decide ¬ cached name = true :=
      List.countP_congr fun name _ => by simp
    change d'.uncachedCount = (d'.files.countP fun name => !cached name : Int)
    rw [hchecked.uncachedCount, hfiles, hnot]
    change (d.files.length : Int) - _ = _
    omega
  · have hnone : d'.files.countP (fun name => (d'.status name).received && !cached name) = 0 := by
      refine List.countP_eq_zero.2 fun name hname => ?_
      rw [hmarks name hname, Bool.and_not_self]
      exact Bool.false_ne_true
    have hzero : d.uncachedReceivedCount = 0 := by rw [h.rest]; rfl
    change d'.uncachedReceivedCount =
      (d'.files.countP fun name => (d'.status name).received && !cached name : Int)
    rw [hnone, hchecked.uncachedReceivedCount]
    exact hzero

/-- The first step fails no assertion. -/
theorem Announced.initialStep (h : d.Announced) (env : Env) (cache : Bytes → Option Bytes)
    (curlParallelLimit : Int)
    (hcached : ∀ name, tryLoadFromCache env cache name (d.status name).sha1 = cached name) :
    ∃ d', d.initialStep env cache curlParallelLimit = some d' ∧ Begun cached d.files d' := by
  have hchecked : CacheChecked cached d.files { d with uncachedCount := d.files.length }
      (d.files.foldl (checkCache env cache) { d with uncachedCount := d.files.length }) :=
    cacheChecked_foldl d.files hcached
  have hinFlight : d.inFlight = [] := by rw [h.rest]; rfl
  have hactive : d.httpfetchActive = 0 := by rw [h.rest]; rfl
  have hreceivedCount : d.uncachedReceivedCount = 0 := by rw [h.rest]; rfl
  have hnameBound : d.nameBound = [] := by rw [h.rest]; rfl
  have hrequested : d.requestedMedia = [] := by rw [h.rest]; rfl
  rw [ClientMediaDownloader.initialStep]
  dsimp only
  generalize d.files.foldl (checkCache env cache) { d with uncachedCount := d.files.length } = d₁
    at hchecked
  have hfiles : d₁.files = d.files := hchecked.same.files
  have hsame : SameRequests d d₁ :=
    { hchecked.same with }
  have hrecorded := h.recorded.of_same hsame
  have hcounts := h.counts hchecked
  have hnamed : ∀ name ∈ d₁.files, name ≠ [] := hfiles ▸ h.named
  have havailable : ∀ name, (d₁.status name).availableRemotes = [] := fun name =>
    (hchecked.availableRemotes name).trans (h.availableRemotes name)
  rw [if_neg (not_not.2 (hchecked.uncachedReceivedCount.trans hreceivedCount))]
  split
  · -- nothing can be asked for over HTTP
    have hactive₁ : d₁.httpfetchActive = 0 := hsame.httpfetchActive.trans hactive
    have hinFlight₁ : d₁.inFlight = [] := hsame.inFlight.trans hinFlight
    have hlength : (d₁.missing.length : Int) = d₁.uncachedCount - d₁.uncachedReceivedCount :=
      hcounts.length_missing
    rw [startConventionalTransfers, if_neg (not_not.2 hactive₁)]
    dsimp only
    rw [if_neg (not_not.2 hlength)]
    split
    · refine ⟨_, rfl, ?_⟩
      exact ⟨hrecorded.of_same { SameRequests.refl d₁ with },
        hcounts.of_same { SameMarks.refl { d₁ with initialStepDone := true } with },
        hnamed, havailable, hchecked.nameBound.trans hnameBound, .inl hinFlight₁⟩
    · refine ⟨_, rfl, ?_⟩
      exact ⟨hrecorded.of_same { SameRequests.refl d₁ with },
        hcounts.of_same { SameMarks.refl { d₁ with initialStepDone := true } with },
        hnamed, havailable, hchecked.nameBound.trans hnameBound, .inl hinFlight₁⟩
  · rename_i hask
    have hremotes := (not_or.1 hask).2
    have hlimit : Recorded { d₁ with httpfetchActiveLimit := max curlParallelLimit 84 } :=
      hrecorded.of_same { SameRequests.refl d₁ with }
    have hfetch := hlimit.startBundleFetch
    rw [startBundleFetch, if_neg hremotes] at hfetch
    rw [startBundleFetch, if_neg hremotes]
    refine ⟨_, rfl, ?_⟩
    refine ⟨hfetch.of_same { SameRequests.refl _ with },
      hcounts.of_same { SameMarks.refl { d₁ with initialStepDone := true } with },
      hnamed, havailable, hchecked.nameBound.trans hnameBound, .inr ?_⟩
    change ∃ q, d₁.inFlight ++ _ = [q] ∧ _
    rw [hsame.inFlight, hinFlight]
    exact ⟨_, rfl, rfl, hchecked.requestedMedia.trans hrequested, le_max_right _ _⟩

end

end ClientMediaDownloader

open ClientMediaDownloader

theorem announced_announce (files : List (Bytes × Bytes)) (remotes : List Bytes) :
    (announce files remotes).Announced := by
  have hfiles : (files.foldl (fun d file => d.addFile file.1 file.2) initial).Announced := by
    induction files using List.reverseRecOn with
    | nil => exact announced_initial
    | append_singleton files file ih =>
      rw [List.foldl_append]
      exact ih.addFile file.1 file.2
  rw [announce]
  induction remotes using List.reverseRecOn with
  | nil => exact hfiles
  | append_singleton remotes baseurl ih =>
    rw [List.foldl_append]
    exact ih.addRemoteServer baseurl

/-- Whether the cache had an announced file. -/
def inCache (env : Env) (cache : Bytes → Option Bytes) (files : List (Bytes × Bytes))
    (remotes : List Bytes) (name : Bytes) : Bool :=
  tryLoadFromCache env cache name ((announce files remotes).status name).sha1

/-- The first step comes to its end. -/
theorem begin_running (env : Env) (cache : Bytes → Option Bytes) (curlParallelLimit : Int)
    (files : List (Bytes × Bytes)) (remotes : List Bytes) :
    ∃ d, begin env cache curlParallelLimit files remotes =
        .running { downloader := d, fetchedSomething := false, answers := [] } ∧
      Begun (inCache env cache files remotes) (announce files remotes).files d := by
  rcases (announced_announce files remotes).initialStep env cache curlParallelLimit
    fun _ => rfl with ⟨d, hstep, hbegun⟩
  refine ⟨d, ?_, hbegun⟩
  rw [begin, hstep]

end Media
end AxisEngine
