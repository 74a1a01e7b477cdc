import AxisEngine.Media.Begin

/-!
# Received — the count of the files that have come

After the first step every file that is marked is counted, whether it came in a part of the bundle,
from a media server or over the game protocol.  The one way to count a file twice is a part of the
bundle that holds it twice.

* `Accounted` — what holds all along about the counters;
* `received_counted` — the counters over whole runs;
* `counted_twice` — a part that holds its file twice.
-/

namespace AxisEngine
namespace Media

open Lib Util ClientMediaDownloader

/-- A part of the bundle holds nothing that would be taken for one missing file twice. -/
def NoFileTwice (x : Downloading) : Event → Prop
  | .answer env requestId result => requestId ∈ x.downloader.bundlePartRequests →
      result.succeeded = true → (accepted env x.downloader result.data).Nodup
  | _ => True

instance (x : Downloading) (e : Event) : Decidable (NoFileTwice x e) :=
  match e with
  | .answer env requestId result => inferInstanceAs (Decidable
      (requestId ∈ x.downloader.bundlePartRequests → result.succeeded = true →
        (accepted env x.downloader result.data).Nodup))
  | .finish => inferInstanceAs (Decidable True)
  | .media _ _ => inferInstanceAs (Decidable True)

section

variable {cached : Bytes → Bool} {announced : List Bytes} {x y : Downloading} {s t : State}
variable {e : Event}

/-- The records and the counters are right. -/
def Accounted (cached : Bytes → Bool) (announced : List Bytes) : State → Prop
  | .running x => x.downloader.Recorded ∧ Counts cached announced x.downloader
  | .aborted => True

theorem Accounted.step (h : Accounted cached announced s) (hguard : When NoFileTwice s e)
    (hstep : Step s e t) : Accounted cached announced t := by
  cases hstep with
  | abort _ _ => trivial
  | @run x y e henabled hstep =>
    rcases h with ⟨hrecorded, hcounts⟩
    cases e with
    | answer env requestId result =>
      rcases henabled.1 with ⟨q, hq, rfl⟩
      rcases Option.map_eq_some_iff.1 hstep with ⟨⟨d, thrown⟩, hd, rfl⟩
      refine ⟨hrecorded.handleResult hq hd, hcounts.handleResult hrecorded hq ?_ hd⟩
      intro number hasked
      have hmem : q.requestId ∈ x.downloader.bundlePartRequests := by
        rw [hrecorded.parts, hrecorded.mem_iff hq key_partEntry, HTTPFetchRequest.partEntry, hasked]
        exact Option.some_ne_none _
      exact hguard hmem
    | finish =>
      rcases Option.map_eq_some_iff.1 hstep with ⟨d, hd, rfl⟩
      exact ⟨hrecorded.finishStep hd, hcounts.of_same (sameMarks_finishStep hd)⟩
    | media name data =>
      rcases Option.map_eq_some_iff.1 hstep with ⟨⟨d, thrown⟩, hd, rfl⟩
      exact ⟨hrecorded.conventionalTransferDone hd,
        hcounts.conventionalTransferDone hrecorded.sorted hd⟩

theorem accounted_begin (env : Env) (cache : Bytes → Option Bytes) (curlParallelLimit : Int)
    (files : List (Bytes × Bytes)) (remotes : List Bytes) :
    Accounted (inCache env cache files remotes) (announce files remotes).files
      (begin env cache curlParallelLimit files remotes) := by
  rcases begin_running env cache curlParallelLimit files remotes with ⟨d, hbegin, hd⟩
  rw [hbegin]
  exact ⟨hd.recorded, hd.counts⟩

end

/-- As long as no part of the bundle brings a file twice, the count is the number of the files that
were not in the cache and have come, and what is missing is what the counters leave. -/
theorem received_counted {env : Env} {cache : Bytes → Option Bytes} {curlParallelLimit : Int}
    {files : List (Bytes × Bytes)} {remotes : List Bytes} {es : List Event} {x : Downloading}
    (h : Run.Guarded (When NoFileTwice) Step (begin env cache curlParallelLimit files remotes) es
      (.running x)) :
    x.downloader.uncachedReceivedCount = (announce files remotes).files.countP (fun name =>
        (x.downloader.status name).received && !inCache env cache files remotes name) ∧
      (x.downloader.isDone = true ↔ ∀ name ∈ (announce files remotes).files,
        (x.downloader.status name).received = true) ∧
      (x.downloader.missing.length : Int) =
        x.downloader.uncachedCount - x.downloader.uncachedReceivedCount := by
  have hend : Accounted (inCache env cache files remotes) (announce files remotes).files
      (.running x) := by
    refine Run.guarded_invariant ?_ h (accounted_begin env cache curlParallelLimit files remotes)
    exact fun s e t hs hguard hstep => hs.step hguard hstep
  refine ⟨?_, hend.2.isDone_iff, hend.2.length_missing⟩
  rw [hend.2.received, hend.2.files]

/-! ## A server that sends a file twice -/

/-- Every content has the checksum that the file below was announced with. -/
def plainEnv : Env :=
  { sha1 := fun _ => List.replicate 20 7, decompressZstd := some, loadMedia := fun _ _ => true }

/-- One file and one media server, and nothing in the cache. -/
def oneFileMissing : State :=
  begin plainEnv (fun _ => none) 8 [(ascii "a.png", List.replicate 20 7)] [ascii "http://a/"]

/-- The index of a bundle in so many parts. -/
def bundleIndex (parts : UInt32) : HTTPFetchResult :=
  { succeeded := true
    data := writeU32 bundleSignature ++ writeU16 bundleVersion ++ writeU32 parts ++ writeU32 0 }

/-- A part that holds the file, which has one byte, so many times. -/
def partWithFile (times : Nat) : HTTPFetchResult :=
  { succeeded := true
    data := writeU32 bundleSignature ++ writeU16 bundleVersion ++ writeU32 0 ++
      (List.replicate times (hexEncode (List.replicate 20 7) ++ writeU32 1 ++ [0])).flatten }

theorem received_counted_once : ∃ x, Run.Guarded (When NoFileTwice) Step oneFileMissing
      [.answer plainEnv 0 (bundleIndex 1), .answer plainEnv 1 (partWithFile 1)] (.running x) ∧
    x.downloader.uncachedReceivedCount = 1 ∧ x.downloader.isDone = true := by
  have hrun : Run.Guarded (When NoFileTwice) Step oneFileMissing
      [.answer plainEnv 0 (bundleIndex 1), .answer plainEnv 1 (partWithFile 1)] (.running _) :=
    State.guarded_of_run (Option.some_get (by decide)).symm
  have hcounted := received_counted hrun
  exact ⟨_, hrun, hcounted.1.trans (by decide), hcounted.2.1.2 (by decide)⟩

/-- A part that holds the file twice: it is counted twice, and the downloader never becomes done. -/
theorem counted_twice : ∃ x, Run Step oneFileMissing
      [.answer plainEnv 0 (bundleIndex 1), .answer plainEnv 1 (partWithFile 2)] (.running x) ∧
    x.downloader.uncachedReceivedCount = 2 ∧ x.downloader.uncachedCount = 1 ∧
    x.downloader.missing = [] ∧ x.downloader.isDone = false := by
  have hrun : Run.Guarded (When fun _ _ => True) Step oneFileMissing
      [.answer plainEnv 0 (bundleIndex 1), .answer plainEnv 1 (partWithFile 2)] (.running _) :=
    State.guarded_of_run (Option.some_get (by decide)).symm
  exact ⟨_, Run.of_guarded hrun, by decide, by decide, by decide, by decide⟩

end Media
end AxisEngine
