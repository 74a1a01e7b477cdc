import AxisEngine.DynamicMedia.HttpMirror
import AxisEngine.DynamicMedia.Ownership

/-!
# AllOrNothing — what a call that adds media leaves behind

A call that is refused should leave everything as it was, and one that succeeds should not take a
file away from those who join later.

* `TempFile`, `dynamicAddMediaWith` — a call, with what becomes of its temporary file;
* `Untouched`, `StillAnnounced`, `AllOrNothing` — what a call should leave;
* `addFrom_exits` — the ends of a call;
* `LeavesNothing`, `allOrNothing_iff` — when it does.
-/

namespace AxisEngine
namespace DynamicMedia

open Lib Login Media Util

/-- How `writeToTempFile` goes: the file is not created, it is created and cannot be opened, it
cannot be written and is deleted again, or all is well. -/
inductive TempFile
  | notCreated
  | notOpened (path : Bytes)
  | notWritten (path : Bytes)
  | written (path : Bytes)
deriving DecidableEq

/-- What `writeToTempFile` returns. -/
def TempFile.path : TempFile → Option Bytes
  | .written path => some path
  | _ => none

namespace MediaServer

variable {Time : Type} (P : Platform Time)

/-! ## A call -/

variable (s : MediaServer Time) (a : DynamicMediaArgs)

/-- The check at the start of the server. -/
def Admitted : Prop :=
  ¬ (¬ s.env ∧ (a.toPlayer ≠ [] ∨ a.ephemeral))

instance (s : MediaServer Time) (a : DynamicMediaArgs) : Decidable (s.Admitted a) :=
  inferInstanceAs (Decidable (¬ _))

/-- The call gets to `writeToTempFile`: data is written first of all, a copy last. -/
def writesTempFile : Bool :=
  decide (s.Admitted a) && match a.source with
    | .data _ => true
    | .file filepath => a.ephemeral && !s.nameTaken a (resolvedName a filepath) filepath &&
        (s.acceptableFile (resolvedName a filepath) filepath).isSome

/-- A file that cannot be opened stays where it was created. -/
def leaveTempFile (temp : TempFile) (t : MediaServer Time) : MediaServer Time :=
  match temp with
  | .notOpened path => if s.writesTempFile a then t.writeFile path (some []) else t
  | _ => t

def dynamicAddMediaWith (temp : TempFile) : MediaServer Time × Outcome :=
  let called := s.dynamicAddMedia P a temp.path
  (s.leaveTempFile a temp called.1, called.2)

/-- The path of a temporary file is new. -/
def FreshTemp (temp : TempFile) : Prop :=
  ∀ path, temp = .written path ∨ temp = .notOpened path → s.disk path = none

/-! ## What a call should leave -/

def Serves (file : Bytes × Bytes) : Prop :=
  ∃ http, s.mediaHttp = some http ∧ file ∈ http.byHash

structure Untouched (s t : MediaServer Time) : Prop where
  media : t.media = s.media
  pendingDynMedia : t.pendingDynMedia = s.pendingDynMedia
  http : ∀ file, t.Serves file ↔ s.Serves file
  disk : t.disk = s.disk

def StillAnnounced (s t : MediaServer Time) : Prop :=
  ∀ name info, s.media.lookup name = some info → info.noAnnounce = false →
    ∃ info', t.media.lookup name = some info' ∧ info'.noAnnounce = false

/-- A call from `s`, by how it ended. -/
structure AllOrNothing (s : MediaServer Time) (called : MediaServer Time × Outcome) : Prop where
  refused : called.2 = .refused → Untouched s called.1
  added : called.2 = .added → StillAnnounced s called.1

/-- The table of the HTTP server is already the one with the file in it. -/
def ServesAlready (filename filepath filedata : Bytes) : Prop :=
  ∀ http, s.mediaHttp = some http → ∀ file, file ∈ http.byHash ↔
    file ∈ byHash P (s.media.insert filename { path := filepath, sha1Digest := P.sha1 filedata })

/-- What is asked of a call.  `opened`: no temporary file is lost.  `free`: data is not sent under a
name that is taken.  `copied`: a copy that fails has changed nothing at the HTTP server.  `toAll`:
what is announced is not sent again to a single player. -/
structure LeavesNothing (s : MediaServer Time) (a : DynamicMediaArgs) (temp : TempFile) :
    Prop where
  opened : s.writesTempFile a = true → ∀ path, temp ≠ .notOpened path
  free : ∀ content path, a.source = .data content → s.Admitted a → temp = .written path →
    s.nameTaken a a.filename path = false
  copied : ∀ filepath filedata, a.source = .file filepath → a.ephemeral = true → s.Admitted a →
    temp.path = none → s.nameTaken a (resolvedName a filepath) filepath = false →
    s.acceptableFile (resolvedName a filepath) filepath = some filedata →
    s.ServesAlready P (resolvedName a filepath) filepath filedata
  toAll : a.toPlayer ≠ [] → s.Admitted a → ∀ t filename filepath filedata info,
    s.fileOnDisk a temp.path = some (t, filename, filepath) →
    s.nameTaken a filename filepath = false → t.acceptableFile filename filepath = some filedata →
    filename.length ≤ stringMaxLen → s.media.lookup filename = some info → info.noAnnounce = true

/-! ## The ends of a call -/

section

variable {s t : MediaServer Time} {a : DynamicMediaArgs} {filename filepath filedata : Bytes}
  {info : MediaInfo} {temp : Option Bytes}

/-- What becomes of a file that `addMediaFile` does not take. -/
def discard (s : MediaServer Time) (a : DynamicMediaArgs) (filepath : Bytes) : MediaServer Time :=
  match a.source with
  | .data _ => s.writeFile filepath none
  | .file _ => s

/-- The copy of an ephemeral file cannot be made. -/
def CopyFails (a : DynamicMediaArgs) (temp : Option Bytes) : Prop :=
  (∃ path, a.source = .file path) ∧ a.ephemeral = true ∧ temp = none

/-- The state after `addMediaFile` took the file. -/
def withFile (s : MediaServer Time) (filename filepath filedata : Bytes) : MediaServer Time :=
  updateMediaHttp P { s with
    media := s.media.insert filename { path := filepath, sha1Digest := P.sha1 filedata } }

/-- The entry is taken off again, or it is not announced when it is for one player or ephemeral. -/
theorem finishEntry_cases (s : MediaServer Time) (a : DynamicMediaArgs) (filename filedata : Bytes)
    (info : MediaInfo) (temp : Option Bytes) (hinfo : info.noAnnounce = false) :
    (CopyFails a temp ∧ s.finishEntry a filename filedata info temp =
      ({ s with media := s.media.erase filename }, false)) ∨
    ¬ CopyFails a temp ∧ (s.finishEntry a filename filedata info temp).2 = true ∧
      ∃ info', (s.finishEntry a filename filedata info temp).1.media =
          s.media.insert filename info' ∧
        info'.noAnnounce = (a.ephemeral || a.toPlayer ≠ []) := by
  unfold finishEntry CopyFails
  rw [hinfo, Bool.false_or]
  cases hsource : a.source with
  | data content =>
    have hnocopy : ¬ ((∃ path, Source.data content = .file path) ∧ a.ephemeral = true ∧
        temp = none) := by
      rintro ⟨⟨path, hpath⟩, -⟩
      cases hpath
    cases hephemeral : a.ephemeral with
    | true =>
      rw [hephemeral] at hnocopy
      exact .inr ⟨hnocopy, rfl, _, rfl, rfl⟩
    | false =>
      rw [hephemeral] at hnocopy
      exact .inr ⟨hnocopy, rfl, _, rfl, rfl⟩
  | file path =>
    cases hephemeral : a.ephemeral with
    | true =>
      cases temp with
      | none => exact .inl ⟨⟨⟨path, rfl⟩, rfl, rfl⟩, rfl⟩
      | some copy =>
        refine .inr ⟨?_, rfl, _, rfl, rfl⟩
        rintro ⟨-, -, hnone⟩
        cases hnone
    | false =>
      refine .inr ⟨?_, rfl, _, rfl, rfl⟩
      rintro ⟨-, hnot, -⟩
      cases hnot

/-- How a call ends, once its file is on disk. -/
inductive Exit (s : MediaServer Time) (a : DynamicMediaArgs) (filename filepath : Bytes)
    (temp : Option Bytes) : MediaServer Time × Outcome → Prop
  | taken (htaken : s.nameTaken a filename filepath = true) :
      Exit s a filename filepath temp (s, .refused)
  | unacceptable (htaken : s.nameTaken a filename filepath = false)
      (hfile : s.acceptableFile filename filepath = none) :
      Exit s a filename filepath temp (s.discard a filepath, .refused)
  | copyFailed (htaken : s.nameTaken a filename filepath = false) (filedata : Bytes)
      (hfile : s.acceptableFile filename filepath = some filedata) (hcopy : CopyFails a temp) :
      Exit s a filename filepath temp ({ s.withFile P filename filepath filedata with
        media := (s.withFile P filename filepath filedata).media.erase filename }, .refused)
  | threw (htaken : s.nameTaken a filename filepath = false)
      (hlong : stringMaxLen < filename.length) (hcopy : ¬ CopyFails a temp) (t : MediaServer Time) :
      Exit s a filename filepath temp (t, .threw)
  | added (htaken : s.nameTaken a filename filepath = false) (filedata : Bytes)
      (hfile : s.acceptableFile filename filepath = some filedata) (hcopy : ¬ CopyFails a temp)
      (hshort : s.env = true → filename.length ≤ stringMaxLen) (t : MediaServer Time)
      (info : MediaInfo) (hmedia : t.media = s.media.insert filename info)
      (hflag : info.noAnnounce = (a.ephemeral || a.toPlayer ≠ [])) :
      Exit s a filename filepath temp (t, .added)

theorem addFrom_exit (s : MediaServer Time) (a : DynamicMediaArgs) (filename filepath : Bytes)
    (temp : Option Bytes) :
    Exit P s a filename filepath temp (s.addFrom P a filename filepath temp) := by
  rw [addFrom]
  cases htaken : s.nameTaken a filename filepath with
  | true =>
    rw [if_pos rfl]
    exact .taken htaken
  | false =>
    rw [if_neg Bool.false_ne_true, addMediaFile]
    cases hfile : s.acceptableFile filename filepath with
    | none =>
      have hexit : Exit P s a filename filepath temp (s.discard a filepath, .refused) :=
        .unacceptable htaken hfile
      unfold discard at hexit
      dsimp only
      cases hsource : a.source with
      | data content =>
        rw [hsource] at hexit
        exact hexit
      | file path =>
        rw [hsource] at hexit
        exact hexit
    | some filedata =>
      dsimp only
      have hplaced : updateMediaHttp P { s with
            media := s.media.insert filename
              { path := filepath, sha1Digest := P.sha1 filedata } } =
          s.withFile P filename filepath filedata := rfl
      rw [hplaced]
      rcases finishEntry_cases (s.withFile P filename filepath filedata) a filename filedata
        { path := filepath, sha1Digest := P.sha1 filedata } temp rfl with
        ⟨hcopy, hfinished⟩ | ⟨hcopy, hfinished, info, hmedia, hflag⟩
      · rw [hfinished, if_neg Bool.false_ne_true]
        exact .copyFailed htaken filedata hfile hcopy
      · rw [if_pos hfinished]
        split
        · rename_i hlong
          exact .threw htaken hlong.2 hcopy _
        · rename_i hshort
          refine .added htaken filedata hfile hcopy ?_ _ info ?_ hflag
          · intro henv
            by_contra hnot
            exact hshort ⟨henv, Nat.not_le.1 hnot⟩
          · exact hmedia.trans (AList.insert_insert _)

/-! ## What each end leaves -/

/-- An entry that is put down for one player only hides the one that was there. -/
theorem stillAnnounced_iff (htaken : s.nameTaken a filename filepath = false)
    (hmedia : t.media = s.media.insert filename info)
    (hflag : info.noAnnounce = (a.ephemeral || a.toPlayer ≠ [])) :
    StillAnnounced s t ↔ (a.toPlayer ≠ [] → ∀ old, s.media.lookup filename = some old →
      old.noAnnounce = true) := by
  constructor
  · intro hstill hplayer old hold
    by_contra hannounced
    rcases hstill filename old hold (Bool.eq_false_iff.2 hannounced) with ⟨new, hnew, hshown⟩
    rw [hmedia, AList.lookup_insert] at hnew
    cases hnew
    rw [hflag, decide_eq_true hplayer, Bool.or_true] at hshown
    cases hshown
  · intro hall name old hold hshown
    rw [hmedia]
    by_cases hname : name = filename
    · subst hname
      have hephemeral : a.ephemeral = false := by
        refine Bool.eq_false_iff.2 fun hephemeral => ?_
        rw [(not_nameTaken htaken).1 hephemeral] at hold
        cases hold
      have hplayer : a.toPlayer = [] := by
        by_contra hplayer
        rw [hall hplayer old hold] at hshown
        cases hshown
      refine ⟨info, AList.lookup_insert _, ?_⟩
      rw [hflag, hephemeral, hplayer]
      rfl
    · exact ⟨old, (AList.lookup_insert_ne hname).trans hold, hshown⟩

/-- After a copy that failed the file is still served. -/
theorem untouched_copyFailed_iff (s : MediaServer Time) (filepath filedata : Bytes)
    (hnew : s.media.lookup filename = none) :
    Untouched s { s.withFile P filename filepath filedata with
      media := (s.withFile P filename filepath filedata).media.erase filename } ↔
      s.ServesAlready P filename filepath filedata := by
  have hserves : ∀ file, Serves { s.withFile P filename filepath filedata with
      media := (s.withFile P filename filepath filedata).media.erase filename } file ↔
      ∃ http, s.mediaHttp = some http ∧ file ∈ byHash P
        (s.media.insert filename { path := filepath, sha1Digest := P.sha1 filedata }) := by
    intro file
    constructor
    · rintro ⟨http, hhttp, hfile⟩
      rcases Option.map_eq_some_iff.1 hhttp with ⟨http', hhttp', rfl⟩
      exact ⟨http', hhttp', hfile⟩
    · rintro ⟨http, hhttp, hfile⟩
      exact ⟨_, Option.map_eq_some_iff.2 ⟨http, hhttp, rfl⟩, hfile⟩
  constructor
  · intro huntouched http hhttp file
    have hsame := (hserves file).symm.trans (huntouched.http file)
    constructor
    · intro hfile
      rcases hsame.2 ⟨http, hhttp, hfile⟩ with ⟨-, -, hserved⟩
      exact hserved
    · intro hserved
      rcases hsame.1 ⟨http, hhttp, hserved⟩ with ⟨http', hhttp', hfile⟩
      cases hhttp.symm.trans hhttp'
      exact hfile
  · intro halready
    refine ⟨erase_insert_of_new hnew, rfl, fun file => (hserves file).trans ?_, rfl⟩
    constructor
    · rintro ⟨http, hhttp, hserved⟩
      exact ⟨http, hhttp, (halready http hhttp file).2 hserved⟩
    · rintro ⟨http, hhttp, hfile⟩
      exact ⟨http, hhttp, (halready http hhttp file).1 hfile⟩

/-! ## A whole call -/

/-- The state in which a call begins. -/
def useToken (s : MediaServer Time) (a : DynamicMediaArgs) : MediaServer Time :=
  { s with usedTokens := a.token :: s.usedTokens }

theorem dynamicAddMedia_not_admitted (h : ¬ s.Admitted a) :
    s.dynamicAddMedia P a temp = (s.useToken a, .refused) := by
  unfold Admitted at h
  rw [dynamicAddMedia]
  dsimp only
  rw [if_pos (not_not.1 h)]
  rfl

theorem dynamicAddMedia_file (h : s.Admitted a) (hsource : a.source = .file filepath) :
    s.dynamicAddMedia P a temp =
      (s.useToken a).addFrom P a (resolvedName a filepath) filepath temp := by
  rw [dynamicAddMedia]
  dsimp only
  rw [if_neg h, fileOnDisk, hsource]
  rfl

theorem dynamicAddMedia_data_none {content : Bytes} (h : s.Admitted a)
    (hsource : a.source = .data content) :
    s.dynamicAddMedia P a none = (s.useToken a, .refused) := by
  rw [dynamicAddMedia]
  dsimp only
  rw [if_neg h, fileOnDisk, hsource]
  rfl

theorem dynamicAddMedia_data {content path : Bytes} (h : s.Admitted a)
    (hsource : a.source = .data content) :
    s.dynamicAddMedia P a (some path) =
      ((s.useToken a).writeFile path (some content)).addFrom P a a.filename path (some path) := by
  rw [dynamicAddMedia]
  dsimp only
  rw [if_neg h, fileOnDisk, hsource]
  rfl

theorem untouched_useToken (s : MediaServer Time) (a : DynamicMediaArgs) :
    Untouched s (s.useToken a) :=
  ⟨rfl, rfl, fun _ => Iff.rfl, rfl⟩

theorem untouched_useToken_iff : Untouched (s.useToken a) t ↔ Untouched s t :=
  ⟨fun h => ⟨h.media, h.pendingDynMedia, h.http, h.disk⟩,
    fun h => ⟨h.media, h.pendingDynMedia, h.http, h.disk⟩⟩

/-- A call that gets to its temporary file, and gets none, is refused. -/
theorem refused_of_writesTempFile (h : s.writesTempFile a = true) :
    (s.dynamicAddMedia P a none).2 = .refused := by
  unfold writesTempFile at h
  rcases Bool.and_eq_true_iff.1 h with ⟨hadmitted, hwrites⟩
  have hadmitted := of_decide_eq_true hadmitted
  cases hsource : a.source with
  | data content => rw [dynamicAddMedia_data_none P hadmitted hsource]
  | file filepath =>
    rw [hsource] at hwrites
    have hephemeral := (Bool.and_eq_true_iff.1 (Bool.and_eq_true_iff.1 hwrites).1).1
    have hcopy : CopyFails a none := ⟨⟨filepath, hsource⟩, hephemeral, rfl⟩
    rw [dynamicAddMedia_file P hadmitted hsource]
    have hexit := addFrom_exit P (s.useToken a) a (resolvedName a filepath) filepath none
    generalize (s.useToken a).addFrom P a (resolvedName a filepath) filepath none = r at hexit ⊢
    cases hexit with
    | taken => rfl
    | unacceptable => rfl
    | copyFailed => rfl
    | threw _ _ hnot => exact absurd hcopy hnot
    | added _ _ _ hnot => exact absurd hcopy hnot

theorem leaveTempFile_eq {temp : TempFile}
    (h : s.writesTempFile a = true → ∀ path, temp ≠ .notOpened path) (t : MediaServer Time) :
    s.leaveTempFile a temp t = t := by
  unfold leaveTempFile
  split
  · rename_i path
    rw [if_neg fun hwrites => h hwrites path rfl]
  · rfl

/-- A file that could not be opened is left, and nothing came of it. -/
theorem not_allOrNothing_of_notOpened {path : Bytes} (hfresh : s.FreshTemp (.notOpened path))
    (h : s.writesTempFile a = true) :
    ¬ AllOrNothing s (s.dynamicAddMediaWith P a (.notOpened path)) := by
  intro hall
  have hdisk := congrFun (hall.refused (refused_of_writesTempFile P h)).disk path
  rw [hfresh path (.inr rfl)] at hdisk
  have hleft : (s.dynamicAddMediaWith P a (.notOpened path)).1.disk path = some [] := by
    change (if s.writesTempFile a = true then _ else _ : MediaServer Time).disk path = some []
    rw [if_pos h]
    exact Function.update_self _ _ _
  rw [hleft] at hdisk
  cases hdisk

theorem allOrNothing_file {temp : TempFile} (hadmitted : s.Admitted a)
    (hsource : a.source = .file filepath)
    (hopened : s.writesTempFile a = true → ∀ path, temp ≠ .notOpened path) :
    AllOrNothing s (s.dynamicAddMedia P a temp.path) ↔ s.LeavesNothing P a temp := by
  have hondisk : ∀ t name path, s.fileOnDisk a temp.path = some (t, name, path) →
      t = s ∧ name = resolvedName a filepath ∧ path = filepath := by
    intro t name path h
    rw [fileOnDisk, hsource] at h
    cases h
    exact ⟨rfl, rfl, rfl⟩
  have hfound : s.fileOnDisk a temp.path = some (s, resolvedName a filepath, filepath) := by
    rw [fileOnDisk, hsource]
    rfl
  have hnodata : ∀ content, a.source ≠ .data content := by
    intro content h
    rw [hsource] at h
    cases h
  have hpath : ∀ path, a.source = .file path → path = filepath := by
    intro path h
    rw [hsource] at h
    cases h
    rfl
  rw [dynamicAddMedia_file P hadmitted hsource]
  have hexit := addFrom_exit P (s.useToken a) a (resolvedName a filepath) filepath temp.path
  generalize (s.useToken a).addFrom P a (resolvedName a filepath) filepath temp.path = r at hexit ⊢
  cases hexit with
  | taken htaken =>
    have htaken : s.nameTaken a (resolvedName a filepath) filepath = true := htaken
    refine iff_of_true ⟨fun _ => untouched_useToken s a, fun h => by cases h⟩
      ⟨hopened, fun content _ h => absurd h (hnodata content), ?_, ?_⟩
    · intro path filedata h _ _ _ hnot
      rw [hpath path h, htaken] at hnot
      cases hnot
    · intro _ _ t name path filedata info h hnot
      rcases hondisk t name path h with ⟨-, rfl, rfl⟩
      rw [htaken] at hnot
      cases hnot
  | unacceptable htaken hfile =>
    have hfile : s.acceptableFile (resolvedName a filepath) filepath = none := hfile
    refine iff_of_true ⟨fun _ => ?_, fun h => by cases h⟩
      ⟨hopened, fun content _ h => absurd h (hnodata content), ?_, ?_⟩
    · have hdiscard : (s.useToken a).discard a filepath = s.useToken a := by
        rw [discard, hsource]
      rw [hdiscard]
      exact untouched_useToken s a
    · intro path filedata h _ _ _ _ hsome
      rw [hpath path h, hfile] at hsome
      cases hsome
    · intro _ _ t name path filedata info h _ hsome
      rcases hondisk t name path h with ⟨rfl, rfl, rfl⟩
      rw [hfile] at hsome
      cases hsome
  | copyFailed htaken filedata hfile hcopy =>
    have hnew : s.media.lookup (resolvedName a filepath) = none :=
      (not_nameTaken htaken).1 hcopy.2.1
    have huntouched := untouched_useToken_iff.symm.trans
      (untouched_copyFailed_iff P (s.useToken a) filepath filedata hnew)
    constructor
    · intro hall
      refine ⟨hopened, fun content _ h => absurd h (hnodata content), ?_, ?_⟩
      · intro path filedata' h _ _ _ _ hsome
        cases hpath path h
        cases hfile.symm.trans hsome
        exact huntouched.1 (hall.refused rfl)
      · intro _ _ t name path filedata info h _ _ _ hold
        rcases hondisk t name path h with ⟨-, rfl, -⟩
        rw [hnew] at hold
        cases hold
    · intro hnothing
      refine ⟨fun _ => huntouched.2 ?_, fun h => by cases h⟩
      exact hnothing.copied filepath filedata hsource hcopy.2.1 hadmitted hcopy.2.2 htaken hfile
  | threw htaken hlong hcopy =>
    refine iff_of_true ⟨fun h => (by cases h), fun h => by cases h⟩
      ⟨hopened, fun content _ h => absurd h (hnodata content), ?_, ?_⟩
    · intro path filedata h hephemeral _ hnone
      exact absurd ⟨⟨path, h⟩, hephemeral, hnone⟩ hcopy
    · intro _ _ t name path filedata info h _ _ hshort
      rcases hondisk t name path h with ⟨-, rfl, -⟩
      exact absurd hshort (Nat.not_le.2 hlong)
  | added htaken filedata hfile hcopy hshort t info hmedia hflag =>
    have hstill := stillAnnounced_iff (s := s) (t := t) htaken hmedia hflag
    constructor
    · intro hall
      refine ⟨hopened, fun content _ h => absurd h (hnodata content), ?_, ?_⟩
      · intro path filedata h hephemeral _ hnone
        exact absurd ⟨⟨path, h⟩, hephemeral, hnone⟩ hcopy
      · intro hplayer _ u name path filedata old h _ _ _ hold
        rcases hondisk u name path h with ⟨-, rfl, -⟩
        exact hstill.1 (hall.added rfl) hplayer old hold
    · intro hnothing
      refine ⟨fun h => (by cases h), fun _ => hstill.2 fun hplayer old hold => ?_⟩
      have henv : s.env = true := by
        by_contra hnot
        exact hadmitted ⟨hnot, .inl hplayer⟩
      exact hnothing.toAll hplayer hadmitted s _ _ filedata old hfound htaken hfile (hshort henv)
        hold

/-- Data, which is written to a temporary file first. -/
theorem allOrNothing_data {temp : TempFile} {content : Bytes} (hfresh : s.FreshTemp temp)
    (hadmitted : s.Admitted a) (hsource : a.source = .data content)
    (hopened : s.writesTempFile a = true → ∀ path, temp ≠ .notOpened path) :
    AllOrNothing s (s.dynamicAddMedia P a temp.path) ↔ s.LeavesNothing P a temp := by
  have hnofile : ∀ path, a.source ≠ .file path := by
    intro path h
    rw [hsource] at h
    cases h
  have hcopied : ∀ filepath filedata, a.source = .file filepath → a.ephemeral = true →
      s.Admitted a → temp.path = none →
      s.nameTaken a (resolvedName a filepath) filepath = false →
      s.acceptableFile (resolvedName a filepath) filepath = some filedata →
      s.ServesAlready P (resolvedName a filepath) filepath filedata :=
    fun filepath _ h => absurd h (hnofile filepath)
  cases hpath : temp.path with
  | none =>
    rw [dynamicAddMedia_data_none P hadmitted hsource]
    refine iff_of_true ⟨fun _ => untouched_useToken s a, fun h => by cases h⟩ ⟨hopened, ?_, hcopied, ?_⟩
    · rintro - path - - rfl
      cases hpath
    · intro _ _ t name path filedata info h
      rw [fileOnDisk, hsource, hpath] at h
      cases h
  | some path =>
    have htemp : temp = .written path := by
      cases temp with
      | written p =>
        cases hpath
        rfl
      | notCreated => cases hpath
      | notOpened _ => cases hpath
      | notWritten _ => cases hpath
    subst htemp
    have hnone : s.disk path = none := hfresh path (.inl rfl)
    have hondisk : ∀ t name file, s.fileOnDisk a (some path) = some (t, name, file) →
        t = s.writeFile path (some content) ∧ name = a.filename ∧ file = path := by
      intro t name file h
      rw [fileOnDisk, hsource] at h
      cases h
      exact ⟨rfl, rfl, rfl⟩
    have hfound : s.fileOnDisk a (some path) =
        some (s.writeFile path (some content), a.filename, path) := by
      rw [fileOnDisk, hsource]
      rfl
    have hfree : s.nameTaken a a.filename path = false → ∀ content path', a.source = .data content →
        s.Admitted a → TempFile.written path = .written path' →
        s.nameTaken a a.filename path' = false := by
      intro htaken _ path' _ _ heq
      rw [← TempFile.written.inj heq]
      exact htaken
    rw [dynamicAddMedia_data P hadmitted hsource]
    have hexit := addFrom_exit P ((s.useToken a).writeFile path (some content)) a a.filename path
      (some path)
    generalize ((s.useToken a).writeFile path (some content)).addFrom P a a.filename path
      (some path) = r at hexit ⊢
    cases hexit with
    | taken htaken =>
      have htaken : s.nameTaken a a.filename path = true := htaken
      refine iff_of_false (fun hall => ?_) fun hnothing => ?_
      · have hdisk := congrFun (hall.refused rfl).disk path
        have hwritten : (writeFile (s.useToken a) path (some content)).disk path = some content :=
          Function.update_self _ _ _
        cases hwritten.symm.trans (hdisk.trans hnone)
      · have hfree := hnothing.free content path hsource hadmitted rfl
        rw [htaken] at hfree
        cases hfree
    | unacceptable htaken hfile =>
      have htaken : s.nameTaken a a.filename path = false := htaken
      have hdiscard : Untouched s
          (discard ((s.useToken a).writeFile path (some content)) a path) := by
        unfold discard
        rw [hsource]
        refine ⟨rfl, rfl, fun _ => Iff.rfl, ?_⟩
        change Function.update (Function.update s.disk path (some content)) path none = s.disk
        rw [Function.update_idem, ← hnone, Function.update_eq_self]
      have hfile : (s.writeFile path (some content)).acceptableFile a.filename path = none :=
        hfile
      refine iff_of_true ⟨fun _ => hdiscard, fun h => by cases h⟩
        ⟨hopened, hfree htaken, hcopied, ?_⟩
      intro _ _ t name file filedata info h _ hsome
      rcases hondisk t name file h with ⟨rfl, rfl, rfl⟩
      cases hfile.symm.trans hsome
    | copyFailed _ _ _ hcopy =>
      rcases hcopy.1 with ⟨file, hfile⟩
      exact absurd hfile (hnofile file)
    | threw htaken hlong hcopy =>
      refine iff_of_true ⟨fun h => (by cases h), fun h => by cases h⟩
        ⟨hopened, hfree htaken, hcopied, ?_⟩
      intro _ _ u name file filedata info h _ _ hshort
      rcases hondisk u name file h with ⟨-, rfl, -⟩
      exact absurd hshort (Nat.not_le.2 hlong)
    | added htaken filedata hfile hcopy hshort t info hmedia hflag =>
      have hstill := stillAnnounced_iff (s := s) (t := t) htaken hmedia hflag
      constructor
      · intro hall
        refine ⟨hopened, hfree htaken, hcopied, ?_⟩
        intro hplayer _ u name file filedata old h _ _ _ hold
        rcases hondisk u name file h with ⟨-, rfl, -⟩
        exact hstill.1 (hall.added rfl) hplayer old hold
      · intro hnothing
        refine ⟨fun h => (by cases h), fun _ => hstill.2 fun hplayer old hold => ?_⟩
        have henv : s.env = true := by
          by_contra hnot
          exact hadmitted ⟨hnot, .inl hplayer⟩
        exact hnothing.toAll hplayer hadmitted _ _ _ filedata old hfound htaken hfile
          (hshort henv) hold

/-- A call leaves all or nothing, unless it loses a temporary file, leaves a file served that it did
not add, or hides one that was announced. -/
theorem allOrNothing_iff {temp : TempFile} (hfresh : s.FreshTemp temp) :
    AllOrNothing s (s.dynamicAddMediaWith P a temp) ↔ s.LeavesNothing P a temp := by
  by_cases hopened : s.writesTempFile a = true → ∀ path, temp ≠ .notOpened path
  · have hcall : s.dynamicAddMediaWith P a temp = s.dynamicAddMedia P a temp.path :=
      Prod.ext (leaveTempFile_eq hopened _) rfl
    rw [hcall]
    by_cases hadmitted : s.Admitted a
    · cases hsource : a.source with
      | file filepath => exact allOrNothing_file P hadmitted hsource hopened
      | data content => exact allOrNothing_data P hfresh hadmitted hsource hopened
    · rw [dynamicAddMedia_not_admitted P hadmitted]
      exact iff_of_true ⟨fun _ => untouched_useToken s a, fun h => by cases h⟩
        ⟨hopened, fun _ _ _ h => absurd h hadmitted, fun _ _ _ _ h => absurd h hadmitted,
          fun _ h => absurd h hadmitted⟩
  · rcases Classical.not_imp.1 hopened with ⟨hwrites, hnot⟩
    rcases not_forall.1 hnot with ⟨path, hpath⟩
    have htemp : temp = .notOpened path := not_not.1 hpath
    subst htemp
    exact iff_of_false (not_allOrNothing_of_notOpened P hfresh hwrites) fun hnothing =>
      hnothing.opened hwrites path rfl

end

/-! ## Calls that fail half way -/

/-- One file is announced, another one is only on disk. -/
def picture : MediaServer Int where
  env := true
  mediaHttp := some MediaHttpServer.initial
  disk := fun path =>
    if path = ascii "/m/a.png" ∨ path = ascii "/m/b.png" then some (ascii "x") else none
  media := AList.insert (ascii "a.png")
    { path := ascii "/m/a.png", sha1Digest := oneFile.sha1 (ascii "x") } ∅

/-- Data under the name that is taken. -/
def sendAgain : DynamicMediaArgs where
  filename := ascii "a.png"
  source := .data (ascii "y")
  token := 7

def sendCopy : DynamicMediaArgs where
  filename := []
  source := .file (ascii "/m/b.png")
  token := 7
  ephemeral := true

/-- The announced file, for one player. -/
def sendToSam : DynamicMediaArgs where
  filename := []
  source := .file (ascii "/m/a.png")
  token := 7
  toPlayer := ascii "sam"

theorem picture_allOrNothing_iff :
    AllOrNothing picture (picture.dynamicAddMediaWith oneFile sendAgain (.written (ascii "/tmp/t"))) ↔
      picture.LeavesNothing oneFile sendAgain (.written (ascii "/tmp/t")) := by
  refine allOrNothing_iff oneFile ?_
  rintro path (hpath | hpath)
  · cases hpath
    decide +kernel
  · cases hpath

/-- The temporary file stays; the file that could not be copied is served; the picture is no longer
announced. -/
theorem calls_not_allOrNothing :
    ¬ AllOrNothing picture
        (picture.dynamicAddMediaWith oneFile sendAgain (.written (ascii "/tmp/t"))) ∧
      ¬ AllOrNothing picture (picture.dynamicAddMediaWith oneFile sendCopy .notCreated) ∧
      ¬ AllOrNothing picture (picture.dynamicAddMediaWith oneFile sendToSam .notCreated) := by
  refine ⟨fun h => ?_, fun h => ?_, fun h => ?_⟩
  · have hdisk := congrFun (h.refused (by decide +kernel)).disk (ascii "/tmp/t")
    revert hdisk
    decide +kernel
  · have hserved := (h.refused (by decide +kernel)).http
      (hexEncode (oneFile.sha1 (ascii "x")), ascii "/m/b.png")
    rcases hserved.1 ⟨_, rfl, by decide +kernel⟩ with ⟨http, hhttp, hfile⟩
    cases hhttp
    revert hfile
    decide +kernel
  · rcases h.added (by decide +kernel) (ascii "a.png")
      { path := ascii "/m/a.png", sha1Digest := oneFile.sha1 (ascii "x") } (AList.lookup_insert _)
      rfl with
      ⟨info, hinfo, hshown⟩
    have hhidden : (((picture.dynamicAddMediaWith oneFile sendToSam .notCreated).1.media.lookup
        (ascii "a.png")).map fun info => info.noAnnounce) = some true := by decide +kernel
    rw [hinfo, Option.map_some, hshown] at hhidden
    cases hhidden

end MediaServer

end DynamicMedia
end AxisEngine
