import AxisEngine.DynamicMedia.MediaServer
import AxisEngine.Lib.Entries
import AxisEngine.Lib.Transition

/-!
# Ownership — who owns an ephemeral file

An ephemeral entry of the table belongs to the one record that names it, and goes with it.

* `Owned` — the entries and the records name each other, and the files are accounted for;
* `Accepts`, `NameFits` — calls that end without an exception;
* `owned_dynamicAddMedia`, `Owned.stepPending` — the operations; no assertion fails.
-/

namespace AxisEngine
namespace DynamicMedia

open Lib Login Media Util

namespace MediaServer

variable {Time : Type} (P : Platform Time)

/-- The number of ephemeral entries with a file. -/
def ephemeralWith (s : MediaServer Time) (path : Bytes) : Nat :=
  s.media.entries.countP fun entry => entry.2.ephemeral && decide (entry.2.path = path)

/-- The ephemeral entries and the records that name a file. -/
structure Owned (s : MediaServer Time) : Prop where
  owner : ∀ name info, s.media.lookup name = some info → info.ephemeral = true →
    ∃ token r, s.pendingDynMedia.lookup token = some r ∧ r.filename = name
  entry : ∀ token r, s.pendingDynMedia.lookup token = some r → r.filename ≠ [] →
    ∃ info, s.media.lookup r.filename = some info ∧ info.ephemeral = true
  unique : ∀ token token' r r', s.pendingDynMedia.lookup token = some r →
    s.pendingDynMedia.lookup token' = some r' → r.filename ≠ [] → r.filename = r'.filename →
    token = token'
  named : ∀ name info, s.media.lookup name = some info → name ≠ []
  files : ∀ path,
    s.fileLog.count (.owned path) = s.fileLog.count (.deleted path) + s.ephemeralWith path

/-! ## The table and the records -/

section

variable {s : MediaServer Time} {token : UInt32} {name path : Bytes} {info : MediaInfo}
  {r r' : PendingDynamicMediaCallback Time}

theorem Owned.congr {t : MediaServer Time} (h : s.Owned) (hmedia : t.media = s.media)
    (hpending : t.pendingDynMedia = s.pendingDynMedia) (hlog : t.fileLog = s.fileLog) :
    t.Owned where
  owner := by
    rw [hmedia, hpending]
    exact h.owner
  entry := by
    rw [hmedia, hpending]
    exact h.entry
  unique := by
    rw [hpending]
    exact h.unique
  named := by
    rw [hmedia]
    exact h.named
  files := by
    intro path
    rw [hlog, ephemeralWith, hmedia]
    exact h.files path

theorem Owned.setRecord (r' : PendingDynamicMediaCallback Time) (h : s.Owned)
    (hold : s.pendingDynMedia.lookup token = some r)
    (hname : r'.filename = r.filename) :
    Owned { s with pendingDynMedia := s.pendingDynMedia.insert token r' } := by
  -- a record of the new table names what the old one did
  have hnames : ∀ token' r'', (s.pendingDynMedia.insert token r').lookup token' = some r'' →
      ∃ r₀, s.pendingDynMedia.lookup token' = some r₀ ∧ r₀.filename = r''.filename :=
    forall_insert (fun token' r'' hlookup => ⟨r'', hlookup, rfl⟩) ⟨r, hold, hname.symm⟩
  refine ⟨?_, ?_, ?_, h.named, h.files⟩
  · intro name info hlookup hephemeral
    rcases h.owner name info hlookup hephemeral with ⟨token', r₀, hr₀, hr₀name⟩
    by_cases htoken : token' = token
    · subst htoken
      rw [hold] at hr₀
      cases hr₀
      exact ⟨token', r', AList.lookup_insert _, hname.trans hr₀name⟩
    · exact ⟨token', r₀, (AList.lookup_insert_ne htoken).trans hr₀, hr₀name⟩
  · intro token' r'' hlookup hne
    rcases hnames token' r'' hlookup with ⟨r₀, hr₀, hr₀name⟩
    rw [← hr₀name] at hne ⊢
    exact h.entry token' r₀ hr₀ hne
  · intro t₁ t₂ r₁ r₂ h₁ h₂ hne heq
    rcases hnames t₁ r₁ h₁ with ⟨r₁', hr₁, hname₁⟩
    rcases hnames t₂ r₂ h₂ with ⟨r₂', hr₂, hname₂⟩
    rw [← hname₁] at hne
    exact h.unique t₁ t₂ r₁' r₂' hr₁ hr₂ hne (hname₁.trans (heq.trans hname₂.symm))

/-- A record without a file name ends. -/
theorem Owned.eraseNameless (h : s.Owned) (hold : s.pendingDynMedia.lookup token = some r)
    (hname : r.filename = []) : Owned { s with pendingDynMedia := s.pendingDynMedia.erase token } := by
  refine ⟨?_, ?_, ?_, h.named, h.files⟩
  · intro name info hlookup hephemeral
    rcases h.owner name info hlookup hephemeral with ⟨token', r₀, hr₀, hr₀name⟩
    have hne : token' ≠ token := by
      rintro rfl
      rw [hold] at hr₀
      cases hr₀
      exact h.named name info hlookup (hr₀name.symm.trans hname)
    exact ⟨token', r₀, (AList.lookup_erase_ne hne).trans hr₀, hr₀name⟩
  · intro token' r₀ hr₀ hne
    exact h.entry token' r₀ (lookup_of_lookup_erase hr₀).2 hne
  · intro t₁ t₂ r₁ r₂ h₁ h₂
    exact h.unique t₁ t₂ r₁ r₂ (lookup_of_lookup_erase h₁).2 (lookup_of_lookup_erase h₂).2

/-- A record ends together with its entry and its file. -/
theorem Owned.eraseEntry (h : s.Owned) (hold : s.pendingDynMedia.lookup token = some r)
    (hentry : s.media.lookup r.filename = some info) (hephemeral : info.ephemeral = true) :
    Owned { s with
      media := s.media.erase r.filename
      pendingDynMedia := s.pendingDynMedia.erase token
      fileLog := .deleted info.path :: s.fileLog } := by
  refine ⟨?_, ?_, ?_, ?_, ?_⟩
  · intro name info' hlookup hephemeral'
    rcases lookup_of_lookup_erase hlookup with ⟨hname, hlookup⟩
    rcases h.owner name info' hlookup hephemeral' with ⟨token', r₀, hr₀, hr₀name⟩
    have htoken : token' ≠ token := by
      rintro rfl
      rw [hold] at hr₀
      cases hr₀
      exact hname hr₀name.symm
    exact ⟨token', r₀, (AList.lookup_erase_ne htoken).trans hr₀, hr₀name⟩
  · intro token' r₀ hr₀ hne₀
    rcases lookup_of_lookup_erase hr₀ with ⟨htoken, hr₀⟩
    rcases h.entry token' r₀ hr₀ hne₀ with ⟨info', hinfo', hephemeral'⟩
    have hname : r₀.filename ≠ r.filename := fun heq =>
      htoken (h.unique token' token r₀ r hr₀ hold hne₀ heq)
    exact ⟨info', (AList.lookup_erase_ne hname).trans hinfo', hephemeral'⟩
  · intro t₁ t₂ r₁ r₂ h₁ h₂
    exact h.unique t₁ t₂ r₁ r₂ (lookup_of_lookup_erase h₁).2 (lookup_of_lookup_erase h₂).2
  · intro name info' hlookup
    exact h.named name info' (lookup_of_lookup_erase hlookup).2
  · intro path
    have hcount := countP_entries_eq hentry
      (p := fun entry => entry.2.ephemeral && decide (entry.2.path = path))
    have hfiles := h.files path
    rw [ephemeralWith, hcount] at hfiles
    rw [ephemeralWith]
    by_cases hpath : info.path = path
    · subst hpath
      simp [hephemeral] at hfiles ⊢
      omega
    · simp [hephemeral, hpath] at hfiles ⊢
      omega

/-- An entry that is not ephemeral is put down, where none is that is. -/
theorem Owned.insertPlain (h : s.Owned) (hname : name ≠ [])
    (hold : ∀ info₀, s.media.lookup name = some info₀ → info₀.ephemeral = false)
    (hephemeral : info.ephemeral = false) : Owned { s with media := s.media.insert name info } := by
  refine ⟨?_, ?_, h.unique, ?_, ?_⟩
  · intro name' info' hlookup hephemeral'
    by_cases heq : name' = name
    · subst heq
      rw [AList.lookup_insert] at hlookup
      cases hlookup
      rw [hephemeral] at hephemeral'
      cases hephemeral'
    · rw [AList.lookup_insert_ne heq] at hlookup
      exact h.owner name' info' hlookup hephemeral'
  · intro token r hr hne
    rcases h.entry token r hr hne with ⟨info', hinfo', hephemeral'⟩
    have heq : r.filename ≠ name := by
      rintro rfl
      rw [hold info' hinfo'] at hephemeral'
      cases hephemeral'
    exact ⟨info', (AList.lookup_insert_ne heq).trans hinfo', hephemeral'⟩
  · exact fun name' info' => forall_insert h.named hname name' info'
  · intro path
    rw [h.files path, ephemeralWith, ephemeralWith]
    congr 1
    symm
    cases hlookup : s.media.lookup name with
    | none =>
      rw [countP_entries_insert_new hlookup]
      simp [hephemeral]
    | some info₀ =>
      refine countP_entries_insert_same hlookup ?_
      simp [hephemeral, hold info₀ hlookup]

/-- An ephemeral entry is put down under a new name, together with its record. -/
theorem Owned.insertEphemeral (h : s.Owned) (hname : name ≠ [])
    (hnew : s.media.lookup name = none) (htoken : s.pendingDynMedia.lookup token = none)
    (hephemeral : info.ephemeral = true) (hr : r.filename = name) :
    Owned { s with
      media := s.media.insert name info
      pendingDynMedia := s.pendingDynMedia.insert token r
      fileLog := .owned info.path :: s.fileLog } := by
  -- no other record names it
  have hother : ∀ token' r', s.pendingDynMedia.lookup token' = some r' → r'.filename ≠ name := by
    rintro token' r' hr' rfl
    rcases h.entry token' r' hr' hname with ⟨info', hinfo', -⟩
    rw [hnew] at hinfo'
    cases hinfo'
  have hkeep : ∀ token' r', s.pendingDynMedia.lookup token' = some r' → token' ≠ token := by
    rintro token' r' hr' rfl
    rw [htoken] at hr'
    cases hr'
  refine ⟨?_, ?_, ?_, ?_, ?_⟩
  · intro name' info' hlookup hephemeral'
    by_cases heq : name' = name
    · exact ⟨token, r, AList.lookup_insert _, hr.trans heq.symm⟩
    · rw [AList.lookup_insert_ne heq] at hlookup
      rcases h.owner name' info' hlookup hephemeral' with ⟨token', r', hr', hname'⟩
      exact ⟨token', r', (AList.lookup_insert_ne (hkeep token' r' hr')).trans hr', hname'⟩
  · refine forall_insert ?_ ?_
    · intro token' r' hr' hne
      rcases h.entry token' r' hr' hne with ⟨info', hinfo', hephemeral'⟩
      exact ⟨info', (AList.lookup_insert_ne (hother token' r' hr')).trans hinfo', hephemeral'⟩
    · intro _
      rw [hr]
      exact ⟨info, AList.lookup_insert _, hephemeral⟩
  · intro t₁ t₂ r₁ r₂ h₁ h₂ hne heq
    by_cases ht₁ : t₁ = token
    · by_cases ht₂ : t₂ = token
      · exact ht₁.trans ht₂.symm
      · rw [ht₁, AList.lookup_insert] at h₁
        rw [AList.lookup_insert_ne ht₂] at h₂
        cases h₁
        exact absurd (heq.symm.trans hr) (hother t₂ r₂ h₂)
    · rw [AList.lookup_insert_ne ht₁] at h₁
      by_cases ht₂ : t₂ = token
      · rw [ht₂, AList.lookup_insert] at h₂
        cases h₂
        exact absurd (heq.trans hr) (hother t₁ r₁ h₁)
      · rw [AList.lookup_insert_ne ht₂] at h₂
        exact h.unique t₁ t₂ r₁ r₂ h₁ h₂ hne heq
  · exact fun name' info' => forall_insert h.named hname name' info'
  · intro path
    have hfiles := h.files path
    rw [ephemeralWith] at hfiles ⊢
    rw [countP_entries_insert_new hnew]
    by_cases hpath : info.path = path
    · subst hpath
      simp [hephemeral] at hfiles ⊢
      omega
    · simp [hephemeral, hpath] at hfiles ⊢
      omega

/-- A record without a file name is put down. -/
theorem Owned.insertNameless (h : s.Owned) (htoken : s.pendingDynMedia.lookup token = none)
    (hr : r.filename = []) : Owned { s with pendingDynMedia := s.pendingDynMedia.insert token r } := by
  have hkeep : ∀ token' r', s.pendingDynMedia.lookup token' = some r' → token' ≠ token := by
    rintro token' r' hr' rfl
    rw [htoken] at hr'
    cases hr'
  refine ⟨?_, ?_, ?_, h.named, h.files⟩
  · intro name' info' hlookup hephemeral'
    rcases h.owner name' info' hlookup hephemeral' with ⟨token', r', hr', hname'⟩
    exact ⟨token', r', (AList.lookup_insert_ne (hkeep token' r' hr')).trans hr', hname'⟩
  · exact forall_insert (fun token' r' hr' => h.entry token' r' hr') fun hne => absurd hr hne
  · intro t₁ t₂ r₁ r₂ h₁ h₂ hne heq
    have ht₁ : t₁ ≠ token := by
      rintro rfl
      rw [AList.lookup_insert] at h₁
      cases h₁
      exact hne hr
    have ht₂ : t₂ ≠ token := by
      rintro rfl
      rw [AList.lookup_insert] at h₂
      cases h₂
      exact hne (heq.trans hr)
    rw [AList.lookup_insert_ne ht₁] at h₁
    rw [AList.lookup_insert_ne ht₂] at h₂
    exact h.unique t₁ t₂ r₁ r₂ h₁ h₂ hne heq

end

/-! ## Adding and dropping files -/

section

variable {s : MediaServer Time} {a : DynamicMediaArgs} {filename filepath filedata : Bytes}
  {info : MediaInfo} {temp : Option Bytes}

theorem name_ne_nil_of_acceptableFile (h : s.acceptableFile filename filepath = some filedata) :
    filename ≠ [] := by
  rintro rfl
  rw [acceptableFile] at h
  split at h
  · cases h
  · cases h

theorem finishEntry_true (hplain : info.ephemeral = false)
    (h : (s.finishEntry a filename filedata info temp).2 = true) :
    ∃ info' disk, info'.ephemeral = a.ephemeral ∧
      (s.finishEntry a filename filedata info temp).1 = { s with
        disk := disk
        media := s.media.insert filename info'
        fileLog := if a.ephemeral then .owned info'.path :: s.fileLog else s.fileLog } := by
  unfold finishEntry at h ⊢
  cases hsource : a.source with
  | data content =>
    cases hephemeral : a.ephemeral with
    | true => exact ⟨{ info with noAnnounce := true, ephemeral := true }, s.disk, rfl, rfl⟩
    | false =>
      exact ⟨{ info with
        noAnnounce := info.noAnnounce || a.toPlayer ≠ []
        deleteAtShutdown := true }, s.disk, hplain, rfl⟩
  | file path =>
    cases hephemeral : a.ephemeral with
    | false =>
      exact ⟨{ info with noAnnounce := info.noAnnounce || a.toPlayer ≠ [] }, s.disk, hplain, rfl⟩
    | true =>
      cases temp with
      | some copy =>
        exact ⟨{ info with path := copy, noAnnounce := true, ephemeral := true },
          Function.update s.disk copy (some filedata), rfl, rfl⟩
      | none =>
        rw [hsource, hephemeral] at h
        cases h

theorem finishEntry_false (h : (s.finishEntry a filename filedata info temp).2 = false) :
    a.ephemeral = true ∧ (s.finishEntry a filename filedata info temp).1 =
      { s with media := s.media.erase filename } := by
  unfold finishEntry at h ⊢
  cases hsource : a.source with
  | data content =>
    cases hephemeral : a.ephemeral with
    | true =>
      rw [hsource, hephemeral] at h
      cases h
    | false =>
      rw [hsource, hephemeral] at h
      cases h
  | file path =>
    cases hephemeral : a.ephemeral with
    | false =>
      rw [hsource, hephemeral] at h
      cases h
    | true =>
      cases temp with
      | some copy =>
        rw [hsource, hephemeral] at h
        cases h
      | none => exact ⟨rfl, rfl⟩

/-- A name that may be taken belongs to nobody, or to an entry that is not ephemeral. -/
theorem not_nameTaken (h : s.nameTaken a filename filepath = false) :
    (a.ephemeral = true → s.media.lookup filename = none) ∧
      ∀ info, s.media.lookup filename = some info → info.ephemeral = false := by
  rw [nameTaken] at h
  cases hlookup : s.media.lookup filename with
  | none =>
    refine ⟨fun _ => rfl, fun info hinfo => ?_⟩
    cases hinfo
  | some info =>
    rw [hlookup] at h
    simp only [Bool.or_eq_false_iff] at h
    refine ⟨fun hephemeral => ?_, fun info' hinfo' => ?_⟩
    · rw [h.1.1] at hephemeral
      cases hephemeral
    · cases hinfo'
      exact h.1.2

theorem push_pending (filename : Bytes) (h : s.pendingDynMedia.lookup a.token = none) :
    (s.push P a filename).pendingDynMedia = s.pendingDynMedia.insert a.token
      ⟨if a.ephemeral then filename else [], P.patience, s.recipients a .asked⟩ := by
  rw [push]
  dsimp only
  rw [h]
  rfl

theorem owned_addFrom (h : s.Owned) (hnew : s.pendingDynMedia.lookup a.token = none)
    (hfits : (s.addFrom P a filename filepath temp).2 ≠ .threw) :
    (s.addFrom P a filename filepath temp).1.Owned := by
  rw [addFrom] at hfits ⊢
  cases htaken : s.nameTaken a filename filepath with
  | true =>
    rw [if_pos rfl]
    exact h
  | false =>
    rw [htaken, if_neg Bool.false_ne_true, addMediaFile] at hfits
    rw [if_neg Bool.false_ne_true, addMediaFile]
    rcases not_nameTaken htaken with ⟨hfree, hold⟩
    cases hfile : s.acceptableFile filename filepath with
    | none =>
      cases a.source with
      | data content => exact h.congr rfl rfl rfl
      | file path => exact h
    | some filedata =>
      rw [hfile] at hfits
      have hname := name_ne_nil_of_acceptableFile hfile
      dsimp only at hfits ⊢
      cases hfinished : ((updateMediaHttp P { s with
          media := s.media.insert filename
            { path := filepath, sha1Digest := P.sha1 filedata } }).finishEntry a filename filedata
            { path := filepath, sha1Digest := P.sha1 filedata } temp).2 with
      | false =>
        rcases finishEntry_false hfinished with ⟨hephemeral, heq⟩
        rw [if_neg Bool.false_ne_true, heq]
        exact h.congr (erase_insert_of_new (hfree hephemeral)) rfl rfl
      | true =>
        rw [hfinished, if_pos rfl] at hfits
        rcases finishEntry_true rfl hfinished with ⟨info', disk, hephemeral, heq⟩
        rw [if_pos rfl]
        split at hfits
        · exact absurd rfl hfits
        rename_i hlong
        rw [if_neg hlong, heq]
        set u : MediaServer Time := { updateMediaHttp P { s with
          media := s.media.insert filename
            { path := filepath, sha1Digest := P.sha1 filedata } } with
          disk := disk
          media := (s.media.insert filename
            { path := filepath, sha1Digest := P.sha1 filedata }).insert filename info'
          fileLog := if a.ephemeral then .owned info'.path :: s.fileLog else s.fileLog }
        have hlog : u.fileLog =
            if a.ephemeral = true then .owned info'.path :: s.fileLog else s.fileLog := rfl
        have hpush := push_pending P (s := u) filename hnew
        rcases Bool.eq_false_or_eq_true a.ephemeral with haephemeral | haephemeral
        · rw [haephemeral] at hephemeral hpush
          exact (h.insertEphemeral hname (hfree haephemeral) hnew hephemeral
            (r := ⟨filename, P.patience, u.recipients a .asked⟩) rfl).congr
            (AList.insert_insert _) hpush (hlog.trans (if_pos haephemeral))
        · have hnot : ¬ a.ephemeral = true := by
            rw [haephemeral]
            exact Bool.false_ne_true
          rw [haephemeral] at hephemeral hpush
          exact ((h.insertPlain hname hold hephemeral).insertNameless
            (r := ⟨[], P.patience, u.recipients a .asked⟩) hnew rfl).congr
            (AList.insert_insert _) hpush (hlog.trans (if_neg hnot))

/-- The call puts its file down, and gets the copy that it needs. -/
def Accepts (s : MediaServer Time) (a : DynamicMediaArgs) (temp : Option Bytes) (filename : Bytes) :
    Prop :=
  ∃ t filepath, s.fileOnDisk a temp = some (t, filename, filepath) ∧
    t.nameTaken a filename filepath = false ∧ (t.acceptableFile filename filepath).isSome = true ∧
    ∀ path, a.source = .file path → a.ephemeral = true → temp.isSome = true

/-- A name that gets into a packet is short enough for one. -/
def NameFits (s : MediaServer Time) (a : DynamicMediaArgs) (temp : Option Bytes) : Prop :=
  s.env = true → ∀ filename, s.Accepts a temp filename → filename.length ≤ stringMaxLen

/-- The condition is about the files and the table only. -/
theorem NameFits.congr {t : MediaServer Time} (h : s.NameFits a temp) (hmedia : t.media = s.media)
    (hdisk : t.disk = s.disk) (henv : t.env = s.env) : t.NameFits a temp := by
  have htaken : ∀ u v : MediaServer Time, v.media = u.media → ∀ filename filepath,
      v.nameTaken a filename filepath = u.nameTaken a filename filepath := by
    intro u v huv filename filepath
    rw [nameTaken, nameTaken, huv]
  have hfile : ∀ u v : MediaServer Time, v.disk = u.disk → ∀ filename filepath,
      v.acceptableFile filename filepath = u.acceptableFile filename filepath := by
    intro u v huv filename filepath
    rw [acceptableFile, acceptableFile, huv]
  rintro hstarted filename ⟨u, filepath, hondisk, hnot, haccept, htemp⟩
  refine h (henv ▸ hstarted) filename ?_
  rw [fileOnDisk] at hondisk
  cases hsource : a.source with
  | file path =>
    rw [hsource] at hondisk
    cases hondisk
    refine ⟨s, filepath, ?_, ?_, ?_, htemp⟩
    · rw [fileOnDisk, hsource]
    · rw [← htaken s t hmedia]
      exact hnot
    · rw [← hfile s t hdisk]
      exact haccept
  | data content =>
    rw [hsource] at hondisk
    rcases Option.map_eq_some_iff.1 hondisk with ⟨path, hpath, heq⟩
    cases heq
    refine ⟨s.writeFile filepath (some content), filepath, ?_, ?_, ?_, htemp⟩
    · rw [fileOnDisk, hsource]
      dsimp only
      rw [hpath, Option.map_some]
    · rw [← htaken (s.writeFile filepath (some content)) (t.writeFile filepath (some content)) hmedia]
      exact hnot
    · rw [← hfile (s.writeFile filepath (some content)) (t.writeFile filepath (some content))]
      · exact haccept
      · rw [writeFile, writeFile, hdisk]

theorem addFrom_threw (h : (s.addFrom P a filename filepath temp).2 = .threw) :
    s.env = true ∧ stringMaxLen < filename.length ∧ s.nameTaken a filename filepath = false ∧
      (s.acceptableFile filename filepath).isSome = true ∧
      ∀ path, a.source = .file path → a.ephemeral = true → temp.isSome = true := by
  rw [addFrom] at h
  cases htaken : s.nameTaken a filename filepath with
  | true =>
    rw [htaken, if_pos rfl] at h
    cases h
  | false =>
    rw [htaken, if_neg Bool.false_ne_true, addMediaFile] at h
    cases hfile : s.acceptableFile filename filepath with
    | none =>
      rw [hfile] at h
      dsimp only at h
      split at h
      · cases h
      · cases h
    | some filedata =>
      rw [hfile] at h
      dsimp only at h
      split at h
      case isFalse => cases h
      case isTrue hfinished =>
        split at h
        case isFalse => cases h
        case isTrue hlong =>
          refine ⟨hlong.1, hlong.2, rfl, rfl, fun path hsource hephemeral => ?_⟩
          cases temp with
          | some copy => rfl
          | none =>
            unfold finishEntry at hfinished
            rw [hsource, hephemeral] at hfinished
            cases hfinished

theorem dynamicAddMedia_ne_threw (hfits : s.NameFits a temp) :
    (s.dynamicAddMedia P a temp).2 ≠ .threw := by
  intro h
  rw [dynamicAddMedia] at h
  dsimp only at h
  split at h
  · cases h
  · have hlong : ∀ t filename filepath, s.fileOnDisk a temp = some (t, filename, filepath) →
        t.env = s.env →
        (addFrom P { t with usedTokens := a.token :: t.usedTokens } a filename filepath temp).2 ≠
          .threw := by
      intro t filename filepath hdisk henv hthrew
      rcases addFrom_threw P hthrew with ⟨henv', hlen, htaken, hfile, htemp⟩
      have hle := hfits (henv ▸ henv') filename ⟨t, filepath, hdisk, htaken, hfile, htemp⟩
      exact absurd hlen (Nat.not_lt.2 hle)
    rw [fileOnDisk] at h hlong
    cases hsource : a.source with
    | file filepath =>
      rw [hsource] at h hlong
      exact hlong _ _ _ rfl rfl h
    | data content =>
      rw [hsource] at h hlong
      cases temp with
      | none => cases h
      | some filepath => exact hlong _ _ _ rfl rfl h

theorem owned_dynamicAddMedia (h : s.Owned) (hnew : s.pendingDynMedia.lookup a.token = none)
    (hfits : s.NameFits a temp) : (s.dynamicAddMedia P a temp).1.Owned := by
  have hthrew := dynamicAddMedia_ne_threw P hfits
  rw [dynamicAddMedia] at hthrew ⊢
  dsimp only at hthrew ⊢
  split at hthrew
  case isTrue hstartup =>
    rw [if_pos hstartup]
    exact h.congr rfl rfl rfl
  case isFalse hstartup =>
    rw [if_neg hstartup]
    rw [fileOnDisk] at hthrew ⊢
    cases hsource : a.source with
    | file filepath =>
      rw [hsource] at hthrew
      refine owned_addFrom P ?_ hnew hthrew
      exact h.congr rfl rfl rfl
    | data content =>
      rw [hsource] at hthrew
      cases temp with
      | none => exact h.congr rfl rfl rfl
      | some filepath =>
        refine owned_addFrom P ?_ hnew hthrew
        exact h.congr rfl rfl rfl

end

/-! ## Acknowledgements and the end of a record -/

section

variable {s : MediaServer Time} {token : UInt32}

theorem Owned.acknowledge {p : SessionT} (h : s.Owned) : (s.acknowledge p token).Owned := by
  rw [MediaServer.acknowledge]
  split
  · exact h
  case h_2 r hr =>
    split
    case isFalse => exact h
    have hset := h.setRecord { r with waitingPlayers := r.waitingPlayers.filter (· ≠ p) } hr rfl
    dsimp only
    split
    · exact hset.congr rfl rfl rfl
    · exact hset

theorem Owned.haveMedia {p : SessionT} {data : Bytes} (h : s.Owned) :
    (s.handleCommandHaveMedia p data).Owned := by
  rw [handleCommandHaveMedia]
  split
  · exact h
  case h_2 tokens rest _ =>
    exact List.foldlRecOn tokens (MediaServer.acknowledge p) h fun t ht token _ => ht.acknowledge

theorem endRecord_frame (s : MediaServer Time) (token : UInt32) :
    (s.endRecord token).media = s.media ∧
    (s.endRecord token).pendingDynMedia = s.pendingDynMedia.erase token ∧
    (s.endRecord token).fileLog = s.fileLog := by
  rw [endRecord]
  dsimp only
  split
  · exact ⟨rfl, rfl, rfl⟩
  · rw [freeDynamicMediaCallback]
    split
    · exact ⟨rfl, rfl, rfl⟩
    · exact ⟨rfl, rfl, rfl⟩

/-- No assertion fails. -/
theorem Owned.stepRecord (dtime : Time) (token : UInt32) (h : s.Owned) :
    ∃ t, s.stepRecord P dtime token = some t ∧ t.Owned := by
  rw [MediaServer.stepRecord]
  cases hr : s.pendingDynMedia.lookup token with
  | none => exact ⟨s, rfl, h⟩
  | some r =>
    dsimp only
    split
    · exact ⟨_, rfl, h.setRecord _ hr rfl⟩
    · rw [dropFile]
      by_cases hname : r.filename = []
      · rw [if_pos hname, Option.map_some]
        refine ⟨_, rfl, ?_⟩
        rcases endRecord_frame s token with ⟨hmedia, hpending, hlog⟩
        exact (h.eraseNameless hr hname).congr hmedia hpending hlog
      · rcases h.entry token r hr hname with ⟨info, hinfo, hephemeral⟩
        rw [if_neg hname, hinfo]
        dsimp only
        rw [if_pos hephemeral, Option.map_some]
        refine ⟨_, rfl, ?_⟩
        exact (h.eraseEntry hr hinfo hephemeral).congr (endRecord_frame _ _).1
          (endRecord_frame _ _).2.1 (endRecord_frame _ _).2.2

theorem Owned.stepPending (dtime : Time) (h : s.Owned) :
    ∃ t, s.stepPendingDynMediaCallbacks P dtime = some t ∧ t.Owned :=
  exists_foldlM (fun _ token hs => hs.stepRecord P dtime token) _ h

end

end MediaServer

end DynamicMedia
end AxisEngine
