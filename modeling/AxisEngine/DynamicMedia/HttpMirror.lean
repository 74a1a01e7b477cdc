import AxisEngine.DynamicMedia.MediaServer
import AxisEngine.Lib.Transition

/-!
# HttpMirror — the HTTP server's table and the table of media

The table is handed over where a file is put down, before the flags and the path of the entry are
settled.  The copy of an ephemeral file comes after that: its path is not handed over, and if it
fails the entry goes and its hash stays.

* `Mirrors` — the hashes of the one are the hashes of the other, and lead to paths of its entries;
* `ServedElsewhere`, `MirrorKept` — the condition on a step;
* `http_mirrors_media` — along runs.
-/

namespace AxisEngine
namespace DynamicMedia

open Lib Login Media Util

/-- What the table of the HTTP server should say about the media. -/
structure Mirrors (byHash : Table) (media : MediaTable) : Prop where
  covered : ∀ name info, media.lookup name = some info →
    ∃ path, (hexEncode info.sha1Digest, path) ∈ byHash
  backed : ∀ file ∈ byHash, ∃ name info, media.lookup name = some info ∧
    hexEncode info.sha1Digest = file.1 ∧ info.path = file.2
  distinct : (byHash.map Prod.fst).Nodup

/-! ## What is handed over -/

section

variable {entry : Sigma fun _ : Bytes => MediaInfo}
variable {entries : List (Sigma fun _ : Bytes => MediaInfo)} {t : Table} {file : Bytes × Bytes}

theorem any_hash {hash : Bytes} :
    t.any (fun file => file.1 = hash) = true ↔ hash ∈ t.map Prod.fst := by
  simp [List.any_eq_true, List.mem_map]

theorem emplaceByHash_cases (hlength : entry.2.sha1Digest.length = 20) :
    (hexEncode entry.2.sha1Digest ∈ t.map Prod.fst ∧ MediaServer.emplaceByHash t entry = t) ∨
      (hexEncode entry.2.sha1Digest ∉ t.map Prod.fst ∧
        MediaServer.emplaceByHash t entry = t ++ [(hexEncode entry.2.sha1Digest, entry.2.path)]) := by
  by_cases hmem : hexEncode entry.2.sha1Digest ∈ t.map Prod.fst
  · exact .inl ⟨hmem, if_neg fun h => h.2 (any_hash.2 hmem)⟩
  · exact .inr ⟨hmem, if_pos ⟨hlength, fun h => hmem (any_hash.1 h)⟩⟩

/-- The fold over some entries: what it keeps, what it adds, and whose hashes it has. -/
theorem foldl_emplaceByHash (hlength : ∀ entry ∈ entries, entry.2.sha1Digest.length = 20)
    (hnodup : (t.map Prod.fst).Nodup) :
    (∀ file ∈ t, file ∈ entries.foldl MediaServer.emplaceByHash t) ∧
      (∀ file ∈ entries.foldl MediaServer.emplaceByHash t, file ∈ t ∨
        ∃ entry ∈ entries, file = (hexEncode entry.2.sha1Digest, entry.2.path)) ∧
      (∀ entry ∈ entries, ∃ path,
        (hexEncode entry.2.sha1Digest, path) ∈ entries.foldl MediaServer.emplaceByHash t) ∧
      ((entries.foldl MediaServer.emplaceByHash t).map Prod.fst).Nodup := by
  induction entries generalizing t with
  | nil => exact ⟨fun _ h => h, fun _ h => .inl h, fun _ h => absurd h List.not_mem_nil, hnodup⟩
  | cons entry entries ih =>
    rw [List.forall_mem_cons] at hlength
    rcases hlength with ⟨hentry, hlength⟩
    rw [List.foldl_cons]
    rcases emplaceByHash_cases (t := t) hentry with ⟨hmem, heq⟩ | ⟨hnot, heq⟩
    · rw [heq]
      rcases ih hlength hnodup with ⟨hkeep, hfrom, hcover, hnodup'⟩
      refine ⟨hkeep, ?_, ?_, hnodup'⟩
      · intro file hfile
        refine (hfrom file hfile).imp_right ?_
        rintro ⟨e, he, rfl⟩
        exact ⟨e, List.mem_cons_of_mem _ he, rfl⟩
      · refine List.forall_mem_cons.2 ⟨?_, hcover⟩
        rcases List.mem_map.1 hmem with ⟨file, hfile, hhash⟩
        refine ⟨file.2, ?_⟩
        rw [← hhash]
        exact hkeep file hfile
    · rw [heq]
      have hnodup₁ : ((t ++ [(hexEncode entry.2.sha1Digest, entry.2.path)]).map Prod.fst).Nodup := by
        rw [List.map_append]
        refine List.nodup_append.2 ⟨hnodup, List.nodup_singleton _, ?_⟩
        intro a ha b hb
        have hb' : b = hexEncode entry.2.sha1Digest := List.mem_singleton.1 hb
        rintro rfl
        exact hnot (hb' ▸ ha)
      rcases ih hlength hnodup₁ with ⟨hkeep, hfrom, hcover, hnodup'⟩
      refine ⟨fun file hfile => hkeep file (List.mem_append_left _ hfile), ?_, ?_, hnodup'⟩
      · intro file hfile
        rcases hfrom file hfile with hfile | ⟨e, he, rfl⟩
        · rcases List.mem_append.1 hfile with hfile | hfile
          · exact .inl hfile
          · exact .inr ⟨entry, List.mem_cons_self, List.mem_singleton.1 hfile⟩
        · exact .inr ⟨e, List.mem_cons_of_mem _ he, rfl⟩
      · refine List.forall_mem_cons.2 ⟨⟨entry.2.path, ?_⟩, hcover⟩
        exact hkeep _ (List.mem_append_right _ (List.mem_singleton.2 rfl))

end

/-- The digests of the table are those of the hash function. -/
def DigestsWell (media : MediaTable) : Prop :=
  ∀ name info, media.lookup name = some info → info.sha1Digest.length = 20

section

variable {Time : Type} (P : Platform Time) {media : MediaTable} {name : Bytes}
  {info info' : MediaInfo}

theorem mem_order_iff {entry : Sigma fun _ : Bytes => MediaInfo} :
    entry ∈ P.order media.entries ↔ media.lookup entry.1 = some entry.2 := by
  rw [(P.order_perm media.entries).mem_iff]
  exact AList.mem_lookup_iff.symm

/-- What is handed over mirrors the table. -/
theorem mirrors_byHash (hwell : DigestsWell media) :
    Mirrors (MediaServer.byHash P media) media := by
  have hlength : ∀ entry ∈ P.order media.entries, entry.2.sha1Digest.length = 20 :=
    fun entry hentry => hwell _ _ ((mem_order_iff P).1 hentry)
  rcases foldl_emplaceByHash hlength (t := []) List.nodup_nil with ⟨-, hfrom, hcover, hnodup⟩
  refine ⟨?_, ?_, hnodup⟩
  · intro name info hlookup
    exact hcover ⟨name, info⟩ ((mem_order_iff P).2 hlookup)
  · intro file hfile
    rcases hfrom file hfile with hnil | ⟨entry, hentry, rfl⟩
    · exact absurd hnil List.not_mem_nil
    · exact ⟨entry.1, entry.2, (mem_order_iff P).1 hentry, rfl, rfl⟩

theorem DigestsWell.insert (hwell : DigestsWell media) (hinfo : info.sha1Digest.length = 20) :
    DigestsWell (media.insert name info) := by
  intro name' info' hlookup
  by_cases hname : name' = name
  · subst hname
    rw [AList.lookup_insert] at hlookup
    cases hlookup
    exact hinfo
  · rw [AList.lookup_insert_ne hname] at hlookup
    exact hwell _ _ hlookup

theorem DigestsWell.erase (hwell : DigestsWell media) : DigestsWell (media.erase name) := by
  intro name' info' hlookup
  by_cases hname : name' = name
  · subst hname
    rw [AList.lookup_erase] at hlookup
    cases hlookup
  · rw [AList.lookup_erase_ne hname] at hlookup
    exact hwell _ _ hlookup

/-- The flags of an entry do not matter. -/
theorem Mirrors.setFlags {t : Table} (h : Mirrors t media) (hold : media.lookup name = some info)
    (hpath : info'.path = info.path) (hdigest : info'.sha1Digest = info.sha1Digest) :
    Mirrors t (media.insert name info') := by
  refine ⟨?_, ?_, h.distinct⟩
  · intro name' info'' hlookup
    by_cases hname : name' = name
    · subst hname
      rw [AList.lookup_insert] at hlookup
      cases hlookup
      rw [hdigest]
      exact h.covered _ _ hold
    · rw [AList.lookup_insert_ne hname] at hlookup
      exact h.covered _ _ hlookup
  · intro file hfile
    rcases h.backed file hfile with ⟨name', info'', hlookup, hhash, hfilepath⟩
    by_cases hname : name' = name
    · subst hname
      have hinfo : info'' = info := Option.some.inj (hlookup.symm.trans hold)
      subst hinfo
      exact ⟨name', info', AList.lookup_insert media, hdigest ▸ hhash, hpath ▸ hfilepath⟩
    · exact ⟨name', info'', (AList.lookup_insert_ne hname).trans hlookup, hhash, hfilepath⟩

/-- A table without the entry of one name, or with another path there: it is mirrored exactly if
the path served for the hash belongs to another entry. -/
theorem Mirrors.of_elsewhere {t : Table} {media' : MediaTable} (h : Mirrors t media)
    (hold : media.lookup name = some info)
    (hnew : ∀ info', media'.lookup name = some info' → info'.sha1Digest = info.sha1Digest)
    (hothers : ∀ name', name' ≠ name → media'.lookup name' = media.lookup name')
    (helse : ∃ name' info', name' ≠ name ∧ media.lookup name' = some info' ∧
      hexEncode info'.sha1Digest = hexEncode info.sha1Digest ∧
      (hexEncode info.sha1Digest, info'.path) ∈ t) :
    Mirrors t media' := by
  rcases helse with ⟨other, otherInfo, hne, hother, hhash, hserved⟩
  refine ⟨?_, ?_, h.distinct⟩
  · intro name' info' hlookup
    by_cases hname : name' = name
    · subst hname
      rw [hnew info' hlookup]
      exact ⟨otherInfo.path, hserved⟩
    · rw [hothers name' hname] at hlookup
      exact h.covered _ _ hlookup
  · intro file hfile
    rcases h.backed file hfile with ⟨name', info', hlookup, hfilehash, hfilepath⟩
    by_cases hname : name' = name
    · subst hname
      have hinfo : info' = info := Option.some.inj (hlookup.symm.trans hold)
      subst hinfo
      -- a hash has one path in the table
      have hpath : file = (hexEncode info'.sha1Digest, otherInfo.path) := by
        have hfst : file.1 = (hexEncode info'.sha1Digest, otherInfo.path).1 := hfilehash.symm
        exact List.inj_on_of_nodup_map h.distinct hfile hserved hfst
      rw [hpath]
      exact ⟨other, otherInfo, (hothers other hne).trans hother, hhash, rfl⟩
    · exact ⟨name', info', (hothers name' hname).trans hlookup, hfilehash, hfilepath⟩

end

/-! ## One step -/

namespace MediaServer

variable {Time : Type} (P : Platform Time) {s : MediaServer Time}

/-- What should hold at any time, with what it rests on. -/
structure Mirrored (s : MediaServer Time) : Prop where
  mirrors : ∀ http, s.mediaHttp = some http → Mirrors http.byHash s.media
  digests : DigestsWell s.media

/-- Beside a new entry, another one has its hash and the path that is served for it. -/
def ServedElsewhere (s : MediaServer Time) (filename filepath filedata : Bytes) : Prop :=
  ∃ name info, name ≠ filename ∧ s.media.lookup name = some info ∧
    hexEncode info.sha1Digest = hexEncode (P.sha1 filedata) ∧
    (hexEncode (P.sha1 filedata), info.path) ∈ byHash P
      (s.media.insert filename { path := filepath, sha1Digest := P.sha1 filedata })

def resolvedName (a : DynamicMediaArgs) (filepath : Bytes) : Bytes :=
  if a.filename = [] then getFilenameFromPath filepath else a.filename

/-- An ephemeral file that is given by its path, and accepted, is served elsewhere. -/
def CopyServed (s : MediaServer Time) (a : DynamicMediaArgs) : Prop :=
  ∀ filepath filedata, a.source = .file filepath → a.ephemeral = true → s.env = true →
    s.mediaHttp.isSome = true → s.nameTaken a (resolvedName a filepath) filepath = false →
    s.acceptableFile (resolvedName a filepath) filepath = some filedata →
    s.ServedElsewhere P (resolvedName a filepath) filepath filedata

/-- What is asked of a step. -/
def MirrorKept (s : MediaServer Time) : Event Time → Prop
  | .addMediaOfMod a _ => s.CopyServed P a
  | .addMediaOfEngine a _ => s.CopyServed P a
  | _ => True

/-- The tables are not touched. -/
def SameTables (s t : MediaServer Time) : Prop :=
  t.media = s.media ∧ t.mediaHttp = s.mediaHttp

theorem Mirrored.of_sameTables {t : MediaServer Time} (h : s.Mirrored) (hsame : SameTables s t) :
    t.Mirrored := by
  refine ⟨fun http hhttp => ?_, ?_⟩
  · rw [hsame.1]
    exact h.mirrors http (hsame.2 ▸ hhttp)
  · rw [hsame.1]
    exact h.digests

theorem mirrored_iff_of_sameTables {t : MediaServer Time} (hsame : SameTables s t) :
    t.Mirrored ↔ s.Mirrored :=
  ⟨fun h => h.of_sameTables ⟨hsame.1.symm, hsame.2.symm⟩, fun h => h.of_sameTables hsame⟩

theorem mirrored_update (hwell : DigestsWell s.media) : (updateMediaHttp P s).Mirrored := by
  refine ⟨fun http hhttp => ?_, hwell⟩
  rcases Option.map_eq_some_iff.1 hhttp with ⟨http', -, rfl⟩
  exact mirrors_byHash P hwell

theorem mirrored_addMediaFile {filename filepath : Bytes} (h : s.Mirrored) :
    (s.addMediaFile P filename filepath).1.Mirrored := by
  rw [addMediaFile]
  split
  · exact h
  · exact mirrored_update P (h.digests.insert (P.length_sha1 _))

/-- How a call of `dynamicAddMedia` may leave the tables, from the file on disk on. -/
inductive Added (old media : MediaTable) (a : DynamicMediaArgs)
    (filename filepath filedata : Bytes) (temp : Option Bytes) : Prop
  /-- The entry keeps its path. -/
  | flagged (info : MediaInfo) (hplain : ∀ path, a.source = .file path → a.ephemeral = false)
      (hpath : info.path = filepath)
      (hdigest : info.sha1Digest = P.sha1 filedata)
      (hmedia : media = (old.insert filename
        { path := filepath, sha1Digest := P.sha1 filedata }).insert filename info)
  /-- The copy failed. -/
  | taken (hsource : a.source = .file filepath) (hephemeral : a.ephemeral = true)
      (hmedia : media = (old.insert filename
        { path := filepath, sha1Digest := P.sha1 filedata }).erase filename)
  | copied (copy : Bytes) (info : MediaInfo) (hsource : a.source = .file filepath)
      (hephemeral : a.ephemeral = true) (htemp : temp = some copy) (hpath : info.path = copy)
      (hdigest : info.sha1Digest = P.sha1 filedata)
      (hmedia : media = (old.insert filename
        { path := filepath, sha1Digest := P.sha1 filedata }).insert filename info)

/-- The table of the HTTP server after the file was put down. -/
def HandedOver (s t : MediaServer Time) (filename filepath filedata : Bytes) : Prop :=
  t.mediaHttp = s.mediaHttp.map fun http => http.setMedia (byHash P
    (s.media.insert filename { path := filepath, sha1Digest := P.sha1 filedata }))

theorem finishEntry_added (a : DynamicMediaArgs) (filename filepath filedata : Bytes)
    (temp : Option Bytes) (hsource : ∀ path, a.source = .file path → path = filepath) :
    let info : MediaInfo := { path := filepath, sha1Digest := P.sha1 filedata }
    let added := updateMediaHttp P { s with media := s.media.insert filename info }
    Added P s.media (added.finishEntry a filename filedata info temp).1.media a filename filepath filedata
      temp ∧
      HandedOver P s (added.finishEntry a filename filedata info temp).1 filename filepath
        filedata := by
  dsimp only
  unfold finishEntry
  cases hsrc : a.source with
  | data content =>
    have hplain : ∀ path, a.source = .file path → a.ephemeral = false := by
      intro path hpath
      rw [hsrc] at hpath
      cases hpath
    cases heph : a.ephemeral with
    | true => exact ⟨.flagged _ hplain rfl rfl rfl, rfl⟩
    | false => exact ⟨.flagged _ hplain rfl rfl rfl, rfl⟩
  | file path =>
    have hpath : path = filepath := hsource path hsrc
    subst hpath
    cases heph : a.ephemeral with
    | false => exact ⟨.flagged _ (fun _ _ => heph) rfl rfl rfl, rfl⟩
    | true =>
      cases temp with
      | none => exact ⟨.taken hsrc heph rfl, rfl⟩
      | some copy => exact ⟨.copied copy _ hsrc heph rfl rfl rfl rfl, rfl⟩

theorem addFrom_cases (s : MediaServer Time) (a : DynamicMediaArgs) (filename filepath : Bytes)
    (temp : Option Bytes)
    (hsource : ∀ path, a.source = .file path → path = filepath) :
    SameTables s (s.addFrom P a filename filepath temp).1 ∨
      ∃ filedata, s.nameTaken a filename filepath = false ∧
        s.acceptableFile filename filepath = some filedata ∧
        Added P s.media (s.addFrom P a filename filepath temp).1.media a filename filepath filedata temp ∧
        HandedOver P s (s.addFrom P a filename filepath temp).1 filename filepath filedata := by
  rw [addFrom]
  cases htaken : s.nameTaken a filename filepath with
  | true => exact .inl ⟨rfl, rfl⟩
  | false =>
    rw [if_neg Bool.false_ne_true, addMediaFile]
    cases hfile : s.acceptableFile filename filepath with
    | none =>
      refine .inl ?_
      cases a.source with
      | data content => exact ⟨rfl, rfl⟩
      | file path => exact ⟨rfl, rfl⟩
    | some filedata =>
      refine .inr ⟨filedata, rfl, rfl, ?_⟩
      have hadded := finishEntry_added P (s := s) a filename filepath filedata temp hsource
      dsimp only at hadded ⊢
      split
      · split
        · exact hadded
        · exact hadded
      · exact hadded

section

variable {a : DynamicMediaArgs} {filename filepath filedata : Bytes} {temp : Option Bytes}
  {t : MediaServer Time}

theorem mirrored_added (h : s.Mirrored) (hadded : Added P s.media t.media a filename filepath filedata temp)
    (hhanded : HandedOver P s t filename filepath filedata)
    (hserved : a.source = .file filepath → a.ephemeral = true → s.mediaHttp.isSome = true →
      s.ServedElsewhere P filename filepath filedata) : t.Mirrored := by
  have hwell : DigestsWell (s.media.insert filename
      { path := filepath, sha1Digest := P.sha1 filedata }) :=
    h.digests.insert (P.length_sha1 _)
  have hmirrors := mirrors_byHash P hwell
  have hold := AList.lookup_insert s.media (a := filename)
    (b := ({ path := filepath, sha1Digest := P.sha1 filedata } : MediaInfo))
  have hhttp : ∀ http, t.mediaHttp = some http → s.mediaHttp.isSome = true ∧
      http.byHash = byHash P (s.media.insert filename
        { path := filepath, sha1Digest := P.sha1 filedata }) := by
    intro http hhttp
    rw [hhanded] at hhttp
    rcases Option.map_eq_some_iff.1 hhttp with ⟨http', hhttp', rfl⟩
    exact ⟨hhttp' ▸ rfl, rfl⟩
  -- the other entry that has the hash, seen in the table after the insertion
  have helse : s.ServedElsewhere P filename filepath filedata → ∃ name' info', name' ≠ filename ∧
      (s.media.insert filename { path := filepath, sha1Digest := P.sha1 filedata }).lookup name' =
        some info' ∧ hexEncode info'.sha1Digest = hexEncode (P.sha1 filedata) ∧
      (hexEncode (P.sha1 filedata), info'.path) ∈ byHash P (s.media.insert filename
        { path := filepath, sha1Digest := P.sha1 filedata }) := by
    rintro ⟨name', info', hne, hlookup, hhash, hmem⟩
    exact ⟨name', info', hne, (AList.lookup_insert_ne hne).trans hlookup, hhash, hmem⟩
  cases hadded with
  | flagged info hplain hpath hdigest hmedia =>
    refine ⟨fun http hsome => ?_, ?_⟩
    · rw [(hhttp http hsome).2, hmedia]
      exact hmirrors.setFlags hold hpath hdigest
    · rw [hmedia]
      exact hwell.insert (hdigest ▸ P.length_sha1 _)
  | taken hsource hephemeral hmedia =>
    refine ⟨fun http hsome => ?_, ?_⟩
    · rw [(hhttp http hsome).2, hmedia]
      refine hmirrors.of_elsewhere hold ?_ (fun name' hne => AList.lookup_erase_ne hne)
        (helse (hserved hsource hephemeral (hhttp http hsome).1))
      intro info' hlookup
      rw [AList.lookup_erase] at hlookup
      cases hlookup
    · rw [hmedia]
      exact hwell.erase
  | copied copy info hsource hephemeral htemp hpath hdigest hmedia =>
    refine ⟨fun http hsome => ?_, ?_⟩
    · rw [(hhttp http hsome).2, hmedia]
      refine hmirrors.of_elsewhere hold ?_ (fun name' hne => AList.lookup_insert_ne hne)
        (helse (hserved hsource hephemeral (hhttp http hsome).1))
      intro info' hlookup
      rw [AList.lookup_insert] at hlookup
      cases hlookup
      exact hdigest
    · rw [hmedia]
      exact hwell.insert (hdigest ▸ P.length_sha1 _)

/-- Without another entry that is served, the hash leads nowhere after the copy. -/
theorem servedElsewhere_of_mirrored (h : s.Mirrored) (ht : t.Mirrored)
    (hadded : Added P s.media t.media a filename filepath filedata temp)
    (hhanded : HandedOver P s t filename filepath filedata) (hsource : a.source = .file filepath)
    (hephemeral : a.ephemeral = true) (hrunning : s.mediaHttp.isSome = true)
    (hfile : s.disk filepath = some filedata) (hfresh : s.Fresh temp) :
    s.ServedElsewhere P filename filepath filedata := by
  have hwell : DigestsWell (s.media.insert filename
      { path := filepath, sha1Digest := P.sha1 filedata }) :=
    h.digests.insert (P.length_sha1 _)
  have hmirrors := mirrors_byHash P hwell
  have hold := AList.lookup_insert s.media (a := filename)
    (b := ({ path := filepath, sha1Digest := P.sha1 filedata } : MediaInfo))
  rcases Option.isSome_iff_exists.1 hrunning with ⟨http, hhttp⟩
  have htmirrors : Mirrors (byHash P (s.media.insert filename
      { path := filepath, sha1Digest := P.sha1 filedata })) t.media := by
    refine ht.mirrors (http.setMedia (byHash P _)) ?_
    rw [hhanded, hhttp, Option.map_some]
  rcases hmirrors.covered filename _ hold with ⟨path, hserved⟩
  rcases htmirrors.backed _ hserved with ⟨name, info, hlookup, hhash, hpath⟩
  have hother : name ≠ filename → t.media.lookup name = s.media.lookup name →
      s.ServedElsewhere P filename filepath filedata := by
    intro hne hsame
    refine ⟨name, info, hne, hsame ▸ hlookup, hhash, ?_⟩
    rw [hpath]
    exact hserved
  cases hadded with
  | flagged info hplain hpath hdigest hmedia =>
    rw [hplain filepath hsource] at hephemeral
    cases hephemeral
  | taken _ _ hmedia =>
    by_cases hne : name = filename
    · rw [hne, hmedia, AList.lookup_erase] at hlookup
      cases hlookup
    · refine hother hne ?_
      rw [hmedia, AList.lookup_erase_ne hne, AList.lookup_insert_ne hne]
  | copied copy info' _ _ htemp hpath' hdigest hmedia =>
    by_cases hne : name = filename
    · rw [hne, hmedia, AList.lookup_insert] at hlookup
      cases hlookup
      -- the copy itself is served: then it is the path of an entry that was there before
      rcases hmirrors.backed _ hserved with ⟨name₂, info₂, hlookup₂, hhash₂, hpath₂⟩
      by_cases hne₂ : name₂ = filename
      · rw [hne₂, hold] at hlookup₂
        cases hlookup₂
        have hcopy : filepath = copy := hpath₂.trans (hpath.symm.trans hpath')
        have hnone := hfresh copy htemp
        rw [← hcopy, hfile] at hnone
        cases hnone
      · refine ⟨name₂, info₂, hne₂, (AList.lookup_insert_ne hne₂).symm.trans hlookup₂, hhash₂, ?_⟩
        rw [hpath₂]
        exact hserved
    · refine hother hne ?_
      rw [hmedia, AList.lookup_insert_ne hne, AList.lookup_insert_ne hne]

/-- A call of `dynamicAddMedia`: the tables stay, or a file is added. -/
theorem dynamicAddMedia_cases (s : MediaServer Time) (a : DynamicMediaArgs) (temp : Option Bytes) :
    SameTables s (s.dynamicAddMedia P a temp).1 ∨
      (∃ filename filepath filedata content, a.source = .data content ∧
        Added P s.media (s.dynamicAddMedia P a temp).1.media a filename filepath filedata temp ∧
        HandedOver P s (s.dynamicAddMedia P a temp).1 filename filepath filedata) ∨
      ∃ filepath filedata, a.source = .file filepath ∧ (a.ephemeral = true → s.env = true) ∧
        s.nameTaken a (resolvedName a filepath) filepath = false ∧
        s.acceptableFile (resolvedName a filepath) filepath = some filedata ∧
        Added P s.media (s.dynamicAddMedia P a temp).1.media a (resolvedName a filepath) filepath filedata
          temp ∧
        HandedOver P s (s.dynamicAddMedia P a temp).1 (resolvedName a filepath) filepath
          filedata := by
  rw [dynamicAddMedia]
  dsimp only
  by_cases hstartup : ¬ s.env = true ∧ (a.toPlayer ≠ [] ∨ a.ephemeral = true)
  · rw [if_pos hstartup]
    exact .inl ⟨rfl, rfl⟩
  · rw [if_neg hstartup, fileOnDisk]
    cases hsource : a.source with
    | data content =>
      cases temp with
      | none => exact .inl ⟨rfl, rfl⟩
      | some filepath =>
        have hdata : ∀ path, a.source = .file path → path = filepath := by
          intro path hpath
          rw [hsource] at hpath
          cases hpath
        rcases addFrom_cases P ({ s with usedTokens := a.token :: s.usedTokens }.writeFile
          filepath (some content)) a a.filename filepath (some filepath) hdata with hsame | ⟨filedata, -, -, hadded, hhanded⟩
        · exact .inl hsame
        · exact .inr (.inl ⟨a.filename, filepath, filedata, content, rfl, hadded, hhanded⟩)
    | file filepath =>
      have hfile : ∀ path, a.source = .file path → path = filepath := by
        intro path hpath
        rw [hsource] at hpath
        cases hpath
        rfl
      have henv : a.ephemeral = true → s.env = true := by
        intro hephemeral
        by_contra hnot
        exact hstartup ⟨hnot, .inr hephemeral⟩
      rcases addFrom_cases P { s with usedTokens := a.token :: s.usedTokens } a
        (resolvedName a filepath) filepath temp hfile with hsame | ⟨filedata, htaken, haccept, hadded, hhanded⟩
      · exact .inl hsame
      · exact .inr (.inr ⟨filepath, filedata, rfl, henv, htaken, haccept, hadded, hhanded⟩)

theorem mirrored_dynamicAddMedia (h : s.Mirrored) (hserved : s.CopyServed P a) :
    (s.dynamicAddMedia P a temp).1.Mirrored := by
  rcases dynamicAddMedia_cases P s a temp with hsame |
    ⟨filename, filepath, filedata, content, hsource, hadded, hhanded⟩ |
    ⟨filepath, filedata, hsource, henv, htaken, haccept, hadded, hhanded⟩
  · exact h.of_sameTables hsame
  · refine mirrored_added P h hadded hhanded fun hfile => ?_
    rw [hsource] at hfile
    cases hfile
  · refine mirrored_added P h hadded hhanded fun _ hephemeral hrunning => ?_
    exact hserved filepath filedata hsource hephemeral (henv hephemeral) hrunning htaken haccept

theorem disk_of_acceptableFile (h : s.acceptableFile filename filepath = some filedata) :
    s.disk filepath = some filedata := by
  rw [acceptableFile] at h
  split at h
  · cases h
  split at h
  · cases h
  split at h
  · cases h
  case h_2 content hdisk =>
    split at h
    · cases h
    split at h
    · cases h
    cases h
    exact hdisk

theorem copyServed_of_mirrored (h : s.Mirrored) (hfresh : s.Fresh temp)
    (ht : (s.dynamicAddMedia P a temp).1.Mirrored) : s.CopyServed P a := by
  intro filepath filedata hsource hephemeral henv hrunning htaken haccept
  have hresult : Added P s.media (s.dynamicAddMedia P a temp).1.media a (resolvedName a filepath) filepath
      filedata temp ∧ HandedOver P s (s.dynamicAddMedia P a temp).1 (resolvedName a filepath) filepath
        filedata := by
    have hfile : ∀ path, a.source = .file path → path = filepath := by
      intro path hpath
      rw [hsource] at hpath
      cases hpath
      rfl
    have hstartup : ¬ (¬ s.env = true ∧ (a.toPlayer ≠ [] ∨ a.ephemeral = true)) :=
      fun hnot => hnot.1 henv
    have hcall : s.dynamicAddMedia P a temp = { s with usedTokens := a.token :: s.usedTokens }.addFrom
        P a (resolvedName a filepath) filepath temp := by
      rw [dynamicAddMedia]
      dsimp only
      rw [if_neg hstartup, fileOnDisk, hsource]
      rfl
    rw [hcall, addFrom, addMediaFile]
    have htaken' : nameTaken { s with usedTokens := a.token :: s.usedTokens } a
        (resolvedName a filepath) filepath = false := htaken
    have haccept' : acceptableFile { s with usedTokens := a.token :: s.usedTokens }
        (resolvedName a filepath) filepath = some filedata := haccept
    rw [htaken', if_neg Bool.false_ne_true, haccept']
    have hadded := finishEntry_added P (s := { s with usedTokens := a.token :: s.usedTokens }) a
      (resolvedName a filepath) filepath filedata temp hfile
    dsimp only at hadded ⊢
    split
    · split
      · exact hadded
      · exact hadded
    · exact hadded
  exact servedElsewhere_of_mirrored P h ht hresult.1 hresult.2 hsource hephemeral hrunning
    (disk_of_acceptableFile haccept) hfresh

end

section

variable {a : DynamicMediaArgs} {temp : Option Bytes}

theorem sameTables_addMediaOfMod : SameTables
    (dynamicAddMedia P (if a.token = 0 then s else { s with log := .registered a.token :: s.log }) a
      temp).1 (s.addMediaOfMod P a temp) := by
  rw [addMediaOfMod]
  generalize (if a.token = 0 then s else { s with log := .registered a.token :: s.log }) = s₁
  split
  case h_1 t hcall =>
    rw [hcall, freeDynamicMediaCallback]
    split
    · exact ⟨rfl, rfl⟩
    · exact ⟨rfl, rfl⟩
  case h_2 t outcome _ hcall =>
    rw [hcall]
    exact ⟨rfl, rfl⟩

theorem sameTables_registered :
    SameTables s (if a.token = 0 then s else { s with log := .registered a.token :: s.log }) := by
  split
  · exact ⟨rfl, rfl⟩
  · exact ⟨rfl, rfl⟩

end

variable {p : SessionT} {e : Event Time} {token : UInt32} {t : MediaServer Time}

theorem sameTables_acknowledge : SameTables s (s.acknowledge p token) := by
  rw [acknowledge]
  split
  · exact ⟨rfl, rfl⟩
  split
  case isFalse => exact ⟨rfl, rfl⟩
  dsimp only
  split
  · exact ⟨rfl, rfl⟩
  · exact ⟨rfl, rfl⟩

theorem mirrored_haveMedia {data : Bytes} (h : s.Mirrored) : (s.handleCommandHaveMedia p data).Mirrored := by
  rw [handleCommandHaveMedia]
  split
  · exact h
  case h_2 tokens rest _ =>
    refine List.foldlRecOn tokens (acknowledge p) h fun t ht token _ => ?_
    exact ht.of_sameTables sameTables_acknowledge

theorem mirrored_dropFile {name : Bytes} (h : s.Mirrored) (hdrop : s.dropFile P name = some t) :
    t.Mirrored := by
  rw [dropFile] at hdrop
  split at hdrop
  · cases hdrop
    exact h
  split at hdrop
  · cases hdrop
  split at hdrop
  · cases hdrop
    exact (mirrored_update P (s := { s with media := s.media.erase name })
      h.digests.erase).of_sameTables ⟨rfl, rfl⟩
  · cases hdrop

theorem sameTables_endRecord : SameTables s (s.endRecord token) := by
  rw [endRecord]
  dsimp only
  split
  · exact ⟨rfl, rfl⟩
  · rw [freeDynamicMediaCallback]
    split
    · exact ⟨rfl, rfl⟩
    · exact ⟨rfl, rfl⟩

theorem mirrored_stepRecord {dtime : Time} (h : s.Mirrored) (hstep : s.stepRecord P dtime token = some t) :
    t.Mirrored := by
  rw [stepRecord] at hstep
  split at hstep
  · cases hstep
    exact h
  dsimp only at hstep
  split at hstep
  · cases hstep
    exact h.of_sameTables ⟨rfl, rfl⟩
  · rcases Option.map_eq_some_iff.1 hstep with ⟨u, hdrop, rfl⟩
    exact (mirrored_dropFile P h hdrop).of_sameTables sameTables_endRecord

theorem mirrored_step (h : s.Mirrored) (hkept : s.MirrorKept P e) (hstep : Step P s e t) : t.Mirrored := by
  cases hstep with
  | apply hpossible happly =>
    cases e with
    | addMediaFile filename filepath =>
      cases happly
      exact mirrored_addMediaFile P h
    | addMediaOfMod a temp =>
      cases happly
      refine Mirrored.of_sameTables ?_ (sameTables_addMediaOfMod P)
      refine mirrored_dynamicAddMedia P (h.of_sameTables sameTables_registered) ?_
      split
      · exact hkept
      · exact hkept
    | addMediaOfEngine a temp =>
      cases happly
      refine mirrored_dynamicAddMedia P
        (Mirrored.of_sameTables (t := { s with
          engineMediaToken := a.token
          engineMediaTokens := a.token :: s.engineMediaTokens }) h ⟨rfl, rfl⟩) hkept
    | haveMedia p data =>
      rw [MediaServer.apply] at happly
      split at happly
      · cases happly
        exact mirrored_haveMedia h
      · cases happly
        exact h
    | stepPending dtime =>
      exact foldlM_invariant (fun s token t hs => mirrored_stepRecord P hs) h happly
    | fileChanged path content =>
      cases happly
      exact h.of_sameTables ⟨rfl, rfl⟩
    | clientsChanged clients players =>
      cases happly
      exact h.of_sameTables ⟨rfl, rfl⟩
    | envCreated =>
      cases happly
      exact h.of_sameTables ⟨rfl, rfl⟩
    | httpStarted =>
      cases happly
      exact mirrored_update P h.digests

theorem not_mirrored_step (h : s.Mirrored) (hkept : ¬ s.MirrorKept P e) (hstep : Step P s e t) :
    ¬ t.Mirrored := by
  intro ht
  cases hstep with
  | apply hpossible happly =>
    cases e with
    | addMediaOfMod a temp =>
      cases happly
      refine hkept ?_
      have hreg := h.of_sameTables (sameTables_registered (a := a))
      have hcall := (mirrored_iff_of_sameTables (sameTables_addMediaOfMod P)).1 ht
      have hfresh : Fresh (if a.token = 0 then s else
          { s with log := .registered a.token :: s.log }) temp := by
        split
        · exact hpossible.2
        · exact hpossible.2
      have hserved := copyServed_of_mirrored P hreg hfresh hcall
      split at hserved
      · exact hserved
      · exact hserved
    | addMediaOfEngine a temp =>
      cases happly
      refine hkept ?_
      exact copyServed_of_mirrored P (s := { s with
        engineMediaToken := a.token
        engineMediaTokens := a.token :: s.engineMediaTokens })
        (h.of_sameTables ⟨rfl, rfl⟩) hpossible.2.2 ht
    | _ => exact absurd trivial hkept

end MediaServer

/-! ## Whole runs -/

/-- A run goes through states where the HTTP server's table mirrors the media exactly if each of its
steps keeps the mirror. -/
theorem http_mirrors_media {Time : Type} (P : Platform Time) {es : List (Event Time)}
    {s : MediaServer Time} :
    Run.Guarded (MediaServer.MirrorKept P) (MediaServer.Step P) {} es s ↔
      Run (fun s e t => MediaServer.Step P s e t ∧ t.Mirrored) {} es s := by
  refine Run.guarded_iff (fun s e t hs => MediaServer.mirrored_step P hs)
    (fun s e t hs => MediaServer.not_mirrored_step P hs) ?_
  refine ⟨?_, ?_⟩
  · intro http hhttp
    cases hhttp
  · intro name info hlookup
    rw [AList.lookup_empty] at hlookup
    cases hlookup

/-- SHA-1 of the one byte in question, and a clock of whole seconds. -/
def oneFile : Platform Int where
  sha1 := fun _ => [0x11, 0xf6, 0xad, 0x8e, 0xc5, 0x2a, 0x29, 0x84, 0xab, 0xaa, 0xfd, 0x7c, 0x3b,
    0x51, 0x65, 0x03, 0x78, 0x5c, 0x20, 0x72]
  length_sha1 := fun _ => rfl
  minus := fun a b => a - b
  notNegative := fun a => 0 ≤ a
  patience := 60
  order := id
  order_perm := fun _ => List.Perm.refl _

/-- A mod adds an ephemeral file by its path. -/
def addedByPath : List (Event Int) :=
  [.envCreated, .fileChanged (ascii "/m/a.png") (some (ascii "x")), .httpStarted,
    .addMediaOfMod ⟨[], .file (ascii "/m/a.png"), 7, [], true⟩ (some (ascii "/tmp/t"))]

/-- The one entry has the path of the copy; the hash leads to the file of the mod. -/
theorem addedByPath_notMirrored : ∃ s, Run (MediaServer.Step oneFile) {} addedByPath s ∧
    s.mediaHttp.map (fun http => http.byHash.map Prod.snd) = some [ascii "/m/a.png"] ∧
    s.media.entries.map (fun entry => entry.2.path) = [ascii "/tmp/t"] := by
  refine ⟨_, .cons (.apply trivial rfl) <| .cons (.apply trivial rfl) <|
    .cons (.apply trivial rfl) <| .cons (.apply ⟨List.not_mem_nil, ?_⟩ rfl) <| .nil _, ?_, ?_⟩
  · intro path hpath
    cases hpath
    decide
  · decide
  · decide

end DynamicMedia
end AxisEngine
