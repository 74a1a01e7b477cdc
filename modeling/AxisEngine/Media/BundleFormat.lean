import AxisEngine.Media.MediaHttpServer
import AxisEngine.Media.Phases
import Mathlib.Algebra.Order.BigOperators.Group.List
import Mathlib.Algebra.Order.Group.Nat

/-!
# BundleFormat — what the server packs and what the client unpacks

The server packs the files of its table into parts, and the client takes each part apart again.  Both
sides have their own loop over bytes; here the two are put together.

* `MediaTable` — the files that are served;
* `record`, `part` — the bytes of a file in a part, and those of a part;
* `bundleFiles_part` — a part is taken apart into its records;
* `bundle_agrees` — what is packed is unpacked, and a client gets the files that it misses.
-/

namespace AxisEngine
namespace Media

open Lib Util

/-- The files that are served, each under its hash: `updateMediaHttp` makes the table of files that
`addMediaFile` has let in. -/
structure MediaTable (readFile : Bytes → Option Bytes) where
  files : Table
  hash : ∀ f ∈ files, ∃ sha1 : Bytes, sha1.length = 20 ∧ f.1 = hexEncode sha1
  distinct : (files.map Prod.fst).Nodup
  readable : ∀ f ∈ files, ∃ data, readFile f.2 = some data ∧ data.length ≤ mediaFileMaxSize

/-- What is read for a file. -/
def content (readFile : Bytes → Option Bytes) (f : Bytes × Bytes) : Bytes :=
  (readFile f.2).getD []

/-! ## The bytes of a part -/

/-- The hash, the size and the content. -/
def record (file : Bytes × Bytes) : Bytes :=
  file.1 ++ writeU32 (UInt32.ofNat file.2.length) ++ file.2

def part (files : List (Bytes × Bytes)) : Bytes :=
  writeU32 bundleSignature ++ writeU16 bundleVersion ++ writeU32 (UInt32.ofNat files.length) ++
    files.flatMap record

/-- The reader can tell where such a file ends. -/
structure Fits (file : Bytes × Bytes) : Prop where
  key : file.1.length = 40
  size : file.2.length < 2 ^ 32

section

variable {readFile : Bytes → Option Bytes} {compressZstd : Bytes → Bytes} {env : Env}
variable {file : Bytes × Bytes} {files : List (Bytes × Bytes)}

theorem length_record (file : Bytes × Bytes) :
    (record file).length = file.1.length + 4 + file.2.length := by
  rw [record, List.length_append, List.length_append, length_writeU32]

/-- Every file takes bytes, so a part of bounded size has a bounded number of them. -/
theorem length_flatMap_record (files : List (Bytes × Bytes)) :
    4 * files.length ≤ (files.flatMap record).length := by
  induction files with
  | nil => rfl
  | cons file files ih =>
    rw [List.flatMap_cons, List.length_append, length_record, List.length_cons]
    omega

theorem putU32_beginPart (body : Bytes) (n : UInt32) :
    putU32 (beginPart ++ body) 6 n =
      writeU32 bundleSignature ++ writeU16 bundleVersion ++ writeU32 n ++ body := by
  have htake : (beginPart ++ body).take 6 = writeU32 bundleSignature ++ writeU16 bundleVersion := rfl
  have hdrop : (beginPart ++ body).drop (6 + 4) = body := rfl
  rw [putU32, htake, hdrop]

/-! ## Reading -/

theorem readFiles_record (h : Fits file) (fuel : Nat) (rest : Bytes) :
    ClientMediaDownloader.readFiles (fuel + 1) (record file ++ rest) =
      (file :: (ClientMediaDownloader.readFiles fuel rest).1,
        (ClientMediaDownloader.readFiles fuel rest).2) := by
  have hbytes : record file ++ rest =
      file.1 ++ (writeU32 (UInt32.ofNat file.2.length) ++ (file.2 ++ rest)) := by
    simp only [record, List.append_assoc]
  have hlength : ¬ (record file ++ rest).length < 44 := by
    rw [List.length_append, length_record, h.key]
    omega
  have hsize : (readU32 (record file ++ rest) 40).toNat = file.2.length := by
    rw [hbytes, readU32_append_right _ _ _ (le_of_eq h.key), h.key, readU32_writeU32,
      UInt32.toNat_ofNat']
    exact Nat.mod_eq_of_lt h.size
  have hkey : (record file ++ rest).take 40 = file.1 := by
    rw [hbytes, ← h.key, List.take_left]
  have hrest : (record file ++ rest).drop 44 = file.2 ++ rest := by
    have hhead : (file.1 ++ writeU32 (UInt32.ofNat file.2.length)).length = 44 := by
      rw [List.length_append, h.key, length_writeU32]
    rw [hbytes, ← List.append_assoc, ← hhead, List.drop_left]
  have hwhole : ¬ file.2.length > (file.2 ++ rest).length := by
    rw [List.length_append]
    omega
  rw [ClientMediaDownloader.readFiles, if_neg hlength]
  simp only [hsize, hkey, hrest]
  rw [if_neg hwhole, List.take_left, List.drop_left]

/-- With a round for each file, all are read. -/
theorem readFiles_flatMap (h : ∀ file ∈ files, Fits file) {fuel : Nat}
    (hfuel : files.length ≤ fuel) :
    ClientMediaDownloader.readFiles fuel (files.flatMap record) = (files, true) := by
  induction files generalizing fuel with
  | nil =>
    cases fuel with
    | zero => rfl
    | succ fuel => rfl
  | cons file files ih =>
    rw [List.forall_mem_cons] at h
    cases fuel with
    | zero => exact absurd hfuel (Nat.not_succ_le_zero _)
    | succ fuel =>
      rw [List.flatMap_cons, readFiles_record h.1, ih h.2 (Nat.le_of_succ_le_succ hfuel)]

theorem bundleFiles_part {packed : Bytes} (h : ∀ file ∈ files, Fits file)
    (hpacked : env.decompressZstd packed = some (part files)) :
    ClientMediaDownloader.bundleFiles env packed = (files, true) := by
  have hdrop : (part files).drop 10 = files.flatMap record := rfl
  have hlength : (part files).length = 10 + (files.flatMap record).length := by
    rw [part, List.length_append]
    rfl
  have hsignature : readU32 (part files) 0 = bundleSignature := by
    rw [part, List.append_assoc, List.append_assoc]
    exact readU32_writeU32 _ _
  have hversion : readU16 (part files) 4 = bundleVersion := by
    rw [part, List.append_assoc, List.append_assoc]
    exact (readU16_append_right (writeU32 bundleSignature) _ 4 (le_of_eq rfl)).trans
      (readU16_writeU16 _ _)
  have hheader : ¬ ((part files).length < 10 ∨ readU32 (part files) 0 ≠ bundleSignature ∨
      readU16 (part files) 4 ≠ bundleVersion) := by
    rw [hsignature, hversion, hlength]
    simp
  have hfuel : files.length ≤ (part files).length := by
    have hrecords := length_flatMap_record files
    omega
  rw [ClientMediaDownloader.bundleFiles, hpacked]
  dsimp only
  rw [if_neg hheader, hdrop]
  exact readFiles_flatMap h hfuel

/-! ## Packing -/

/-- The packing has finished the parts with `chunks`, and `last` is in the part that is open. -/
structure Packed (compressZstd : Bytes → Bytes) (chunks : List (List (Bytes × Bytes)))
    (last : List (Bytes × Bytes)) (p : Packing) : Prop where
  raw : p.raw = beginPart ++ last.flatMap record
  count : p.count = UInt32.ofNat last.length
  packed : p.packed = chunks.map fun chunk => compressZstd (part chunk)

variable {p : Packing} {last : List (Bytes × Bytes)} {chunks : List (List (Bytes × Bytes))}

section

variable (h : Packed compressZstd chunks last p)

include h

theorem Packed.finishPart (hlast : last.length < 2 ^ 32) :
    Packed compressZstd (if last = [] then chunks else chunks ++ [last]) []
      (finishPart compressZstd p) := by
  have hcount : p.count = 0 ↔ last = [] := by
    rw [h.count, ← List.length_eq_zero_iff, ← UInt32.toNat_inj, UInt32.toNat_ofNat',
      Nat.mod_eq_of_lt hlast]
    rfl
  rw [Media.finishPart]
  by_cases hnil : last = []
  · rw [if_pos (hcount.2 hnil), if_pos hnil]
    exact hnil ▸ h
  · rw [if_neg (mt hcount.1 hnil), if_neg hnil]
    refine ⟨by rw [List.flatMap_nil, List.append_nil], rfl, ?_⟩
    rw [h.raw, h.count, putU32_beginPart, h.packed, List.map_append]
    rfl

/-- One file more, in the open part or at the end of a finished one. -/
theorem Packed.packFile {f : Bytes × Bytes} {data : Bytes} (hsmall : p.raw.length < bundlePartSize)
    (hread : readFile f.2 = some data) :
    ∃ chunks' last', Packed compressZstd chunks' last' (packFile readFile compressZstd p f) ∧
      (packFile readFile compressZstd p f).raw.length < bundlePartSize ∧
      chunks'.flatten ++ last' = chunks.flatten ++ last ++ [(f.1, data)] := by
  have hbound := length_flatMap_record last
  have hlength : last.length < bundlePartSize := by
    rw [h.raw, List.length_append] at hsmall
    omega
  have hlast : (last ++ [(f.1, data)]).length < 2 ^ 32 := by
    rw [List.length_append, List.length_singleton]
    rw [bundlePartSize] at hlength
    omega
  have hadded : Packed compressZstd chunks (last ++ [(f.1, data)])
      { p with
        raw := p.raw ++ f.1 ++ writeU32 (UInt32.ofNat data.length) ++ data
        count := p.count + 1 } := by
    refine ⟨?_, ?_, h.packed⟩
    · rw [h.raw, List.flatMap_append, List.flatMap_singleton, record]
      simp only [List.append_assoc]
    · rw [h.count, List.length_append, List.length_singleton]
      exact (UInt32.ofNat_add _ _).symm
  rw [Media.packFile, hread]
  dsimp only
  split
  · have hfinished := hadded.finishPart hlast
    rw [if_neg (List.append_ne_nil_of_right_ne_nil _ (List.cons_ne_nil _ _))] at hfinished
    refine ⟨_, _, hfinished, ?_, ?_⟩
    · rw [hfinished.raw]
      decide
    · rw [List.flatten_append, List.flatten_singleton, List.append_nil, List.append_assoc]
  · rename_i hopen
    refine ⟨_, _, hadded, Nat.lt_of_not_le hopen, ?_⟩
    rw [List.append_assoc]

theorem Packed.foldl {files : Table} (hsmall : p.raw.length < bundlePartSize)
    (hread : ∀ f ∈ files, ∃ data, readFile f.2 = some data) :
    ∃ chunks' last', Packed compressZstd chunks' last'
        (files.foldl (Media.packFile readFile compressZstd) p) ∧
      (files.foldl (Media.packFile readFile compressZstd) p).raw.length < bundlePartSize ∧
      chunks'.flatten ++ last' =
        chunks.flatten ++ last ++ files.map fun f => (f.1, content readFile f) := by
  induction files generalizing chunks last p with
  | nil => exact ⟨chunks, last, h, hsmall, (List.append_nil _).symm⟩
  | cons f files ih =>
    rw [List.forall_mem_cons] at hread
    rcases hread.1 with ⟨data, hdata⟩
    rcases h.packFile hsmall hdata with ⟨chunks₁, last₁, h₁, hsmall₁, hentries₁⟩
    rcases ih h₁ hsmall₁ hread.2 with ⟨chunks₂, last₂, h₂, hsmall₂, hentries₂⟩
    refine ⟨chunks₂, last₂, h₂, hsmall₂, ?_⟩
    have hcontent : content readFile f = data := by
      rw [content, hdata]
      rfl
    rw [hentries₂, hentries₁, List.map_cons, hcontent, List.append_assoc _ [_]]
    rfl

end

/-- The parts are made of whole records: those of all files, in their order. -/
theorem exists_chunks (compressZstd : Bytes → Bytes) {files : Table}
    (hread : ∀ f ∈ files, ∃ data, readFile f.2 = some data) :
    ∃ chunks : List (List (Bytes × Bytes)), (packFiles readFile compressZstd files).1 =
        chunks.map (fun chunk => compressZstd (part chunk)) ∧
      chunks.flatten = files.map fun f => (f.1, content readFile f) := by
  have hbegin : Packed compressZstd [] []
      { raw := beginPart, count := 0, packed := [], total := 0 } := ⟨rfl, rfl, rfl⟩
  rcases hbegin.foldl (by decide) hread with ⟨chunks, last, h, hsmall, hentries⟩
  rw [List.flatten_nil, List.append_nil, List.nil_append] at hentries
  have hbound := length_flatMap_record last
  have hlast : last.length < 2 ^ 32 := by
    rw [h.raw, List.length_append, bundlePartSize] at hsmall
    omega
  refine ⟨_, (h.finishPart hlast).packed, ?_⟩
  split
  · rename_i hnil
    rw [← hentries, hnil, List.append_nil]
  · rw [← hentries, List.flatten_append, List.flatten_singleton]

/-! ## The client -/

namespace ClientMediaDownloader

/-- The parts are unpacked one after the other, until a `PacketError` is thrown. -/
def unpackBundles (env : Env) : List Bytes → ClientMediaDownloader → ClientMediaDownloader × Bool
  | [], d => (d, false)
  | packed :: rest, d =>
    let (d, thrown) := unpackBundle env d packed
    if thrown then (d, true) else unpackBundles env rest d

variable {d d' : ClientMediaDownloader} {name : Bytes} {want : Bytes → Option Bytes}
variable {kind : Asked → Bool}

theorem grows_unpackBundle (kind : Asked → Bool) (env : Env) (d : ClientMediaDownloader)
    (packed : Bytes) : Grows kind d (unpackBundle env d packed).1 :=
  Grows.foldl (grows_takeFile kind d.byHash) _ d

theorem Grows.mem_missing (h : Grows kind d d') (hname : name ∈ d'.missing) : name ∈ d.missing := by
  rcases List.mem_filter.1 hname with ⟨hmem, hmissing⟩
  refine List.mem_filter.2 ⟨h.files ▸ hmem, ?_⟩
  cases hreceived : (d.status name).received with
  | false => rfl
  | true =>
    rw [h.received name hreceived] at hmissing
    cases hmissing

/-- A hash that is not wanted any more was not wanted before, or its file has come. -/
theorem Grows.isSome_byHash {sha1Hex : Bytes} (h : Grows kind d d')
    (hwanted : (d'.byHash sha1Hex).isSome = true) : (d.byHash sha1Hex).isSome = true := by
  rcases Option.isSome_iff_exists.1 hwanted with ⟨name, hname⟩
  rcases byHash_some hname with ⟨hmem, hmissing, hhash⟩
  have hbefore : (d.status name).received = false := by
    cases hreceived : (d.status name).received with
    | false => rfl
    | true =>
      rw [h.received name hreceived] at hmissing
      cases hmissing
  rw [byHash, List.find?_isSome]
  refine ⟨name, h.files ▸ hmem, ?_⟩
  rw [h.sha1] at hhash
  simp [hbefore, hhash]

/-- When the missing files have different hashes, a hash finds its file. -/
theorem byHash_eq (hdistinct : ∀ name ∈ d.missing, ∀ name' ∈ d.missing,
      (d.status name).sha1 = (d.status name').sha1 → name = name') (hname : name ∈ d.missing) :
    d.byHash (hexEncode (d.status name).sha1) = some name := by
  rcases List.mem_filter.1 hname with ⟨hmem, hmissing⟩
  have hsome : (d.byHash (hexEncode (d.status name).sha1)).isSome = true := by
    rw [byHash, List.find?_isSome]
    exact ⟨name, hmem, by simpa using hmissing⟩
  rcases Option.isSome_iff_exists.1 hsome with ⟨name', hname'⟩
  rcases byHash_some hname' with ⟨hmem', hmissing', hhash⟩
  have hmissing'' : name' ∈ d.missing := List.mem_filter.2 ⟨hmem', by rw [hmissing']; rfl⟩
  rw [hname', hdistinct name' hmissing'' name hname (hexEncode_injective hhash)]

/-- How much is wanted of some files. -/
def wantedSize (d : ClientMediaDownloader) (files : List (Bytes × Bytes)) : Nat :=
  ((files.filter fun file => (d.byHash file.1).isSome).map fun file => file.2.length).sum

theorem receivedFileSize_foldl_takeFile (files : List (Bytes × Bytes)) (d : ClientMediaDownloader) :
    (files.foldl (takeFile env want) d).receivedFileSize ≤ d.receivedFileSize +
      ((files.filter fun file => (want file.1).isSome).map fun file => file.2.length).sum := by
  induction files generalizing d with
  | nil => exact le_rfl
  | cons file files ih =>
    have hrest := ih (takeFile env want d file)
    have hfirst : (takeFile env want d file).receivedFileSize ≤ d.receivedFileSize +
        if (want file.1).isSome then file.2.length else 0 := by
      rw [takeFile]
      split
      · exact Nat.le_add_right _ _
      · rename_i name hwant
        rw [hwant, Option.isSome_some, if_pos rfl]
        split
        · exact le_rfl
        · exact Nat.le_add_right _ _
    rw [List.foldl_cons, List.filter_cons]
    split at hfirst
    · rename_i hwanted
      rw [if_pos hwanted, List.map_cons, List.sum_cons]
      omega
    · rename_i hunwanted
      rw [if_neg hunwanted]
      omega

/-- A file of a part that is wanted and good is marked. -/
theorem received_foldl_takeFile {files : List (Bytes × Bytes)} {file : Bytes × Bytes}
    (hfile : file ∈ files) (hwant : want file.1 = some name)
    (hgood : checkAndLoad env name (d.status name).sha1 file.2 = true) :
    ((files.foldl (takeFile env want) d).status name).received = true := by
  induction files generalizing d with
  | nil => exact absurd hfile List.not_mem_nil
  | cons file' files ih =>
    have hfirst : Grows Asked.isPart d (takeFile env want d file') := grows_takeFile _ want d file'
    rw [List.foldl_cons]
    rcases List.mem_cons.1 hfile with rfl | hfile
    · have hmarked : ((takeFile env want d file).status name).received = true := by
        rw [takeFile, hwant]
        dsimp only
        rw [if_pos hgood]
        exact congrArg FileStatus.received (status_setStatus_self d name _)
      exact (Grows.foldl (grows_takeFile Asked.isPart want) files _).received name hmarked
    · refine ih hfile ?_
      rw [hfirst.sha1]
      exact hgood

theorem grows_unpackBundles (parts : List Bytes) (d : ClientMediaDownloader) :
    Grows kind d (unpackBundles env parts d).1 := by
  induction parts generalizing d with
  | nil => exact .refl kind d
  | cons packed parts ih =>
    have hfirst := grows_unpackBundle kind env d packed
    rw [unpackBundles]
    dsimp only
    split
    · exact hfirst
    · exact hfirst.trans (ih _)

theorem unpackBundles_received {parts : List Bytes}
    (hwhole : ∀ packed ∈ parts, (bundleFiles env packed).2 = true)
    (hdistinct : ∀ name ∈ d.missing, ∀ name' ∈ d.missing,
      (d.status name).sha1 = (d.status name').sha1 → name = name')
    (hsize : d.receivedFileSize + d.wantedSize (parts.flatMap fun packed =>
      (bundleFiles env packed).1) ≤ mediaMaxTotalSize) :
    (unpackBundles env parts d).2 = false ∧ ∀ name ∈ d.missing,
      ∀ file ∈ parts.flatMap (fun packed => (bundleFiles env packed).1),
        file.1 = hexEncode (d.status name).sha1 →
          checkAndLoad env name (d.status name).sha1 file.2 = true →
            ((unpackBundles env parts d).1.status name).received = true := by
  induction parts generalizing d with
  | nil => exact ⟨rfl, fun name _ file hfile => absurd hfile List.not_mem_nil⟩
  | cons packed parts ih =>
    rw [List.forall_mem_cons] at hwhole
    have hgrows := grows_unpackBundle Asked.isPart env d packed
    have hbytes : (unpackBundle env d packed).1.receivedFileSize ≤
        d.receivedFileSize + d.wantedSize (bundleFiles env packed).1 :=
      receivedFileSize_foldl_takeFile _ d
    have hsplit : d.wantedSize ((packed :: parts).flatMap fun packed =>
        (bundleFiles env packed).1) = d.wantedSize (bundleFiles env packed).1 +
          d.wantedSize (parts.flatMap fun packed => (bundleFiles env packed).1) := by
      rw [List.flatMap_cons, wantedSize, List.filter_append, List.map_append, List.sum_append]
      rfl
    -- what is wanted later was wanted before
    have hless : (unpackBundle env d packed).1.wantedSize (parts.flatMap fun packed =>
        (bundleFiles env packed).1) ≤
          d.wantedSize (parts.flatMap fun packed => (bundleFiles env packed).1) := by
      refine (List.Sublist.map _ ?_).sum_le_sum fun _ _ => Nat.zero_le _
      exact List.monotone_filter_right _ fun file hfile => hgrows.isSome_byHash hfile
    have hthrown : (unpackBundle env d packed).2 = false := by
      have hlimit : ¬ (unpackBundle env d packed).1.receivedFileSize > mediaMaxTotalSize := by
        omega
      rw [show (unpackBundle env d packed).2 = ((bundleFiles env packed).2 &&
        decide ((unpackBundle env d packed).1.receivedFileSize > mediaMaxTotalSize)) from rfl,
        decide_eq_false hlimit, Bool.and_false]
    have hdistinct' : ∀ name ∈ (unpackBundle env d packed).1.missing,
        ∀ name' ∈ (unpackBundle env d packed).1.missing,
          ((unpackBundle env d packed).1.status name).sha1 =
            ((unpackBundle env d packed).1.status name').sha1 → name = name' := by
      intro name hname name' hname' heq
      rw [hgrows.sha1, hgrows.sha1] at heq
      exact hdistinct name (hgrows.mem_missing hname) name' (hgrows.mem_missing hname') heq
    have hrest := ih hwhole.2 hdistinct' (by omega)
    have hunpack : unpackBundles env (packed :: parts) d =
        unpackBundles env parts (unpackBundle env d packed).1 := by
      rw [unpackBundles]
      dsimp only
      rw [hthrown]
      rfl
    rw [hunpack]
    refine ⟨hrest.1, fun name hname file hfile hhash hgood => ?_⟩
    by_cases hcame : ((unpackBundle env d packed).1.status name).received = true
    · have hlater : Grows Asked.isPart (unpackBundle env d packed).1
          (unpackBundles env parts (unpackBundle env d packed).1).1 :=
        grows_unpackBundles parts _
      exact hlater.received name hcame
    · have hname' : name ∈ (unpackBundle env d packed).1.missing := by
        refine List.mem_filter.2 ⟨hgrows.files ▸ (List.mem_filter.1 hname).1, ?_⟩
        rw [Bool.not_eq_true] at hcame
        rw [hcame]
        rfl
      rw [List.flatMap_cons, List.mem_append] at hfile
      rcases hfile with hfile | hfile
      · refine absurd (received_foldl_takeFile hfile ?_ hgood) hcame
        rw [hhash]
        exact byHash_eq hdistinct hname
      · refine hrest.2 name hname' file hfile ?_ ?_
        · rw [hgrows.sha1]
          exact hhash
        · rw [hgrows.sha1]
          exact hgood

end ClientMediaDownloader

end

/-! ## Both sides -/

open ClientMediaDownloader

section

variable {readFile : Bytes → Option Bytes} {compressZstd : Bytes → Bytes} {env : Env}

/-- The entry of a served file can be read. -/
theorem MediaTable.fits (t : MediaTable readFile) {f : Bytes × Bytes} (hf : f ∈ t.files) :
    Fits (f.1, content readFile f) := by
  rcases t.hash f hf with ⟨sha1, hlength, hkey⟩
  rcases t.readable f hf with ⟨data, hdata, hsize⟩
  refine ⟨?_, ?_⟩
  · change f.1.length = 40
    rw [hkey, length_hexEncode, hlength]
  · change (content readFile f).length < 2 ^ 32
    rw [content, hdata]
    exact lt_of_le_of_lt hsize (by decide)

/-- Whatever the order of the table and of the parts: each part is read to its end, the files that
are read are those of the table, and a client whose missing files have different hashes gets all that
the table has for it. -/
theorem bundle_agrees (t : MediaTable readFile) {bundles parts : List Bytes}
    (hlossless : ∀ raw, env.decompressZstd (compressZstd raw) = some raw)
    (hbundles : IsBundle readFile compressZstd t.files bundles) (hparts : parts.Perm bundles) :
    (∀ packed ∈ parts, (bundleFiles env packed).2 = true) ∧
      (parts.flatMap fun packed => (bundleFiles env packed).1).Perm
        (t.files.map fun f => (f.1, content readFile f)) ∧
      ∀ d : ClientMediaDownloader,
        (∀ name ∈ d.missing, ∀ name' ∈ d.missing,
          (d.status name).sha1 = (d.status name').sha1 → name = name') →
        d.receivedFileSize + d.wantedSize (t.files.map fun f => (f.1, content readFile f)) ≤
          mediaMaxTotalSize →
        (unpackBundles env parts d).2 = false ∧ ∀ name ∈ d.missing, ∀ f ∈ t.files,
          f.1 = hexEncode (d.status name).sha1 →
            checkAndLoad env name (d.status name).sha1 (content readFile f) = true →
              ((unpackBundles env parts d).1.status name).received = true := by
  rcases hbundles with ⟨order, horder, rfl⟩
  have hread : ∀ f ∈ order, ∃ data, readFile f.2 = some data := by
    intro f hf
    rcases t.readable f (horder.subset hf) with ⟨data, hdata, -⟩
    exact ⟨data, hdata⟩
  rcases exists_chunks compressZstd hread with ⟨chunks, hchunks, hentries⟩
  have hfits : ∀ chunk ∈ chunks, ∀ file ∈ chunk, Fits file := by
    intro chunk hchunk file hfile
    have hmem : file ∈ chunks.flatten := List.mem_flatten.2 ⟨chunk, hchunk, hfile⟩
    rw [hentries] at hmem
    rcases List.mem_map.1 hmem with ⟨f, hf, rfl⟩
    exact t.fits (horder.subset hf)
  have hfiles : ∀ chunk ∈ chunks,
      bundleFiles env (compressZstd (part chunk)) = (chunk, true) := fun chunk hchunk =>
    bundleFiles_part (hfits chunk hchunk) (hlossless _)
  have hwhole : ∀ packed ∈ parts, (bundleFiles env packed).2 = true := by
    intro packed hpacked
    have hmem := hparts.subset hpacked
    rw [hchunks] at hmem
    rcases List.mem_map.1 hmem with ⟨chunk, hchunk, rfl⟩
    rw [hfiles chunk hchunk]
  have hperm : (parts.flatMap fun packed => (bundleFiles env packed).1).Perm
      (t.files.map fun f => (f.1, content readFile f)) := by
    have hall : (chunks.map fun chunk => compressZstd (part chunk)).flatMap
        (fun packed => (bundleFiles env packed).1) = chunks.flatten := by
      rw [List.flatMap_map, List.flatten_eq_flatMap]
      exact List.flatMap_congr fun chunk hchunk => by rw [hfiles chunk hchunk]; rfl
    refine (hparts.flatMap_right _).trans ?_
    rw [hchunks, hall, hentries]
    exact horder.map _
  refine ⟨hwhole, hperm, fun d hdistinct hsize => ?_⟩
  have hsize' : d.receivedFileSize + d.wantedSize (parts.flatMap fun packed =>
      (bundleFiles env packed).1) ≤ mediaMaxTotalSize := by
    have heq : d.wantedSize (parts.flatMap fun packed => (bundleFiles env packed).1) =
        d.wantedSize (t.files.map fun f => (f.1, content readFile f)) :=
      ((hperm.filter _).map _).sum_eq
    rw [heq]
    exact hsize
  have hall := unpackBundles_received hwhole hdistinct hsize'
  refine ⟨hall.1, fun name hname f hf hhash hgood => ?_⟩
  have hmem := hperm.symm.subset (List.mem_map.2 ⟨f, hf, rfl⟩)
  exact hall.2 name hname (f.1, content readFile f) hmem hhash hgood

end

/-- One file is served; its path is its content. -/
def oneServed : MediaTable some where
  files := [(hexEncode (List.replicate 20 7), [0])]
  hash := fun f hf => ⟨List.replicate 20 7, rfl, by rw [List.mem_singleton.1 hf]⟩
  distinct := List.nodup_singleton _
  readable := fun f hf => ⟨f.2, rfl, by rw [List.mem_singleton.1 hf]; decide⟩

theorem bundle_agrees_one :
    ((unpackBundles plainEnv (packFiles some id oneServed.files).1
      (announce [(ascii "a.png", List.replicate 20 7)] [])).1.status (ascii "a.png")).received =
        true :=
  ((bundle_agrees oneServed (fun _ => rfl) ⟨oneServed.files, .refl _, rfl⟩ (.refl _)).2.2
    (announce [(ascii "a.png", List.replicate 20 7)] []) (by decide) (by decide)).2
      (ascii "a.png") (by decide) (hexEncode (List.replicate 20 7), [0]) (by decide) (by decide)
        (by decide)

end Media
end AxisEngine
