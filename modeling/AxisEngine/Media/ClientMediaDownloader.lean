import AxisEngine.Lib.SortedByKey
import AxisEngine.Media.Protocol
import AxisEngine.Util.Hex
import AxisEngine.Util.Strings
import Mathlib.Data.List.Lex
import Mathlib.Logic.Function.Basic

/-!
# ClientMediaDownloader — how the client gets its media

`client/clientmedia.cpp`.  The server announces files; those that are not in the cache are asked for
over HTTP, first in bundles, then one by one from the servers whose hash sets list them, and what is
still missing then is asked for over the game protocol.

* `ClientMediaDownloader` — the object;
* `handleResult`, `finishStep` — the two parts of `step`: one answer, and what follows the last one;
* `conventionalTransferDone` — a file that came over the game protocol.

Where an assertion fails there is no result (`none`).  A `PacketError` that leaves a function is its
second result.  Numbers of requests count on without an end here; the source keeps some of them in 32
bits.
-/

namespace AxisEngine
namespace Media

open Lib Util

/-- Names are compared byte by byte. -/
def nameKey (name : Bytes) : List Nat :=
  name.map UInt8.toNat

/-- `currentRemote` is `none` where the source has -1. -/
structure FileStatus where
  received : Bool
  sha1 : Bytes
  currentRemote : Option Nat
  availableRemotes : List Nat

/-- What a request asks for. -/
inductive Asked
  | bundleIndex
  | bundlePart (number : Nat)
  | hashSet (remote : Nat)
  | file (name : Bytes) (remote : Nat)
  deriving DecidableEq

structure HTTPFetchRequest where
  requestId : Nat
  url : Bytes
  asked : Asked
  deriving DecidableEq

structure HTTPFetchResult where
  succeeded : Bool
  data : Bytes
  deriving DecidableEq

/-- What the downloader calls: the checksum, the decompression, which fails or gives bytes, and
`Client::loadMedia`, which takes the data and the name. -/
structure Env where
  sha1 : Bytes → Bytes
  decompressZstd : Bytes → Option Bytes
  loadMedia : Bytes → Bytes → Bool

structure ClientMediaDownloader where
  /-- The keys of `m_files`, in order. -/
  files : List Bytes
  /-- What `m_files` has for a key. -/
  status : Bytes → FileStatus
  /-- The addresses in `m_remotes`. -/
  remotes : List Bytes
  activeCount : Nat → Int
  initialStepDone : Bool
  uncachedCount : Int
  uncachedReceivedCount : Int
  receivedFileSize : Nat
  httpfetchNextId : Nat
  httpfetchActive : Int
  httpfetchActiveLimit : Int
  outstandingHashSets : Int
  bundleRequests : List Nat
  bundlePartRequests : List Nat
  hashsetRequests : List (Nat × Nat)
  outstandingBundles : Int
  bundlePartsLeft : Nat
  bundleNextPart : Nat
  remoteFileTransfers : List (Nat × Bytes)
  nameBound : Bytes
  /-- The requests that httpfetch has and has not answered yet. -/
  inFlight : List HTTPFetchRequest
  /-- What `Client::request_media` was called with. -/
  requestedMedia : List (List Bytes)

namespace ClientMediaDownloader

def initial : ClientMediaDownloader :=
  { files := []
    status := fun _ =>
      { received := false, sha1 := [], currentRemote := none, availableRemotes := [] }
    remotes := []
    activeCount := fun _ => 0
    initialStepDone := false
    uncachedCount := 0
    uncachedReceivedCount := 0
    receivedFileSize := 0
    httpfetchNextId := 0
    httpfetchActive := 0
    httpfetchActiveLimit := 0
    outstandingHashSets := 0
    bundleRequests := []
    bundlePartRequests := []
    hashsetRequests := []
    outstandingBundles := 0
    bundlePartsLeft := 0
    bundleNextPart := 0
    remoteFileTransfers := []
    nameBound := []
    inFlight := []
    requestedMedia := [] }

variable (d : ClientMediaDownloader)

def setStatus (name : Bytes) (status : FileStatus) : ClientMediaDownloader :=
  { d with status := Function.update d.status name status }

variable (d : ClientMediaDownloader)

theorem status_setStatus (name name' : Bytes) (f : FileStatus) :
    (d.setStatus name f).status name' = if name' = name then f else d.status name' :=
  Function.update_apply d.status name f name'

@[simp] theorem status_setStatus_self (name : Bytes) (f : FileStatus) :
    (d.setStatus name f).status name = f := by
  rw [status_setStatus, if_pos rfl]

theorem status_setStatus_of_ne {name name' : Bytes} (f : FileStatus) (h : name' ≠ name) :
    (d.setStatus name f).status name' = d.status name' := by
  rw [status_setStatus, if_neg h]

def isDone : Bool :=
  d.initialStepDone && d.uncachedReceivedCount = d.uncachedCount

/-! ## What is announced -/

def addFile (name sha1 : Bytes) : ClientMediaDownloader :=
  if name ∈ d.files then d
  else if name = [] ∨ !stringAllowed name textureNameAllowedChars then d
  else if removeStringEnd name mediaSupportedExt = [] then d
  else if d.files.length ≥ mediaMaxFiles then d
  else if sha1.length ≠ 20 then d
  else
    let d := d.setStatus name
      { received := false, sha1 := sha1, currentRemote := none, availableRemotes := [] }
    { d with files := insertAt nameKey name d.files }

/-- When remote media servers are enabled. -/
def addRemoteServer (baseurl : Bytes) : ClientMediaDownloader :=
  { d with
    remotes := d.remotes ++ [baseurl]
    activeCount := Function.update d.activeCount d.remotes.length 0 }

/-- The files behind `m_name_bound`. -/
def upperBound : List Bytes :=
  d.files.dropWhile fun name => decide (nameKey name ≤ nameKey d.nameBound)

/-! ## Checking a file -/

/-- Whether the data are the announced file and could be loaded. -/
def checkAndLoad (env : Env) (name sha1 data : Bytes) : Bool :=
  if data.length > mediaFileMaxSize then false
  else if env.sha1 data ≠ sha1 then false
  else env.loadMedia data name

/-- With the contents that the cache has for a checksum. -/
def tryLoadFromCache (env : Env) (cache : Bytes → Option Bytes) (name sha1 : Bytes) : Bool :=
  match cache (hexEncode sha1) with
  | some data => checkAndLoad env name sha1 data
  | none => false

/-- `checkTotalSize`: whether it throws. -/
def exceedsTotalSize : Bool :=
  d.receivedFileSize > mediaMaxTotalSize

/-- A file that was accepted is counted. -/
def markReceived (name : Bytes) (size : Nat) : ClientMediaDownloader :=
  let d := d.setStatus name { d.status name with received := true }
  { d with
    uncachedReceivedCount := d.uncachedReceivedCount + 1
    receivedFileSize := d.receivedFileSize + size }

/-! ## Requests -/

/-- `httpfetch_async`, and the counters around it. -/
def httpfetchAsync (url : Bytes) (asked : Asked) : ClientMediaDownloader :=
  { d with
    inFlight := d.inFlight ++ [{ requestId := d.httpfetchNextId, url := url, asked := asked }]
    httpfetchActive := d.httpfetchActive + 1
    httpfetchNextId := d.httpfetchNextId + 1 }

def startHashSetFetch (remote : Nat) : ClientMediaDownloader :=
  let id := d.httpfetchNextId
  let d := d.httpfetchAsync (d.remotes.getD remote [] ++ hashSetFileName) (.hashSet remote)
  { d with
    hashsetRequests := d.hashsetRequests ++ [(id, remote)]
    outstandingHashSets := d.outstandingHashSets + 1 }

def startHashSetFetches : ClientMediaDownloader :=
  (List.range d.remotes.length).foldl startHashSetFetch d

def startBundleFetch : ClientMediaDownloader :=
  if d.remotes = [] then d.startHashSetFetches
  else
    let id := d.httpfetchNextId
    let d := d.httpfetchAsync (d.remotes.getD 0 [] ++ bundleFileName) .bundleIndex
    { d with bundleRequests := d.bundleRequests ++ [id] }

def requestBundlePart : ClientMediaDownloader :=
  let id := d.httpfetchNextId
  let number := d.bundleNextPart
  let url := d.remotes.getD 0 [] ++ bundleFileName ++ ascii "/" ++ itos (Int32.ofNat number)
  let d := d.httpfetchAsync url (.bundlePart number)
  { d with
    bundlePartRequests := d.bundlePartRequests ++ [id]
    outstandingBundles := d.outstandingBundles + 1
    bundleNextPart := d.bundleNextPart + 1 }

def requestMoreLoop : Nat → ClientMediaDownloader → ClientMediaDownloader
  | 0, d => d
  | fuel + 1, d =>
    if d.outstandingBundles < 3 ∧ d.bundleNextPart < d.bundlePartsLeft then
      requestMoreLoop fuel d.requestBundlePart
    else d

/-- Three parts are under way at once.  Each round takes one of the parts that are left. -/
def requestMoreBundleParts : ClientMediaDownloader :=
  requestMoreLoop (d.bundlePartsLeft - d.bundleNextPart) d

/-! ## Bundles -/

/-- How many parts the index of the bundle speaks of. -/
def bundleParts (result : HTTPFetchResult) : Nat :=
  if result.succeeded ∧ result.data.length ≥ 14 ∧ readU32 result.data 0 = bundleSignature ∧
      readU16 result.data 4 = bundleVersion then
    (readU32 result.data 6).toNat
  else 0

def bundleIndexReceived (result : HTTPFetchResult) : ClientMediaDownloader :=
  let parts := bundleParts result
  if parts = 0 then d.startHashSetFetches
  else requestMoreBundleParts { d with bundlePartsLeft := parts, bundleNextPart := 0 }

/-- The hashes and the contents of the files in a part, and whether the part does not end within a
file.  Each round takes 44 bytes at least. -/
def readFiles : Nat → Bytes → List (Bytes × Bytes) × Bool
  | 0, _ => ([], true)
  | fuel + 1, raw =>
    if raw.length < 44 then ([], true)
    else
      let size := (readU32 raw 40).toNat
      let rest := raw.drop 44
      if size > rest.length then ([], false)
      else
        let (files, complete) := readFiles fuel (rest.drop size)
        ((raw.take 40, rest.take size) :: files, complete)

/-- The files of a part that was unpacked; there are none when the header is not the one of a
bundle. -/
def bundleFiles (env : Env) (packed : Bytes) : List (Bytes × Bytes) × Bool :=
  match env.decompressZstd packed with
  | none => ([], false)
  | some raw =>
    if raw.length < 10 ∨ readU32 raw 0 ≠ bundleSignature ∨ readU16 raw 4 ≠ bundleVersion then
      ([], false)
    else readFiles raw.length (raw.drop 10)

/-- `by_hash`: the first file that misses its contents, for a hash. -/
def byHash (sha1Hex : Bytes) : Option Bytes :=
  d.files.find? fun name =>
    !(d.status name).received && decide (hexEncode (d.status name).sha1 = sha1Hex)

/-- One round of the loop of `unpackBundle`, with the table from before the loop. -/
def takeFile (env : Env) (want : Bytes → Option Bytes) (d : ClientMediaDownloader)
    (file : Bytes × Bytes) : ClientMediaDownloader :=
  match want file.1 with
  | none => d
  | some name =>
    if checkAndLoad env name (d.status name).sha1 file.2 then
      d.markReceived name file.2.length
    else d

variable (env : Env) (d : ClientMediaDownloader)

/-- A part that ends too early keeps the files before its end, and its size is not checked. -/
def unpackBundle (packed : Bytes) : ClientMediaDownloader × Bool :=
  let (files, complete) := bundleFiles env packed
  let d' := files.foldl (takeFile env d.byHash) d
  (d', complete && d'.exceedsTotalSize)

def unpackPart (result : HTTPFetchResult) : ClientMediaDownloader × Bool :=
  if result.succeeded then unpackBundle env d result.data else (d, false)

def bundlePartReceived (result : HTTPFetchResult) : ClientMediaDownloader × Bool :=
  let unpacked := unpackPart env { d with outstandingBundles := d.outstandingBundles - 1 } result
  if unpacked.2 then (unpacked.1, true)
  else
    let d := unpacked.1.requestMoreBundleParts
    if d.outstandingBundles > 0 then (d, false) else (d.startHashSetFetches, false)

/-! ## Hash sets -/

def readHashes : Nat → Bytes → List Bytes
  | 0, _ => []
  | fuel + 1, data => if data = [] then [] else data.take 20 :: readHashes fuel (data.drop 20)

/-- `deSerializeHashSet`, which throws a `SerializationError`. -/
def deSerializeHashSet (data : Bytes) : Option (List Bytes) :=
  if data.length < 6 ∨ data.length % 20 ≠ 6 then none
  else if readU32 data 0 ≠ hashSetSignature then none
  else if readU16 data 4 ≠ 1 then none
  else some (readHashes data.length (data.drop 6))

/-- The file can be had from this server if it is listed. -/
def addAvailable (sha1Set : List Bytes) (remote : Nat) (f : FileStatus) : FileStatus :=
  if !f.received ∧ f.sha1 ∈ sha1Set then
    { f with availableRemotes := f.availableRemotes ++ [remote] }
  else f

def remoteHashSetReceived (result : HTTPFetchResult) (remote : Nat) :
    Option ClientMediaDownloader :=
  if ¬ remote < d.remotes.length then none
  else
    let d := { d with outstandingHashSets := d.outstandingHashSets - 1 }
    if !result.succeeded then some d
    else
      match deSerializeHashSet result.data with
      | none => some d
      | some sha1Set =>
        some (d.upperBound.foldl
          (fun d name => d.setStatus name (addAvailable sha1Set remote (d.status name))) d)

/-! ## Files -/

/-- The file is not under way from the server any more. -/
def endTransfer (name : Bytes) (remote : Nat) : ClientMediaDownloader :=
  let d := d.setStatus name { d.status name with currentRemote := none }
  { d with activeCount := Function.update d.activeCount remote (d.activeCount remote - 1) }

/-- An answer for a file that was asked for from a server. -/
def remoteFileReceived (name : Bytes)
    (result : HTTPFetchResult) : Option (ClientMediaDownloader × Bool) :=
  if name ∉ d.files then none
  else if (d.status name).received then none
  else
    match (d.status name).currentRemote with
    | none => none
    | some remote =>
      let d := d.endTransfer name remote
      if result.succeeded && checkAndLoad env name (d.status name).sha1 result.data then
        if ¬ d.uncachedReceivedCount < d.uncachedCount then none
        else
          let d := d.markReceived name result.data.length
          some (d, d.exceedsTotalSize)
      else some (d, false)

/-- An answer that nobody asked for is ignored. -/
def remoteMediaReceived (id : Nat)
    (result : HTTPFetchResult) : Option (ClientMediaDownloader × Bool) :=
  match d.remoteFileTransfers.lookup id with
  | none => some (d, false)
  | some name =>
    let d := { d with
      remoteFileTransfers := d.remoteFileTransfers.filter fun t => t.1 ≠ id }
    remoteFileReceived env d name result

/-- The index and the number of the server with the fewest transfers, the first one of them. -/
def selectLoop (activeCount : Nat → Int) : List Nat → Nat → Nat → Nat → Nat × Nat
  | [], _, best, bestRemote => (best, bestRemote)
  | remote :: rest, i, best, bestRemote =>
    if activeCount remote < activeCount bestRemote then selectLoop activeCount rest (i + 1) i remote
    else selectLoop activeCount rest (i + 1) best bestRemote

/-- The server to ask, if there is one, and the file without it. -/
def selectRemoteServer (activeCount : Nat → Int) (f : FileStatus) :
    Option (Option Nat × FileStatus) :=
  if f.received ∨ f.currentRemote ≠ none then none
  else
    match f.availableRemotes with
    | [] => some (none, f)
    | first :: rest =>
      let (best, bestRemote) := selectLoop activeCount rest 1 0 first
      some (some bestRemote, { f with availableRemotes := f.availableRemotes.eraseIdx best })

def startTransfer (name : Bytes) (remote : Nat) : ClientMediaDownloader :=
  let id := d.httpfetchNextId
  let url := d.remotes.getD remote [] ++ hexEncode (d.status name).sha1
  let d := d.httpfetchAsync url (.file name remote)
  let d := d.setStatus name { d.status name with currentRemote := some remote }
  { d with
    remoteFileTransfers := d.remoteFileTransfers ++ [(id, name)]
    activeCount := Function.update d.activeCount remote (d.activeCount remote + 1) }

/-- The part of the loop that looks for a server. -/
def tryRemoteServer (name : Bytes) : Option ClientMediaDownloader :=
  if (d.status name).received ∨ (d.status name).currentRemote ≠ none then some d
  else
    match selectRemoteServer d.activeCount (d.status name) with
    | none => none
    | some (none, f) => some (d.setStatus name f)
    | some (some remote, f) => some ((d.setStatus name f).startTransfer name remote)

/-- Whether the file will not be asked for any more. -/
def concluded (name : Bytes) : Bool :=
  (d.status name).received ||
    (decide ((d.status name).currentRemote = none) && decide (d.outstandingHashSets = 0))

def startLoop : List Bytes → Bool → ClientMediaDownloader → Option ClientMediaDownloader
  | [], _, d => some d
  | name :: names, changingNameBound, d =>
    if d.httpfetchActive ≥ d.httpfetchActiveLimit then some d
    else
      match d.tryRemoteServer name with
      | none => none
      | some d =>
        if d.concluded name then
          startLoop names changingNameBound
            (if changingNameBound then { d with nameBound := name } else d)
        else startLoop names false d

def startRemoteMediaTransfers : Option ClientMediaDownloader :=
  startLoop d.upperBound true d

/-! ## The game protocol -/

/-- The files that are still missing. -/
def missing : List Bytes :=
  d.files.filter fun name => !(d.status name).received

def startConventionalTransfers : Option ClientMediaDownloader :=
  if d.httpfetchActive ≠ 0 then none
  else if d.uncachedReceivedCount ≠ d.uncachedCount then
    let fileRequests := d.missing
    if (fileRequests.length : Int) ≠ d.uncachedCount - d.uncachedReceivedCount then none
    else some { d with requestedMedia := d.requestedMedia ++ [fileRequests] }
  else some d

/-- The file counts as received whether or not it can be used, and the size is checked first. -/
def conventionalTransferDone (name data : Bytes) : Option (ClientMediaDownloader × Bool) :=
  if name ∉ d.files then some (d, false)
  else if (d.status name).received then some (d, false)
  else if ¬ d.uncachedReceivedCount < d.uncachedCount then none
  else
    let d := d.markReceived name data.length
    some (d, d.exceedsTotalSize)

/-! ## Steps -/

/-- One file of the loop that looks into the cache. -/
def checkCache (env : Env) (cache : Bytes → Option Bytes) (d : ClientMediaDownloader)
    (name : Bytes) : ClientMediaDownloader :=
  if tryLoadFromCache env cache name (d.status name).sha1 then
    let d := d.setStatus name { d.status name with received := true }
    { d with uncachedCount := d.uncachedCount - 1 }
  else d

/-- The first step, up to the loop over the answers. -/
def initialStep (env : Env) (cache : Bytes → Option Bytes) (curlParallelLimit : Int)
    (d : ClientMediaDownloader) : Option ClientMediaDownloader :=
  let d := { d with uncachedCount := d.files.length }
  let d := d.files.foldl (checkCache env cache) d
  if d.uncachedReceivedCount ≠ 0 then none
  else if d.uncachedCount = 0 ∨ d.remotes = [] then
    (startConventionalTransfers d).map fun d => { d with initialStepDone := true }
  else
    let d := { d with httpfetchActiveLimit := max curlParallelLimit 84 }
    some { d.startBundleFetch with initialStepDone := true }

/-- One round of the loop over the answers. -/
def handleResult (id : Nat) (result : HTTPFetchResult) : Option (ClientMediaDownloader × Bool) :=
  let d := { d with inFlight := d.inFlight.filter fun q => q.requestId ≠ id }
  let d := { d with httpfetchActive := d.httpfetchActive - 1 }
  if id ∈ d.bundleRequests then
    let d := { d with bundleRequests := d.bundleRequests.filter fun i => i ≠ id }
    some (d.bundleIndexReceived result, false)
  else if id ∈ d.bundlePartRequests then
    let d := { d with bundlePartRequests := d.bundlePartRequests.filter fun i => i ≠ id }
    some (bundlePartReceived env d result)
  else
    match d.hashsetRequests.lookup id with
    | some remote =>
      let d := { d with hashsetRequests := d.hashsetRequests.filter fun r => r.1 ≠ id }
      (d.remoteHashSetReceived result remote).map fun d => (d, false)
    | none => remoteMediaReceived env d id result

/-- What follows the loop when it has handled an answer. -/
def finishStep : Option ClientMediaDownloader :=
  match d.startRemoteMediaTransfers with
  | none => none
  | some d => if d.httpfetchActive = 0 then d.startConventionalTransfers else some d

end ClientMediaDownloader

end Media
end AxisEngine
