import AxisEngine.Lib.Reader
import AxisEngine.Login.ClientInterface
import AxisEngine.Media.MediaHttpServer
import AxisEngine.Util.Hex
import Mathlib.Logic.Function.Iterate

/-!
# MediaServer — the media of a running server

The media files stand in one table by name.  Files can be added while the game runs: the clients are
asked to fetch them, and a record under a token waits for their acknowledgements until all have
come or the time is over.  An ephemeral file lives as long as its record.  What is in the table is
also handed to the HTTP server, by hash.

* `MediaServer` — the tables, the files on disk and the connections;
* `addMediaFile`, `dynamicAddMedia` — a file is added;
* `handleCommandHaveMedia`, `stepPendingDynMediaCallbacks` — acknowledgements, and the end of a
  record;
* `Event`, `Step` — what may happen next.

The logs of deeds and the tokens used are not in the code.
-/

namespace AxisEngine
namespace DynamicMedia

open Lib Login Media Util

structure MediaInfo where
  path : Bytes
  sha1Digest : Bytes
  noAnnounce : Bool := false
  ephemeral : Bool := false
  deleteAtShutdown : Bool := false

abbrev MediaTable := AList fun _ : Bytes => MediaInfo

/-- What the server takes from outside: the hash, the clock, and the order in which a hash table is
gone through. -/
structure Platform (Time : Type) where
  sha1 : Bytes → Bytes
  length_sha1 : ∀ data, (sha1 data).length = 20
  minus : Time → Time → Time
  notNegative : Time → Bool
  /-- `60.0f`. -/
  patience : Time
  order : List (Sigma fun _ : Bytes => MediaInfo) → List (Sigma fun _ : Bytes => MediaInfo)
  order_perm : ∀ entries, (order entries).Perm entries

/-- The file name is set if the entry of the table and the file end with the record. -/
structure PendingDynamicMediaCallback (Time : Type) where
  filename : Bytes
  expiryTimer : Time
  waitingPlayers : List SessionT

/-- A file that is there, or its content. -/
inductive Source
  | file (path : Bytes)
  | data (content : Bytes)

structure DynamicMediaArgs where
  filename : Bytes
  source : Source
  token : UInt32
  toPlayer : Bytes := []
  ephemeral : Bool := false

/-- What has happened to the files of the ephemeral entries. -/
inductive FileDeed
  /-- A temporary file came to belong to an ephemeral entry. -/
  | owned (path : Bytes)
  | deleted (path : Bytes)
deriving DecidableEq

/-- What has happened to the callbacks. -/
inductive Deed
  /-- The callback of a mod was put down. -/
  | registered (token : UInt32)
  | pushed (token : UInt32) (p : SessionT)
  /-- `on_dynamic_media_added`. -/
  | called (token : UInt32) (p : SessionT)
  /-- The callback was freed. -/
  | freed (token : UInt32)
deriving DecidableEq

/-- `players` is the player of a connection; the logs have the latest deed first. -/
structure MediaServer (Time : Type) where
  disk : Bytes → Option Bytes := fun _ => none
  media : MediaTable := ∅
  mediaHttp : Option MediaHttpServer := none
  pendingDynMedia : AList fun _ : UInt32 => PendingDynamicMediaCallback Time := ∅
  engineMediaToken : UInt32 := 0xFFFFFFFF
  engineMediaTokens : List UInt32 := []
  env : Bool := false
  clients : Clients := ∅
  players : SessionT → Option Bytes := fun _ => none
  usedTokens : List UInt32 := []
  fileLog : List FileDeed := []
  log : List Deed := []

/-- How a call of `dynamicAddMedia` ends. -/
inductive Outcome
  | refused | added
  /-- A `PacketError` on the way. -/
  | threw
deriving DecidableEq

namespace MediaServer

variable {Time : Type} (P : Platform Time)

def stringMaxLen : Nat := 65535

/-- What is behind the last delimiter. -/
def getFilenameFromPath (path : Bytes) : Bytes :=
  (path.reverse.takeWhile (· ≠ 47)).reverse

/-! ## The HTTP server -/

/-- `by_hash.emplace`: the first entry with a hash stays. -/
def emplaceByHash (byHash : Table) (entry : Sigma fun _ : Bytes => MediaInfo) : Table :=
  if entry.2.sha1Digest.length = 20 ∧
      ¬ byHash.any (fun file => file.1 = hexEncode entry.2.sha1Digest) then
    byHash ++ [(hexEncode entry.2.sha1Digest, entry.2.path)]
  else byHash

def byHash (media : MediaTable) : Table :=
  (P.order media.entries).foldl emplaceByHash []

variable (s : MediaServer Time)

def updateMediaHttp : MediaServer Time :=
  { s with mediaHttp := s.mediaHttp.map fun http => http.setMedia (byHash P s.media) }

/-! ## Adding a file -/

/-- What `addMediaFile` puts down, and gives back: the content. -/
def acceptableFile (filename filepath : Bytes) : Option Bytes :=
  if !stringAllowed filename textureNameAllowedChars then none
  else if removeStringEnd filename mediaSupportedExt = [] then none
  else
    match s.disk filepath with
    | none => none
    | some filedata =>
      if filedata = [] then none
      else if mediaFileMaxSize < filedata.length then none
      else some filedata

def addMediaFile (filename filepath : Bytes) : MediaServer Time × Option Bytes :=
  match s.acceptableFile filename filepath with
  | none => (s, none)
  | some filedata =>
    let info : MediaInfo := { path := filepath, sha1Digest := P.sha1 filedata }
    (updateMediaHttp P { s with media := s.media.insert filename info }, some filedata)

def writeFile (path : Bytes) (content : Option Bytes) : MediaServer Time :=
  { s with disk := Function.update s.disk path content }

def setEntry (filename : Bytes) (info : MediaInfo) : MediaServer Time :=
  { s with media := s.media.insert filename info }

def isEngineMediaToken (token : UInt32) : Bool :=
  token = 0 || token ∈ s.engineMediaTokens

/-- How a file gets to a client. -/
inductive Delivery
  | none | legacy | asked
deriving DecidableEq

def getPlayerName (p : SessionT) : Bytes :=
  match s.players p with
  | some name => name
  | Option.none => ascii "[id=" ++ ascii (toString p.toNat) ++ ascii "]"

variable (a : DynamicMediaArgs)

def delivery (p : SessionT) (c : RemoteClient) : Delivery :=
  if c.state = .definitionsSent ∧ ¬ a.ephemeral then .none
  else if ¬ .active ≤ c.state then .none
  else if c.netProtoVersion < 39 then .none
  else if a.toPlayer ≠ [] ∧ s.getPlayerName p ≠ a.toPlayer then .none
  else if c.netProtoVersion < 40 then .legacy
  else .asked

def recipients (how : Delivery) : List SessionT :=
  if s.env then
    (s.clients.entries.filter fun client => s.delivery a client.1 client.2 = how).map Sigma.fst
  else []

/-- The end of `dynamicAddMedia`: the file is pushed, those who got it at once are reported, and the
others are waited for. -/
def push (filename : Bytes) : MediaServer Time :=
  let delivered := s.recipients a .legacy
  let waiting := s.recipients a .asked
  let log := (delivered ++ waiting).map (.pushed a.token) ++ s.log
  let told := delivered.filter fun p => (s.players p).isSome
  let log := if s.isEngineMediaToken a.token then log else told.map (.called a.token) ++ log
  let old := ((s.pendingDynMedia.lookup a.token).map fun r => r.filename).getD []
  let state : PendingDynamicMediaCallback Time :=
    { filename := if a.ephemeral then filename else old
      expiryTimer := P.patience
      waitingPlayers := waiting }
  { s with pendingDynMedia := s.pendingDynMedia.insert a.token state, log := log }

/-- The flags of the new entry, and the copy of an ephemeral file.  `none`: the copy failed, and the
entry is taken off the table again. -/
def finishEntry (filename filedata : Bytes)
    (info : MediaInfo) (temp : Option Bytes) : MediaServer Time × Bool :=
  let noAnnounce := info.noAnnounce || a.toPlayer ≠ []
  match a.source, a.ephemeral with
  | .file _, true =>
    match temp with
    | none => ({ s with media := s.media.erase filename }, false)
    | some copy =>
      let s := s.writeFile copy (some filedata)
      let s := s.setEntry filename
        { info with path := copy, noAnnounce := true, ephemeral := true }
      ({ s with fileLog := .owned copy :: s.fileLog }, true)
  | .data _, true =>
    let s := s.setEntry filename { info with noAnnounce := true, ephemeral := true }
    ({ s with fileLog := .owned info.path :: s.fileLog }, true)
  | .data _, false =>
    (s.setEntry filename { info with noAnnounce := noAnnounce, deleteAtShutdown := true }, true)
  | .file _, false => (s.setEntry filename { info with noAnnounce := noAnnounce }, true)

/-- The name may be taken by the same file only. -/
def nameTaken (filename filepath : Bytes) : Bool :=
  match s.media.lookup filename with
  | none => false
  | some info => a.ephemeral || info.ephemeral || info.path ≠ filepath

/-- From the point on where the file is on disk. -/
def addFrom (filename filepath : Bytes) (temp : Option Bytes) : MediaServer Time × Outcome :=
  if s.nameTaken a filename filepath then (s, .refused)
  else
    match (s.addMediaFile P filename filepath).2 with
    | none =>
      match a.source with
      -- the file was temporary
      | .data _ => (s.writeFile filepath none, .refused)
      | .file _ => (s, .refused)
    | some filedata =>
      let s := (s.addMediaFile P filename filepath).1
      let info : MediaInfo := { path := filepath, sha1Digest := P.sha1 filedata }
      let finished := s.finishEntry a filename filedata info temp
      if finished.2 then
        -- a name that does not fit into the packet is an exception
        if s.env ∧ stringMaxLen < filename.length then (finished.1, .threw)
        else (finished.1.push P a filename, .added)
      else (finished.1, .refused)

/-- The file of a call is on disk, or is written there: the name and the path. -/
def fileOnDisk (temp : Option Bytes) : Option (MediaServer Time × Bytes × Bytes) :=
  match a.source with
  | .file filepath =>
    some (s, if a.filename = [] then getFilenameFromPath filepath else a.filename, filepath)
  | .data content =>
    temp.map fun filepath => (s.writeFile filepath (some content), a.filename, filepath)

/-- `temp` is the temporary file that the call gets, if it needs one and gets one. -/
def dynamicAddMedia (temp : Option Bytes) : MediaServer Time × Outcome :=
  let s := { s with usedTokens := a.token :: s.usedTokens }
  if ¬ s.env ∧ (a.toPlayer ≠ [] ∨ a.ephemeral) then (s, .refused)
  else
    match s.fileOnDisk a temp with
    | none => (s, .refused)
    | some (s, filename, filepath) => s.addFrom P a filename filepath temp

/-! ## Callers -/

def freeDynamicMediaCallback (token : UInt32) : MediaServer Time :=
  if token = 0 then s else { s with log := .freed token :: s.log }

/-- `l_dynamic_add_media`, from the token on. -/
def addMediaOfMod (temp : Option Bytes) : MediaServer Time :=
  -- zero stands for media of the engine, which has no callback
  let s := if a.token = 0 then s else { s with log := .registered a.token :: s.log }
  match s.dynamicAddMedia P a temp with
  | (s, .refused) => s.freeDynamicMediaCallback a.token
  | (s, _) => s

/-- One round of the loop. -/
def nextEngineToken (token : UInt32) : UInt32 :=
  if token - 1 = 0 then 0xFFFFFFFF else token - 1

/-- `allocateEngineMediaToken`: the first token below the last one that no record has. -/
def IsEngineToken (token : UInt32) : Prop :=
  token ∉ s.pendingDynMedia ∧ ∃ n, nextEngineToken^[n + 1] s.engineMediaToken = token ∧
    ∀ m < n, nextEngineToken^[m + 1] s.engineMediaToken ∈ s.pendingDynMedia

/-- Media that the engine adds itself, under a token of its own. -/
def addMediaOfEngine (temp : Option Bytes) : MediaServer Time × Outcome :=
  let s := { s with
    engineMediaToken := a.token
    engineMediaTokens := a.token :: s.engineMediaTokens }
  s.dynamicAddMedia P a temp

/-! ## Acknowledgements and the end of a record -/

def readHaveMedia : Reader (List UInt32) := do
  let n ← Reader.readU8
  Reader.readMany n.toNat Reader.readU32

def acknowledge (p : SessionT) (s : MediaServer Time) (token : UInt32) : MediaServer Time :=
  match s.pendingDynMedia.lookup token with
  | none => s
  | some r =>
    if p ∈ r.waitingPlayers then
      let r := { r with waitingPlayers := r.waitingPlayers.filter (· ≠ p) }
      let s := { s with pendingDynMedia := s.pendingDynMedia.insert token r }
      if (s.players p).isSome ∧ ¬ s.isEngineMediaToken token then
        { s with log := .called token p :: s.log }
      else s
    else s

def handleCommandHaveMedia (p : SessionT) (data : Bytes) : MediaServer Time :=
  match readHaveMedia { rest := data } with
  | .error _ => s
  | .ok (tokens, _) => tokens.foldl (acknowledge p) s

/-- The entry and the file of a record that is over.  `none`: an assertion fails. -/
def dropFile (name : Bytes) : Option (MediaServer Time) :=
  if name = [] then some s
  else
    match s.media.lookup name with
    | none => none
    | some info =>
      if info.ephemeral then
        let s := s.writeFile info.path none
        let s := updateMediaHttp P { s with media := s.media.erase name }
        some { s with fileLog := .deleted info.path :: s.fileLog }
      else none

/-- A record of the engine is nobody's callback. -/
def endRecord (token : UInt32) : MediaServer Time :=
  let s := { s with pendingDynMedia := s.pendingDynMedia.erase token }
  if s.isEngineMediaToken token then
    { s with engineMediaTokens := s.engineMediaTokens.filter (· ≠ token) }
  else s.freeDynamicMediaCallback token

def stepRecord (dtime : Time) (s : MediaServer Time) (token : UInt32) :
    Option (MediaServer Time) :=
  match s.pendingDynMedia.lookup token with
  | none => some s
  | some r =>
    let r := { r with expiryTimer := P.minus r.expiryTimer dtime }
    if r.waitingPlayers ≠ [] ∧ P.notNegative r.expiryTimer then
      some { s with pendingDynMedia := s.pendingDynMedia.insert token r }
    else (s.dropFile P r.filename).map fun s => s.endRecord token

def stepPendingDynMediaCallbacks (dtime : Time) : Option (MediaServer Time) :=
  s.pendingDynMedia.keys.foldlM (stepRecord P dtime) s

end MediaServer

/-! ## Runs -/

inductive Event (Time : Type)
  | addMediaFile (filename filepath : Bytes)
  | addMediaOfMod (a : DynamicMediaArgs) (temp : Option Bytes)
  | addMediaOfEngine (a : DynamicMediaArgs) (temp : Option Bytes)
  | haveMedia (p : SessionT) (data : Bytes)
  | stepPending (dtime : Time)
  /-- What goes on around the media: files, connections, players, the start of the server. -/
  | fileChanged (path : Bytes) (content : Option Bytes)
  | clientsChanged (clients : Clients) (players : SessionT → Option Bytes)
  | envCreated
  | httpStarted

namespace MediaServer

variable {Time : Type} (P : Platform Time)

/-- A temporary file is one that was not there before. -/
def Fresh (s : MediaServer Time) (temp : Option Bytes) : Prop :=
  ∀ path, temp = some path → s.disk path = none

/-- The tokens of the calls are pairwise distinct. -/
def Possible (s : MediaServer Time) : Event Time → Prop
  | .addMediaOfMod a temp => a.token ∉ s.usedTokens ∧ s.Fresh temp
  | .addMediaOfEngine a temp => a.token ∉ s.usedTokens ∧ s.IsEngineToken a.token ∧ s.Fresh temp
  | _ => True

/-- `none`: an assertion fails. -/
def apply (s : MediaServer Time) : Event Time → Option (MediaServer Time)
  | .addMediaFile filename filepath => some (s.addMediaFile P filename filepath).1
  | .addMediaOfMod a temp => some (s.addMediaOfMod P a temp)
  | .addMediaOfEngine a temp => some (s.addMediaOfEngine P a temp).1
  | .haveMedia p data =>
    if s.clients.admits p .inGame then some (s.handleCommandHaveMedia p data) else some s
  | .stepPending dtime => s.stepPendingDynMediaCallbacks P dtime
  | .fileChanged path content => some (s.writeFile path content)
  | .clientsChanged clients players => some { s with clients := clients, players := players }
  | .envCreated => some { s with env := true }
  | .httpStarted => some (updateMediaHttp P { s with mediaHttp := some MediaHttpServer.initial })

inductive Step : MediaServer Time → Event Time → MediaServer Time → Prop
  | apply {s t : MediaServer Time} {e : Event Time} (hpossible : s.Possible e)
      (h : s.apply P e = some t) : Step s e t

end MediaServer

end DynamicMedia
end AxisEngine
