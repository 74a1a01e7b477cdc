import AxisEngine.DynamicMedia.MediaServer
import AxisEngine.Login.Ticket

/-!
# SkinCache — the skins that the server hands out

A skin is named by the hash of its picture.  The server finds the picture, in its cache, on its
machine or at the service, and adds it to its media; the skin is worn when the record of that push
is over.  What the players wear comes from their tickets, and later from the service.

* `Outside`, `SkinCache`, `SkinServer` — the hash, the clock, the pictures; the containers;
* `publish`, `want`, `wantLocal`, `checkDelivered`, `pump`, `step` — the way of a hash;
* `worn` — whether it has arrived;
* `setClientSkin`, `stepRefresh` — what the service says is worn now;
* `Event`, `Step` — what may happen next.

The history of deeds is not in the code.
-/

namespace AxisEngine
namespace Skins

open Lib Login Util DynamicMedia

/-- What the skins take from outside.  The pictures on this machine do not change. -/
structure Outside (Time : Type) extends Platform Time where
  sha256 : Bytes → Bytes
  length_sha256 : ∀ data, (sha256 data).length = 32
  tickets : TicketReader
  picture : Bytes → Option Bytes
  /-- `porting::path_cache`. -/
  pathCache : Bytes
  /-- The temporary files, one after the other; no file of the media has the path of a new one. -/
  tempFile : Nat → List Bytes → Option Bytes
  tempFile_new : ∀ n paths path, tempFile n paths = some path → path ∉ paths
  /-- The object `skins` in an answer, asked for a user: `""` for one that it does not have.
  `none`: what it has is no string, which is an exception. -/
  readSkins : Bytes → Option (Bytes → Option Bytes)
  zero : Time
  positive : Time → Bool
  /-- `ASK_EVERY`. -/
  askEvery : Time
  /-- The order in which the keys of a hash table are gone through. -/
  orderOf : ∀ {Key : Type}, List Key → List Key
  orderOf_perm : ∀ {Key : Type} (keys : List Key), (orderOf keys).Perm keys

structure HttpAnswer where
  succeeded : Bool
  responseCode : Nat
  data : Bytes

/-- What has happened to the skins. -/
inductive SkinDeed (Time : Type)
  /-- Media named after the hash was added; the clients of the list are asked for it. -/
  | published (hash data : Bytes) (token : UInt32) (waiting : List SessionT)
  | acknowledged (token : UInt32) (p : SessionT)
  | passed (dtime : Time)

structure SkinCache (Time : Type) where
  /-- Whether `m_owner` is set. -/
  owner : Bool := false
  pending : List Bytes := []
  ready : List Bytes := []
  awaiting : AList fun _ : UInt32 => Bytes := ∅
  deferred : AList fun _ : Bytes => Bytes := ∅
  localHashes : AList fun _ : Bytes => Bytes := ∅
  missing : List Bytes := []
  askIn : Time
  asking : Bool := false

/-- The settings that the skins look at. -/
structure SkinSettings where
  authUrl : Bytes := []
  authToken : Bytes := []
  playerAvatarsTestSkin : Bytes := []
  avatarsEnabled : Bool := true

/-- The history has the latest deed first; `temps` counts the temporary files. -/
structure SkinServer (Time : Type) where
  server : MediaServer Time := {}
  skins : SkinCache Time
  settings : SkinSettings := {}
  temps : Nat := 0
  history : List (SkinDeed Time) := []

/-- The loop of `allocateEngineMediaToken`, for so many rounds. -/
def nextFreeToken {Time : Type} (s : MediaServer Time) : Nat → UInt32 → Option UInt32
  | 0, _ => none
  | rounds + 1, token =>
    let token := MediaServer.nextEngineToken token
    if token ∈ s.pendingDynMedia then nextFreeToken s rounds token else some token

/-- There are so many tokens; if all are taken, the loop does not end. -/
def allocateEngineMediaToken {Time : Type} (s : MediaServer Time) : Option UInt32 :=
  nextFreeToken s 0xFFFFFFFF s.engineMediaToken

def mediaPending {Time : Type} (s : MediaServer Time) (token : UInt32) : Bool :=
  token ∈ s.pendingDynMedia

def mediaPushWouldMissSomeone (clients : Clients) : Bool :=
  clients.entries.any fun client => client.2.state = .definitionsSent

def getClientIDs (clients : Clients) : List SessionT :=
  (clients.entries.filter fun client => ClientState.active ≤ client.2.state).map Sigma.fst

def getClientIdentity (clients : Clients) (p : SessionT) : Option TicketIdentity :=
  (clients.getClientNoEx p .invalid).map fun client => client.identity

def mediaName (hash : Bytes) : Bytes :=
  ascii "axis_skin_" ++ hash ++ ascii ".png"

namespace SkinServer

variable {Time : Type} (P : Outside Time)

def cachePath (hash : Bytes) : Bytes :=
  P.pathCache ++ ascii "/skins/" ++ hash ++ ascii ".png"

def hexDigest (data : Bytes) : Bytes :=
  hexEncode (P.sha256 data)

def initial : SkinServer Time :=
  { skins := { askIn := P.zero } }

/-! ## The way of a hash -/

variable (s : SkinServer Time)

def worn (hash : Bytes) : Bytes :=
  if hash ∈ s.skins.ready then mediaName hash else []

def publishArgs (hash data : Bytes) (token : UInt32) : DynamicMediaArgs :=
  { filename := mediaName hash, source := .data data, token := token }

/-- Who is waited for under a token. -/
def waitingFor (s : MediaServer Time) (token : UInt32) : List SessionT :=
  ((s.pendingDynMedia.lookup token).map fun r => r.waitingPlayers).getD []

/-- `none`: the loop for a token does not end, or an exception is thrown. -/
def publish (hash data : Bytes) : Option (SkinServer Time × Bool) :=
  if mediaPushWouldMissSomeone s.server.clients then
    some ({ s with skins := { s.skins with deferred := s.skins.deferred.insert hash data } }, true)
  else
    (allocateEngineMediaToken s.server).bind fun token =>
      let temp := P.tempFile s.temps (s.server.media.entries.map fun entry => entry.2.path)
      let added := s.server.addMediaOfEngine P.toPlatform (publishArgs hash data token) temp
      let skins := { s.skins with deferred := s.skins.deferred.erase hash }
      let s := { s with server := added.1, skins := skins, temps := s.temps + 1 }
      match added.2 with
      | .threw => none
      | .refused => some (s, false)
      | .added =>
        some ({ s with
          skins := { skins with awaiting := skins.awaiting.insert token hash }
          history := .published hash data token (waitingFor added.1 token) :: s.history }, true)

/-- Handed out, and on its way. -/
def isAwaiting (hash : Bytes) : Bool :=
  s.skins.awaiting.entries.any fun sent => sent.2 = hash

/-- The name of a picture that is in the cache already. -/
def keptPicture (hash : Bytes) : Option Bytes :=
  (s.server.disk (cachePath P hash)).filter fun kept => hexDigest P kept = hash

def want (hash : Bytes) : Option (SkinServer Time × Bytes) :=
  if hash = [] ∨ hash ∈ s.skins.missing then some (s, [])
  else if hash ∈ s.skins.ready then some (s, mediaName hash)
  else if hash ∈ s.skins.pending ∨ hash ∈ s.skins.deferred then some (s, [])
  else if s.isAwaiting hash then some (s, [])
  else
    match s.keptPicture P hash with
    | some kept =>
      if s.skins.owner then (publish P s hash kept).map fun published => (published.1, [])
      else some (s, [])
    | none =>
      if s.settings.authUrl = [] then
        some ({ s with skins := { s.skins with missing := s.skins.missing.insert hash } }, [])
      else some ({ s with skins := { s.skins with pending := s.skins.pending.insert hash } }, [])

/-- `wantLocal`, from where the hash of the picture is known. -/
def wantLocalHash (path hash : Bytes) : Option (SkinServer Time × Bytes) :=
  if hash ∈ s.skins.ready then some (s, mediaName hash)
  else if hash ∈ s.skins.deferred then some (s, [])
  else if s.isAwaiting hash then some (s, [])
  else
    match P.picture path with
    | some data =>
      if s.skins.owner then (publish P s hash data).map fun published => (published.1, [])
      else some (s, [])
    | none => some (s, [])

def wantLocal (path : Bytes) : Option (SkinServer Time × Bytes) :=
  match s.skins.localHashes.lookup path with
  | some hash => wantLocalHash P s path hash
  | none =>
    match P.picture path with
    | none => some (s, [])
    | some data =>
      let hash := hexDigest P data
      let skins := { s.skins with localHashes := s.skins.localHashes.insert path hash }
      wantLocalHash P { s with skins := skins } path hash

/-- One round of the loop of `checkDelivered`. -/
def checkToken (token : UInt32) : SkinServer Time :=
  match s.skins.awaiting.lookup token with
  | none => s
  | some hash =>
    if mediaPending s.server token then s
    else { s with
      skins := { s.skins with
        ready := s.skins.ready.insert hash
        awaiting := s.skins.awaiting.erase token } }

def checkDelivered : SkinServer Time :=
  (P.orderOf s.skins.awaiting.keys).foldl checkToken s

/-- What the player of a connection wears is fetched. -/
def pumpClient (p : SessionT) : Option (SkinServer Time) :=
  if s.settings.playerAvatarsTestSkin ≠ [] then
    (wantLocal P s s.settings.playerAvatarsTestSkin).map Prod.fst
  else
    match getClientIdentity s.server.clients p with
    | none => some s
    | some id => if id.skin = [] then some s else (want P s id.skin).map Prod.fst

def setOwner : SkinServer Time :=
  { s with skins := { s.skins with owner := true } }

def pump : Option (SkinServer Time) :=
  (P.orderOf (getClientIDs s.server.clients)).foldlM (pumpClient P) s.setOwner

/-- What was deferred is published, if nobody is just coming in. -/
def publishDeferred : Option (SkinServer Time) :=
  if s.skins.deferred.entries ≠ [] ∧ mediaPushWouldMissSomeone s.server.clients = false then
    let deferred := s.skins.deferred
    let publishOne := fun (s : SkinServer Time) (hash : Bytes) =>
      match deferred.lookup hash with
      | none => some s
      | some data => (publish P s hash data).map Prod.fst
    (P.orderOf deferred.keys).foldlM publishOne { s with skins := { s.skins with deferred := ∅ } }
  else some s

def addMissing (hash : Bytes) : SkinServer Time :=
  { s with skins := { s.skins with missing := s.skins.missing.insert hash } }

def dropPending (hash : Bytes) : SkinServer Time :=
  { s with skins := { s.skins with pending := s.skins.pending.erase hash } }

/-- A picture that came is kept on disk, if that works. -/
def keep (hash data : Bytes) (written : Bool) : SkinServer Time :=
  if written then { s with server := s.server.writeFile (cachePath P hash) (some data) } else s

/-- One round of the loop over the requests: the answer of the service to it, and whether the cache
can be written. -/
def receive (answers : Bytes → Option HttpAnswer) (written : Bytes → Bool) (s : SkinServer Time)
    (hash : Bytes) : Option (SkinServer Time) :=
  match answers hash with
  | none => some s
  | some res =>
    if ¬ res.succeeded ∨ res.responseCode ≠ 200 then some ((s.addMissing hash).dropPending hash)
    else if hexDigest P res.data ≠ hash then some ((s.addMissing hash).dropPending hash)
    else
      (publish P (s.keep P hash res.data (written hash)) hash res.data).map fun published =>
        if published.2 then published.1.dropPending hash
        else (published.1.addMissing hash).dropPending hash

def step (answers : Bytes → Option HttpAnswer) (written : Bytes → Bool) (s : SkinServer Time) :
    Option (SkinServer Time) :=
  (publishDeferred P s.setOwner).bind fun s =>
    (pump P (s.checkDelivered P)).bind fun s =>
      (P.orderOf s.skins.pending).foldlM (receive P answers written) s

/-! ## What the service says is worn -/

def setClientSkin (p : SessionT) (hash : Bytes) : SkinServer Time :=
  match s.server.clients.getClientNoEx p .active with
  | none => s
  | some client =>
    if client.identity.skin = hash then s
    else
      let client := { client with identity := { client.identity with skin := hash } }
      { s with server := { s.server with clients := s.server.clients.insert p client } }

/-- One round of the loop over the players. -/
def refreshClient (worn : Bytes → Option Bytes) (s : SkinServer Time) (p : SessionT) :
    Option (SkinServer Time) :=
  match getClientIdentity s.server.clients p with
  | none => some s
  | some id =>
    if id.uid = [] then some s
    else (worn id.uid).map fun now => if now = id.skin then s else s.setClientSkin p now

def takeAnswer (res : HttpAnswer) : Option (SkinServer Time) :=
  if ¬ res.succeeded ∨ res.responseCode ≠ 200 then some s
  else
    match P.readSkins res.data with
    | none => some s
    | some worn => (P.orderOf (getClientIDs s.server.clients)).foldlM (refreshClient worn) s

def setAsk (askIn : Time) (asking : Bool) : SkinServer Time :=
  { s with skins := { s.skins with askIn := askIn, asking := asking } }

/-- `answer` is what has come of the question, if it was asked and if it has come. -/
def stepRefresh (dtime : Time) (answer : Option HttpAnswer) : Option (SkinServer Time) :=
  if s.settings.avatarsEnabled = false then some s
  else if s.skins.asking then
    match answer with
    | none => some s
    | some res => takeAnswer P (s.setAsk s.skins.askIn false) res
  else
    let askIn := P.minus s.skins.askIn dtime
    if P.positive askIn then some (s.setAsk askIn false)
    else if s.settings.authUrl = [] ∨ s.settings.authToken = [] then
      some (s.setAsk P.askEvery false)
    else
      let uids := (getClientIDs s.server.clients).filter fun p =>
        (getClientIdentity s.server.clients p).any fun id => id.uid ≠ []
      some (s.setAsk P.askEvery (uids ≠ []))

end SkinServer

/-! ## Runs -/

inductive Event (Time : Type)
  /-- What goes on in the media and the connections. -/
  | media (e : DynamicMedia.Event Time)
  | want (hash : Bytes)
  | wantLocal (path : Bytes)
  | step (answers : Bytes → Option HttpAnswer) (written : Bytes → Bool)
  | stepRefresh (dtime : Time) (answer : Option HttpAnswer)
  | settingsChanged (settings : SkinSettings)

namespace SkinServer

variable {Time : Type} (P : Outside Time)

/-- The identity of a connection is empty at first, comes from a ticket, and may then get another
display name. -/
inductive IdentityFrom (old : Option TicketIdentity) : TicketIdentity → Prop
  | new : IdentityFrom old {}
  | same {id : TicketIdentity} (h : old = some id) : IdentityFrom old id
  | ticket {now : Int} {ticket expectLogin serverId : Bytes} {id : TicketIdentity}
      (h : checkTicket P.tickets now ticket expectLogin serverId = .ok id) : IdentityFrom old id
  | display {id : TicketIdentity} (h : IdentityFrom old id) (display : Bytes) :
      IdentityFrom old { id with display := display }

/-- The reference of a mod is not the token of a record that is still there; media of the engine
comes from the skins alone. -/
def Possible (s : SkinServer Time) : Event Time → Prop
  | .media (.addMediaOfMod a _) => a.token ∉ s.server.pendingDynMedia
  | .media (.addMediaOfEngine _ _) => False
  | .media (.clientsChanged clients _) => ∀ p c, clients.lookup p = some c →
      IdentityFrom P (getClientIdentity s.server.clients p) c.identity
  | _ => True

/-- The deeds of an event of the media. -/
def deedsOf (s : SkinServer Time) : DynamicMedia.Event Time → List (SkinDeed Time)
  | .haveMedia p data =>
    if s.server.clients.admits p .inGame then
      match MediaServer.readHaveMedia { rest := data } with
      | .error _ => []
      | .ok (tokens, _) => tokens.map fun token => .acknowledged token p
    else []
  | .stepPending dtime => [.passed dtime]
  | _ => []

/-- `none`: an assertion fails, an exception ends the server, or a loop does not end. -/
def apply (s : SkinServer Time) : Event Time → Option (SkinServer Time)
  | .media e => (s.server.apply P.toPlatform e).map fun server =>
    { s with server := server, history := deedsOf s e ++ s.history }
  | .want hash => (want P s hash).map Prod.fst
  | .wantLocal path => (wantLocal P s path).map Prod.fst
  | .step answers written => step P answers written s
  | .stepRefresh dtime answer => stepRefresh P s dtime answer
  | .settingsChanged settings => some { s with settings := settings }

inductive Step : SkinServer Time → Event Time → SkinServer Time → Prop
  | apply {s t : SkinServer Time} {e : Event Time} (hpossible : Possible P s e)
      (h : s.apply P e = some t) : Step s e t

end SkinServer

end Skins
end AxisEngine
