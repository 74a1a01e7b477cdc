import AxisEngine.Login.Ticket
import Mathlib.Data.List.Perm.Basic

/-!
# Handshake — how a connection becomes a player

A login takes six packets.  INIT brings the name and the ticket, and the server may ask the account
service about it before it says HELLO.  Then a password is proven or registered, INIT2 brings the
content of the game, and with CLIENT_READY the player is put into the environment.

* `World`, `Settings`, `Outside` — what the server is told from outside;
* `Deed` — what the server does for all to see, in the order of a log;
* `Server` — connections, questions that are out, passwords, players;
* `handleCommandInit`, ..., `stepAwaitingAuth`, `deletingPeer` — the handlers;
* `Event`, `Step` — what may happen next.
-/

namespace AxisEngine
namespace Login

open Lib

/-! ## What comes from outside -/

def playernameSize : Nat := 20

def maxTicketSize : Nat := 1024

def latestProtocolVersion : UInt16 := 58

def serverProtocolVersionMin : UInt16 := 37

def serFmtVerHighestWrite : UInt8 := 29

def serFmtVerLowestWrite : UInt8 := 24

/-- Milliseconds. -/
def patience : UInt64 := 15000

structure Settings where
  serverId : Bytes := []
  authUrl : Bytes := []
  authToken : Bytes := []
  defaultPassword : Bytes := []
  disallowEmptyPassword : Bool := false
  protocolVersionMin : UInt16 := serverProtocolVersionMin
  strictProtocolVersionChecking : Bool := false

/-- Whether there is an account service to ask. -/
def Settings.hasService (st : Settings) : Bool :=
  st.authUrl ≠ [] && st.authToken ≠ []

def Settings.getProtocolVersionMin (st : Settings) : UInt16 :=
  let minProto :=
    if st.strictProtocolVersionChecking then latestProtocolVersion else st.protocolVersionMin
  max serverProtocolVersionMin (min minProto latestProtocolVersion)

/-- The passwords, which the game keeps. -/
structure AuthHandler (A : Type) where
  getAuth : A → Bytes → Option Bytes
  createAuth : A → Bytes → Bytes → A
  setPassword : A → Bytes → Bytes → Bool × A

structure HTTPFetchResult where
  succeeded : Bool := false
  responseCode : Int := 0
  data : Bytes := []

/-- What a good answer of the account service says. -/
structure AccountAnswer where
  login : Bytes := []
  display : Bytes := []

/-- What is the same for all of a run. -/
structure World (A : Type) where
  singleplayer : Bool := false
  tickets : TicketReader
  /-- `none`: no JSON, or no object. -/
  readAnswer : Bytes → Option AccountAnswer
  auth : AuthHandler A
  base64IsValid : Bytes → Bool
  base64Encode : Bytes → Bytes
  base64Decode : Bytes → Bytes
  /-- `generate_srp_verifier_and_salt`, from random bytes, the name and the password. -/
  generateSrp : Bytes → Bytes → Bytes → Bytes × Bytes

/-- What is asked of others while an event is handled, with the answers. -/
structure Outside where
  /-- The connection still knows the address. -/
  peerFound : Bool := true
  banned : Bool := false
  time : Int := 0
  now : UInt64 := 0
  caller : UInt64 := 0
  /-- `on_prejoinplayer`. -/
  refused : Bool := false
  userLimitReached : Bool := false
  random : Bytes := []
  /-- `srp_verifier_new` finds no fault in what it is given. -/
  safe : Bool := true
  /-- `srp_verifier_verify_session` accepts the proof. -/
  verified : Bool := false

/-- What the server does for all to see.  A connection is known by its number, and what is asked of
the service or proven belongs to one connection. -/
inductive Deed
  /-- INIT passed all checks but that of its ticket. -/
  | init (n : Nat) (name ticket : Bytes) (time : Int) (settings : Settings)
  | asked (n : Nat) (ticket : Bytes)
  | answered (n : Nat) (res : HTTPFetchResult)
  | prejoin (n : Nat) (name : Bytes) (refused : Bool)
  | hello (n : Nat) (name encPwd : Bytes)
  /-- SRP_BYTES_M is accepted: `verified` says whether it is a proof. -/
  | accepted (n : Nat) (data : Option SrpVerifier) (verified forSudo : Bool)
  /-- `known`: the name has an entry. -/
  | createAuth (n : Nat) (name encPwd : Bytes) (known : Bool)
  | setPassword (n : Nat) (name encPwd : Bytes)
  | sudoLeave (n : Nat)
  | callerAlloc (caller : UInt64)
  | callerFree (caller : UInt64)
  | joinPlayer (name : Bytes)
  | leavePlayer (name : Bytes)

structure AwaitingAuth where
  caller : UInt64
  askedAt : UInt64

/-- `question`: the connection that the request which is out is about. -/
structure HttpCaller where
  question : Option Nat := none
  results : List HTTPFetchResult := []

/-- The peer is `peerIdInexistent` for a player who has left. -/
structure RemotePlayer where
  name : Bytes
  peerId : SessionT
deriving DecidableEq

/-- The log has the last deed first.  `connections` counts them, and `connOf` is the number of the
last one of a peer. -/
structure Server (A : Type) where
  clients : Clients := ∅
  connections : Nat := 0
  connOf : SessionT → Nat := fun _ => 0
  awaitingAuth : AList fun _ : SessionT => AwaitingAuth := ∅
  http : AList fun _ : UInt64 => HttpCaller := ∅
  auth : A
  players : List RemotePlayer := []
  settings : Settings := {}
  log : List Deed := []

/-! ## Texts -/

/-- What is behind the last delimiter is a part only if there is something. -/
def strSplit (s : Bytes) (delimiter : UInt8) : List Bytes :=
  let parts := s.splitOn delimiter
  if parts.getLast? = some [] then parts.dropLast else parts

def toLower (s : Bytes) : Bytes :=
  s.map fun c => if 65 ≤ c ∧ c ≤ 90 then c + 32 else c

def isSingleplayerName (name : Bytes) : Bool :=
  toLower name = ascii "singleplayer"

def playernameAllowedChars : Bytes :=
  ascii "abcdefghijklmnopqrstuvwxyzABCDEFGHIJKLMNOPQRSTUVWXYZ0123456789-_"

section

variable {A : Type} (W : World A)

def encodeSrpVerifier (verifier salt : Bytes) : Bytes :=
  ascii "#1#" ++ W.base64Encode salt ++ ascii "#" ++ W.base64Encode verifier

/-- The verifier and the salt. -/
def decodeSrpVerifierAndSalt (encoded : Bytes) : Option (Bytes × Bytes) :=
  match strSplit encoded 35 with
  | [_, mech, salt, verifier] =>
    if mech = ascii "1" ∧ W.base64IsValid salt ∧ W.base64IsValid verifier then
      some (W.base64Decode verifier, W.base64Decode salt)
    else none
  | _ => none

/-- `none`: refused. -/
def readAccountServiceAnswer (res : HTTPFetchResult) (id : TicketIdentity) :
    Option TicketIdentity :=
  if !res.succeeded then none
  else
    match W.readAnswer res.data with
    | none => none
    | some answer =>
      if res.responseCode ≠ 200 then none
      else if answer.login ≠ [] ∧ answer.login ≠ id.login then none
      else some { id with display := if answer.display = [] then id.display else answer.display }

end

/-! ## The server -/

namespace Server

variable {A : Type}

/-- What a handler leaves behind, and whether it was cut short by a `ClientStateError`. -/
abbrev Handled (A : Type) := Server A × Bool

variable (s : Server A)

def note (d : Deed) : Server A := { s with log := d :: s.log }

def modify (p : SessionT) (f : RemoteClient → RemoteClient) : Server A :=
  match s.clients.lookup p with
  | none => s
  | some c => { s with clients := s.clients.insert p (f c) }

/-- An event, and what comes after it. -/
def event (p : SessionT) (e : ClientStateEvent) (k : Server A → Handled A) : Handled A :=
  match s.clients.event p e with
  | none => (s, true)
  | some cs => k { s with clients := cs }

def done : Handled A := (s, false)

def denyAccess (p : SessionT) : Server A :=
  { s with clients := (s.clients.event p .setDenied).getD s.clients }

/-- `Receive`: a `ClientStateError` ends in a refusal, other exceptions in nothing. -/
def caught (r : Handled A) (p : SessionT) : Server A :=
  if r.2 then r.1.denyAccess p else r.1

def getPlayer (p : SessionT) : Option RemotePlayer :=
  s.players.find? fun player => player.peerId = p

/-- Only the first player of that name is looked at. -/
def getPlayerByName (name : Bytes) (matchInvalidPeer : Bool) : Option RemotePlayer :=
  (s.players.find? fun player => player.name = name).filter fun player =>
    matchInvalidPeer || player.peerId ≠ peerIdInexistent

def callerAlloc (caller : UInt64) : Server A :=
  { s with http := s.http.insert caller {} }.note (.callerAlloc caller)

def callerFree (caller : UInt64) : Server A :=
  { s with http := s.http.erase caller }.note (.callerFree caller)

/-- The next result, if there is one. -/
def asyncGet (caller : UInt64) : Option HTTPFetchResult × Server A :=
  match s.http.lookup caller with
  | none => (none, s)
  | some h =>
    match h.results with
    | [] => (none, s)
    | res :: results =>
      (some res, { s with http := s.http.insert caller { h with results := results } })

/-- The request goes out under its caller. -/
def startAccountServiceCheck (p : SessionT) (caller : UInt64) (ticket : Bytes) : Server A :=
  { s with http := s.http.insert caller { question := some (s.connOf p) } }.note
    (.asked (s.connOf p) ticket)

variable (W : World A)

def createAuth (s : Server A) (p : SessionT) (name encPwd : Bytes) : Server A :=
  { s with auth := W.auth.createAuth s.auth name encPwd }.note
    (.createAuth (s.connOf p) name encPwd (W.auth.getAuth s.auth name).isSome)

/-! ### INIT -/

end Server

/-- `ticket`: `none` when nothing is left of the packet, `some none` when it is cut off there. -/
structure InitPacket where
  maxSerVer : UInt8
  minNetProtoVersion : UInt16
  maxNetProtoVersion : UInt16
  playerName : Bytes
  ticket : Option (Option Bytes)

inductive InitVerdict
  | ignore | deny
  | pass (ticket : Bytes)

namespace Server

variable {A : Type} (W : World A)

def chooseNetProto (pkt : InitPacket) : UInt16 :=
  if serverProtocolVersionMin ≤ pkt.maxNetProtoVersion ∨
      pkt.minNetProtoVersion ≤ latestProtocolVersion then
    min pkt.maxNetProtoVersion latestProtocolVersion
  else 0

def alreadyConnected (s : Server A) (name : Bytes) : Bool :=
  (s.getPlayerByName name true).any fun player => player.peerId ≠ peerIdInexistent

/-- What is checked before the name is taken. -/
def checkInit (s : Server A) (c : RemoteClient) (pkt : InitPacket) : RemoteClient × InitVerdict :=
  match pkt.ticket with
  | none => (c, .deny)
  | some none => (c, .ignore)
  | some (some ticket) =>
    let serVer := min pkt.maxSerVer serFmtVerHighestWrite
    let netProto := chooseNetProto pkt
    if maxTicketSize < ticket.length then (c, .deny)
    else if serVer < serFmtVerLowestWrite then (c, .deny)
    else
      let c := { c with pendingSerializationVersion := serVer, netProtoVersion := netProto }
      if netProto < s.settings.getProtocolVersionMin ∨ latestProtocolVersion < netProto then
        (c, .deny)
      else if pkt.playerName = [] ∨ playernameSize < pkt.playerName.length then (c, .deny)
      else if !pkt.playerName.all fun b => playernameAllowedChars.contains b then (c, .deny)
      else if W.singleplayer && s.clients.anyFrom .helloSent then (c, .deny)
      else if !W.singleplayer && isSingleplayerName pkt.playerName then (c, .deny)
      else if s.alreadyConnected pkt.playerName then (c, .deny)
      else (c, .pass ticket)

variable (s : Server A) (p : SessionT)

def sendHello (mechs : UInt32) : Handled A :=
  let s := s.modify p fun c => { c with allowedAuthMechs := mechs }
  let s := match s.clients.lookup p with
    | none => s
    | some c => s.note (.hello (s.connOf p) c.name c.encPwd)
  s.event p .hello done

/-- The rest of INIT, once it is known who came. -/
def finishInit (x : Outside) : Handled A :=
  match s.clients.getClientNoEx p .created with
  | none => s.done
  | some c =>
    if c.state ≠ .created then s.done
    else
      let s := s.note (.prejoin (s.connOf p) c.name x.refused)
      if x.refused then (s.denyAccess p).done
      else if x.userLimitReached then (s.denyAccess p).done
      else
        let s := s.modify p fun c => { c with chosenMech := .none }
        match W.auth.getAuth s.auth c.name with
        | some encPwd =>
          let components := strSplit encPwd 35
          if components.length = 4 then
            if components[1]? = some (ascii "1") then
              (s.modify p fun c => { c with encPwd := encPwd }).sendHello p
                AuthMechanism.srp.bit
            else (s.denyAccess p).done
          else if W.base64IsValid encPwd then
            (s.modify p fun c => { c with encPwd := encPwd }).sendHello p
              AuthMechanism.legacyPassword.bit
          else (s.denyAccess p).done
        | none =>
          if W.singleplayer || s.settings.defaultPassword.length = 0 then
            s.sendHello p AuthMechanism.firstSrp.bit
          else
            let srp := W.generateSrp x.random c.name s.settings.defaultPassword
            (s.modify p fun c =>
              { c with
                encPwd := encodeSrpVerifier W srp.1 srp.2
                createPlayerOnAuthSuccess := true }).sendHello p AuthMechanism.srp.bit

/-- The name and the ticket are taken, and the ticket is looked at. -/
def nameClient (name ticket : Bytes) (x : Outside) : Handled A :=
  let s := s.modify p fun c => { c with name := name, ticket := ticket }
  let s := s.note (.init (s.connOf p) name ticket x.time s.settings)
  if W.singleplayer then s.finishInit W p x
  else
    match checkTicket W.tickets x.time ticket name s.settings.serverId with
    | .error _ => (s.denyAccess p).done
    | .ok id =>
      let s := s.modify p fun c => { c with identity := id }
      let s := s.callerAlloc x.caller
      if s.settings.hasService then
        let s := s.startAccountServiceCheck p x.caller ticket
        { s with awaitingAuth := s.awaitingAuth.insert p ⟨x.caller, x.now⟩ }.done
      else (s.callerFree x.caller).finishInit W p x

/-- `none`: the packet is cut off. -/
def handleCommandInit (pkt : Option InitPacket) (x : Outside) : Handled A :=
  match s.clients.getClientNoEx p .created with
  | none => s.done
  | some c =>
    if !x.peerFound then s.done
    else if ¬ c.state ≤ .created then s.done
    else if p ∈ s.awaitingAuth then s.done
    else if x.banned then (s.denyAccess p).done
    else
      match pkt with
      | none => s.done
      | some pkt =>
        let checked := checkInit W s c pkt
        let s := s.modify p fun _ => checked.1
        match checked.2 with
        | .ignore => s.done
        | .deny => (s.denyAccess p).done
        | .pass ticket => s.nameClient W p pkt.playerName ticket x

/-- `complete`: the packet is not cut off. -/
def handleCommandInit2 (complete : Bool) : Handled A :=
  match s.clients.lookup p with
  | none => s.done
  | some c =>
    if c.state ≠ .awaitingInit2 then s.done
    else s.event p .gotInit2 fun s =>
      if !complete then s.done else s.event p .setDefinitionsSent done

/-! ### Passwords -/

def acceptAuth (forSudoMode : Bool) : Handled A :=
  if forSudoMode then s.event p .sudoSuccess done else s.event p .authAccept done

end Server

structure FirstSrpPacket where
  salt : Bytes
  verificationKey : Bytes
  isEmpty : Bool

/-- `basedOnSrp`: the proof is about a password in the new form. -/
structure SrpBytesAPacket where
  bytesA : Bytes
  basedOnSrp : Bool

def SrpBytesAPacket.chosenMech (pkt : SrpBytesAPacket) : AuthMechanism :=
  if pkt.basedOnSrp then .srp else .legacyPassword

/-- The verifier and the salt of the password that a client is to prove. -/
def verifierAndSalt {A : Type} (W : World A) (c : RemoteClient) (pkt : SrpBytesAPacket)
    (random : Bytes) : Option (Bytes × Bytes) :=
  if pkt.basedOnSrp then decodeSrpVerifierAndSalt W c.encPwd
  else some (W.generateSrp random c.name c.encPwd)

namespace Server

variable {A : Type} (W : World A) (s : Server A) (p : SessionT)

def handleCommandFirstSrp (pkt : Option FirstSrpPacket) : Handled A :=
  match s.clients.lookup p, pkt with
  | some c, some pkt =>
    let emptyDisallowed := !W.singleplayer && pkt.isEmpty && s.settings.disallowEmptyPassword
    let encPwd := encodeSrpVerifier W pkt.verificationKey pkt.salt
    if c.state = .helloSent then
      if !c.isMechAllowed .firstSrp then (s.denyAccess p).done
      else if emptyDisallowed then (s.denyAccess p).done
      -- another client may have been faster
      else if (W.auth.getAuth s.auth c.name).isSome then (s.denyAccess p).done
      else
        let s := s.createAuth W p c.name encPwd
        let s := s.modify p fun c => c.setEncryptedPassword encPwd
        s.acceptAuth p false
    else if ¬ .sudoMode ≤ c.state then s.done
    else s.event p .sudoLeave fun s =>
      let s := s.note (.sudoLeave (s.connOf p))
      if emptyDisallowed then s.done
      else
        let r := W.auth.setPassword s.auth c.name encPwd
        let s := { s with auth := r.2 }.note (.setPassword (s.connOf p) c.name encPwd)
        if r.1 then (s.modify p fun c => c.setEncryptedPassword encPwd).done else s.done
  | _, _ => s.done

def handleCommandSrpBytesA (pkt : Option SrpBytesAPacket) (x : Outside) : Handled A :=
  match s.clients.lookup p with
  | none => s.done
  | some c =>
    let wantSudo := c.state = .active
    if ¬ (c.state = .helloSent ∨ c.state = .active) then s.done
    else if c.chosenMech ≠ .none then
      if wantSudo then s.done else (s.denyAccess p).done
    else
      match pkt with
      | none => s.done
      | some pkt =>
        if !c.isMechAllowed pkt.chosenMech then
          if wantSudo then s.done else (s.denyAccess p).done
        else
          let s := s.modify p fun c => { c with chosenMech := pkt.chosenMech }
          match verifierAndSalt W c pkt x.random with
          | none => (s.denyAccess p).done
          | some (verifier, salt) =>
            let s := s.modify p fun c =>
              { c with authData := some ⟨c.name, salt, verifier, pkt.bytesA⟩ }
            if x.safe then s.done
            else if wantSudo then (s.modify p RemoteClient.resetChosenMech).done
            else (s.denyAccess p).done

/-- The length of a SHA-256 hash. -/
def sessionKeyLength : Nat := 32

def handleCommandSrpBytesM (bytesM : Option Bytes) (x : Outside) : Handled A :=
  match s.clients.lookup p with
  | none => s.done
  | some c =>
    let wantSudo := c.state = .active
    if ¬ (c.state = .helloSent ∨ c.state = .active) then s.done
    else if c.chosenMech ≠ .srp ∧ c.chosenMech ≠ .legacyPassword then
      if wantSudo then s.done else (s.denyAccess p).done
    else
      match bytesM with
      | none => s.done
      | some bytesM =>
        if bytesM.length ≠ sessionKeyLength then (s.denyAccess p).done
        -- a single player needs no proof
        else if !x.verified && !(W.singleplayer && isSingleplayerName c.name) then
          if wantSudo then (s.modify p RemoteClient.resetChosenMech).done
          else (s.denyAccess p).done
        else
          let s := s.note (.accepted (s.connOf p) c.authData x.verified wantSudo)
          if c.createPlayerOnAuthSuccess then
            let s := s.createAuth W p c.name c.encPwd
            if W.auth.getAuth s.auth c.name = none then (s.denyAccess p).done
            else
              (s.modify p fun c => { c with createPlayerOnAuthSuccess := false }).acceptAuth p
                wantSudo
          else s.acceptAuth p wantSudo

/-! ### Players -/

/-- Whether the player is in the environment now. -/
def stageTwoClientInit : Server A × Bool :=
  match s.clients.getClientNoEx p .initDone with
  | none => (s.denyAccess p, false)
  | some c =>
    -- emergePlayer
    if (s.getPlayerByName c.name false).isSome || (s.getPlayer p).isSome then
      (s.denyAccess p, false)
    else ({ s with players := s.players ++ [⟨c.name, p⟩] }, true)

def handleCommandClientReady (complete : Bool) (x : Outside) : Handled A :=
  match s.clients.getClientNoEx p .created with
  | none => s.done
  | some c =>
    if !complete then s.done
    else if x.userLimitReached then (s.denyAccess p).done
    else
      let r := s.stageTwoClientInit p
      if r.2 then r.1.event p .setClientReady fun s => (s.note (.joinPlayer c.name)).done
      else r.1.done

/-- `disconnected`, for the player of a peer. -/
def disconnected (p : SessionT) : List RemotePlayer → List RemotePlayer
  | [] => []
  | player :: players =>
    if player.peerId = p then { player with peerId := peerIdInexistent } :: players
    else player :: disconnected p players

/-- The answer to a question about someone who has left is not waited for. -/
def dropQuestion : Server A :=
  match s.awaitingAuth.lookup p with
  | none => s
  | some waiting =>
    let s := s.callerFree waiting.caller
    { s with awaitingAuth := s.awaitingAuth.erase p }

def dropPlayer : Server A :=
  match s.getPlayer p with
  | none => s
  | some player => { s with players := disconnected p s.players }.note (.leavePlayer player.name)

def deleteClient : Server A :=
  let s := (s.dropQuestion p).dropPlayer p
  { s with clients := s.clients.erase p }

def deletingPeer : Server A :=
  caught (s.event p .disconnect fun s => (s.deleteClient p).done) p

def peerAdded : Server A :=
  { s with
    clients := s.clients.createClient p
    connections := s.connections + 1
    connOf := Function.update s.connOf p s.connections }

/-! ### Answers of the account service -/

/-- An answer, or the lack of one, is acted on. -/
def concludeAuth (caller : UInt64) (res : HTTPFetchResult) (x : Outside) : Server A :=
  match s.clients.getClientNoEx p .created with
  | none => s.callerFree caller
  | some c =>
    let s := s.callerFree caller
    match readAccountServiceAnswer W res c.identity with
    | none => s.denyAccess p
    | some id => ((s.modify p fun c => { c with identity := id }).finishInit W p x).1

/-- One round of the loop. -/
def stepAwaiting (x : Outside) : Server A :=
  match s.awaitingAuth.lookup p with
  | none => s
  | some waiting =>
    let got := s.asyncGet waiting.caller
    if got.1.isNone && x.now - waiting.askedAt < patience then s
    else
      let s := got.2.concludeAuth W p waiting.caller (got.1.getD {}) x
      { s with awaitingAuth := s.awaitingAuth.erase p }

def stepAwaitingAuth (s : Server A) (order : List SessionT) (x : SessionT → Outside) : Server A :=
  order.foldl (fun s p => s.stepAwaiting W p (x p)) s

/-- An answer reaches the caller that asked. -/
def deliver (s : Server A) (caller : UInt64) (res : HTTPFetchResult) : Server A :=
  match s.http.lookup caller with
  | none => s
  | some h =>
    match h.question with
    | none => s
    | some n =>
      let h : HttpCaller := { question := none, results := h.results ++ [res] }
      { s with http := s.http.insert caller h }.note (.answered n res)

end Server

/-! ## Runs -/

inductive Packet
  | init (pkt : Option InitPacket)
  | init2 (complete : Bool)
  | firstSrp (pkt : Option FirstSrpPacket)
  | srpBytesA (pkt : Option SrpBytesAPacket)
  | srpBytesM (bytesM : Option Bytes)
  | clientReady (complete : Bool)
  /-- All other commands. -/
  | other

inductive Event (A : Type)
  | peerAdded (p : SessionT)
  | packet (p : SessionT) (pkt : Packet) (x : Outside)
  | deletingPeer (p : SessionT)
  | stepAwaitingAuth (order : List SessionT) (x : SessionT → Outside)
  | answer (caller : UInt64) (res : HTTPFetchResult)
  /-- A kick, a ban, or a handler of the game. -/
  | denyAccess (p : SessionT)
  | settingsChanged (settings : Settings)
  /-- The game and its operators manage the passwords, too. -/
  | authChanged (auth : A)
  /-- A player who has left goes from the environment. -/
  | playerRemoved (i : Nat)

namespace Server

variable {A : Type} (W : World A)

/-- `ProcessData`, with what `Receive` makes of its exceptions. -/
def processData (s : Server A) (p : SessionT) (pkt : Packet) (x : Outside) : Server A :=
  match pkt with
  | .init pkt => caught (s.handleCommandInit W p pkt x) p
  | .init2 complete => caught (s.handleCommandInit2 p complete) p
  | .firstSrp pkt => caught (s.handleCommandFirstSrp W p pkt) p
  | .srpBytesA pkt => caught (s.handleCommandSrpBytesA W p pkt x) p
  | .srpBytesM bytesM => caught (s.handleCommandSrpBytesM W p bytesM x) p
  | .clientReady complete =>
    if s.clients.admits p .startup then caught (s.handleCommandClientReady p complete x) p else s
  | .other => s

/-- A peer id is given to one peer at a time, and a caller id to one caller. -/
def Possible (s : Server A) : Event A → Prop
  | .peerAdded p => p ∉ s.clients ∧ p ≠ peerIdInexistent
  | .deletingPeer p => p ≠ peerIdInexistent
  | .packet _ (.init _) x => x.caller ∉ s.http
  | .stepAwaitingAuth order x => order.Perm s.awaitingAuth.keys ∧ ∀ p q, (x p).now = (x q).now
  | .playerRemoved i => ∀ player, s.players[i]? = some player → player.peerId = peerIdInexistent
  | _ => True

def apply (s : Server A) : Event A → Server A
  | .peerAdded p => s.peerAdded p
  | .packet p pkt x => s.processData W p pkt x
  | .deletingPeer p => s.deletingPeer p
  | .stepAwaitingAuth order x => s.stepAwaitingAuth W order x
  | .answer caller res => s.deliver caller res
  | .denyAccess p => s.denyAccess p
  | .settingsChanged settings => { s with settings := settings }
  | .authChanged auth => { s with auth := auth }
  | .playerRemoved i => { s with players := s.players.eraseIdx i }

inductive Step : Server A → Event A → Server A → Prop
  | apply {s : Server A} {e : Event A} (hpossible : s.Possible e) : Step s e (s.apply W e)

end Server

/-! ## A small server -/

/-- Passwords in a list, and tickets that name their owner. -/
def smallWorld : World (List (Bytes × Bytes)) where
  tickets :=
    { base64urlDecode := id
      verify := fun _ signature => signature = ascii "s"
      readPayload := fun raw =>
        some { uid := raw, login := raw, exp := 1000, srv := ascii "srv" } }
  readAnswer _ := some {}
  auth :=
    { getAuth := fun auth name => (auth.find? fun entry => entry.1 = name).map Prod.snd
      createAuth := fun auth name encPwd => (name, encPwd) :: auth
      setPassword := fun auth name encPwd => (true, (name, encPwd) :: auth) }
  base64IsValid _ := true
  base64Encode := id
  base64Decode := id
  generateSrp random _ password := (password, random)

def smallServer (settings : Settings) : Server (List (Bytes × Bytes)) where
  auth := []
  settings := { settings with serverId := ascii "srv" }

def initOf (name : Bytes) : Packet :=
  .init (some
    { maxSerVer := serFmtVerHighestWrite
      minNetProtoVersion := serverProtocolVersionMin
      maxNetProtoVersion := latestProtocolVersion
      playerName := name
      ticket := some (some (ascii "a1." ++ name ++ ascii ".s")) })

/-- A new name gets a password. -/
def register : Packet := .firstSrp (some ⟨[1], [2], false⟩)

def startProof : Packet := .srpBytesA (some ⟨[3], true⟩)

def finishProof : Packet := .srpBytesM (some (List.replicate Server.sessionKeyLength 4))

end Login
end AxisEngine
