import AxisEngine.Lib.Bytes
import AxisEngine.Lib.Transition

/-!
# Matchmaking — the menu's talk with a dispatcher

The matchmaking screen asks a dispatcher for its arenas, joins a queue and polls it.  Which dispatcher that is
follows from an index into the list of servers, which the launcher replaces at will.

* `State` — the screen, the list of servers, and the requests that wait for an answer;
* `State.pickEntry`, `State.dispatchUrl` — the chosen entry and its dispatcher;
* `State.modesAnswered`, `State.pollAnswered`, `State.joinAnswered` — what the callbacks do;
* `State.step` — a call of the screen, an answer, or a new list of servers.

A request without a dispatcher is answered at once, by an answer that was not reached; what its callback then
does stands where the request is made.
-/

namespace AxisEngine
namespace Menu

open Lib

/-! ## Data -/

/-- A row of the list of servers, as far as the matchmaking reads it. -/
structure ServerEntry where
  id : Bytes
  dispatch : Bytes
  region : Bytes
  role : Bytes
  deriving DecidableEq

structure Mode where
  id : Bytes
  title : Bytes
  waiting : ℤ
  players : ℤ
  party : Bool
  crate : Bytes
  deriving DecidableEq

structure Crate where
  id : Bytes
  title : Bytes
  author : Bytes
  description : Bytes
  cover : Bytes
  deriving DecidableEq

structure Member where
  login : Bytes
  name : Bytes
  skin : Bytes
  face : Bytes
  host : Bool
  deriving DecidableEq

structure Queue where
  mode : Bytes
  title : Bytes
  room : Bytes
  roomState : Bytes
  waiting : ℤ
  needed : ℤ
  startsIn : ℤ
  min : ℤ
  joining : Bool
  code : Bytes
  host : Bool
  started : Bool
  members : List Member
  deriving DecidableEq

def Queue.party (q : Queue) : Bool := q.code ≠ []

/-! ## Answers -/

structure ModeBody where
  id : Option Bytes
  title : Option Bytes
  waiting : Option ℤ
  players : Option ℤ
  party : Option Bool
  crate : Option Bytes

structure CrateBody where
  id : Option Bytes
  title : Option Bytes
  author : Option Bytes
  description : Option Bytes
  cover : Option Bytes

structure MemberBody where
  login : Option Bytes
  name : Option Bytes
  skin : Option Bytes
  face : Option Bytes
  host : Option Bool

/-- The fields of a JSON object; a field may be missing, and what stands in an array may be no object. -/
structure Body where
  modes : List (Option ModeBody) := []
  crates : List (Option CrateBody) := []
  mode : Option Bytes := none
  title : Option Bytes := none
  room : Option Bytes := none
  roomState : Option Bytes := none
  waiting : Option ℤ := none
  needed : Option ℤ := none
  startsIn : Option ℤ := none
  min : Option ℤ := none
  code : Option Bytes := none
  host : Option Bool := none
  started : Option Bool := none
  members : List (Option MemberBody) := []
  address : Option Bytes := none
  port : Option ℤ := none
  pass : Option Bytes := none
  error : Option Bytes := none

/-- `Net::Answer`; `body` is there when it is an object. -/
structure Answer where
  reached : Bool := false
  code : ℤ := 0
  body : Option Body := none

inductive Why
  | unreachable
  | gone
  deriving DecidableEq

def decode (res : Answer) : Except Why Body :=
  if ¬ res.reached then .error .unreachable
  else if res.code = 404 then .error .gone
  else match res.body with
    | some body => if res.code ≠ 200 then .error .unreachable else .ok body
    | none => .error .unreachable

def readMode (m : ModeBody) : Mode where
  id := m.id.getD []
  title := m.title.getD (m.id.getD [])
  waiting := m.waiting.getD 0
  players := m.players.getD 0
  party := m.party.getD false
  crate := m.crate.getD []

def readCrate (asked : Bytes) (c : CrateBody) : Crate where
  id := c.id.getD []
  title := c.title.getD (c.id.getD [])
  author := c.author.getD []
  description := c.description.getD []
  cover := if c.cover.getD [] = [] then [] else asked ++ c.cover.getD []

def readMember (m : MemberBody) : Member where
  login := m.login.getD []
  name := m.name.getD (m.login.getD [])
  skin := m.skin.getD []
  face := m.face.getD []
  host := m.host.getD false

def readBody (b : Body) : Queue where
  mode := b.mode.getD []
  title := b.title.getD (b.mode.getD [])
  room := b.room.getD []
  roomState := b.roomState.getD []
  waiting := b.waiting.getD 0
  needed := b.needed.getD 0
  startsIn := b.startsIn.getD 0
  min := b.min.getD 1
  joining := false
  code := b.code.getD []
  host := b.host.getD false
  started := b.started.getD false
  members := (b.members.filterMap id).map readMember

def unavailable : Bytes := ascii "Matchmaking is unavailable"

/-- Why a join or a start was refused -/
def refusal (res : Answer) : Bytes :=
  let error := (res.body.bind (·.error)).getD []
  if error = ascii "invite_gone" then ascii "The match you were invited to has already started"
  else if error = ascii "no_party" then ascii "There is no game with this code"
  else if error = ascii "party_gone" then ascii "This game has already started"
  else if error = ascii "party_full" then ascii "This game is full"
  else unavailable

/-! ## Requests -/

/-- What a player wants to join -/
inductive Want
  | mode (id : Bytes)
  | party (mode : Bytes)
  | code (code : Bytes)
  | room (room : Bytes)
  deriving DecidableEq

/-- A request to a dispatcher, or to the launcher (`ticket` and `invite`) -/
inductive Kind
  | modes (again : Bool)
  | join (want : Want) (region pass ticket : Bytes)
  | queue (pass region : Bytes)
  | start (pass : Bytes)
  | leave (pass : Bytes)
  | ticket (serverId : Bytes) (want : Want) (invited : Bool)
  | invite
  deriving DecidableEq

/-- A request without its answer: the dispatcher it went to, and the epoch its callback remembers. -/
structure Request where
  kind : Kind
  url : Bytes
  epoch : ℕ
  deriving DecidableEq

/-- A poll, start or leave request that was sent, and the dispatcher that had granted the queue. -/
structure Sent where
  url : Bytes
  granter : Bytes

structure State where
  /-- The setting `matchmaking_url` -/
  ownDispatch : Bytes
  /-- The launcher is there. -/
  launcher : Bool
  -- the list of servers
  servers : List ServerEntry
  serversEntry : Bytes
  serversUsable : List Bytes
  loaded : Bool
  -- the screen
  shown : Bool
  region : Option ℕ
  modes : Option (List Mode)
  crates : List Crate
  queue : Option Queue
  pass : Bytes
  status : Bytes
  modesStatus : Bytes
  asking : Bool
  polling : Bool
  epoch : ℕ
  bad : List Bytes
  answered : Bool
  invite : Bytes
  askingInvite : Bool
  inviteAsked : Bool
  entering : Bool
  lastDispatch : Bytes
  -- requests under way
  outstanding : List Request
  /-- For the record: who granted the queue, what was sent about it, and for the shown modes whom they were
  asked of and whom `dispatchUrl` named when they were stored. -/
  granter : Bytes
  sent : List Sent
  shownFrom : Option (Bytes × Bytes)

/-- A new screen -/
def State.new (ownDispatch : Bytes) (launcher : Bool) : State where
  ownDispatch := ownDispatch
  launcher := launcher
  servers := []
  serversEntry := []
  serversUsable := []
  loaded := false
  shown := false
  region := none
  modes := none
  crates := []
  queue := none
  pass := []
  status := []
  modesStatus := []
  asking := false
  polling := false
  epoch := 0
  bad := []
  answered := false
  invite := []
  askingInvite := false
  inviteAsked := false
  entering := false
  lastDispatch := []
  outstanding := []
  granter := []
  sent := []
  shownFrom := none

namespace State

/-! ## The entry -/

variable (s : State)

/-- `ServerList::usable` -/
def usable (server : ServerEntry) : Bool :=
  s.serversUsable = [] || server.region ∈ s.serversUsable

def eligible (server : ServerEntry) : Bool :=
  server.role = ascii "matches" && server.dispatch ≠ [] && server.dispatch ∉ s.bad && s.usable server

/-- The entry that the launcher named, or the first one. -/
def pickEntry : State :=
  if s.queue.isSome then s
  else
    let named := fun server : ServerEntry => s.serversEntry ≠ [] && server.region = s.serversEntry
    match s.servers.findIdx? fun server => s.eligible server && named server with
    | some i => { s with region := some i }
    | none => { s with region := s.servers.findIdx? s.eligible }

def decided : Bool := s.ownDispatch ≠ [] || s.loaded

def entry : Option ServerEntry := s.region.bind (s.servers[·]?)

def dispatchUrl : Bytes :=
  if s.ownDispatch ≠ [] then s.ownDispatch
  else match s.entry with
    | some server => server.dispatch
    | none => []

def regionName : Bytes :=
  match s.entry with
  | some server => server.region
  | none => []

def serverId : Bytes :=
  match s.entry with
  | some server => server.id
  | none => []

/-- A request to the chosen dispatcher -/
def send (kind : Kind) : State :=
  { s with outstanding := s.outstanding ++ [⟨kind, s.dispatchUrl, s.epoch⟩] }

/-- A request about the queue -/
def sendQueued (kind : Kind) (granter : Bytes) : State :=
  { s.send kind with sent := ⟨s.dispatchUrl, granter⟩ :: s.sent }

/-! ## Leaving -/

def stop : State :=
  let s := { s with epoch := s.epoch + 1, asking := false, polling := false }
  let s := match s.queue with
    | none => s
    | some q =>
      let s := { s with queue := none }
      let s :=
        if q.joining ∨ s.dispatchUrl = [] then s else s.sendQueued (.leave s.pass) s.granter
      { s with pass := [] }
  { s with status := [], modesStatus := [] }

/-! ## The arenas -/

/-- The failing end of the callback of `refreshModes` -/
def modesUnavailable : State :=
  { s with modes := some [], modesStatus := unavailable, asking := false }

/-- Without a dispatcher no other can be tried: there is none. -/
def refreshModes (again : Bool) : State :=
  if s.asking ∧ ¬ again then s
  else
    let s := { s with asking := true }
    if s.dispatchUrl = [] then s.modesUnavailable else s.send (.modes again)

/-- The dispatcher that did not answer is not offered any more. -/
def dropEntry (asked : Bytes) : State :=
  if asked ≠ [] ∧ s.queue.isNone then
    pickEntry { s with bad := asked :: s.bad, answered := false }
  else s

def modesAnswered (asked : Bytes) (res : Answer) : State :=
  match decode res with
  | .ok body =>
    let s := { s with
      modes := some ((body.modes.filterMap id).map readMode)
      crates := (body.crates.filterMap id).map (readCrate asked)
      modesStatus := []
      answered := true
      shownFrom := some (asked, s.dispatchUrl) }
    if s.shown ∧ s.queue.isNone then s.refreshModes true else { s with asking := false }
  | .error _ =>
    let s := s.dropEntry asked
    if s.dispatchUrl ≠ [] ∧ s.dispatchUrl ≠ asked then refreshModes { s with asking := false } false
    else s.modesUnavailable

/-! ## The queue -/

/-- `granter` is for the record. -/
def readQueue (body : Body) (granter : Bytes) : State :=
  { s with queue := some (readBody body), granter }

/-- A queue that is held stays with its dispatcher. -/
def keptGranter (url : Bytes) : Bytes := if s.queue.isSome then s.granter else url

/-- `none` where the source returns `false`. -/
def enterMatch (body : Body) : Option State :=
  if body.address.getD [] = [] ∨ body.port.getD 0 ≤ 0 then none
  else if ¬ s.shown then some s.stop
  else some { s with queue := s.queue.map fun q => { q with joining := true, startsIn := 0 } }

def pollFailed (why : Why) : State :=
  { s with queue := none, status := if why = .gone then [] else unavailable }

def poll : State :=
  if s.polling ∨ s.queue.isNone ∨ ¬ s.shown then s
  else if s.dispatchUrl = [] then pollFailed { s with polling := false } .unreachable
  else sendQueued { s with polling := true } (.queue s.pass s.regionName) s.granter

/-- The match, or another poll -/
def goOn (body : Body) : State :=
  match s.enterMatch body with
  | some s => s
  | none => s.poll

def pollAnswered (url : Bytes) (res : Answer) : State :=
  let s := { s with polling := false }
  match decode res with
  | .error why => s.pollFailed why
  | .ok body => (s.readQueue body (s.keptGranter url)).goOn body

def enqueue (want : Want) (pass ticket : Bytes) : State :=
  if s.dispatchUrl = [] then { s with status := refusal {} }
  else s.send (.join want s.regionName pass ticket)

def joinAnswered (url : Bytes) (res : Answer) : State :=
  match decode res with
  | .error _ => { s with status := refusal res }
  | .ok body =>
    let s := { s with pass := if body.pass.getD [] = [] then s.pass else body.pass.getD [] }
    goOn { s.readQueue body url with status := [] } body

/-! ## Tickets and invitations -/

/-- What a player is told who got no ticket -/
def noTicket (trouble : Bytes) : State :=
  { s with
    status :=
      if trouble = ascii "no_launcher" then ascii "Start the game through the launcher to play online"
      else unavailable }

/-- The callback of `withCredential`, and that of `followInvite` -/
def ticketAnswered (want : Want) (invited : Bool) (epoch : ℕ) (ticket trouble : Bytes) : State :=
  let s := if invited then { s with entering := false } else s
  if epoch ≠ s.epoch then s
  else if ticket = [] then s.noTicket trouble
  else
    let s := if invited then { s with invite := [] } else s
    s.enqueue want [] ticket

/-- Without a launcher or a server the answer comes at once. -/
def ticketForJoin (want : Want) (invited : Bool) : State :=
  if ¬ s.launcher then s.ticketAnswered want invited s.epoch [] (ascii "no_launcher")
  else if s.serverId = [] then s.ticketAnswered want invited s.epoch [] (ascii "no_server")
  else { s with outstanding := s.outstanding ++ [⟨.ticket s.serverId want invited, [], s.epoch⟩] }

def withCredential (want : Want) : State :=
  if ¬ s.decided then s
  else
    let s := { s with status := [] }
    if s.pass ≠ [] then s.enqueue want s.pass [] else s.ticketForJoin want false

/-- `go` of `followInvite` -/
def follow (room : Bytes) : State :=
  let s := { s with invite := room, entering := true }
  if s.pass ≠ [] then enqueue { s with invite := [], entering := false } (.room room) s.pass []
  else s.ticketForJoin (.room room) true

def inviteAnswered (room : Bytes) : State :=
  let s := { s with askingInvite := false }
  if room ≠ [] ∧ s.shown ∧ s.queue.isNone then s.follow room
  else if room ≠ [] then { s with invite := room }
  else s

def followInvite : State :=
  if s.askingInvite ∨ s.entering ∨ s.serverId = [] then s
  else if s.invite ≠ [] then s.follow s.invite
  else if s.inviteAsked then s
  else
    let s := { s with inviteAsked := true, askingInvite := true }
    if ¬ s.launcher then s.inviteAnswered []
    else { s with outstanding := s.outstanding ++ [⟨.invite, [], s.epoch⟩] }

/-! ## Calls of the screen -/

def joinParty (code : Bytes) : State :=
  if code = [] then s else s.withCredential (.code code)

def startParty : State :=
  match s.queue with
  | none => s
  | some q =>
    if ¬ q.party ∨ ¬ q.host then s
    else if s.dispatchUrl = [] then { s with status := refusal {} }
    else s.sendQueued (.start s.pass) s.granter

def startAnswered (url : Bytes) (res : Answer) : State :=
  match decode res with
  | .error _ => { s with status := refusal res }
  | .ok body => { s.readQueue body (s.keptGranter url) with status := [] }

def cancel : State := s.stop.refreshModes false

def joinFailed : State :=
  match s.queue with
  | some q => if q.joining then { s with queue := none } else s
  | none => s

def retry : State :=
  (pickEntry { s with bad := [], modes := none }).refreshModes false

/-- `ServerList::sync`; with a launcher the list comes later. -/
def sync : State :=
  if s.launcher then s else { s with servers := [], loaded := true }

/-- `enter` up to the choice of the entry -/
def opened : State :=
  sync { s with shown := true, inviteAsked := false, modes := none, bad := [] }

def enter : State :=
  let s := s.opened.pickEntry
  let s := { s with lastDispatch := s.dispatchUrl }
  if s.decided then s.refreshModes false else s

def leave : State := stop { s with shown := false }

/-- `update` up to the choice of the entry -/
def invited : State := if s.queue.isNone then s.followInvite else s

def update : State :=
  if ¬ s.shown then s
  else
    let s := s.invited.pickEntry
    let now := s.dispatchUrl
    if s.decided ∧ (s.modes.isNone ∨ now ≠ s.lastDispatch) then
      let s := if now ≠ s.lastDispatch then { s with modes := none, asking := false } else s
      refreshModes { s with lastDispatch := now } false
    else s

end State

/-! ## Steps -/

inductive Label
  | enter
  | leave
  | update
  | join (mode : Bytes)
  | createParty (mode : Bytes)
  | joinParty (code : Bytes)
  | startParty
  | cancel
  | retry
  | joinFailed
  | invited (room : Bytes)
  /-- The launcher replaces the list of servers. -/
  | servers (all : List ServerEntry) (entry : Bytes) (usable : List Bytes)
  /-- An answer of a dispatcher -/
  | answer (r : Request) (res : Answer)
  /-- The launcher's answer to `ticket` -/
  | ticket (r : Request) (ticket trouble : Bytes)
  /-- The launcher's answer to `invite` -/
  | invite (r : Request) (room : Bytes)

namespace State

/-- The callback of a request; but for that of `leave` all of them look at the epoch first. -/
def answer (s : State) (r : Request) (res : Answer) : Option State :=
  match r.kind with
  | .modes _ => if r.epoch ≠ s.epoch then s else s.modesAnswered r.url res
  | .join .. => if r.epoch ≠ s.epoch then s else s.joinAnswered r.url res
  | .queue .. => if r.epoch ≠ s.epoch then s else s.pollAnswered r.url res
  | .start _ => if r.epoch ≠ s.epoch then s else s.startAnswered r.url res
  | .leave _ => some s
  | _ => none

/-- The request has its answer. -/
def received (s : State) (r : Request) : Option State :=
  if r ∈ s.outstanding then some { s with outstanding := s.outstanding.erase r } else none

def step (s : State) : Label → Option State
  | .enter => s.enter
  | .leave => s.leave
  | .update => s.update
  | .join mode => s.withCredential (.mode mode)
  | .createParty mode => s.withCredential (.party mode)
  | .joinParty code => s.joinParty code
  | .startParty => s.startParty
  | .cancel => s.cancel
  | .retry => s.retry
  | .joinFailed => s.joinFailed
  | .invited room => some { s with invite := room }
  | .servers all entry usable =>
    some { s with servers := all, serversEntry := entry, serversUsable := usable, loaded := true }
  | .answer r res => do
      let s ← s.received r
      s.answer r res
  | .ticket r ticket trouble => do
      let s ← s.received r
      match r.kind with
      | .ticket _ want invited => some (s.ticketAnswered want invited r.epoch ticket trouble)
      | _ => none
  | .invite r room => do
      let s ← s.received r
      if r.kind = .invite then some (s.inviteAnswered room) else none

/-- One call, answer or list of servers -/
def Step (s : State) (l : Label) (t : State) : Prop := s.step l = some t

end State

end Menu
end AxisEngine
