import AxisEngine.Client.Rejoin
import AxisEngine.Lib.Transition

/-!
# Transfer — a server sends the client to another one

On a request of its server the client lets go of the link and logs in elsewhere.  When nobody answers
there it gives up, and aims at the server it came from.

* `Address` — an address, and what a name makes of it;
* `Client` — the link, and where the client aims;
* `transferTo`, `abandonTransfer` — the way there, and back;
* `Session` — which server the link was live with, and whether a transfer was requested since;
* `run_leadsHome_iff` — the runs in which giving up leads home.
-/

namespace AxisEngine
namespace Transfer

open Lib Rejoin

/-- An address of another family is none. -/
inductive Host
  | none
  | ipv4 (address : UInt32)
  | ipv6 (bytes : BitVec 128)
deriving DecidableEq

structure Address where
  host : Host := .none
  port : UInt16 := 0
deriving DecidableEq

namespace Address

def setPort (a : Address) (port : UInt16) : Address :=
  { a with port := port }

def isAny (a : Address) : Bool :=
  match a.host with
  | .none => false
  | .ipv4 address => address = 0
  | .ipv6 bytes => bytes = 0

/-- `found` is what the system finds for the name; `none` is a `ResolveError`.  A name is read up to
its first zero. -/
def resolve (a : Address) (name : Bytes) (found : Option Host) : Option Address :=
  if name.headD 0 = 0 then
    some { a with
      host := match a.host with
        | .none => .none
        | .ipv4 _ => .ipv4 0
        | .ipv6 _ => .ipv6 0 }
  else found.map fun host => { a with host := host }

end Address

/-- A `TOCLIENT_TRANSFER`, with what its address resolves to when it is read. -/
structure Request where
  address : Bytes
  port : UInt16
  message : Bytes := []
  found : Option Host
deriving DecidableEq

/-- `con`: the peer of the connection. -/
structure Client extends Rejoin.Client where
  linkLostReason : Bytes := []
  transferPending : Bool := false
  transferReturnAddress : Address := {}
  transferReturnName : Bytes := []
  addressName : Bytes
  serverAddress : Address
  outChatQueue : List Bytes := []
  con : Option Address := none

namespace Client

variable (c : Client)

/-- The address and the name of the server that the client aims at. -/
def server : Address × Bytes :=
  (c.serverAddress, c.addressName)

def returnServer : Address × Bytes :=
  (c.transferReturnAddress, c.transferReturnName)

def connect (address : Address) (addressName : Bytes) : Client :=
  { c with addressName := addressName, serverAddress := address, con := some address }

def loseLink (reason : Bytes) : Client :=
  if c.linkState = .lost then c
  else { c with
    toClient := c.toClient.loseLink
    linkLostReason := reason
    outChatQueue := [] }

/-- The way to a server that was found. -/
def moveTo (target : Address) (name message : Bytes) : Client :=
  { c with
    transferReturnAddress := c.serverAddress
    transferReturnName := c.addressName
    transferPending := true
    addressName := name
    serverAddress := target }.loseLink
      (if message = [] then ascii "Moving to another server." else message)

def transferTo (r : Request) : Bool × Client :=
  if r.address = [] ∨ r.port = 0 then (false, c)
  else
    match Address.resolve { host := .ipv4 0, port := r.port } r.address r.found with
    | none => (false, c)
    | some target =>
      -- a wildcard is the machine the client talks to
      if target.isAny then
        (true, c.moveTo (c.serverAddress.setPort r.port) c.addressName r.message)
      else (true, c.moveTo target r.address r.message)

/-- A request that leads nowhere is only reported. -/
def handleCommandTransfer (r : Request) : Client :=
  (c.transferTo r).2

def abandonTransfer : Bool × Client :=
  if c.transferPending then
    (true, { c with
      transferPending := false
      serverAddress := c.transferReturnAddress
      addressName := c.transferReturnName })
  else (false, c)

def beginRejoin : Client :=
  { c with toClient := c.toClient.beginRejoin, outChatQueue := [] }.connect c.serverAddress
    c.addressName

def linkRestored : Client :=
  { c with
    toClient := c.toClient.linkRestored
    linkLostReason := []
    transferPending := false }

/-- The first connection of all. -/
def start (address : Address) (addressName : Bytes) : Client where
  addressName := addressName
  serverAddress := address
  con := some address

end Client

/-! ## Runs -/

inductive Event
  | transferTo (r : Request)
  | loseLink (reason : Bytes)
  | beginRejoin
  | abandonTransfer
  | linkRestored
deriving DecidableEq

def Client.apply (c : Client) : Event → Client
  | .transferTo r => c.handleCommandTransfer r
  | .loseLink reason => c.loseLink reason
  | .beginRejoin => c.beginRejoin
  | .abandonTransfer => c.abandonTransfer.2
  | .linkRestored => c.linkRestored

/-- The client and what happened to it: `home` is the server with which the link was last live, and
`requested` says whether a transfer was requested since then. -/
structure Session where
  client : Client
  home : Address × Bytes
  requested : Bool

namespace Session

def start (address : Address) (addressName : Bytes) : Session where
  client := .start address addressName
  home := (address, addressName)
  requested := false

def isRequest (c : Client) : Event → Bool
  | .transferTo r => (c.transferTo r).1
  | _ => false

def observe (s : Session) (e : Event) : Session :=
  let c := s.client.apply e
  if c.linkState = .live then { client := c, home := c.server, requested := false }
  else { s with client := c, requested := s.requested || isRequest s.client e }

def Step (s : Session) (e : Event) (t : Session) : Prop :=
  t = s.observe e

/-- Giving up now leads home, and it is a transfer that is given up. -/
def LeadsHome (s : Session) : Prop :=
  s.client.abandonTransfer.1 = true →
    s.client.abandonTransfer.2.server = s.home ∧ s.requested = true

/-- While a transfer is pending no other is requested, unless the pending one leads to the server
that it came from. -/
def OneAtATime (s : Session) (e : Event) : Prop :=
  isRequest s.client e = true → s.client.transferPending = true →
    s.client.server = s.client.returnServer

end Session

/-! ## What the calls do -/

namespace Client

variable {c : Client} {r : Request} {reason target name message : Bytes}

theorem loseLink_linkState (c : Client) (reason : Bytes) : (c.loseLink reason).linkState = .lost := by
  unfold loseLink
  split
  · rename_i hlost
    exact hlost
  · rename_i hlive
    change c.toClient.loseLink.linkState = .lost
    rw [Rejoin.Client.loseLink, if_neg hlive]

theorem loseLink_server (c : Client) (reason : Bytes) : (c.loseLink reason).server = c.server := by
  unfold loseLink
  split
  · rfl
  · rfl

theorem loseLink_pending (c : Client) (reason : Bytes) :
    (c.loseLink reason).transferPending = c.transferPending ∧
      (c.loseLink reason).returnServer = c.returnServer := by
  unfold loseLink
  split
  · exact ⟨rfl, rfl⟩
  · exact ⟨rfl, rfl⟩

/-- A request leads nowhere, or away from where the client aims. -/
theorem transferTo_cases (c : Client) (r : Request) :
    c.transferTo r = (false, c) ∨
      (c.transferTo r).1 = true ∧ (c.transferTo r).2.linkState = .lost ∧
        (c.transferTo r).2.transferPending = true ∧
        (c.transferTo r).2.returnServer = c.server := by
  have hmove : ∀ target name message, (c.moveTo target name message).linkState = .lost ∧
      (c.moveTo target name message).transferPending = true ∧
      (c.moveTo target name message).returnServer = c.server := by
    intro target name message
    unfold moveTo
    rcases loseLink_pending _ _ with ⟨hpending, hreturn⟩
    exact ⟨loseLink_linkState _ _, hpending, hreturn⟩
  unfold transferTo
  split
  · exact .inl rfl
  · split
    · exact .inl rfl
    · split
      · exact .inr ⟨rfl, hmove _ _ _⟩
      · exact .inr ⟨rfl, hmove _ _ _⟩

theorem abandonTransfer_fst (c : Client) : c.abandonTransfer.1 = c.transferPending := by
  unfold abandonTransfer
  split
  · rename_i hpending
    exact hpending.symm
  · rename_i hpending
    exact (Bool.eq_false_iff.2 hpending).symm

theorem abandonTransfer_pending (h : c.transferPending = true) :
    c.abandonTransfer.2.server = c.returnServer := by
  rw [abandonTransfer, if_pos h]
  rfl

theorem abandonTransfer_not_pending (c : Client) : c.abandonTransfer.2.transferPending = false := by
  unfold abandonTransfer
  split
  · rfl
  · rename_i hpending
    exact Bool.eq_false_iff.2 hpending

end Client

/-! ## What happens to a session -/

namespace Session

/-- A live link has no transfer pending, and without one the client aims home. -/
structure Settled (s : Session) : Prop where
  live : s.client.linkState = .live → s.client.transferPending = false
  home : s.client.transferPending = false → s.client.server = s.home

section

variable {s t : Session} {e : Event}

theorem leadsHome_iff : s.LeadsHome ↔ (s.client.transferPending = true →
    s.client.returnServer = s.home ∧ s.requested = true) := by
  unfold LeadsHome
  rw [Client.abandonTransfer_fst]
  refine forall_congr' fun hpending => ?_
  rw [Client.abandonTransfer_pending hpending]

theorem observe_client (s : Session) (e : Event) : (s.observe e).client = s.client.apply e := by
  unfold observe
  dsimp only
  split
  · rfl
  · rfl

theorem observe_live (h : (s.client.apply e).linkState = .live) :
    (s.observe e).home = (s.client.apply e).server := by
  rw [observe, if_pos h]

theorem observe_away (h : (s.client.apply e).linkState ≠ .live) :
    (s.observe e).home = s.home ∧
      (s.observe e).requested = (s.requested || isRequest s.client e) := by
  rw [observe, if_neg h]
  exact ⟨rfl, rfl⟩

/-- What a call does to the transfer: it leaves it alone, asks for another one, or ends it. -/
theorem apply_cases (hidle : s.client.linkState = .live → s.client.transferPending = false)
    (e : Event) :
    isRequest s.client e = false ∧ (s.client.apply e).server = s.client.server ∧
        (s.client.apply e).transferPending = s.client.transferPending ∧
        (s.client.apply e).returnServer = s.client.returnServer ∧
        ((s.client.apply e).linkState = .live → (s.client.apply e).transferPending = false) ∨
      isRequest s.client e = true ∧ (s.client.apply e).linkState = .lost ∧
        (s.client.apply e).transferPending = true ∧
        (s.client.apply e).returnServer = s.client.server ∨
      isRequest s.client e = false ∧ (s.client.apply e).transferPending = false ∧
        ((s.client.apply e).linkState = .live ∨
          s.client.transferPending = true ∧ (s.client.apply e).server = s.client.returnServer) := by
  cases e with
  | transferTo r =>
    rcases s.client.transferTo_cases r with hnowhere | ⟨haccepted, hlost, hpending, hreturn⟩
    · have hsame : s.client.apply (.transferTo r) = s.client := by
        change (s.client.transferTo r).2 = s.client
        rw [hnowhere]
      rw [hsame]
      refine .inl ⟨?_, rfl, rfl, rfl, hidle⟩
      change (s.client.transferTo r).1 = false
      rw [hnowhere]
    · exact .inr (.inl ⟨haccepted, hlost, hpending, hreturn⟩)
  | loseLink reason =>
    rcases s.client.loseLink_pending reason with ⟨hpending, hreturn⟩
    refine .inl ⟨rfl, s.client.loseLink_server reason, hpending, hreturn, fun hlive => ?_⟩
    have hlost : (s.client.apply (.loseLink reason)).linkState = .lost :=
      s.client.loseLink_linkState reason
    rw [hlost] at hlive
    cases hlive
  | beginRejoin => exact .inl ⟨rfl, rfl, rfl, rfl, fun hlive => by cases hlive⟩
  | abandonTransfer =>
    by_cases hpending : s.client.transferPending = true
    · exact .inr (.inr ⟨rfl, s.client.abandonTransfer_not_pending,
        .inr ⟨hpending, Client.abandonTransfer_pending hpending⟩⟩)
    · have hsame : s.client.apply .abandonTransfer = s.client := by
        change s.client.abandonTransfer.2 = s.client
        rw [Client.abandonTransfer, if_neg hpending]
      rw [hsame]
      exact .inl ⟨rfl, rfl, rfl, rfl, hidle⟩
  | linkRestored => exact .inr (.inr ⟨rfl, rfl, .inl rfl⟩)

theorem settled_step (hsettled : s.Settled) (hleads : s.LeadsHome) (h : Step s e t) :
    t.Settled := by
  subst h
  rw [leadsHome_iff] at hleads
  have hcases := apply_cases hsettled.live e
  constructor
  · rw [observe_client]
    intro hlive
    rcases hcases with ⟨-, -, -, -, hnone⟩ | ⟨-, hlost, -, -⟩ | ⟨-, hnone, -⟩
    · exact hnone hlive
    · rw [hlost] at hlive
      cases hlive
    · exact hnone
  · rw [observe_client]
    intro hnone
    by_cases hlive : (s.client.apply e).linkState = .live
    · exact (observe_live hlive).symm
    rw [(observe_away hlive).1]
    rcases hcases with ⟨-, hserver, hpending, -, -⟩ | ⟨-, -, hpending, -⟩ |
      ⟨-, -, hrestored | ⟨hpending, hback⟩⟩
    · rw [hserver]
      exact hsettled.home (hpending.symm.trans hnone)
    · rw [hpending] at hnone
      cases hnone
    · exact absurd hrestored hlive
    · rw [hback]
      exact (hleads hpending).1

/-- A request takes where the client aims for where it came from. -/
theorem leadsHome_step_iff (hsettled : s.Settled) (hleads : s.LeadsHome) (h : Step s e t) :
    t.LeadsHome ↔ OneAtATime s e := by
  subst h
  rw [leadsHome_iff] at hleads ⊢
  unfold OneAtATime
  rw [observe_client]
  rcases apply_cases hsettled.live e with ⟨hrequest, -, hpending, hreturn, hnone⟩ |
    ⟨hrequest, hlost, hpending, hreturn⟩ | ⟨hrequest, hnone, -⟩
  · refine iff_of_true (fun h => ?_) fun hrequested => ?_
    · have haway : (s.client.apply e).linkState ≠ .live := by
        intro hlive
        rw [hnone hlive] at h
        cases h
      rcases hleads (hpending.symm.trans h) with ⟨hhome, hrequested⟩
      rw [(observe_away haway).1, (observe_away haway).2, hreturn, hrequested]
      exact ⟨hhome, rfl⟩
    · rw [hrequest] at hrequested
      cases hrequested
  · have haway : (s.client.apply e).linkState ≠ .live := by
      rw [hlost]
      decide
    rw [(observe_away haway).1, (observe_away haway).2, hrequest, hreturn, Bool.or_true, hpending]
    constructor
    · intro hback _ h
      rw [(hback rfl).1, (hleads h).1]
    · intro hone _
      refine ⟨?_, rfl⟩
      by_cases h : s.client.transferPending = true
      · rw [hone rfl h, (hleads h).1]
      · exact hsettled.home (Bool.eq_false_iff.2 h)
  · refine iff_of_true (fun h => ?_) fun hrequested => ?_
    · rw [hnone] at h
      cases h
    · rw [hrequest] at hrequested
      cases hrequested

theorem settled_start (address : Address) (addressName : Bytes) :
    (start address addressName).Settled :=
  ⟨fun _ => rfl, fun _ => rfl⟩

theorem leadsHome_start (address : Address) (addressName : Bytes) :
    (start address addressName).LeadsHome := by
  intro h
  cases h

/-- Giving up leads home all along, in the runs that ask for one transfer at a time and in no
others. -/
theorem run_leadsHome_iff (address : Address) (addressName : Bytes) (es : List Event) :
    Run.Guarded OneAtATime Step (start address addressName) es t ↔
      Run (fun s e t => Step s e t ∧ t.LeadsHome) (start address addressName) es t := by
  refine Run.guarded_iff_along (fun s e t hsettled hleads => settled_step hsettled hleads) ?_ ?_
    (settled_start address addressName) (leadsHome_start address addressName)
  · intro s e t hsettled hleads hone h
    exact (leadsHome_step_iff hsettled hleads h).2 hone
  · intro s e t hsettled hleads hmore h hback
    exact hmore ((leadsHome_step_iff hsettled hleads h).1 hback)

/-! ## The connection -/

end

/-! ## Two requests -/

def lobby : Address where
  host := .ipv4 0x0a000001
  port := 30000

def requestTo (port : UInt16) : Request where
  address := ascii "10.0.0.1"
  port := port
  found := some (.ipv4 0x0a000001)

/-- The second request was on its way when the first was read. -/
theorem twoRequests_leadAstray : ∃ t, Run Step (start lobby (ascii "lobby"))
    [.transferTo (requestTo 30001), .transferTo (requestTo 30002)] t ∧ ¬ t.LeadsHome := by
  refine ⟨_, .cons rfl (.cons rfl (.nil _)), fun h => ?_⟩
  have hhome := (h rfl).1
  revert hhome
  decide +kernel

end Session

end Transfer
end AxisEngine
