import AxisEngine.Lib.Bytes
import Mathlib.Data.List.AList

/-!
# ClientInterface — the connections of the server and the state each is in

Every connection has a `RemoteClient`, and its state moves by events.  An event that the state does
not expect is a `ClientStateError`; two states ignore every event.  The packets of a connection are
sorted by what they need of the state before a handler sees them.

* `ClientState`, `ClientStateEvent`, `notifyEvent` — the state machine of one connection;
* `Clients` — the connections by peer id;
* `event`, `admits` — what the server asks of them.
-/

namespace AxisEngine
namespace Login

open Lib

abbrev SessionT := UInt16

def peerIdInexistent : SessionT := 0

def peerIdServer : SessionT := 1

/-- In the order of the enumeration; the order is used. -/
inductive ClientState
  | invalid | disconnecting | denied | created | helloSent | awaitingInit2 | initDone
  | definitionsSent | active | sudoMode
deriving DecidableEq

namespace ClientState

def toNat : ClientState → Nat
  | invalid => 0
  | disconnecting => 1
  | denied => 2
  | created => 3
  | helloSent => 4
  | awaitingInit2 => 5
  | initDone => 6
  | definitionsSent => 7
  | active => 8
  | sudoMode => 9

instance : LE ClientState := ⟨fun a b => a.toNat ≤ b.toNat⟩

instance : DecidableLE ClientState := fun a b => inferInstanceAs (Decidable (a.toNat ≤ b.toNat))

end ClientState

inductive ClientStateEvent
  | hello | authAccept | gotInit2 | setDenied | setDefinitionsSent | setClientReady | sudoSuccess
  | sudoLeave | disconnect
deriving DecidableEq

/-- The state that an event leads to.  `none` is a `ClientStateError`. -/
def ClientState.next : ClientState → ClientStateEvent → Option ClientState
  -- intentionally do nothing
  | .invalid, _ => some .invalid
  | .created, .hello => some .helloSent
  | .created, .disconnect => some .disconnecting
  | .created, .setDenied => some .denied
  -- don't do anything if in denied state
  | .denied, _ => some .denied
  | .helloSent, .authAccept => some .awaitingInit2
  | .helloSent, .disconnect => some .disconnecting
  | .helloSent, .setDenied => some .denied
  | .awaitingInit2, .gotInit2 => some .initDone
  | .awaitingInit2, .disconnect => some .disconnecting
  | .awaitingInit2, .setDenied => some .denied
  | .initDone, .setDefinitionsSent => some .definitionsSent
  | .initDone, .disconnect => some .disconnecting
  | .initDone, .setDenied => some .denied
  | .definitionsSent, .setClientReady => some .active
  | .definitionsSent, .disconnect => some .disconnecting
  | .definitionsSent, .setDenied => some .denied
  | .active, .setDenied => some .denied
  | .active, .disconnect => some .disconnecting
  | .active, .sudoSuccess => some .sudoMode
  | .sudoMode, .setDenied => some .denied
  | .sudoMode, .disconnect => some .disconnecting
  | .sudoMode, .sudoLeave => some .active
  -- we are already disconnecting
  | .disconnecting, _ => some .disconnecting
  | _, _ => none

inductive AuthMechanism
  | none | legacyPassword | srp | firstSrp
deriving DecidableEq

def AuthMechanism.bit : AuthMechanism → UInt32
  | none => 0
  | legacyPassword => 1
  | srp => 2
  | firstSrp => 4

structure TicketIdentity where
  uid : Bytes := []
  login : Bytes := []
  display : Bytes := []
  expires : Int := 0
  skin : Bytes := []
deriving DecidableEq

/-- What `srp_verifier_new` was called with. -/
structure SrpVerifier where
  username : Bytes
  salt : Bytes
  verifier : Bytes
  bytesA : Bytes
deriving DecidableEq

def serFmtVerInvalid : UInt8 := 255

structure RemoteClient where
  state : ClientState := .created
  name : Bytes := []
  ticket : Bytes := []
  identity : TicketIdentity := {}
  serializationVersion : UInt8 := serFmtVerInvalid
  pendingSerializationVersion : UInt8 := serFmtVerInvalid
  netProtoVersion : UInt16 := 0
  encPwd : Bytes := []
  createPlayerOnAuthSuccess : Bool := false
  chosenMech : AuthMechanism := .none
  authData : Option SrpVerifier := none
  allowedAuthMechs : UInt32 := 0

namespace RemoteClient

variable (c : RemoteClient)

def resetChosenMech : RemoteClient :=
  { c with authData := none, chosenMech := .none }

def isMechAllowed (mech : AuthMechanism) : Bool :=
  c.allowedAuthMechs &&& mech.bit ≠ 0

/-- From here on only this password is accepted. -/
def setEncryptedPassword (pwd : Bytes) : RemoteClient :=
  { c with encPwd := pwd, allowedAuthMechs := AuthMechanism.srp.bit }

/-- What the state machine does beside moving on. -/
def notice (e : ClientStateEvent) : RemoteClient :=
  match c.state, e with
  | .helloSent, .authAccept => c.resetChosenMech
  | .helloSent, .setDenied => c.resetChosenMech
  | .awaitingInit2, .gotInit2 => { c with serializationVersion := c.pendingSerializationVersion }
  | .active, .sudoSuccess => c.resetChosenMech
  | _, _ => c

/-- `none` is a `ClientStateError`. -/
def notifyEvent (e : ClientStateEvent) : Option RemoteClient :=
  (c.state.next e).map fun s => { c.notice e with state := s }

end RemoteClient

/-- What a command needs of the state of the connection that sent it. -/
inductive CommandState
  | notConnected | startup | inGame
deriving DecidableEq

/-- `ClientInterface`, the connections by peer id. -/
abbrev Clients := AList fun _ : SessionT => RemoteClient

namespace Clients

variable (cs : Clients) (p : SessionT)

/-- A connection that is known already keeps its client. -/
def createClient : Clients :=
  match cs.lookup p with
  | some _ => cs
  | none => cs.insert p {}

def getClientNoEx (stateMin : ClientState) : Option RemoteClient :=
  (cs.lookup p).filter fun c => stateMin ≤ c.state

def getClientState : ClientState :=
  match cs.lookup p with
  | some c => c.state
  | none => .invalid

/-- `getClientIDs`, whether there are any. -/
def anyFrom (cs : Clients) (stateMin : ClientState) : Bool :=
  cs.entries.any fun entry => stateMin ≤ entry.2.state

/-- `none` is a `ClientStateError`; a client that is gone gets no event. -/
def event (e : ClientStateEvent) : Option Clients :=
  match cs.lookup p with
  | none => some cs
  | some c => (c.notifyEvent e).map fun c' => cs.insert p c'

/-- `ProcessData`: whether the handler of a command is called. -/
def admits (needs : CommandState) : Bool :=
  match needs with
  | .notConnected => true
  | .startup =>
    match cs.getClientNoEx p .initDone with
    | none => false
    | some c => c.serializationVersion ≠ serFmtVerInvalid
  | .inGame =>
    match cs.getClientNoEx p .initDone with
    | none => false
    | some c => c.serializationVersion ≠ serFmtVerInvalid && .active ≤ cs.getClientState p

end Clients

/-! ## What an event does -/

namespace RemoteClient

variable {c c' : RemoteClient} {e : ClientStateEvent}

theorem notifyEvent_eq_some : c.notifyEvent e = some c' ↔
    ∃ s, c.state.next e = some s ∧ c' = { c.notice e with state := s } := by
  rw [notifyEvent, Option.map_eq_some_iff]
  refine exists_congr fun s => and_congr_right fun _ => eq_comm

/-- Access can be denied, and a connection can be given up, in every state. -/
theorem notifyEvent_setDenied (c : RemoteClient) : ∃ c', c.notifyEvent .setDenied = some c' := by
  have hnext : ∃ s, c.state.next .setDenied = some s := by
    cases c.state <;> exact ⟨_, rfl⟩
  rcases hnext with ⟨s, hs⟩
  exact ⟨_, notifyEvent_eq_some.2 ⟨s, hs, rfl⟩⟩

end RemoteClient

namespace Clients

variable {cs cs' : Clients} {p q : SessionT} {e : ClientStateEvent} {c : RemoteClient}

theorem getClientNoEx_eq_some {stateMin : ClientState} :
    cs.getClientNoEx p stateMin = some c ↔ cs.lookup p = some c ∧ stateMin ≤ c.state := by
  rw [getClientNoEx, Option.filter_eq_some_iff]
  simp

theorem event_eq_some (h : cs.event p e = some cs') :
    cs.lookup p = none ∧ cs' = cs ∨
      ∃ c c', cs.lookup p = some c ∧ c.notifyEvent e = some c' ∧ cs' = cs.insert p c' := by
  rw [event] at h
  cases hp : cs.lookup p with
  | none =>
    rw [hp] at h
    cases h
    exact .inl ⟨rfl, rfl⟩
  | some c =>
    rw [hp] at h
    rcases Option.map_eq_some_iff.1 h with ⟨c', hc', rfl⟩
    exact .inr ⟨c, c', rfl, hc', rfl⟩

/-- An event leaves the set of connections as it is. -/
theorem mem_of_event (h : cs.event p e = some cs') : q ∈ cs' ↔ q ∈ cs := by
  rcases event_eq_some h with ⟨-, rfl⟩ | ⟨c, c', hp, -, rfl⟩
  · exact Iff.rfl
  · have hmem : p ∈ cs := AList.lookup_isSome.1 (hp ▸ rfl)
    rw [AList.mem_insert]
    refine ⟨?_, Or.inr⟩
    rintro (rfl | hq)
    · exact hmem
    · exact hq

theorem mem_createClient : q ∈ cs.createClient p ↔ q = p ∨ q ∈ cs := by
  rw [createClient]
  cases hp : cs.lookup p with
  | none => exact AList.mem_insert cs
  | some c =>
    have hmem : p ∈ cs := AList.lookup_isSome.1 (hp ▸ rfl)
    refine ⟨Or.inr, ?_⟩
    rintro (rfl | hq)
    · exact hmem
    · exact hq

/-- Only a connection that is there gets a packet of the game handled. -/
theorem mem_of_admits {needs : CommandState} (hneeds : needs ≠ .notConnected)
    (h : cs.admits p needs = true) : p ∈ cs := by
  have hget : ∃ c, cs.getClientNoEx p .initDone = some c := by
    cases hc : cs.getClientNoEx p .initDone with
    | some c => exact ⟨c, rfl⟩
    | none => cases needs <;> simp [admits, hc] at h hneeds
  rcases hget with ⟨c, hc⟩
  exact AList.lookup_isSome.1 ((getClientNoEx_eq_some.1 hc).1 ▸ rfl)

end Clients

end Login
end AxisEngine
