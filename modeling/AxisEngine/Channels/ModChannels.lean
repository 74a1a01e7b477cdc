import AxisEngine.Lib.Reader
import AxisEngine.Lib.Transition
import AxisEngine.Login.ClientInterface

/-!
# ModChannels — the channels of the mods and who is on them

A connection joins and leaves a channel by packets, the server by its scripts, and a message on a
channel goes to everyone on it but the sender.  A channel comes into being with its first consumer.
A connection ends by being kicked (`DenyAccess`, which gives it up but leaves the client until the
connection reports it gone) or by leaving or timing out (`deletingPeer`).

* `ModChannel`, `ModChannelMgr` — the channels;
* `ChannelServer`, `Event`, `Step` — the server, as far as channels and connections go;
* `Deed`, `Joined` — what has happened, and who joined since connecting and has not left;
* `Sound` — the consumers are those who joined, and no channel is empty.

The log of deeds is not in the code.
-/

namespace AxisEngine
namespace Channels

open Lib Login

inductive ModChannelState
  | init | readWrite | readOnly
deriving DecidableEq

structure ModChannel where
  state : ModChannelState := .init
  clientConsumers : List SessionT := []

namespace ModChannel

/-- A peer that has joined already is ignored. -/
def registerConsumer (ch : ModChannel) (p : SessionT) : ModChannel × Bool :=
  if p ∈ ch.clientConsumers then (ch, false)
  else ({ ch with clientConsumers := ch.clientConsumers ++ [p] }, true)

def removeConsumer (ch : ModChannel) (p : SessionT) : ModChannel × Bool :=
  ({ ch with clientConsumers := ch.clientConsumers.filter (· ≠ p) },
    decide (p ∈ ch.clientConsumers))

def canWrite (ch : ModChannel) : Bool :=
  ch.state = .readWrite

end ModChannel

/-- `m_registered_channels`. -/
abbrev ModChannelMgr := Bytes → Option ModChannel

namespace ModChannelMgr

variable (m : ModChannelMgr) (channel : Bytes)

def getChannelPeers : List SessionT :=
  match m channel with
  | some ch => ch.clientConsumers
  | none => []

def canWriteOnChannel : Bool :=
  match m channel with
  | some ch => ch.canWrite
  | none => false

def registerChannel : ModChannelMgr :=
  Function.update m channel (some {})

def setChannelState (state : ModChannelState) : ModChannelMgr × Bool :=
  match m channel with
  | some ch => (Function.update m channel (some { ch with state := state }), true)
  | none => (m, false)

def removeChannel : ModChannelMgr :=
  Function.update m channel none

def joinChannel (p : SessionT) : ModChannelMgr × Bool :=
  let ch := (m channel).getD {}
  (Function.update m channel (some (ch.registerConsumer p).1), (ch.registerConsumer p).2)

/-- A channel that nobody is left on is removed. -/
def leaveChannel (p : SessionT) : ModChannelMgr × Bool :=
  match m channel with
  | none => (m, false)
  | some ch =>
    let left := (ch.removeConsumer p).1
    let m' := Function.update m channel (some left)
    (if left.clientConsumers = [] then removeChannel m' channel else m', (ch.removeConsumer p).2)

def leaveAllChannels (m : ModChannelMgr) (p : SessionT) : ModChannelMgr :=
  fun channel => (m channel).map fun ch => (ch.removeConsumer p).1

end ModChannelMgr

/-- What has happened. -/
inductive Deed
  | connected (p : SessionT)
  | gone (p : SessionT)
  | joined (channel : Bytes) (p : SessionT)
  | left (channel : Bytes) (p : SessionT)
  | sent (p : SessionT) (channel sender message : Bytes)
  /-- `on_modchannel_message`. -/
  | told (channel sender message : Bytes)

/-- The log has the latest deed first. -/
structure ChannelServer where
  clients : Clients := ∅
  modchannelMgr : ModChannelMgr := fun _ => none
  log : List Deed := []

inductive Event
  | peerAdded (p : SessionT)
  | deletingPeer (p : SessionT) (timeout : Bool)
  | denyAccess (p : SessionT)
  | disconnectPeer (p : SessionT)
  /-- What else moves the client of a connection on. -/
  | setPendingSerializationVersion (p : SessionT) (version : UInt8)
  | notify (p : SessionT) (e : ClientStateEvent)
  /-- The packets, with `enable_mod_channels` at that time. -/
  | modChannelJoin (p : SessionT) (data : Bytes) (enabled : Bool)
  | modChannelLeave (p : SessionT) (data : Bytes) (enabled : Bool)
  | modChannelMsg (p : SessionT) (data : Bytes) (enabled : Bool) (playerName : Bytes)
  /-- What the scripts of the server do. -/
  | joinModChannel (channel : Bytes)
  | leaveModChannel (channel : Bytes)
  | sendModChannelMessage (channel message : Bytes)

namespace ChannelServer

def stringMaxLen : Nat := 65535

/-- One channel name, or a channel name and a message; a packet that is too short has no effect. -/
def readChannel (data : Bytes) : Except String Bytes :=
  (Reader.readString { rest := data }).map Prod.fst

def readChannelMsg (data : Bytes) : Except String (Bytes × Bytes) :=
  (Reader.readString { rest := data }).bind fun channel =>
    (Reader.readString channel.2).map fun message => (channel.1, message.1)

variable (s : ChannelServer)

def join (channel : Bytes) (p : SessionT) : ChannelServer :=
  let joined := s.modchannelMgr.joinChannel channel p
  { s with
    modchannelMgr := joined.1
    log := if joined.2 then .joined channel p :: s.log else s.log }

def leave (channel : Bytes) (p : SessionT) : ChannelServer :=
  { s with
    modchannelMgr := (s.modchannelMgr.leaveChannel channel p).1
    log := .left channel p :: s.log }

/-- A channel name that does not fit into a packet is an exception. -/
def broadcastModChannelMessage (channel message : Bytes) (fromPeer : SessionT)
    (sender : Bytes) : ChannelServer :=
  let peers := s.modchannelMgr.getChannelPeers channel
  if peers = [] then s
  else if stringMaxLen < message.length then s
  else if stringMaxLen < channel.length then s
  else
    let log := peers.foldl (fun log p =>
      -- ignore sender
      if p = fromPeer then log else .sent p channel sender message :: log) s.log
    { s with log := if fromPeer = peerIdServer then log else .told channel sender message :: log }

def joinModChannel (channel : Bytes) : ChannelServer :=
  let s' := s.join channel peerIdServer
  if (s.modchannelMgr.joinChannel channel peerIdServer).2 then
    { s' with modchannelMgr := (s'.modchannelMgr.setChannelState channel .readWrite).1 }
  else s'

def sendModChannelMessage (channel message : Bytes) : ChannelServer :=
  if s.modchannelMgr.canWriteOnChannel channel then
    s.broadcastModChannelMessage channel message peerIdServer []
  else s

def handleCommandModChannelJoin (p : SessionT) (data : Bytes) (enabled : Bool) : ChannelServer :=
  match readChannel data with
  | .error _ => s
  | .ok channel => if enabled then s.join channel p else s

def handleCommandModChannelLeave (p : SessionT) (data : Bytes) (enabled : Bool) : ChannelServer :=
  match readChannel data with
  | .error _ => s
  | .ok channel => if enabled then s.leave channel p else s

def handleCommandModChannelMsg (p : SessionT) (data : Bytes) (enabled : Bool)
    (playerName : Bytes) : ChannelServer :=
  match readChannelMsg data with
  | .error _ => s
  | .ok (channel, message) =>
    if enabled then
      match s.modchannelMgr channel with
      | none => s
      | some _ => s.broadcastModChannelMessage channel message p playerName
    else s

def notify (p : SessionT) (e : ClientStateEvent) : ChannelServer :=
  { s with clients := (s.clients.event p e).getD s.clients }

def disconnectPeer (p : SessionT) : ChannelServer :=
  { s with modchannelMgr := s.modchannelMgr.leaveAllChannels p }

def denyAccess (p : SessionT) : ChannelServer :=
  (s.notify p .setDenied).disconnectPeer p

def peerAdded (p : SessionT) : ChannelServer :=
  { s with clients := s.clients.createClient p, log := .connected p :: s.log }

/-- `deletingPeer` with what `DeleteClient` does to the connection. -/
def deletingPeer (p : SessionT) : ChannelServer :=
  let s := s.notify p .disconnect
  { s with clients := s.clients.erase p, log := .gone p :: s.log }

def setPendingSerializationVersion (p : SessionT) (version : UInt8) : ChannelServer :=
  match s.clients.lookup p with
  | none => s
  | some c =>
    { s with clients := s.clients.insert p { c with pendingSerializationVersion := version } }

/-- What an event does. -/
def apply : Event → ChannelServer
  | .peerAdded p => s.peerAdded p
  | .deletingPeer p _ => s.deletingPeer p
  | .denyAccess p => s.denyAccess p
  | .disconnectPeer p => s.disconnectPeer p
  | .setPendingSerializationVersion p version => s.setPendingSerializationVersion p version
  | .notify p e => s.notify p e
  | .modChannelJoin p data enabled =>
    if s.clients.admits p .inGame then s.handleCommandModChannelJoin p data enabled else s
  | .modChannelLeave p data enabled =>
    if s.clients.admits p .inGame then s.handleCommandModChannelLeave p data enabled else s
  | .modChannelMsg p data enabled playerName =>
    if s.clients.admits p .inGame then s.handleCommandModChannelMsg p data enabled playerName
    else s
  | .joinModChannel channel => s.joinModChannel channel
  | .leaveModChannel channel => s.leave channel peerIdServer
  | .sendModChannelMessage channel message => s.sendModChannelMessage channel message

/-- The connection hands out ids from 2 on, and none that is in use; it reports gone whom it has
added. -/
def Possible : Event → Prop
  | .peerAdded p => 2 ≤ p ∧ p ∉ s.clients
  | .deletingPeer p _ => p ∈ s.clients
  | _ => True

inductive Step : ChannelServer → Event → ChannelServer → Prop
  | apply {s : ChannelServer} {e : Event} (h : s.Possible e) : Step s e (s.apply e)

end ChannelServer

/-! ## Who is on a channel -/

/-- `p` joined the channel since it connected, and has not left it. -/
def Joined (channel : Bytes) (p : SessionT) : List Deed → Prop
  | [] => False
  | .joined channel' q :: older => channel' = channel ∧ q = p ∨ Joined channel p older
  | .left channel' q :: older => ¬ (channel' = channel ∧ q = p) ∧ Joined channel p older
  | .connected q :: older => q ≠ p ∧ Joined channel p older
  | .gone q :: older => q ≠ p ∧ Joined channel p older
  | .sent .. :: older => Joined channel p older
  | .told .. :: older => Joined channel p older

/-- A message was only ever sent to one who had joined by then. -/
def SentToJoined : List Deed → Prop
  | [] => True
  | .sent p channel _ _ :: older => Joined channel p older ∧ SentToJoined older
  | _ :: older => SentToJoined older

/-- What should hold of the channels at any time. -/
structure Sound (s : ChannelServer) : Prop where
  consumer : ∀ channel ch p, s.modchannelMgr channel = some ch → p ∈ ch.clientConsumers →
    Joined channel p s.log ∧ (p = peerIdServer ∨ p ∈ s.clients)
  nodup : ∀ channel ch, s.modchannelMgr channel = some ch → ch.clientConsumers.Nodup
  nonempty : ∀ channel ch, s.modchannelMgr channel = some ch → ch.clientConsumers ≠ []
  sent : SentToJoined s.log

end Channels
end AxisEngine
