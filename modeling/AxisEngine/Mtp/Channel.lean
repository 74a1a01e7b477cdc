import AxisEngine.Mtp.ReliableBuffer
import AxisEngine.Mtp.Split

/-!
# Channel — one channel of a peer

The state of a channel in both directions, and the operations on its sequence numbers
(`Channel` in `network/mtp/internal.h` and `network/mtp/impl.cpp`).  Byte counters, rates and
timers are left out: no function modelled here reads them.
-/

namespace AxisEngine
namespace Mtp

open Lib

/-- A reliable command: `raw` data goes out as it is, other data as original or split packets. -/
structure ConnectionCommand where
  data : Bytes
  raw : Bool
  deriving DecidableEq

structure Channel where
  windowSize : UInt16
  nextIncomingSeqnum : UInt16 := UInt16.ofNat seqnumInitial
  nextOutgoingSeqnum : UInt16 := UInt16.ofNat seqnumInitial
  nextOutgoingSplitSeqnum : UInt16 := UInt16.ofNat seqnumInitial
  incomingReliables : ReliablePacketBuffer := []
  outgoingReliablesSent : ReliablePacketBuffer := []
  queuedReliables : List BufferedPacket := []
  queuedCommands : List ConnectionCommand := []
  incomingSplits : IncomingSplitBuffer := ∅

/-- What the functions of a channel know of the connection and of the peer. -/
structure Endpoint where
  address : Address
  protocolId : UInt32
  peerId : UInt16
  ownPeerId : UInt16
  channelnum : UInt8

/-- The header of a packet that goes out. -/
def Endpoint.outgoingHeader (env : Endpoint) : Header :=
  { protocolId := env.protocolId, senderPeerId := env.ownPeerId, channel := env.channelnum }

/-- The header of a packet that is made again from one that came in. -/
def Endpoint.incomingHeader (env : Endpoint) : Header :=
  { protocolId := env.protocolId, senderPeerId := env.peerId, channel := env.channelnum }

namespace Channel

def incNextIncomingSeqNum (c : Channel) : Channel :=
  { c with nextIncomingSeqnum := c.nextIncomingSeqnum + 1 }

def setWindowSize (c : Channel) (size : Int) : Channel :=
  let limited := max minReliableWindowSize (min maxReliableWindowSizeSend size.toNat)
  { c with windowSize := UInt16.ofNat limited }

/-- A channel of a new peer. -/
def initial : Channel :=
  setWindowSize { windowSize := UInt16.ofNat minReliableWindowSize } startReliableWindowSize

/-- Whether the window has room above the lowest number that waits for its ACK. -/
def windowHasRoom (lowestUnacked nextOutgoing windowSize : UInt16) : Bool :=
  if lowestUnacked.toNat < nextOutgoing.toNat then
    decide (nextOutgoing.toNat - lowestUnacked.toNat ≤ windowSize.toNat)
  else
    decide (nextOutgoing.toNat + (seqnumMax - lowestUnacked.toNat) ≤ windowSize.toNat)

/-- The channel with another number to give out next. -/
def withNext (c : Channel) (seqnum : UInt16) : Channel :=
  { c with nextOutgoingSeqnum := seqnum }

/-- `none` when `successful` is false. -/
def getOutgoingSequenceNumber (c : Channel) : Option (UInt16 × Channel) :=
  let granted := some (c.nextOutgoingSeqnum, c.withNext (c.nextOutgoingSeqnum + 1))
  match c.outgoingReliablesSent.getFirstSeqnum with
  | none => granted
  | some lowestUnacked =>
    if windowHasRoom lowestUnacked c.nextOutgoingSeqnum c.windowSize then granted else none

/-- `none` when the number is not the last one given out. -/
def putBackSequenceNumber (c : Channel) (seqnum : UInt16) : Option Channel :=
  if (seqnum.toNat + 1) % (seqnumMax + 1) = c.nextOutgoingSeqnum.toNat then
    some (c.withNext seqnum)
  else none

end Channel

end Mtp
end AxisEngine
