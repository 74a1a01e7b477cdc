import Mathlib.Tactic.SplitIfs
import AxisEngine.Lib.Transition
import AxisEngine.Mtp.Channel

/-!
# Receiver — from datagrams to payloads

`ConnectionReceiveThread::processPacket` and its handlers, on one channel of one peer
(`network/mtp/threads.cpp`).  A datagram begins here behind its base header, after `receive` has
checked the protocol id, the channel number and the sender.

An exception of the code is a value of `RecvException`; what a handler does outside of the channel
is listed in `effects`.
-/

namespace AxisEngine
namespace Mtp

open Lib

inductive RecvException
  | invalidIncomingData
  | processedSilently
  | processedQueued
  /-- The program ends. -/
  | aborted (fault : Fault)
  deriving DecidableEq, Repr

/-- What a handler does to the connection and to the peer. -/
inductive Effect
  | sendAck (seqnum : UInt16)
  | disconnectPeer
  | deletePeer
  | setPeerId (peerId : UInt16)
  | triggerSend
  deriving DecidableEq, Repr

/-- A reliable packet whose inner packet is processed. -/
structure Handed where
  seqnum : UInt16
  payload : Bytes
  deriving DecidableEq, Repr

/-- What a handler leaves behind.  `handed` is a record of what it did, which the code does not
keep. -/
structure Processed where
  channel : Channel
  result : Except RecvException Bytes
  effects : List Effect := []
  handed : List Handed := []

def peerIdInexistent : UInt16 := 0

/-! ## Handlers -/

variable (env : Endpoint) (c : Channel) (packetdata : Bytes)

def handlePacketTypeControl : Processed :=
  if packetdata.length < 2 then { channel := c, result := .error .invalidIncomingData }
  else
    let controltype := readU8 packetdata 1
    if controltype = controltypeAck then
      if packetdata.length < 4 then { channel := c, result := .error .invalidIncomingData }
      else
        match c.outgoingReliablesSent.popSeqnum (readU16 packetdata 2) with
        | none => { channel := c, result := .error .processedSilently }
        | some (_, rest) =>
          { channel := { c with outgoingReliablesSent := rest }
            result := .error .processedSilently
            effects := if rest.isEmpty then [.triggerSend] else [] }
    else if controltype = controltypeSetPeerId then
      if packetdata.length < 4 then { channel := c, result := .error .invalidIncomingData }
      else
        { channel := c
          result := .error .processedSilently
          effects :=
            if env.ownPeerId ≠ peerIdInexistent then [] else [.setPeerId (readU16 packetdata 2)] }
    else if controltype = controltypePing then
      { channel := c, result := .error .processedSilently }
    else if controltype = controltypeDisco then
      { channel := c, result := .error .processedSilently, effects := [.deletePeer] }
    else { channel := c, result := .error .invalidIncomingData }

def handlePacketTypeOriginal (c : Channel) (packetdata : Bytes) : Processed :=
  if packetdata.length ≤ originalHeaderSize then
    { channel := c, result := .error .invalidIncomingData }
  else { channel := c, result := .ok (packetdata.drop originalHeaderSize) }

def handlePacketTypeSplit (reliable : Bool) : Processed :=
  let packet := makePacket env.address packetdata env.incomingHeader
  match c.incomingSplits.insert packet reliable with
  | .error fault => { channel := c, result := .error (.aborted fault) }
  | .ok (data, splits) =>
    let c := { c with incomingSplits := splits }
    if data.length ≠ 0 then { channel := c, result := .ok data }
    else { channel := c, result := .error .processedSilently }

/-- The packet `handlePacketType_Reliable` buffers. -/
def bufferedPacket (env : Endpoint) (packetdata : Bytes) : BufferedPacket :=
  makePacket env.address packetdata env.incomingHeader

/-- The channel behind the packet numbered `seqnum`, after the check for the resend case. -/
def Channel.pass (c : Channel) (seqnum : UInt16) : Channel :=
  { c with incomingReliables := c.incomingReliables.dropResent seqnum }.incNextIncomingSeqNum

/-- "We got a packet to process right now." -/
def processNow (c : Channel) (packetdata : Bytes) (effects : List Effect) : Processed :=
  { channel := c.pass (readU16 packetdata 1)
    result := .ok (packetdata.drop reliableHeaderSize)
    effects := effects }

/-- `handlePacketType_Reliable` behind its window checks. -/
def bufferOrProcess (acks : List Effect) : Processed :=
  if readU16 packetdata 1 = c.nextIncomingSeqnum then processNow c packetdata acks
  else
    match c.incomingReliables.insert (bufferedPacket env packetdata) c.nextIncomingSeqnum with
    | .ok buf =>
      { channel := { c with incomingReliables := buf }
        result := .error .processedQueued
        effects := acks }
    | .error .sanityCheck =>
      { channel := c, result := .error (.aborted .sanityCheck), effects := acks }
    -- the exception is caught, and the code goes on as if the packet were the expected one
    | .error .incomingDataCorruption => processNow c packetdata (acks ++ [.disconnectPeer])

/-- `handlePacketType_Reliable` up to its last lines: an exception, or the inner packet that is
processed right now. -/
def receiveReliable : Processed :=
  if packetdata.length < reliableHeaderSize then
    { channel := c, result := .error .invalidIncomingData }
  else
    let seqnum := readU16 packetdata 1
    if seqnumInWindow seqnum c.nextIncomingSeqnum maxReliableWindowSize then
      bufferOrProcess env c packetdata [.sendAck seqnum]
    else if seqnumHigher seqnum c.nextIncomingSeqnum then
      { channel := c, result := .error .processedSilently }
    else if seqnumHigher c.nextIncomingSeqnum seqnum then
      { channel := c, result := .error .processedSilently, effects := [.sendAck seqnum] }
    else bufferOrProcess env c packetdata []

/-! ## Routing -/

/-- The checks of `processPacket` before it routes a packet by its type. -/
def checkPacket (env : Endpoint) (packetdata : Bytes) : Bool :=
  decide (1 ≤ packetdata.length) && decide (env.peerId.toNat < maxUdpPeers) &&
    decide (readU8 packetdata 0 < packetTypeMax)

/-- `processPacket` on a packet that came inside of a reliable one. -/
def processInner : Processed :=
  if ¬ checkPacket env packetdata then { channel := c, result := .error .invalidIncomingData }
  else
    let type := readU8 packetdata 0
    if type = packetTypeControl then handlePacketTypeControl env c packetdata
    else if type = packetTypeOriginal then handlePacketTypeOriginal c packetdata
    else if type = packetTypeSplit then handlePacketTypeSplit env c packetdata true
    else { channel := c, result := .error .invalidIncomingData }

/-- "Get out the inside packet and re-process it", when there is one. -/
def reprocess (env : Endpoint) (packetdata : Bytes) (received : Processed) : Processed :=
  match received.result with
  | .error _ => received
  | .ok payload =>
    let inner := processInner env received.channel payload
    { inner with
      effects := received.effects ++ inner.effects
      handed := [⟨readU16 packetdata 1, payload⟩] }

def handlePacketTypeReliable : Processed :=
  reprocess env packetdata (receiveReliable env c packetdata)

/-- `processPacket` on a datagram. -/
def processPacket : Processed :=
  if ¬ checkPacket env packetdata then { channel := c, result := .error .invalidIncomingData }
  else
    let type := readU8 packetdata 0
    if type = packetTypeControl then handlePacketTypeControl env c packetdata
    else if type = packetTypeOriginal then handlePacketTypeOriginal c packetdata
    else if type = packetTypeSplit then handlePacketTypeSplit env c packetdata false
    else handlePacketTypeReliable env c packetdata

/-- `none` when the function returns false: the expected packet is not in the buffer. -/
def checkIncomingBuffers (env : Endpoint) (c : Channel) : Option Processed :=
  match c.incomingReliables with
  | [] => none
  | p :: rest =>
    if p.getSeqnum ≠ c.nextIncomingSeqnum then none
    else
      let env := { env with peerId := readU16 p.data 4, channelnum := readU8 p.data 6 }
      let c := { c with incomingReliables := rest }.incNextIncomingSeqNum
      some { processInner env c p.payload with handed := [⟨p.getSeqnum, p.payload⟩] }

/-! ## What a handler does to the receiving half of a channel -/

/-- The expected number and the packets ahead of it. -/
def Channel.receiving (c : Channel) : UInt16 × ReliablePacketBuffer :=
  (c.nextIncomingSeqnum, c.incomingReliables)

section

variable {env : Endpoint} {c : Channel} {packetdata : Bytes}

/-- A handler that hands nothing on and leaves the receiving half alone. -/
def Processed.Passive (r : Processed) (c : Channel) : Prop :=
  r.handed = [] ∧ r.channel.receiving = c.receiving

theorem handlePacketTypeControl_passive : (handlePacketTypeControl env c packetdata).Passive c := by
  simp only [handlePacketTypeControl]
  split_ifs
  all_goals first
    | exact ⟨rfl, rfl⟩
    | (split <;> exact ⟨rfl, rfl⟩)

theorem handlePacketTypeOriginal_passive : (handlePacketTypeOriginal c packetdata).Passive c := by
  rw [handlePacketTypeOriginal]
  split <;> exact ⟨rfl, rfl⟩

theorem handlePacketTypeSplit_passive {reliable : Bool} :
    (handlePacketTypeSplit env c packetdata reliable).Passive c := by
  simp only [handlePacketTypeSplit]
  split
  · exact ⟨rfl, rfl⟩
  · split <;> exact ⟨rfl, rfl⟩

/-- Processing an inner packet leaves the receiving half alone. -/
theorem receiving_processInner :
    (processInner env c packetdata).channel.receiving = c.receiving := by
  simp only [processInner]
  split_ifs
  · exact handlePacketTypeControl_passive.2
  · exact handlePacketTypeOriginal_passive.2
  · exact handlePacketTypeSplit_passive.2
  · rfl
  · rfl

/-- ACKs are sent for the packets around, not for an inner packet. -/
theorem sendAck_notMem_processInner (n : UInt16) :
    Effect.sendAck n ∉ (processInner env c packetdata).effects := by
  simp only [processInner, handlePacketTypeControl, handlePacketTypeOriginal, handlePacketTypeSplit]
  split_ifs
  all_goals first
    | simp; done
    | (split <;> simp <;> done)
    | (split
       · simp
       · split <;> simp)

theorem getSeqnum_bufferedPacket (env : Endpoint) (hlen : reliableHeaderSize ≤ packetdata.length) :
    (bufferedPacket env packetdata).getSeqnum = readU16 packetdata 1 :=
  getSeqnum_makePacket env.address env.incomingHeader packetdata hlen

theorem isReliable_bufferedPacket (env : Endpoint) (hlen : reliableHeaderSize ≤ packetdata.length)
    (htype : readU8 packetdata 0 = packetTypeReliable) :
    ReliablePacketBuffer.IsReliable (bufferedPacket env packetdata) := by
  constructor
  · rw [bufferedPacket, size_makePacket]
    simp only [reliableHeaderSize, baseHeaderSize] at hlen ⊢
    omega
  · exact (readU8_makePacket env.address env.incomingHeader packetdata 0).trans htype

/-- The channel with one more packet buffered, in its place. -/
def Channel.buffer (c : Channel) (p : BufferedPacket) : Channel :=
  { c with incomingReliables :=
    insertAt (ReliablePacketBuffer.height c.nextIncomingSeqnum) p c.incomingReliables }

/-- A packet inside of the window, not the expected one, has the number of a buffered packet and
another size or address. -/
def ConflictsWith (env : Endpoint) (c : Channel) (packetdata : Bytes) : Prop :=
  readU16 packetdata 1 ≠ c.nextIncomingSeqnum ∧
    seqnumInWindow (readU16 packetdata 1) c.nextIncomingSeqnum maxReliableWindowSize ∧
    c.incomingReliables.Conflicts (bufferedPacket env packetdata)

/-- The ways through `handlePacketType_Reliable` for a packet numbered `readU16 packetdata 1`. -/
inductive Reception (env : Endpoint) (c : Channel) (packetdata : Bytes) : Processed → Prop
  | outside {effects : List Effect} :
      32768 ≤ gap c.nextIncomingSeqnum (readU16 packetdata 1) →
      (∀ e ∈ effects, e = .sendAck (readU16 packetdata 1)) →
      Reception env c packetdata
        { channel := c, result := .error .processedSilently, effects := effects }
  | buffered :
      readU16 packetdata 1 ≠ c.nextIncomingSeqnum →
      gap c.nextIncomingSeqnum (readU16 packetdata 1) < 32768 →
      (∀ q ∈ c.incomingReliables, q.getSeqnum ≠ readU16 packetdata 1) →
      Reception env c packetdata
        { channel := c.buffer (bufferedPacket env packetdata)
          result := .error .processedQueued
          effects := [.sendAck (readU16 packetdata 1)] }
  | resent {q : BufferedPacket} :
      readU16 packetdata 1 ≠ c.nextIncomingSeqnum →
      q ∈ c.incomingReliables → q.getSeqnum = readU16 packetdata 1 →
      ¬ ConflictsWith env c packetdata →
      Reception env c packetdata
        { channel := c
          result := .error .processedQueued
          effects := [.sendAck (readU16 packetdata 1)] }
  | expected :
      readU16 packetdata 1 = c.nextIncomingSeqnum →
      Reception env c packetdata (processNow c packetdata [.sendAck (readU16 packetdata 1)])
  | conflict :
      ConflictsWith env c packetdata →
      Reception env c packetdata
        (processNow c packetdata [.sendAck (readU16 packetdata 1), .disconnectPeer])

/-- A stored packet with the same number, size and address excludes a conflict: no other packet of
the buffer has this number. -/
theorem not_conflictsWith (hwindow : c.incomingReliables.Window c.nextIncomingSeqnum)
    {q : BufferedPacket} (hq : q ∈ c.incomingReliables)
    (hseq : q.getSeqnum = (bufferedPacket env packetdata).getSeqnum)
    (hsize : q.size = (bufferedPacket env packetdata).size)
    (haddress : q.address = (bufferedPacket env packetdata).address) :
    ¬ ConflictsWith env c packetdata := by
  rintro ⟨-, -, r, hr, hrseq, hdiff⟩
  have hrq : r = q := hwindow.eq_of_seqnum_eq hr hq (hrseq.trans hseq.symm)
  subst hrq
  rcases hdiff with hdiff | hdiff
  · exact hdiff hsize
  · exact hdiff haddress

section

variable (hwindow : c.incomingReliables.Window c.nextIncomingSeqnum)
  (hlen : reliableHeaderSize ≤ packetdata.length) (htype : readU8 packetdata 0 = packetTypeReliable)

include hwindow hlen htype

theorem bufferOrProcess_reception (hlt : gap c.nextIncomingSeqnum (readU16 packetdata 1) < 32768) :
    Reception env c packetdata
      (bufferOrProcess env c packetdata [.sendAck (readU16 packetdata 1)]) := by
  have hreliable := isReliable_bufferedPacket env hlen htype
  have hseqnum := getSeqnum_bufferedPacket env hlen
  by_cases hexp : readU16 packetdata 1 = c.nextIncomingSeqnum
  · rw [bufferOrProcess, if_pos hexp]
    exact .expected hexp
  · have hne : (bufferedPacket env packetdata).getSeqnum ≠ c.nextIncomingSeqnum := hseqnum ▸ hexp
    rw [bufferOrProcess, if_neg hexp]
    rcases hwindow.insert_eq hreliable hne (hseqnum ▸ hlt) with
      ⟨hnew, hinsert⟩ | ⟨q, hq, hseq, hsize, haddress, hinsert⟩ | ⟨hconflict, hinsert⟩
    · rw [hinsert]
      exact .buffered hexp hlt fun q hq => hseqnum ▸ hnew q hq
    · rw [hinsert]
      exact .resent hexp hq (hseq.trans hseqnum) (not_conflictsWith hwindow hq hseq hsize haddress)
    · rw [hinsert]
      exact .conflict ⟨hexp, (seqnumInWindow_iff _ _).2 hlt, hconflict⟩

theorem receiveReliable_reception :
    Reception env c packetdata (receiveReliable env c packetdata) := by
  simp only [receiveReliable, if_neg (not_lt.2 hlen)]
  split_ifs with hin hfuture hold
  · exact bufferOrProcess_reception hwindow hlen htype ((seqnumInWindow_iff _ _).1 hin)
  · refine .outside ?_ (by simp)
    exact not_lt.1 (mt (seqnumInWindow_iff _ _).2 hin)
  · refine .outside ?_ (by simp)
    exact not_lt.1 (mt (seqnumInWindow_iff _ _).2 hin)
  · -- outside of the window a number is a future or an old one
    have hgap := not_lt.1 (mt (seqnumInWindow_iff _ _).2 hin)
    rcases seqnumHigher_or_of_not_inWindow hgap with h | h
    · exact absurd h hfuture
    · exact absurd h hold

end

/-- The fourth type is what the other three tests leave. -/
theorem eq_packetTypeReliable {type : UInt8} (hlt : type < packetTypeMax)
    (hcontrol : type ≠ packetTypeControl) (horiginal : type ≠ packetTypeOriginal)
    (hsplit : type ≠ packetTypeSplit) : type = packetTypeReliable := by
  have hne : ∀ {t : UInt8}, type ≠ t → type.toNat ≠ t.toNat := fun h heq =>
    h (UInt8.toNat_inj.1 heq)
  have h0 : type.toNat ≠ 0 := hne hcontrol
  have h1 : type.toNat ≠ 1 := hne horiginal
  have h2 : type.toNat ≠ 2 := hne hsplit
  have h4 : type.toNat < 4 := UInt8.lt_iff_toNat_lt.1 hlt
  have h3 : type.toNat = 3 := by omega
  exact UInt8.toNat_inj.1 h3

/-- A datagram that reaches `handlePacketType_Reliable` with its whole header. -/
def IsReliableDatagram (env : Endpoint) (packetdata : Bytes) : Prop :=
  checkPacket env packetdata ∧ readU8 packetdata 0 = packetTypeReliable ∧
    reliableHeaderSize ≤ packetdata.length

/-- `processPacket` either leaves the receiving half alone or goes one of the ways of
`handlePacketType_Reliable`. -/
theorem processPacket_cases (env : Endpoint) (packetdata : Bytes)
    (hwindow : c.incomingReliables.Window c.nextIncomingSeqnum) :
    (¬ IsReliableDatagram env packetdata ∧ (processPacket env c packetdata).Passive c) ∨
      (IsReliableDatagram env packetdata ∧ ∃ received, Reception env c packetdata received ∧
        processPacket env c packetdata = reprocess env packetdata received) := by
  by_cases hcheck : checkPacket env packetdata
  · by_cases htype : readU8 packetdata 0 = packetTypeReliable
    · have hroute : processPacket env c packetdata = handlePacketTypeReliable env c packetdata := by
        simp [processPacket, hcheck, htype, packetTypeReliable, packetTypeControl,
          packetTypeOriginal, packetTypeSplit]
      rw [hroute, handlePacketTypeReliable]
      by_cases hlen : packetdata.length < reliableHeaderSize
      · rw [receiveReliable, if_pos hlen]
        exact .inl ⟨fun h => absurd hlen (not_lt.2 h.2.2), ⟨rfl, rfl⟩⟩
      · have hlen' := not_lt.1 hlen
        exact .inr ⟨⟨hcheck, htype, hlen'⟩, _, receiveReliable_reception hwindow hlen' htype, rfl⟩
    · refine .inl ⟨fun h => htype h.2.1, ?_⟩
      have hlt : readU8 packetdata 0 < packetTypeMax := by
        simp only [checkPacket, Bool.and_eq_true, decide_eq_true_eq] at hcheck
        exact hcheck.2
      simp only [processPacket, hcheck, not_true_eq_false, if_false]
      split_ifs with hcontrol horiginal hsplit
      · exact handlePacketTypeControl_passive
      · exact handlePacketTypeOriginal_passive
      · exact handlePacketTypeSplit_passive
      · exact absurd (eq_packetTypeReliable hlt hcontrol horiginal hsplit) htype
  · refine .inl ⟨fun h => hcheck h.1, ?_⟩
    simp only [processPacket, hcheck]
    exact ⟨rfl, rfl⟩

end

/-! ## Runs -/

/-- A channel with the record of the inner packets it has handed on, the oldest first. -/
structure Receiver where
  channel : Channel
  handed : List Handed

def Receiver.initial : Receiver :=
  { channel := .initial, handed := [] }

/-- The receive thread takes a datagram, or looks into the buffer of the channel. -/
inductive RecvLabel
  | datagram (packetdata : Bytes)
  | drain

/-- What the receive thread does; `none` when there is nothing to drain. -/
def Receiver.react (env : Endpoint) (s : Receiver) : RecvLabel → Option Processed
  | .datagram packetdata => some (processPacket env s.channel packetdata)
  | .drain => checkIncomingBuffers env s.channel

def Processed.isAborted (r : Processed) : Bool :=
  match r.result with
  | .error (.aborted _) => true
  | _ => false

/-- One round of the receive thread that does not end the program. -/
def RecvStep (env : Endpoint) (s : Receiver) (a : RecvLabel) (t : Receiver) : Prop :=
  ∃ r, s.react env a = some r ∧ r.isAborted = false ∧ t = ⟨r.channel, s.handed ++ r.handed⟩

/-- The datagram conflicts with a buffered packet. -/
def Conflict (env : Endpoint) (s : Receiver) : RecvLabel → Prop
  | .datagram packetdata =>
    IsReliableDatagram env packetdata ∧ ConflictsWith env s.channel packetdata
  | .drain => False

/-- The `i`-th inner packet came in the reliable packet with the `i`-th sequence number. -/
def InSequence (handed : List Handed) : Prop :=
  ∀ i h, handed[i]? = some h → h.seqnum = seqOf i

/-- The expected number has moved once for each inner packet handed on, and these came in the order
of the sequence numbers. -/
structure Receiver.InOrder (s : Receiver) : Prop where
  next_eq : s.channel.nextIncomingSeqnum = seqOf s.handed.length
  inSequence : InSequence s.handed

theorem InSequence.of_append {hs ks : List Handed} (h : InSequence (hs ++ ks)) : InSequence hs := by
  intro i x hx
  have hlt : i < hs.length := (List.getElem?_eq_some_iff.1 hx).1
  exact h i x (by rw [List.getElem?_append_left hlt, hx])

theorem inSequence_append_singleton {hs : List Handed} {x : Handed} :
    InSequence (hs ++ [x]) ↔ InSequence hs ∧ x.seqnum = seqOf hs.length := by
  constructor
  · intro h
    exact ⟨h.of_append, h hs.length x (by simp)⟩
  · rintro ⟨h, hx⟩ i y hy
    rcases Nat.lt_or_ge i hs.length with hlt | hge
    · rw [List.getElem?_append_left hlt] at hy
      exact h i y hy
    · rw [List.getElem?_append_right hge] at hy
      have hi : i = hs.length := by
        have := (List.getElem?_eq_some_iff.1 hy).1
        simp only [List.length_singleton] at this
        omega
      subst hi
      simp only [Nat.sub_self, List.getElem?_cons_zero, Option.some.injEq] at hy
      rw [← hy, hx]

/-- The invariant of a receiver that met no conflict. -/
structure Receiver.Inv (s : Receiver) : Prop extends s.InOrder where
  window : s.channel.incomingReliables.Window s.channel.nextIncomingSeqnum

section

variable {env : Endpoint} {c : Channel} {s t : Receiver} {a : RecvLabel}

/-- `checkIncomingBuffers` passes the first packet when it has the expected number. -/
theorem checkIncomingBuffers_cases {r : Processed} (h : checkIncomingBuffers env c = some r) :
    ∃ p ∈ c.incomingReliables, p.getSeqnum = c.nextIncomingSeqnum ∧
      r.handed = [⟨c.nextIncomingSeqnum, p.payload⟩] ∧
      r.channel.receiving = (c.pass c.nextIncomingSeqnum).receiving ∧
      ∀ n, Effect.sendAck n ∉ r.effects := by
  cases hbuf : c.incomingReliables with
  | nil => simp [checkIncomingBuffers, hbuf] at h
  | cons p rest =>
    by_cases hp : p.getSeqnum = c.nextIncomingSeqnum
    · simp only [checkIncomingBuffers, hbuf, hp, ne_eq, not_true_eq_false, if_false,
        Option.some.injEq] at h
      subst h
      refine ⟨p, List.mem_cons_self .., hp, rfl, receiving_processInner.trans ?_,
        sendAck_notMem_processInner⟩
      simp [Channel.pass, Channel.receiving, Channel.incNextIncomingSeqNum, hbuf,
        ReliablePacketBuffer.dropResent, ReliablePacketBuffer.getFirstSeqnum, hp]
    · simp [checkIncomingBuffers, hbuf, hp] at h

/-- A packet that is processed right now moves the expected number past its own number. -/
theorem reprocess_processNow (env : Endpoint) (c : Channel) (packetdata : Bytes)
    (effects : List Effect) :
    (reprocess env packetdata (processNow c packetdata effects)).handed =
        [⟨readU16 packetdata 1, packetdata.drop reliableHeaderSize⟩] ∧
      (reprocess env packetdata (processNow c packetdata effects)).channel.receiving =
        (c.pass (readU16 packetdata 1)).receiving :=
  ⟨rfl, receiving_processInner⟩

theorem Receiver.Inv.initial : Receiver.initial.Inv where
  next_eq := rfl
  inSequence := by
    intro i h hi
    cases hi
  window := .nil

namespace Receiver.Inv

/-- A step that hands nothing on keeps the invariant when the buffer stays ordered. -/
theorem of_passive (h : s.Inv) {r : Processed} (hhanded : r.handed = [])
    (hnext : r.channel.nextIncomingSeqnum = s.channel.nextIncomingSeqnum)
    (hwindow : r.channel.incomingReliables.Window r.channel.nextIncomingSeqnum) :
    Receiver.Inv ⟨r.channel, s.handed ++ r.handed⟩ where
  next_eq := by
    rw [hhanded, List.append_nil, hnext]
    exact h.next_eq
  inSequence := by
    rw [hhanded, List.append_nil]
    exact h.inSequence
  window := hwindow

/-- The expected packet keeps the invariant. -/
theorem of_pass (h : s.Inv) {r : Processed} {payload : Bytes}
    (hhanded : r.handed = [⟨s.channel.nextIncomingSeqnum, payload⟩])
    (hchannel : r.channel.receiving = (s.channel.pass s.channel.nextIncomingSeqnum).receiving) :
    Receiver.Inv ⟨r.channel, s.handed ++ r.handed⟩ := by
  rcases Prod.mk.inj hchannel with ⟨hnext, hbuf⟩
  refine ⟨⟨?_, ?_⟩, ?_⟩
  · have hlen : (s.handed ++ r.handed).length = s.handed.length + 1 := by simp [hhanded]
    rw [hlen, seqOf_succ, ← h.next_eq]
    exact hnext
  · rw [hhanded]
    exact inSequence_append_singleton.2 ⟨h.inSequence, h.next_eq⟩
  · change r.channel.incomingReliables.Window r.channel.nextIncomingSeqnum
    rw [hnext, hbuf]
    exact h.window.advance_dropResent

theorem step_datagram (h : s.Inv) {packetdata : Bytes}
    (hconflict : ¬ Conflict env s (.datagram packetdata)) :
    Receiver.Inv ⟨(processPacket env s.channel packetdata).channel,
      s.handed ++ (processPacket env s.channel packetdata).handed⟩ := by
  rcases processPacket_cases env packetdata h.window with
    ⟨-, hhanded, hchannel⟩ | ⟨hdatagram, received, hreception, heq⟩
  · rcases Prod.mk.inj hchannel with ⟨hnext, hbuf⟩
    refine h.of_passive hhanded hnext ?_
    rw [hnext, hbuf]
    exact h.window
  · rw [heq]
    have hlen := hdatagram.2.2
    cases hreception with
    | outside _ _ => exact h.of_passive rfl rfl h.window
    | buffered _ hlt hnew =>
      have hseqnum := getSeqnum_bufferedPacket env hlen
      refine h.of_passive rfl rfl (h.window.insertAt ?_ (hseqnum ▸ hlt))
      exact fun q hq => hseqnum ▸ hnew q hq
    | resent _ _ _ _ => exact h.of_passive rfl rfl h.window
    | expected hexp =>
      rcases reprocess_processNow env s.channel packetdata
        [.sendAck (readU16 packetdata 1)] with ⟨hhanded, hchannel⟩
      rw [hexp] at hhanded hchannel
      exact h.of_pass hhanded hchannel
    | conflict hc => exact absurd ⟨hdatagram, hc⟩ hconflict

/-- A conflict hands on a packet in place of the expected one. -/
theorem not_inSequence_of_conflict (h : s.Inv) (hconflict : Conflict env s a)
    (hstep : RecvStep env s a t) : ¬ InSequence t.handed := by
  rcases hstep with ⟨r, hreact, -, rfl⟩
  cases a with
  | drain => cases hconflict
  | datagram packetdata =>
    cases hreact
    rcases hconflict with ⟨hdatagram, hc⟩
    rcases processPacket_cases env packetdata h.window with
      ⟨hnot, -⟩ | ⟨-, received, hreception, heq⟩
    · exact absurd hdatagram hnot
    · have hin := (seqnumInWindow_iff _ _).1 hc.2.1
      cases hreception with
      | outside hout _ => omega
      | buffered _ _ hnew =>
        rcases hc.2.2 with ⟨q, hq, hseq, -⟩
        exact absurd (hseq.trans (getSeqnum_bufferedPacket env hdatagram.2.2)) (hnew q hq)
      | resent _ _ _ hnot => exact absurd hc hnot
      | expected hexp => exact absurd hexp hc.1
      | conflict _ =>
        intro hseq
        rw [heq, (reprocess_processNow env _ packetdata _).1] at hseq
        have hlast := (inSequence_append_singleton.1 hseq).2
        exact hc.1 (hlast.trans h.next_eq.symm)

/-- Without a conflict a step keeps the invariant. -/
theorem step (h : s.Inv) (hconflict : ¬ Conflict env s a) (hstep : RecvStep env s a t) :
    t.Inv := by
  rcases hstep with ⟨r, hreact, -, rfl⟩
  cases a with
  | datagram packetdata =>
    cases hreact
    exact h.step_datagram hconflict
  | drain =>
    rcases checkIncomingBuffers_cases hreact with ⟨p, -, -, hhanded, hchannel, -⟩
    exact h.of_pass hhanded hchannel

end Receiver.Inv

/-- In every run, the receiver hands on exactly one inner packet for each number it advances past,
in the order of the numbers, if and only if no datagram on the way conflicts with a buffered
packet. -/
theorem inOrder_iff_no_conflict {as : List RecvLabel} (h : Run (RecvStep env) .initial as t) :
    t.InOrder ↔ Run.Guarded (fun s a => ¬ Conflict env s a) (RecvStep env) .initial as t := by
  constructor
  · intro hend
    refine Run.guarded_of_end (P := Receiver.Inv) (Q := fun s => InSequence s.handed)
      (fun s a t hs hc hstep => hs.step hc hstep) ?_ ?_ h .initial hend.inSequence
    · intro s a t hs hconflict hstep
      exact hs.not_inSequence_of_conflict (not_not.1 hconflict) hstep
    · intro s a t hs hstep hseq
      rcases hstep with ⟨r, -, -, rfl⟩
      exact hs hseq.of_append
  · intro hguarded
    have hinv : t.Inv := Run.guarded_invariant
      (fun s a t hs hc hstep => hs.step hc hstep) hguarded .initial
    exact hinv.toInOrder

/-- The state after a label that the receiver reacts to. -/
def Receiver.after (env : Endpoint) (s : Receiver) (a : RecvLabel) : Receiver :=
  match s.react env a with
  | none => s
  | some r => ⟨r.channel, s.handed ++ r.handed⟩

theorem recvStep_after (h : (s.react env a).any (fun r => !r.isAborted) = true) :
    RecvStep env s a (s.after env a) := by
  cases hreact : s.react env a with
  | none => simp [hreact] at h
  | some r =>
    rw [hreact] at h
    refine ⟨r, hreact, by simpa using h, ?_⟩
    rw [Receiver.after, hreact]

end

/-- A client that talks to a server. -/
def clientEndpoint : Endpoint :=
  { address := ⟨[127, 0, 0, 1], 30000⟩
    protocolId := 0x4f457403
    peerId := 1
    ownPeerId := 2
    channelnum := 0 }

/-- An original packet with the byte `b`, in a reliable packet. -/
def reliableByte (i : Nat) (b : UInt8) : RecvLabel :=
  .datagram (makeReliablePacket [packetTypeOriginal, b] (seqOf i))

/-- The second packet comes first, then the first one; then the buffer is drained. -/
theorem inOrder_iff_no_conflict_swapped :
    (((Receiver.initial.after clientEndpoint (reliableByte 1 8)).after clientEndpoint
        (reliableByte 0 7)).after clientEndpoint .drain).InOrder ↔
      Run.Guarded (fun s a => ¬ Conflict clientEndpoint s a) (RecvStep clientEndpoint) .initial
        [reliableByte 1 8, reliableByte 0 7, .drain]
        (((Receiver.initial.after clientEndpoint (reliableByte 1 8)).after clientEndpoint
          (reliableByte 0 7)).after clientEndpoint .drain) :=
  inOrder_iff_no_conflict
    (.cons (recvStep_after (by decide)) (.cons (recvStep_after (by decide))
      (.cons (recvStep_after (by decide)) (.nil _))))

/-- The second packet comes before the first one, and again with another size: the repetition is
handed on in place of the first packet. -/
theorem repeated_seqnum_takes_the_place :
    ∃ t, Run (RecvStep clientEndpoint) .initial
        [reliableByte 1 8, .datagram (makeReliablePacket [packetTypeOriginal, 8, 9] (seqOf 1))] t ∧
      t.handed = [⟨seqOf 1, [packetTypeOriginal, 8, 9]⟩] ∧
      t.channel.nextIncomingSeqnum = seqOf 1 ∧ ¬ t.InOrder := by
  refine ⟨_, .cons (recvStep_after (by decide)) (.cons (recvStep_after (by decide)) (.nil _)),
    by decide, by decide, ?_⟩
  intro h
  exact absurd (h.inSequence 0 _ rfl) (by decide)

end Mtp
end AxisEngine
