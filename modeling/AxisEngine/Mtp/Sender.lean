import AxisEngine.Lib.Transition
import AxisEngine.Mtp.Receiver

/-!
# Sender — from commands to reliable packets

The sending half of a channel: `UDPPeer::PutReliableSendCommand`, `processReliableSendCommand` and
`RunCommandQueues` (`network/mtp/impl.cpp`), `sendAsPacketReliable`, `rawSendAsPacket` and the loop
of `sendPackets` (`network/mtp/threads.cpp`).

A function that sends gives the packets it has passed to `rawSend` along with the new channel.  The
loops of the send thread are cut into rounds, so that ACKs can come in between; each round runs to
its end.
-/

namespace AxisEngine
namespace Mtp

open Lib

/-- Settings of the send thread. -/
structure SendConfig where
  maxPacketSize : UInt32
  maxPacketsRequeued : Nat := 256

/-! ## Numbering -/

/-- Splits a message that is too long for one packet; gives the next split number too. -/
def makeAutoSplitPacket (data : Bytes) (chunksizeMax : UInt32) (splitSeqnum : UInt16) :
    Except Fault (List Bytes × UInt16) :=
  if data.length + originalHeaderSize > chunksizeMax.toNat then do
    let chunks ← makeSplitPacket data chunksizeMax splitSeqnum
    return (chunks, splitSeqnum + 1)
  else .ok ([makeOriginalPacket data], splitSeqnum)

/-- The reliable packet with a number around an original packet or a chunk. -/
def numberedPacket (env : Endpoint) (seqnum : UInt16) (original : Bytes) : BufferedPacket :=
  makePacket env.address (makeReliablePacket original seqnum) env.outgoingHeader

/-- The `for`-loop of `processReliableSendCommand`: `have_sequence_number`, `toadd` and the channel
at its end. -/
def numberPackets (env : Endpoint) (haveSequenceNumber : Bool) (c : Channel) :
    List Bytes → Bool × List BufferedPacket × Channel
  | [] => (haveSequenceNumber, [], c)
  | original :: rest =>
    match c.getOutgoingSequenceNumber with
    | none => (false, [], c)
    | some (seqnum, c) =>
      let (haveSequenceNumber, toadd, c) := numberPackets env true c rest
      (haveSequenceNumber, numberedPacket env seqnum original :: toadd, c)

/-- The loop that puts `toadd.size()` numbers back, the last one first. -/
def putBackAll (initialSequenceNumber : UInt16) (c : Channel) : Nat → Except Fault Channel
  | 0 => .ok c
  | size + 1 =>
    let seqnum := UInt16.ofNat (initialSequenceNumber.toNat + size % (seqnumMax + 1))
    match c.putBackSequenceNumber seqnum with
    | none => .error .fatalError
    | some c => putBackAll initialSequenceNumber c size

/-- The end of a command that did not get all its numbers: those it got are put back.  The number
of the first packet is `initial_sequence_number`. -/
def refuseCommand (c : Channel) (toadd : List BufferedPacket) : Except Fault (Bool × Channel) :=
  match toadd with
  | [] => .ok (false, c)
  | first :: _ => do
      let c ← putBackAll first.getSeqnum c toadd.length
      return (false, c)

/-! ## Commands -/

/-- The packets of a command; those of a command that is not `raw` may take a split number. -/
def originals (cfg : SendConfig) (c : Channel) (cmd : ConnectionCommand) :
    Except Fault (List Bytes × Channel) :=
  if cmd.raw then .ok ([cmd.data], c)
  else do
    let chunksizeMax := cfg.maxPacketSize - UInt32.ofNat baseHeaderSize -
      UInt32.ofNat reliableHeaderSize
    let (chunks, splitSeqnum) ← makeAutoSplitPacket cmd.data chunksizeMax c.nextOutgoingSplitSeqnum
    return (chunks, { c with nextOutgoingSplitSeqnum := splitSeqnum })

variable (env : Endpoint) (cfg : SendConfig) (pendingDisconnect : Bool) (c : Channel)

/-- What is returned (whether the command is done) and the new channel. -/
def processReliableSendCommand (cmd : ConnectionCommand) : Except Fault (Bool × Channel) :=
  if pendingDisconnect then .ok (true, c)
  else do
    let (originals, c) ← originals cfg c cmd
    if originals.length ≥ maxReliableWindowSize.toNat then .error .sanityCheck
    else
      let (haveSequenceNumber, toadd, c) := numberPackets env false c originals
      if haveSequenceNumber then
        let c := { c with queuedReliables := c.queuedReliables ++ toadd }
        if c.queuedReliables.length < 0xFFFF then .ok (true, c) else .error .sanityCheck
      else
        refuseCommand c toadd

/-- Whether `PutReliableSendCommand` processes a command instead of queueing it. -/
def Channel.startsNow (c : Channel) : Bool :=
  c.queuedCommands.isEmpty && decide (c.queuedReliables.length + 1 < c.windowSize.toNat / 2)

def putReliableSendCommand (cmd : ConnectionCommand) : Except Fault Channel :=
  if pendingDisconnect then .ok c
  else if c.startsNow then do
    let (done, c) ← processReliableSendCommand env cfg pendingDisconnect c cmd
    if done then return c
    else return { c with queuedCommands := c.queuedCommands ++ [cmd] }
  else .ok { c with queuedCommands := c.queuedCommands ++ [cmd] }

/-- `RunCommandQueues` on this channel. -/
def runCommandQueues : Except Fault Channel :=
  match c.queuedCommands with
  | [] => .ok c
  | cmd :: _ =>
    if c.queuedReliables.length < cfg.maxPacketsRequeued then do
      let (done, c) ← processReliableSendCommand env cfg pendingDisconnect c cmd
      if done then return { c with queuedCommands := c.queuedCommands.tail }
      else return c
    else .ok c

/-! ## Sending -/

/-- `next_expected` of `sendAsPacketReliable`: an `int` that is cut to 16 bits. -/
def sendBase (nextOutgoing : UInt16) : UInt16 :=
  UInt16.ofInt (Int.tmod ((nextOutgoing.toNat : Int) - maxReliableWindowSize.toNat)
    (maxReliableWindowSize.toNat + 1))

/-- Buffers the packet; then it is passed to `rawSend`, whether it was stored or refused. -/
def sendAsPacketReliable (c : Channel) (p : BufferedPacket) : Except Fault Channel :=
  match c.outgoingReliablesSent.insert p (sendBase c.nextOutgoingSeqnum) with
  | .ok buf => .ok { c with outgoingReliablesSent := buf }
  | .error .sanityCheck => .error .sanityCheck
  | .error .incomingDataCorruption => .error .uncaughtException

/-- What is returned, the new channel and the packets passed to `rawSend`. -/
def rawSendAsPacket (env : Endpoint) (c : Channel) (data : Bytes) :
    Except Fault (Bool × Channel × List BufferedPacket) :=
  match c.getOutgoingSequenceNumber with
  | none => .ok (false, c, [])
  | some (seqnum, c) =>
    let p := numberedPacket env seqnum data
    if c.outgoingReliablesSent.length < c.windowSize.toNat then do
      let c ← sendAsPacketReliable c p
      return (true, c, [p])
    else .ok (false, { c with queuedReliables := c.queuedReliables ++ [p] }, [])

/-- One round of the loop in `sendPackets` with quota left. -/
def sendQueued (c : Channel) : Except Fault (Channel × List BufferedPacket) :=
  match c.queuedReliables with
  | [] => .ok (c, [])
  | p :: rest =>
    if c.outgoingReliablesSent.length < c.windowSize.toNat then do
      let c ← sendAsPacketReliable { c with queuedReliables := rest } p
      return (c, [p])
    else .ok (c, [])

/-- The payload of an ACK, as `Connection::sendAck` writes it. -/
def ackPacket (seqnum : UInt16) : Bytes :=
  packetTypeControl :: controltypeAck :: writeU16 seqnum

/-! ## Runs -/

/-- A channel with the peer's flag, and the packets that `sendAsPacketReliable` has passed to
`rawSend` and that no ACK with their number has come for since. -/
structure Sender where
  channel : Channel
  pendingDisconnect : Bool
  unacked : List BufferedPacket

def Sender.initial : Sender :=
  { channel := .initial, pendingDisconnect := false, unacked := [] }

/-- What the threads do to the sending half of a channel. -/
inductive SendLabel
  | put (cmd : ConnectionCommand)
  | runCommandQueues
  | sendQueued
  /-- A ping, or `CONCMD_CREATE_PEER`, which is also `put` when the packet was not sent at once. -/
  | rawSend (data : Bytes)
  | ack (seqnum : UInt16)
  | setWindowSize (size : Int)
  | disconnectPeer

/-- What a label does; an error ends the program. -/
def Sender.react (env : Endpoint) (cfg : SendConfig) (s : Sender) :
    SendLabel → Except Fault Sender
  | .put cmd => do
      let c ← putReliableSendCommand env cfg s.pendingDisconnect s.channel cmd
      return { s with channel := c }
  | .runCommandQueues => do
      let c ← Mtp.runCommandQueues env cfg s.pendingDisconnect s.channel
      return { s with channel := c }
  | .sendQueued => do
      let (c, sent) ← Mtp.sendQueued s.channel
      return { s with channel := c, unacked := s.unacked ++ sent }
  | .rawSend data => do
      let (_, c, sent) ← rawSendAsPacket env s.channel data
      return { s with channel := c, unacked := s.unacked ++ sent }
  | .ack seqnum =>
    .ok { s with
      channel := (handlePacketTypeControl env s.channel (ackPacket seqnum)).channel
      unacked := s.unacked.filter fun p => p.getSeqnum ≠ seqnum }
  | .setWindowSize size => .ok { s with channel := s.channel.setWindowSize size }
  | .disconnectPeer => .ok { s with pendingDisconnect := true }

def SendStep (env : Endpoint) (cfg : SendConfig) (s : Sender) (a : SendLabel) (t : Sender) : Prop :=
  s.react env cfg a = .ok t

/-! ## Numbers given out -/

section

variable {env : Endpoint} {cfg : SendConfig} {c c' : Channel} {n : UInt16}
variable {cmd : ConnectionCommand}

/-- A number is given out only when nothing waits for an ACK or the window has room. -/
theorem getOutgoingSequenceNumber_cases (h : c.getOutgoingSequenceNumber = some (n, c')) :
    n = c.nextOutgoingSeqnum ∧ c' = c.withNext (c.nextOutgoingSeqnum + 1) ∧
      ∀ p rest, c.outgoingReliablesSent = p :: rest →
        Channel.windowHasRoom p.getSeqnum c.nextOutgoingSeqnum c.windowSize = true := by
  cases hout : c.outgoingReliablesSent with
  | nil =>
    simp only [Channel.getOutgoingSequenceNumber, ReliablePacketBuffer.getFirstSeqnum, hout,
      List.head?_nil, Option.map_none, Option.some.injEq, Prod.mk.injEq] at h
    refine ⟨h.1.symm, h.2.symm, ?_⟩
    intro p rest hp
    cases hp
  | cons p rest =>
    simp only [Channel.getOutgoingSequenceNumber, ReliablePacketBuffer.getFirstSeqnum, hout,
      List.head?_cons, Option.map_some] at h
    split at h
    · rename_i hroom
      simp only [Option.some.injEq, Prod.mk.injEq] at h
      refine ⟨h.1.symm, h.2.symm, ?_⟩
      intro q rest' hq
      cases hq
      exact hroom
    · cases h

/-- The window leaves the lowest number that waits for its ACK at most one step more than its size
below the next one. -/
theorem gap_le_of_windowHasRoom {lowest next windowSize : UInt16}
    (h : Channel.windowHasRoom lowest next windowSize = true) (hw : windowSize.toNat ≤ 2048) :
    gap lowest next ≤ 2049 := by
  have hlowest := lowest.toNat_lt
  have hnext := next.toNat_lt
  simp only [gap]
  by_cases hlt : lowest.toNat < next.toNat
  · rw [Channel.windowHasRoom, if_pos hlt, decide_eq_true_eq] at h
    omega
  · rw [Channel.windowHasRoom, if_neg hlt, decide_eq_true_eq, seqnumMax] at h
    omega

/-- The packets numbered from `n` on. -/
def numberedPackets (env : Endpoint) (n : UInt16) : List Bytes → List BufferedPacket
  | [] => []
  | original :: rest => numberedPacket env n original :: numberedPackets env (n + 1) rest

/-- `numberPackets` numbers a first part of the originals, one after the other, and gives out
nothing else. -/
theorem numberPackets_eq (env : Endpoint) (haveSequenceNumber : Bool) (c : Channel)
    (originals : List Bytes) :
    ∃ k ≤ originals.length,
      (numberPackets env haveSequenceNumber c originals).2 =
        (numberedPackets env c.nextOutgoingSeqnum (originals.take k),
          c.withNext (c.nextOutgoingSeqnum + UInt16.ofNat k)) ∧
      ((numberPackets env haveSequenceNumber c originals).1 = true → k = originals.length) := by
  induction originals generalizing c haveSequenceNumber with
  | nil =>
    refine ⟨0, le_rfl, ?_, fun _ => rfl⟩
    simp [numberPackets, numberedPackets, Channel.withNext]
  | cons original rest ih =>
    cases hget : c.getOutgoingSequenceNumber with
    | none =>
      refine ⟨0, Nat.zero_le _, ?_, ?_⟩
      · simp [numberPackets, hget, numberedPackets, Channel.withNext]
      · simp [numberPackets, hget]
    | some granted =>
      rcases granted with ⟨n, c₁⟩
      rcases getOutgoingSequenceNumber_cases hget with ⟨rfl, rfl, -⟩
      rcases ih true (c.withNext (c.nextOutgoingSeqnum + 1)) with ⟨k, hk, hrest, hall⟩
      refine ⟨k + 1, Nat.succ_le_succ hk, ?_, ?_⟩
      · have hnext : c.nextOutgoingSeqnum + 1 + UInt16.ofNat k =
            c.nextOutgoingSeqnum + UInt16.ofNat (k + 1) := by
          rw [UInt16.ofNat_add, UInt16.add_assoc, UInt16.add_comm 1]
          rfl
        rw [← hnext]
        simp only [numberPackets, hget, hrest, List.take_succ_cons, numberedPackets]
        rfl
      · intro hhave
        simp only [numberPackets, hget] at hhave
        rw [hall hhave, List.length_cons]

theorem length_numberedPackets (env : Endpoint) (n : UInt16) (originals : List Bytes) :
    (numberedPackets env n originals).length = originals.length := by
  induction originals generalizing n with
  | nil => rfl
  | cons original rest ih => rw [numberedPackets, List.length_cons, ih, List.length_cons]

/-- All numbers given out in a row can be put back. -/
theorem putBackAll_withNext (c : Channel) (initial : UInt16) (size : Nat) :
    putBackAll initial (c.withNext (initial + UInt16.ofNat size)) size =
      .ok (c.withNext initial) := by
  induction size with
  | zero => simp [putBackAll]
  | succ size ih =>
    have hinitial := initial.toNat_lt
    have hlast : UInt16.ofNat (initial.toNat + size % (seqnumMax + 1)) =
        initial + UInt16.ofNat size := by
      apply UInt16.toNat_inj.1
      simp only [seqnumMax, UInt16.toNat_add, UInt16.toNat_ofNat', Nat.add_mod_mod]
    have hnext : ((initial + UInt16.ofNat size).toNat + 1) % (seqnumMax + 1) =
        (initial + UInt16.ofNat (size + 1)).toNat := by
      simp only [seqnumMax, UInt16.toNat_add, UInt16.toNat_ofNat']
      omega
    have hback : (c.withNext (initial + UInt16.ofNat (size + 1))).putBackSequenceNumber
        (initial + UInt16.ofNat size) = some (c.withNext (initial + UInt16.ofNat size)) :=
      if_pos hnext
    rw [putBackAll]
    simp only [hlast, hback]
    exact ih

theorem getSeqnum_numberedPacket (env : Endpoint) (n : UInt16) (original : Bytes) :
    (numberedPacket env n original).getSeqnum = n :=
  getSeqnum_makeReliablePacket env.address env.outgoingHeader original n

/-- A refused command leaves the numbers as they were. -/
theorem refuseCommand_eq (env : Endpoint) (c : Channel) (originals : List Bytes) :
    refuseCommand (c.withNext (c.nextOutgoingSeqnum + UInt16.ofNat originals.length))
      (numberedPackets env c.nextOutgoingSeqnum originals) = .ok (false, c) := by
  cases originals with
  | nil => simp [numberedPackets, refuseCommand, Channel.withNext]
  | cons original rest =>
    have hlen := length_numberedPackets env c.nextOutgoingSeqnum (original :: rest)
    rw [numberedPackets] at hlen ⊢
    simp only [refuseCommand, getSeqnum_numberedPacket, hlen, putBackAll_withNext]
    rfl

/-- `originals` changes nothing but the next split number. -/
theorem originals_cases {originals' : List Bytes} (h : originals cfg c cmd = .ok (originals', c')) :
    ∃ splitSeqnum, c' = { c with nextOutgoingSplitSeqnum := splitSeqnum } := by
  rw [originals] at h
  split at h
  · cases h
    exact ⟨c.nextOutgoingSplitSeqnum, rfl⟩
  · rcases bind_eq_ok.1 h with ⟨⟨chunks, splitSeqnum⟩, -, hrest⟩
    cases hrest
    exact ⟨splitSeqnum, rfl⟩

/-- A command that is refused a number leaves nothing behind but the split number; one that is done
has its packets at the end of the queue. -/
theorem processReliableSendCommand_cases {pending done : Bool}
    (h : processReliableSendCommand env cfg pending c cmd = .ok (done, c')) :
    (pending = true ∧ done = true ∧ c' = c) ∨
      (pending = false ∧ ∃ originals' c₁, originals cfg c cmd = .ok (originals', c₁) ∧
        originals'.length < 32768 ∧
        ((done = true ∧ (numberPackets env false c₁ originals').1 = true ∧
            c' = { (numberPackets env false c₁ originals').2.2 with
              queuedReliables := c₁.queuedReliables ++
                (numberPackets env false c₁ originals').2.1 }) ∨
          (done = false ∧ (numberPackets env false c₁ originals').1 = false ∧ c' = c₁))) := by
  rw [processReliableSendCommand] at h
  cases pending with
  | true =>
    cases h
    exact .inl ⟨rfl, rfl, rfl⟩
  | false =>
    rcases bind_eq_ok.1 h with ⟨⟨originals', c₁⟩, horiginals, hrest⟩
    refine .inr ⟨rfl, originals', c₁, horiginals, ?_⟩
    rcases numberPackets_eq env false c₁ originals' with ⟨k, hk, hnumbered, -⟩
    rcases Prod.mk.inj hnumbered with ⟨htoadd, hchannel⟩
    simp only at hrest
    split at hrest
    · cases hrest
    · rename_i hlen
      refine ⟨not_le.1 hlen, ?_⟩
      split at hrest
      · rename_i hhave
        split at hrest
        · cases hrest
          refine .inl ⟨rfl, hhave, ?_⟩
          rw [hchannel]
          rfl
        · cases hrest
      · -- not all numbers were there: those given out are put back
        rename_i hhave
        refine .inr ?_
        have hlength : (originals'.take k).length = k := List.length_take_of_le hk
        have hrefuse := refuseCommand_eq env c₁ (originals'.take k)
        rw [hlength] at hrefuse
        rw [htoadd, hchannel, hrefuse] at hrest
        cases hrest
        exact ⟨rfl, by simpa using hhave, rfl⟩

end

end Mtp
end AxisEngine
