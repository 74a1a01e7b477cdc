import AxisEngine.Mtp.Outgoing

/-!
# Link — one direction of a channel, end to end

A sender's channel, a receiver's channel and the network between them.  The network keeps every
datagram ever sent and may deliver it at any time, any number of times, in any order, or never; it
invents none.

The state records what the code does not keep: the payloads in the order of their numbers
(`assigned`), the payloads the receiver has handed on (`handed`), the position of each datagram in
`assigned` (`index`), and the positions of the packets that ACKs took out of the sender's buffer
(`removed`).

* `LinkStep` — what either side and the network may do;
* `LinkStepInSpan` — the same under the assumptions on the span of the numbers;
* `SenderPart` — what holds on the sender's side of the network.
-/

namespace AxisEngine
namespace Mtp

open Lib ReliablePacketBuffer

/-! ## The system -/

/-- A reliable packet on the network. -/
structure Datagram where
  index : Nat
  packet : BufferedPacket

/-- An ACK on the network; `packetdata` is what follows the base header. -/
structure AckDatagram where
  index : Nat
  packetdata : Bytes

structure Link where
  sender : Channel
  pendingDisconnect : Bool
  receiver : Channel
  wire : List Datagram
  acks : List AckDatagram
  assigned : List Bytes
  handed : List Bytes
  removed : List Nat

def Link.initial : Link :=
  { sender := .initial
    pendingDisconnect := false
    receiver := .initial
    wire := []
    acks := []
    assigned := []
    handed := []
    removed := [] }

structure LinkConfig where
  sender : Endpoint
  receiver : Endpoint
  send : SendConfig

/-- The position of a packet among the `n` last ones: counted back from the next number `seqOf n`. -/
def indexOf (n : Nat) (p : BufferedPacket) : Nat :=
  n - gap p.getSeqnum (seqOf n)

def Datagram.of (n : Nat) (p : BufferedPacket) : Datagram :=
  { index := indexOf n p, packet := p }

/-- `getResend`: the first packets that are due, at least one of them; `due` is the comparison of
the timers. -/
def ReliablePacketBuffer.getResend (buf : ReliablePacketBuffer) (due : BufferedPacket → Bool)
    (maxPackets : Nat) : List BufferedPacket :=
  (buf.filter due).take (max maxPackets 1)

variable (env : Endpoint) (cfg : SendConfig) (pendingDisconnect : Bool) (c : Channel)

/-- The payloads a command gets numbers for. -/
def commandPayloads (cmd : ConnectionCommand) : List Bytes :=
  if pendingDisconnect then []
  else
    match originals cfg c cmd with
    | .error _ => []
    | .ok (originals, c) => if (numberPackets env false c originals).1 then originals else []

def putPayloads (cmd : ConnectionCommand) : List Bytes :=
  if c.startsNow then commandPayloads env cfg pendingDisconnect c cmd else []

def runPayloads : List Bytes :=
  match c.queuedCommands with
  | [] => []
  | cmd :: _ =>
    if c.queuedReliables.length < cfg.maxPacketsRequeued then
      commandPayloads env cfg pendingDisconnect c cmd
    else []

def rawPayloads (c : Channel) (data : Bytes) : List Bytes :=
  if c.getOutgoingSequenceNumber.isSome then [data] else []

/-- The ACKs among the effects of a handler, as `Connection::sendAck` writes them. -/
def ackDatagrams (index : Nat) (effects : List Effect) : List AckDatagram :=
  effects.filterMap fun e =>
    match e with
    | .sendAck seqnum => some { index := index, packetdata := ackPacket seqnum }
    | _ => none

inductive LinkLabel
  | put (cmd : ConnectionCommand)
  | runCommandQueues
  | sendQueued
  | rawSend (data : Bytes)
  | resend (due : BufferedPacket → Bool) (maxPackets : Nat)
  | setWindowSize (size : Int)
  | disconnectPeer
  | deliver (d : Datagram)
  | drain
  | ack (a : AckDatagram)

inductive LinkStep (cfg : LinkConfig) (s : Link) : LinkLabel → Link → Prop
  | put {cmd : ConnectionCommand} {c : Channel} :
      putReliableSendCommand cfg.sender cfg.send s.pendingDisconnect s.sender cmd = .ok c →
      LinkStep cfg s (.put cmd)
        { s with
          sender := c
          assigned := s.assigned ++
            putPayloads cfg.sender cfg.send s.pendingDisconnect s.sender cmd }
  | runCommandQueues {c : Channel} :
      runCommandQueues cfg.sender cfg.send s.pendingDisconnect s.sender = .ok c →
      LinkStep cfg s .runCommandQueues
        { s with
          sender := c
          assigned := s.assigned ++ runPayloads cfg.sender cfg.send s.pendingDisconnect s.sender }
  | sendQueued {c : Channel} {sent : List BufferedPacket} :
      sendQueued s.sender = .ok (c, sent) →
      LinkStep cfg s .sendQueued
        { s with
          sender := c
          wire := s.wire ++ sent.map (Datagram.of s.assigned.length) }
  | rawSend {data : Bytes} {done : Bool} {c : Channel} {sent : List BufferedPacket} :
      rawSendAsPacket cfg.sender s.sender data = .ok (done, c, sent) →
      LinkStep cfg s (.rawSend data)
        { s with
          sender := c
          assigned := s.assigned ++ rawPayloads s.sender data
          wire := s.wire ++
            sent.map (Datagram.of (s.assigned ++ rawPayloads s.sender data).length) }
  | resend {due : BufferedPacket → Bool} {maxPackets : Nat} :
      LinkStep cfg s (.resend due maxPackets)
        { s with
          wire := s.wire ++ (s.sender.outgoingReliablesSent.getResend due maxPackets).map
            (Datagram.of s.assigned.length) }
  | setWindowSize {size : Int} :
      LinkStep cfg s (.setWindowSize size) { s with sender := s.sender.setWindowSize size }
  | disconnectPeer :
      LinkStep cfg s .disconnectPeer { s with pendingDisconnect := true }
  | deliver {d : Datagram} {r : Processed} :
      d ∈ s.wire →
      processPacket cfg.receiver s.receiver (d.packet.data.drop baseHeaderSize) = r →
      r.isAborted = false →
      LinkStep cfg s (.deliver d)
        { s with
          receiver := r.channel
          handed := s.handed ++ r.handed.map Handed.payload
          acks := s.acks ++ ackDatagrams d.index r.effects }
  | drain {r : Processed} :
      checkIncomingBuffers cfg.receiver s.receiver = some r →
      r.isAborted = false →
      LinkStep cfg s .drain
        { s with
          receiver := r.channel
          handed := s.handed ++ r.handed.map Handed.payload }
  | ack {a : AckDatagram} {r : Processed} :
      a ∈ s.acks →
      processPacket cfg.sender s.sender a.packetdata = r →
      r.isAborted = false →
      LinkStep cfg s (.ack a)
        { s with
          sender := r.channel
          removed := s.removed ++ (s.sender.outgoingReliablesSent.filter
            fun p => p ∉ r.channel.outgoingReliablesSent).map (indexOf s.assigned.length) }

/-- The numbers assigned and not yet received span less than half a ring. -/
def Link.InSpan (s : Link) : Prop :=
  s.assigned.length < s.handed.length + 32768

/-- The receiver has not advanced half a ring past the number of the datagram that arrives. -/
def Link.Timely (s : Link) : LinkLabel → Prop
  | .deliver d => s.handed.length < d.index + 32768
  | .ack a => s.handed.length < a.index + 32768
  | _ => True

/-- A step under the assumptions on the network and on the span of the numbers. -/
def LinkStepInSpan (cfg : LinkConfig) (s : Link) (a : LinkLabel) (t : Link) : Prop :=
  LinkStep cfg s a t ∧ s.Timely a ∧ t.InSpan

/-! ## The sender's side -/

/-- `p` carries the `i`-th payload under the `i`-th number. -/
def Numbered (env : Endpoint) (assigned : List Bytes) (i : Nat) (p : BufferedPacket) : Prop :=
  ∃ data, assigned[i]? = some data ∧ p = numberedPacket env (seqOf i) data

theorem seqOf_inj {i j : Nat} (h : seqOf i = seqOf j) (hij : i < j + 65536) (hji : j < i + 65536) :
    i = j := by
  have hnat := congrArg UInt16.toNat h
  simp only [toNat_seqOf] at hnat
  omega

section

variable {env : Endpoint} {cfg : SendConfig} {assigned : List Bytes} {p : BufferedPacket}
variable {i n : Nat} {c c' : Channel} {wire : List Datagram}

theorem Numbered.getSeqnum_eq (h : Numbered env assigned i p) : p.getSeqnum = seqOf i := by
  rcases h with ⟨data, -, rfl⟩
  exact getSeqnum_numberedPacket env (seqOf i) data

theorem Numbered.lt_length (h : Numbered env assigned i p) : i < assigned.length := by
  rcases h with ⟨data, hget, -⟩
  exact (List.getElem?_eq_some_iff.1 hget).1

theorem Numbered.append (h : Numbered env assigned i p) (more : List Bytes) :
    Numbered env (assigned ++ more) i p := by
  have hlt := h.lt_length
  rcases h with ⟨data, hget, hp⟩
  exact ⟨data, by rw [List.getElem?_append_left hlt, hget], hp⟩

theorem indexOf_eq (hseq : p.getSeqnum = seqOf i) (hlt : i < n) (hn : n < i + 65536) :
    indexOf n p = i := by
  rw [indexOf, hseq, gap_seqOf hlt.le hn]
  omega

/-- A packet between the base and the next number lies less than half a ring below the latter. -/
theorem Channel.SendInv.recent (h : c.SendInv) (hnext : c.nextOutgoingSeqnum = seqOf n)
    (hp : p ∈ c.queuedReliables ++ c.outgoingReliablesSent) (hseq : p.getSeqnum = seqOf i)
    (hlt : i < n) (hn : n < i + 65536) : n ≤ i + 32767 := by
  have hpos := h.above p hp
  have hheight : height c.base p < 32768 := by
    rcases List.mem_append.1 hp with hp | hp
    · exact h.queued.height_lt p hp
    · exact h.outgoing.height_lt p hp
  have hbase : (sendBase (seqOf n)).toNat = (65500 + n + 32768) % 65536 := by
    have h16 : (32768 : UInt16).toNat = 32768 := rfl
    rw [sendBase_eq, UInt16.toNat_add, toNat_seqOf, h16]
    omega
  simp only [height, Channel.base, hnext, hseq, gap, toNat_seqOf, hbase] at hpos hheight
  omega

/-- What holds of a sender: its packets, and those on the network, carry the payloads under the
numbers they were assigned, and no packet on the network is still queued. -/
structure SenderPart (env : Endpoint) (assigned : List Bytes) (wire : List Datagram)
    (c : Channel) : Prop where
  next_eq : c.nextOutgoingSeqnum = seqOf assigned.length
  inv : c.SendInv
  queued : ∀ p ∈ c.queuedReliables, ∃ i, Numbered env assigned i p ∧
    assigned.length ≤ i + 32767 ∧ ∀ d ∈ wire, d.index ≠ i
  outgoing : ∀ p ∈ c.outgoingReliablesSent, ∃ i, Numbered env assigned i p ∧
    assigned.length ≤ i + 32767
  wire_numbered : ∀ d ∈ wire, Numbered env assigned d.index d.packet

theorem mem_numberedPackets {seqnum : UInt16} {originals : List Bytes}
    (h : p ∈ numberedPackets env seqnum originals) :
    ∃ (j : Nat) (data : Bytes), originals[j]? = some data ∧
      p = numberedPacket env (seqnum + UInt16.ofNat j) data := by
  induction originals generalizing seqnum with
  | nil => cases h
  | cons original rest ih =>
    rcases List.mem_cons.1 h with rfl | h'
    · exact ⟨0, original, rfl, by simp⟩
    · rcases ih h' with ⟨j, data, hget, rfl⟩
      refine ⟨j + 1, data, by simpa using hget, ?_⟩
      rw [UInt16.ofNat_add, UInt16.add_assoc, UInt16.add_comm 1]
      rfl

theorem seqOf_add (n j : Nat) : seqOf (n + j) = seqOf n + UInt16.ofNat j := by
  apply UInt16.toNat_inj.1
  simp only [UInt16.toNat_add, toNat_seqOf, UInt16.toNat_ofNat']
  omega

namespace SenderPart

theorem initial : SenderPart env [] [] .initial where
  next_eq := rfl
  inv := .initial
  queued := by
    intro p hp
    cases hp
  outgoing := by
    intro p hp
    cases hp
  wire_numbered := by
    intro d hd
    cases hd

section

variable (h : SenderPart env assigned wire c)

include h

theorem congr (hc : c'.sending = c.sending) : SenderPart env assigned wire c' := by
  have hinv := h.inv.congr hc
  simp only [Channel.sending, Prod.mk.injEq] at hc
  rcases hc with ⟨-, hnext, hout, hqueue⟩
  exact
    { next_eq := hnext.trans h.next_eq
      inv := hinv
      queued := by rw [hqueue]; exact h.queued
      outgoing := by rw [hout]; exact h.outgoing
      wire_numbered := h.wire_numbered }

theorem setWindowSize (size : Int) :
    SenderPart env assigned wire (c.setWindowSize size) :=
  { h with inv := h.inv.setWindowSize size }

theorem of_sublist {buf : ReliablePacketBuffer} (hbuf : buf.Sublist c.outgoingReliablesSent) :
    SenderPart env assigned wire { c with outgoingReliablesSent := buf } :=
  { h with
    inv := h.inv.of_sublist hbuf
    outgoing := fun p hp => h.outgoing p (hbuf.subset hp) }

/-- More payloads get numbers, and their packets stand at the end of the queue. -/
theorem issue {more : List Bytes} (hmore : more.length ≤ 32767) (hinv : c'.SendInv)
    (hnext : c'.nextOutgoingSeqnum = c.nextOutgoingSeqnum + UInt16.ofNat more.length)
    (hqueue : c'.queuedReliables =
      c.queuedReliables ++ numberedPackets env c.nextOutgoingSeqnum more)
    (hout : c'.outgoingReliablesSent = c.outgoingReliablesSent) :
    SenderPart env (assigned ++ more) wire c' := by
  have hnext' : c'.nextOutgoingSeqnum = seqOf (assigned ++ more).length := by
    rw [hnext, h.next_eq, List.length_append, seqOf_add]
  have hlen : (assigned ++ more).length = assigned.length + more.length := List.length_append
  -- the invariant of the channel bounds how far back a packet may lie
  have hrecent : ∀ p ∈ c'.queuedReliables ++ c'.outgoingReliablesSent, ∀ i,
      Numbered env (assigned ++ more) i p → assigned.length ≤ i + 32767 →
        (assigned ++ more).length ≤ i + 32767 := by
    intro p hp i hi hold
    have hlt := hi.lt_length
    exact hinv.recent hnext' hp hi.getSeqnum_eq hlt (by omega)
  refine ⟨hnext', hinv, ?_, ?_, fun d hd => (h.wire_numbered d hd).append more⟩
  · intro p hp
    have hp' := hp
    rw [hqueue] at hp'
    rcases List.mem_append.1 hp' with hold | hnew
    · rcases h.queued p hold with ⟨i, hi, hage, hwire⟩
      have hi' := hi.append more
      exact ⟨i, hi', hrecent p (List.mem_append_left _ hp) i hi' hage, hwire⟩
    · rcases mem_numberedPackets hnew with ⟨j, data, hget, rfl⟩
      have hi' : Numbered env (assigned ++ more) (assigned.length + j)
          (numberedPacket env (c.nextOutgoingSeqnum + UInt16.ofNat j) data) := by
        refine ⟨data, ?_, by rw [h.next_eq, seqOf_add]⟩
        rw [List.getElem?_append_right (Nat.le_add_right _ _), Nat.add_sub_cancel_left, hget]
      refine ⟨_, hi', hrecent _ (List.mem_append_left _ hp) _ hi' (by omega), ?_⟩
      intro d hd heq
      have hold := (h.wire_numbered d hd).lt_length
      omega
  · intro p hp
    have hp' := hp
    rw [hout] at hp'
    rcases h.outgoing p hp' with ⟨i, hi, hage⟩
    have hi' := hi.append more
    exact ⟨i, hi', hrecent p (List.mem_append_right _ hp) i hi' hage⟩

/-- Packets with numbers that no queued packet has go on the network. -/
theorem extend_wire {more : List Datagram}
    (hmore : ∀ d ∈ more, Numbered env assigned d.index d.packet)
    (hnew : ∀ d ∈ more, ∀ p ∈ c.queuedReliables, p.getSeqnum ≠ d.packet.getSeqnum) :
    SenderPart env assigned (wire ++ more) c :=
  { h with
    queued := by
      intro p hp
      rcases h.queued p hp with ⟨i, hi, hage, hwire⟩
      refine ⟨i, hi, hage, ?_⟩
      intro d hd heq
      rcases List.mem_append.1 hd with hd | hd
      · exact hwire d hd heq
      · refine hnew d hd p hp ?_
        rw [hi.getSeqnum_eq, (hmore d hd).getSeqnum_eq, heq]
    wire_numbered := by
      intro d hd
      rcases List.mem_append.1 hd with hd | hd
      · exact h.wire_numbered d hd
      · exact hmore d hd }

/-- A packet that is queued or waits for its ACK goes on the network under its index. -/
theorem datagram_of (hp : p ∈ c.queuedReliables ++ c.outgoingReliablesSent) :
    Numbered env assigned (Datagram.of assigned.length p).index p := by
  have hi : ∃ i, Numbered env assigned i p ∧ assigned.length ≤ i + 32767 := by
    rcases List.mem_append.1 hp with hp | hp
    · rcases h.queued p hp with ⟨i, hi, hage, -⟩
      exact ⟨i, hi, hage⟩
    · exact h.outgoing p hp
  rcases hi with ⟨i, hi, hage⟩
  have hindex : (Datagram.of assigned.length p).index = i :=
    indexOf_eq hi.getSeqnum_eq hi.lt_length (by omega)
  rw [hindex]
  exact hi

theorem resend (due : BufferedPacket → Bool) (maxPackets : Nat) :
    SenderPart env assigned
      (wire ++ (c.outgoingReliablesSent.getResend due maxPackets).map
        (Datagram.of assigned.length)) c := by
  have hmem : ∀ d ∈ (c.outgoingReliablesSent.getResend due maxPackets).map
      (Datagram.of assigned.length), ∃ p ∈ c.outgoingReliablesSent,
        d = Datagram.of assigned.length p := by
    intro d hd
    rcases List.mem_map.1 hd with ⟨p, hp, rfl⟩
    exact ⟨p, (List.mem_filter.1 (List.mem_of_mem_take hp)).1, rfl⟩
  refine h.extend_wire ?_ ?_
  · intro d hd
    rcases hmem d hd with ⟨p, hp, rfl⟩
    exact h.datagram_of (List.mem_append_right _ hp)
  · intro d hd q hq
    rcases hmem d hd with ⟨p, hp, rfl⟩
    exact h.inv.disjoint q hq p hp

end

/-- A packet leaves the queue, is stored and goes on the network. -/
theorem send {before after : List BufferedPacket}
    (h : SenderPart env assigned wire (c.withQueue (before ++ p :: after))) :
    ∃ c₁, sendAsPacketReliable (c.withQueue (before ++ after)) p = .ok c₁ ∧
      SenderPart env assigned (wire ++ [Datagram.of assigned.length p]) c₁ := by
  rcases h.inv.store with ⟨c₁, hstore, hinv, hstored, hqueue, hnext⟩
  have hp : p ∈ before ++ p :: after := by simp
  have hnumbered := h.datagram_of (List.mem_append_left _ hp)
  have hsub : (before ++ after).Sublist (before ++ p :: after) :=
    (List.Sublist.refl before).append (List.sublist_cons_self p after)
  have hpart : SenderPart env assigned wire c₁ :=
    { next_eq := hnext.trans h.next_eq
      inv := hinv
      queued := fun q hq => h.queued q (hsub.subset (hqueue ▸ hq))
      outgoing := by
        intro q hq
        rcases (hstored q).1 hq with rfl | hq
        · rcases h.queued q hp with ⟨i, hi, hage, -⟩
          exact ⟨i, hi, hage⟩
        · exact h.outgoing q hq
      wire_numbered := h.wire_numbered }
  refine ⟨c₁, hstore, hpart.extend_wire ?_ ?_⟩
  · intro d hd
    rw [List.mem_singleton.1 hd]
    exact hnumbered
  · intro d hd q hq
    rw [List.mem_singleton.1 hd]
    exact fun heq =>
      h.inv.queued.sorted.ne_of_mem_append (hqueue ▸ hq) (height_eq_iff.2 heq)

end SenderPart

end

end Mtp
end AxisEngine
