import AxisEngine.Mtp.Link

/-!
# EndToEnd — a reliable channel delivers what was assigned

The receiver's side of a link, and the invariant of the whole.

* `ReceiverPart` — what was handed on is a prefix of what was assigned, and each buffered packet
  carries its own payload;
* `Link.Inv` — both sides, and what ACKs say;
* `handed_prefix_assigned` — the receiver hands on a prefix of what the sender assigned.
-/

namespace AxisEngine
namespace Mtp

open Lib ReliablePacketBuffer

/-! ## The receiver's side -/

/-- What the receiver buffers for the `i`-th payload. -/
def bufferedPayload (env : Endpoint) (i : Nat) (data : Bytes) : BufferedPacket :=
  bufferedPacket env (makeReliablePacket data (seqOf i))

/-- What holds of a receiver: it has handed on the first payloads, its buffer holds later ones, and
all of them came over the network. -/
structure ReceiverPart (env : Endpoint) (assigned : List Bytes) (wire : List Datagram)
    (c : Channel) (handed : List Bytes) : Prop where
  next_eq : c.nextIncomingSeqnum = seqOf handed.length
  window : c.incomingReliables.Window c.nextIncomingSeqnum
  handed_prefix : handed <+: assigned
  buffered : ∀ q ∈ c.incomingReliables, ∃ i data, handed.length ≤ i ∧
    assigned[i]? = some data ∧ (∃ d ∈ wire, d.index = i) ∧ q = bufferedPayload env i data
  arrived : ∀ i < handed.length, ∃ d ∈ wire, d.index = i

/-- The `i`-th payload was handed on or waits in the receiver's buffer. -/
def Received (assigned : List Bytes) (c : Channel) (handed : List Bytes) (i : Nat) : Prop :=
  i < handed.length ∨
    ∃ q ∈ c.incomingReliables, q.getSeqnum = seqOf i ∧ some q.payload = assigned[i]?

section

variable {env : Endpoint} {assigned handed : List Bytes} {wire : List Datagram}
variable {c c' : Channel} {i : Nat} {data : Bytes} {q : BufferedPacket}

theorem getSeqnum_bufferedPayload : (bufferedPayload env i data).getSeqnum = seqOf i :=
  getSeqnum_makeReliablePacket env.address env.incomingHeader data (seqOf i)

theorem payload_bufferedPayload : (bufferedPayload env i data).payload = data :=
  payload_makeReliablePacket env.address env.incomingHeader data (seqOf i)

theorem Received.append (h : Received assigned c handed i) (more : List Bytes) :
    Received (assigned ++ more) c handed i := by
  rcases h with h | ⟨q, hq, hseq, hpayload⟩
  · exact .inl h
  · have hlt : i < assigned.length := (List.getElem?_eq_some_iff.1 hpayload.symm).1
    exact .inr ⟨q, hq, hseq, by rw [List.getElem?_append_left hlt, hpayload]⟩

theorem Received.congr (h : Received assigned c handed i)
    (hc : c'.incomingReliables = c.incomingReliables) : Received assigned c' handed i := by
  rw [Received, hc]
  exact h

/-- What a round of the receive thread does: the invariant holds after it, what was received stays
so, and an ACK is sent for a payload that was received. -/
structure Advance (env : Endpoint) (assigned : List Bytes) (wire : List Datagram) (c : Channel)
    (handed : List Bytes) (index : Nat) (r : Processed) : Prop where
  part : ReceiverPart env assigned wire r.channel (handed ++ r.handed.map Handed.payload)
  kept : ∀ i, Received assigned c handed i →
    Received assigned r.channel (handed ++ r.handed.map Handed.payload) i
  acked : ∀ n, Effect.sendAck n ∈ r.effects → n = seqOf index ∧
    Received assigned r.channel (handed ++ r.handed.map Handed.payload) index

namespace ReceiverPart

theorem initial : ReceiverPart env [] [] .initial [] where
  next_eq := rfl
  window := .nil
  handed_prefix := List.prefix_refl []
  buffered := by
    intro q hq
    cases hq
  arrived := by
    intro i hi
    cases hi

section

variable (h : ReceiverPart env assigned wire c handed)

include h

theorem congr (hc : c'.receiving = c.receiving) : ReceiverPart env assigned wire c' handed := by
  rcases Prod.mk.inj hc with ⟨hnext, hbuf⟩
  exact
    { next_eq := hnext.trans h.next_eq
      window := by rw [hnext, hbuf]; exact h.window
      handed_prefix := h.handed_prefix
      buffered := by rw [hbuf]; exact h.buffered
      arrived := h.arrived }

/-- More payloads are assigned, and more datagrams are on the network. -/
theorem extend (more : List Bytes) (datagrams : List Datagram) :
    ReceiverPart env (assigned ++ more) (wire ++ datagrams) c handed :=
  { h with
    handed_prefix := h.handed_prefix.trans (List.prefix_append assigned more)
    buffered := by
      intro q hq
      rcases h.buffered q hq with ⟨i, data, hi, hget, ⟨d, hd, hindex⟩, heq⟩
      have hlt : i < assigned.length := (List.getElem?_eq_some_iff.1 hget).1
      exact ⟨i, data, hi, by rw [List.getElem?_append_left hlt, hget],
        ⟨d, List.mem_append_left _ hd, hindex⟩, heq⟩
    arrived := by
      intro i hi
      rcases h.arrived i hi with ⟨d, hd, hindex⟩
      exact ⟨d, List.mem_append_left _ hd, hindex⟩ }

/-- The packet in the buffer that has the `i`-th number carries the `i`-th payload. -/
theorem eq_bufferedPayload (hspan : assigned.length < handed.length + 32768)
    (hq : q ∈ c.incomingReliables) (hseq : q.getSeqnum = seqOf i) (hi : handed.length ≤ i)
    (hlt : i < assigned.length) :
    ∃ data, assigned[i]? = some data ∧ q = bufferedPayload env i data := by
  rcases h.buffered q hq with ⟨j, data, hj, hget, -, rfl⟩
  have hjlt : j < assigned.length := (List.getElem?_eq_some_iff.1 hget).1
  have hij : i = j :=
    seqOf_inj (hseq.symm.trans getSeqnum_bufferedPayload) (by omega) (by omega)
  subst hij
  exact ⟨data, hget, rfl⟩

/-- The expected payload is handed on. -/
theorem pass (hget : assigned[handed.length]? = some data)
    (hwire : ∃ d ∈ wire, d.index = handed.length)
    (hc : c'.receiving = (c.pass c.nextIncomingSeqnum).receiving) :
    ReceiverPart env assigned wire c' (handed ++ [data]) := by
  rcases Prod.mk.inj hc with ⟨hnext, hbuf⟩
  have hlen : (handed ++ [data]).length = handed.length + 1 := by simp
  refine ⟨?_, ?_, ?_, ?_, ?_⟩
  · rw [hlen, seqOf_succ, ← h.next_eq]
    exact hnext
  · rw [hnext, hbuf]
    exact h.window.advance_dropResent
  · rcases h.handed_prefix with ⟨rest, rfl⟩
    rw [List.getElem?_append_right le_rfl, Nat.sub_self] at hget
    cases rest with
    | nil => cases hget
    | cons payload rest =>
      cases hget
      exact ⟨rest, by simp⟩
  · intro q hq
    rw [hbuf] at hq
    have hne := h.window.ne_of_mem_dropResent hq
    rcases h.buffered q ((Window.dropResent_sublist _ _).subset hq) with
      ⟨i, data', hi, hget', hwire', rfl⟩
    refine ⟨i, data', ?_, hget', hwire', rfl⟩
    have hi' : i ≠ handed.length := by
      rintro rfl
      exact hne (getSeqnum_bufferedPayload.trans h.next_eq.symm)
    omega
  · intro i hi
    rcases Nat.lt_succ_iff_lt_or_eq.1 (hlen ▸ hi) with hi | rfl
    · exact h.arrived i hi
    · exact hwire

/-- A packet that leaves the buffer was handed on. -/
theorem received_pass (hspan : assigned.length < handed.length + 32768)
    (hr : Received assigned c handed i)
    (hc : c'.receiving = (c.pass c.nextIncomingSeqnum).receiving) :
    Received assigned c' (handed ++ [data]) i := by
  have hlen : (handed ++ [data]).length = handed.length + 1 := by simp
  have hbuf : c'.incomingReliables = c.incomingReliables.dropResent c.nextIncomingSeqnum :=
    (Prod.mk.inj hc).2
  rcases hr with hi | ⟨q, hq, hseq, hpayload⟩
  · exact .inl (by omega)
  · have hlt : i < assigned.length := (List.getElem?_eq_some_iff.1 hpayload.symm).1
    by_cases hi : i ≤ handed.length
    · exact .inl (by omega)
    · refine .inr ⟨q, ?_, hseq, hpayload⟩
      rw [hbuf, dropResent]
      split
      · -- the first packet goes; it is not `q`, whose number is not the expected one
        rename_i hfirst
        cases hin : c.incomingReliables with
        | nil =>
          rw [hin] at hq
          cases hq
        | cons p rest =>
          rw [hin] at hq hfirst
          rcases List.mem_cons.1 hq with rfl | hq
          · have hnext : seqOf i = seqOf handed.length := by
              rw [← hseq, ← h.next_eq]
              exact Option.some.inj hfirst
            exact absurd (seqOf_inj hnext (by omega) (by omega)).le hi
          · exact hq
      · exact hq

/-- A round that hands nothing on and leaves the receiving half alone. -/
theorem advance_of_passive {r : Processed} (hr : r.Passive c)
    (hacked : ∀ n, Effect.sendAck n ∈ r.effects → n = seqOf i ∧ Received assigned c handed i) :
    Advance env assigned wire c handed i r := by
  rcases hr with ⟨hhanded, hc⟩
  have heq : handed ++ r.handed.map Handed.payload = handed := by simp [hhanded]
  have hbuf : r.channel.incomingReliables = c.incomingReliables := (Prod.mk.inj hc).2
  refine ⟨?_, ?_, ?_⟩
  · rw [heq]
    exact h.congr hc
  · intro j hj
    rw [heq]
    exact hj.congr hbuf
  · intro n hn
    rw [heq]
    exact ⟨(hacked n hn).1, (hacked n hn).2.congr hbuf⟩

/-- A round that hands on the expected payload. -/
theorem advance_of_pass (hspan : assigned.length < handed.length + 32768)
    (hget : assigned[handed.length]? = some data) (hwire : ∃ d ∈ wire, d.index = handed.length)
    {r : Processed} {n : UInt16} (hhanded : r.handed = [⟨n, data⟩])
    (hc : r.channel.receiving = (c.pass c.nextIncomingSeqnum).receiving)
    (hacked : ∀ n, Effect.sendAck n ∈ r.effects → n = seqOf handed.length) :
    Advance env assigned wire c handed handed.length r := by
  have heq : handed ++ r.handed.map Handed.payload = handed ++ [data] := by simp [hhanded]
  refine ⟨?_, ?_, ?_⟩
  · rw [heq]
    exact h.pass hget hwire hc
  · intro j hj
    rw [heq]
    exact h.received_pass hspan hj hc
  · intro n' hn'
    refine ⟨hacked n' hn', .inl ?_⟩
    simp [hhanded]

/-- A packet ahead of the expected one is buffered. -/
theorem advance_of_buffered (hget : assigned[i]? = some data) (hwire : ∃ d ∈ wire, d.index = i)
    (hi : handed.length ≤ i) (hlt : gap c.nextIncomingSeqnum (seqOf i) < 32768)
    (hnew : ∀ q ∈ c.incomingReliables, q.getSeqnum ≠ seqOf i) {r : Processed}
    (hhanded : r.handed = []) (hc : r.channel = c.buffer (bufferedPayload env i data))
    (hacked : ∀ n, Effect.sendAck n ∈ r.effects → n = seqOf i) :
    Advance env assigned wire c handed i r := by
  have heq : handed ++ r.handed.map Handed.payload = handed := by simp [hhanded]
  have hmem : ∀ q, q ∈ r.channel.incomingReliables ↔
      q = bufferedPayload env i data ∨ q ∈ c.incomingReliables := by
    intro q
    rw [hc]
    exact mem_insertAt
  have hwindow : r.channel.incomingReliables.Window r.channel.nextIncomingSeqnum := by
    rw [hc]
    exact h.window.insertAt (fun q hq => getSeqnum_bufferedPayload ▸ hnew q hq)
      (getSeqnum_bufferedPayload ▸ hlt)
  refine ⟨?_, ?_, ?_⟩
  · rw [heq]
    refine ⟨by rw [hc]; exact h.next_eq, hwindow, h.handed_prefix, ?_, h.arrived⟩
    intro q hq
    rcases (hmem q).1 hq with rfl | hq
    · exact ⟨i, data, hi, hget, hwire, rfl⟩
    · exact h.buffered q hq
  · intro j hj
    rw [heq]
    rcases hj with hj | ⟨q, hq, hseq, hpayload⟩
    · exact .inl hj
    · exact .inr ⟨q, (hmem q).2 (.inr hq), hseq, hpayload⟩
  · intro n hn
    refine ⟨hacked n hn, ?_⟩
    rw [heq]
    refine .inr ⟨_, (hmem _).2 (.inl rfl), getSeqnum_bufferedPayload, ?_⟩
    rw [payload_bufferedPayload, hget]

section

variable (hspan : assigned.length < handed.length + 32768)

include hspan

/-- A payload of the network does not conflict with a buffered packet. -/
theorem not_conflict (hget : assigned[i]? = some data) (htimely : handed.length < i + 32768) :
    ¬ ConflictsWith env c (makeReliablePacket data (seqOf i)) := by
  have hlt : i < assigned.length := (List.getElem?_eq_some_iff.1 hget).1
  rintro ⟨-, hin, q, hq, hseq, hdiff⟩
  have hgap := (seqnumInWindow_iff _ _).1 hin
  rw [readU16_makeReliablePacket, h.next_eq] at hgap
  have hseq' : q.getSeqnum = seqOf i := hseq.trans getSeqnum_bufferedPayload
  -- inside of the window the number is that of a payload not handed on
  have hi : handed.length ≤ i := by
    by_contra hnot
    simp only [gap, toNat_seqOf] at hgap
    omega
  rcases h.eq_bufferedPayload hspan hq hseq' hi hlt with ⟨data', hget', rfl⟩
  cases hget.symm.trans hget'
  rcases hdiff with hdiff | hdiff
  · exact hdiff rfl
  · exact hdiff rfl

/-- The receive thread takes a datagram off the network. -/
theorem deliver (hget : assigned[i]? = some data) (hwire : ∃ d ∈ wire, d.index = i)
    (htimely : handed.length < i + 32768) :
    Advance env assigned wire c handed i
      (processPacket env c (makeReliablePacket data (seqOf i))) := by
  have hlt : i < assigned.length := (List.getElem?_eq_some_iff.1 hget).1
  have hseqnum : readU16 (makeReliablePacket data (seqOf i)) 1 = seqOf i :=
    readU16_makeReliablePacket data (seqOf i)
  have hgap : i < handed.length → 32768 ≤ gap c.nextIncomingSeqnum (seqOf i) := by
    intro hi
    rw [h.next_eq]
    simp only [gap, toNat_seqOf]
    omega
  rcases processPacket_cases env (makeReliablePacket data (seqOf i)) h.window with
    ⟨hnot, -⟩ | ⟨hdatagram, received, hreception, heq⟩
  · -- the packet is dropped at once
    have hcheck : ¬ checkPacket env (makeReliablePacket data (seqOf i)) := fun hcheck =>
      hnot ⟨hcheck, rfl, by simp [reliableHeaderSize]⟩
    have heq : processPacket env c (makeReliablePacket data (seqOf i)) =
        { channel := c, result := .error .invalidIncomingData } := by
      rw [processPacket, if_pos hcheck]
    rw [heq]
    exact h.advance_of_passive ⟨rfl, rfl⟩ (by simp)
  · rw [heq]
    cases hreception with
    | outside hout heffects =>
      rw [hseqnum] at hout heffects
      refine h.advance_of_passive ⟨rfl, rfl⟩ ?_
      intro n hn
      refine ⟨Effect.sendAck.inj (heffects _ hn), .inl ?_⟩
      by_contra hi
      rw [h.next_eq, gap_seqOf (not_lt.1 hi) (by omega)] at hout
      omega
    | buffered hne hin hnew =>
      rw [hseqnum] at hin hnew
      have hi : handed.length ≤ i := by
        by_contra hi
        have hout := hgap (not_le.1 hi)
        omega
      refine h.advance_of_buffered hget hwire hi hin hnew rfl rfl ?_
      intro n hn
      exact Effect.sendAck.inj (List.mem_singleton.1 (hseqnum ▸ hn))
    | @resent q hne hq hseq hnot =>
      refine h.advance_of_passive ⟨rfl, rfl⟩ ?_
      intro n hn
      refine ⟨Effect.sendAck.inj (List.mem_singleton.1 (hseqnum ▸ hn)), ?_⟩
      by_cases hi : i < handed.length
      · exact .inl hi
      · rcases h.eq_bufferedPayload hspan hq (hseq.trans hseqnum) (not_lt.1 hi) hlt with
          ⟨data', hget', rfl⟩
        exact .inr ⟨_, hq, getSeqnum_bufferedPayload, by rw [payload_bufferedPayload, hget']⟩
    | expected hexp =>
      have hi : i = handed.length :=
        seqOf_inj ((hseqnum.symm.trans hexp).trans h.next_eq) (by omega) (by omega)
      subst hi
      rcases reprocess_processNow env c (makeReliablePacket data (seqOf handed.length))
        [.sendAck (readU16 (makeReliablePacket data (seqOf handed.length)) 1)] with
        ⟨hhanded, hchannel⟩
      rw [hexp] at hchannel
      refine h.advance_of_pass hspan hget hwire hhanded hchannel ?_
      intro n hn
      rcases List.mem_append.1 hn with hn | hn
      · exact Effect.sendAck.inj (List.mem_singleton.1 (hseqnum ▸ hn))
      · exact absurd hn (sendAck_notMem_processInner n)
    | conflict hc => exact absurd hc (h.not_conflict hspan hget htimely)

/-- The receive thread takes the expected packet out of the buffer. -/
theorem drain {r : Processed} (hdrain : checkIncomingBuffers env c = some r) :
    Advance env assigned wire c handed handed.length r := by
  rcases checkIncomingBuffers_cases hdrain with ⟨q, hq, hseq, hhanded, hchannel, hacks⟩
  rcases h.buffered q hq with ⟨i, data, hi, hget, hwire, rfl⟩
  have hlt : i < assigned.length := (List.getElem?_eq_some_iff.1 hget).1
  have heq : i = handed.length :=
    seqOf_inj ((getSeqnum_bufferedPayload.symm.trans hseq).trans h.next_eq) (by omega) (by omega)
  subst heq
  exact h.advance_of_pass hspan hget hwire hhanded hchannel fun n hn => absurd hn (hacks n)

end

end

end ReceiverPart

end

/-! ## The sender's steps -/

section

variable {env : Endpoint} {cfg : SendConfig} {assigned : List Bytes} {wire : List Datagram}
variable {c c' : Channel} {cmd : ConnectionCommand} {pending : Bool} {received : Nat}

/-- The first `received` payloads have been on the network. -/
def Arrived (wire : List Datagram) (received : Nat) : Prop :=
  ∀ i < received, ∃ d ∈ wire, d.index = i

namespace SenderPart

section

variable (h : SenderPart env assigned wire c) (hwire : Arrived wire received)

include h hwire

/-- A queued packet was never on the network, so its payload was not received: there is room for
more numbers as long as they span less than half a ring from the first payload not received. -/
theorem lt_height {k : Nat} (hspan : assigned.length + k < received + 32768) :
    ∀ p ∈ c.queuedReliables, k < height c.base p := by
  intro p hp
  rcases h.queued p hp with ⟨i, hi, hage, hnot⟩
  have hlt := hi.lt_length
  have hreceived : received ≤ i := by
    by_contra hlt'
    rcases hwire i (not_le.1 hlt') with ⟨d, hd, hindex⟩
    exact hnot d hd hindex
  have hgap : gap p.getSeqnum c.nextOutgoingSeqnum = assigned.length - i := by
    rw [hi.getSeqnum_eq, h.next_eq, gap_seqOf hlt.le (by omega)]
  rw [height, Channel.base, gap_sendBase (by omega), hgap]
  omega

theorem command {done : Bool}
    (hspan : (assigned ++ commandPayloads env cfg pending c cmd).length < received + 32768)
    (hcmd : processReliableSendCommand env cfg pending c cmd = .ok (done, c')) :
    SenderPart env (assigned ++ commandPayloads env cfg pending c cmd) wire c' := by
  rcases processReliableSendCommand_cases hcmd with
    ⟨rfl, -, rfl⟩ | ⟨rfl, originals', c₁, horiginals, hlen, hend⟩
  · simpa [commandPayloads] using h
  · rcases originals_cases horiginals with ⟨splitSeqnum, hc₁⟩
    have h₁ : SenderPart env assigned wire c₁ := h.congr (by rw [hc₁]; rfl)
    rcases hend with ⟨-, hall, rfl⟩ | ⟨-, hnot, rfl⟩
    · have hpayloads : commandPayloads env cfg false c cmd = originals' := by
        simp [commandPayloads, horiginals, hall]
      rw [hpayloads, List.length_append] at hspan
      rw [hpayloads]
      have hinv : ((numberPackets env false c₁ originals').2.2.withQueue (c₁.queuedReliables ++
          (numberPackets env false c₁ originals').2.1)).SendInv :=
        h₁.inv.grantAll (Nat.le_of_lt_succ hlen) (h₁.lt_height hwire hspan) hall
      rcases numberPackets_eq env false c₁ originals' with ⟨k, -, hnumbered, hk⟩
      cases hk hall
      rw [List.take_length] at hnumbered
      rcases Prod.mk.inj hnumbered with ⟨htoadd, hchannel⟩
      refine h₁.issue (Nat.le_of_lt_succ hlen) hinv ?_ ?_ ?_
      · rw [hchannel]
        rfl
      · rw [htoadd]
      · rw [hchannel]
        rfl
    · have hpayloads : commandPayloads env cfg false c cmd = [] := by
        simp [commandPayloads, horiginals, hnot]
      rw [hpayloads, List.append_nil]
      exact h₁

theorem put (hspan : (assigned ++ putPayloads env cfg pending c cmd).length < received + 32768)
    (hput : putReliableSendCommand env cfg pending c cmd = .ok c') :
    SenderPart env (assigned ++ putPayloads env cfg pending c cmd) wire c' := by
  rw [putReliableSendCommand] at hput
  split at hput
  · rename_i hpending
    cases hput
    simpa [putPayloads, commandPayloads, hpending] using h
  · split at hput
    · rename_i hnow
      rw [putPayloads, if_pos hnow] at hspan ⊢
      rcases bind_eq_ok.1 hput with ⟨⟨done, c₁⟩, hcmd, hrest⟩
      have hc₁ := h.command hwire hspan hcmd
      simp only at hrest
      split at hrest
      · cases hrest
        exact hc₁
      · cases hrest
        exact hc₁.congr rfl
    · rename_i hnow
      cases hput
      rw [putPayloads, if_neg hnow, List.append_nil]
      exact h.congr rfl

theorem run (hspan : (assigned ++ runPayloads env cfg pending c).length < received + 32768)
    (hrun : runCommandQueues env cfg pending c = .ok c') :
    SenderPart env (assigned ++ runPayloads env cfg pending c) wire c' := by
  cases hcommands : c.queuedCommands with
  | nil =>
    rw [runCommandQueues, hcommands] at hrun
    cases hrun
    simpa [runPayloads, hcommands] using h
  | cons cmd rest =>
    simp only [runCommandQueues, hcommands] at hrun
    split at hrun
    · rename_i hfew
      have hpayloads : runPayloads env cfg pending c = commandPayloads env cfg pending c cmd := by
        simp [runPayloads, hcommands, hfew]
      rw [hpayloads] at hspan ⊢
      rcases bind_eq_ok.1 hrun with ⟨⟨done, c₁⟩, hcmd, hrest⟩
      have hc₁ := h.command hwire hspan hcmd
      simp only at hrest
      split at hrest
      · cases hrest
        exact hc₁.congr rfl
      · cases hrest
        exact hc₁
    · rename_i hfew
      cases hrun
      simpa [runPayloads, hcommands, hfew] using h

end

theorem sendQueued (h : SenderPart env assigned wire c) {sent : List BufferedPacket}
    (hsend : Mtp.sendQueued c = .ok (c', sent)) :
    SenderPart env assigned (wire ++ sent.map (Datagram.of assigned.length)) c' := by
  rw [Mtp.sendQueued] at hsend
  cases hqueue : c.queuedReliables with
  | nil =>
    rw [hqueue] at hsend
    cases hsend
    simpa using h
  | cons p rest =>
    rw [hqueue] at hsend
    simp only at hsend
    split at hsend
    · have hpart : SenderPart env assigned wire (c.withQueue ([] ++ p :: rest)) :=
        h.congr (by rw [List.nil_append, ← hqueue]; rfl)
      rcases hpart.send with ⟨c₁, hstore, hc₁⟩
      rcases bind_eq_ok.1 hsend with ⟨c₂, hsend, hrest⟩
      cases hstore.symm.trans hsend
      cases hrest
      exact hc₁
    · cases hsend
      simpa using h

theorem rawSend (h : SenderPart env assigned wire c) (hwire : Arrived wire received) {data : Bytes}
    {done : Bool} {sent : List BufferedPacket}
    (hspan : (assigned ++ rawPayloads c data).length < received + 32768)
    (hraw : rawSendAsPacket env c data = .ok (done, c', sent)) :
    SenderPart env (assigned ++ rawPayloads c data)
      (wire ++ sent.map (Datagram.of (assigned ++ rawPayloads c data).length)) c' := by
  cases hget : c.getOutgoingSequenceNumber with
  | none =>
    rw [rawSendAsPacket, hget] at hraw
    cases hraw
    simpa [rawPayloads, hget] using h
  | some granted =>
    rcases granted with ⟨n, c₁⟩
    have hpayloads : rawPayloads c data = [data] := by simp [rawPayloads, hget]
    rw [hpayloads, List.length_append] at hspan
    rw [hpayloads]
    have hinv := h.inv.grant env hget (h.lt_height hwire hspan) data
    rcases getOutgoingSequenceNumber_cases hget with ⟨rfl, rfl, -⟩
    -- the packet of the number, as if it were queued
    have hqueued : SenderPart env (assigned ++ [data]) wire
        ((c.withNext (c.nextOutgoingSeqnum + 1)).withQueue (c.queuedReliables ++
          numberedPacket env c.nextOutgoingSeqnum data :: [])) :=
      h.issue (by simp : [data].length ≤ 32767) hinv rfl rfl rfl
    simp only [rawSendAsPacket, hget] at hraw
    split at hraw
    · rcases hqueued.send with ⟨c₂, hstore, hc₂⟩
      rw [List.append_nil] at hstore
      rcases bind_eq_ok.1 hraw with ⟨c₃, hsend, hrest⟩
      cases hstore.symm.trans hsend
      cases hrest
      exact hc₂
    · cases hraw
      rw [List.map_nil, List.append_nil]
      exact hqueued

end SenderPart

end

/-! ## ACKs -/

section

variable {env : Endpoint} {c : Channel} {effects : List Effect} {a : AckDatagram} {n : UInt16}

theorem mem_ackDatagrams {index : Nat} (h : a ∈ ackDatagrams index effects) :
    ∃ n, Effect.sendAck n ∈ effects ∧ a = { index := index, packetdata := ackPacket n } := by
  rcases List.mem_filterMap.1 h with ⟨e, he, hsome⟩
  cases e with
  | sendAck n =>
    cases hsome
    exact ⟨n, he, rfl⟩
  | disconnectPeer => cases hsome
  | deletePeer => cases hsome
  | setPeerId _ => cases hsome
  | triggerSend => cases hsome

/-- An ACK takes packets with its number out of the sender's buffer, and no others. -/
theorem processPacket_ackPacket (env : Endpoint) (c : Channel) (n : UInt16) :
    ∃ buf : ReliablePacketBuffer,
      (processPacket env c (ackPacket n)).channel = { c with outgoingReliablesSent := buf } ∧
        buf.Sublist c.outgoingReliablesSent ∧
        ∀ p ∈ c.outgoingReliablesSent, p ∉ buf → p.getSeqnum = n := by
  have hroute : (processPacket env c (ackPacket n)).channel = c ∨
      (processPacket env c (ackPacket n)).channel =
        (handlePacketTypeControl env c (ackPacket n)).channel := by
    rw [processPacket]
    split
    · exact .inl rfl
    · exact .inr rfl
  have hsame : (processPacket env c (ackPacket n)).channel = c → ∃ buf : ReliablePacketBuffer,
      (processPacket env c (ackPacket n)).channel = { c with outgoingReliablesSent := buf } ∧
        buf.Sublist c.outgoingReliablesSent ∧
        ∀ p ∈ c.outgoingReliablesSent, p ∉ buf → p.getSeqnum = n := fun hc =>
    ⟨c.outgoingReliablesSent, hc, List.Sublist.refl _, fun p hp hnot => absurd hp hnot⟩
  rcases hroute with hroute | hroute
  · exact hsame hroute
  · rcases handle_ackPacket env c n with ⟨-, hchannel⟩ | ⟨p, rest, hpop, hchannel⟩
    · exact hsame (hroute.trans hchannel)
    · rcases mem_of_popSeqnum hpop with ⟨-, -, rfl⟩
      refine ⟨_, hroute.trans hchannel, List.eraseP_sublist .., ?_⟩
      intro q hq hnot
      by_contra hne
      exact hnot ((List.mem_eraseP_of_neg (by simpa using hne)).2 hq)

end

/-! ## The whole -/

/-- Both sides of the network; an ACK, on the network or taken, stands for a payload received. -/
structure Link.Inv (cfg : LinkConfig) (s : Link) : Prop where
  sender : SenderPart cfg.sender s.assigned s.wire s.sender
  receiver : ReceiverPart cfg.receiver s.assigned s.wire s.receiver s.handed
  span : s.InSpan
  acked : ∀ a ∈ s.acks, a.packetdata = ackPacket (seqOf a.index) ∧
    a.index < s.assigned.length ∧ Received s.assigned s.receiver s.handed a.index
  removed : ∀ i ∈ s.removed, Received s.assigned s.receiver s.handed i

section

variable {cfg : LinkConfig} {s t : Link} {label : LinkLabel}

namespace Link.Inv

theorem initial : Link.initial.Inv cfg where
  sender := .initial
  receiver := .initial
  span := (by decide : 0 < 0 + 32768)
  acked := by
    intro a ha
    cases ha
  removed := by
    intro i hi
    cases hi

section

variable (h : s.Inv cfg)

include h

theorem of_sender {c : Channel} (more : List Bytes) (datagrams : List Datagram) {pending : Bool}
    (hc : SenderPart cfg.sender (s.assigned ++ more) (s.wire ++ datagrams) c)
    (hspan : (s.assigned ++ more).length < s.handed.length + 32768) :
    Link.Inv cfg { s with
      sender := c
      pendingDisconnect := pending
      assigned := s.assigned ++ more
      wire := s.wire ++ datagrams } where
  sender := hc
  receiver := h.receiver.extend more datagrams
  span := hspan
  acked := by
    intro a ha
    rcases h.acked a ha with ⟨hdata, hlt, hreceived⟩
    refine ⟨hdata, ?_, hreceived.append more⟩
    rw [List.length_append]
    exact Nat.lt_add_right _ hlt
  removed := fun i hi => (h.removed i hi).append more

variable {r : Processed}

theorem of_advance {index : Nat} (acks : List AckDatagram)
    (hr : Advance cfg.receiver s.assigned s.wire s.receiver s.handed index r)
    (hspan : s.assigned.length < (s.handed ++ r.handed.map Handed.payload).length + 32768)
    (hacks : ∀ a ∈ acks, a ∈ ackDatagrams index r.effects) (hlt : index < s.assigned.length) :
    Link.Inv cfg { s with
      receiver := r.channel
      handed := s.handed ++ r.handed.map Handed.payload
      acks := s.acks ++ acks } where
  sender := h.sender
  receiver := hr.part
  span := hspan
  acked := by
    intro a ha
    rcases List.mem_append.1 ha with ha | ha
    · rcases h.acked a ha with ⟨hdata, hlt, hreceived⟩
      exact ⟨hdata, hlt, hr.kept _ hreceived⟩
    · rcases mem_ackDatagrams (hacks a ha) with ⟨n, hn, rfl⟩
      rcases hr.acked n hn with ⟨rfl, hreceived⟩
      exact ⟨rfl, hlt, hreceived⟩
  removed := fun i hi => hr.kept i (h.removed i hi)

theorem step_deliver {d : Datagram} (hd : d ∈ s.wire)
    (hr : processPacket cfg.receiver s.receiver (d.packet.data.drop baseHeaderSize) = r)
    (htimely : s.handed.length < d.index + 32768)
    (hspan : s.assigned.length < (s.handed ++ r.handed.map Handed.payload).length + 32768) :
    Link.Inv cfg { s with
      receiver := r.channel
      handed := s.handed ++ r.handed.map Handed.payload
      acks := s.acks ++ ackDatagrams d.index r.effects } := by
  rcases h.sender.wire_numbered d hd with ⟨data, hget, hpacket⟩
  have hdata : d.packet.data.drop baseHeaderSize = makeReliablePacket data (seqOf d.index) := by
    rw [hpacket]
    rfl
  rw [hdata] at hr
  have hadvance := h.receiver.deliver h.span hget ⟨d, hd, rfl⟩ htimely
  rw [hr] at hadvance
  exact h.of_advance _ hadvance hspan (fun a ha => ha) (h.sender.wire_numbered d hd).lt_length

theorem step_drain (hr : checkIncomingBuffers cfg.receiver s.receiver = some r)
    (hspan : s.assigned.length < (s.handed ++ r.handed.map Handed.payload).length + 32768) :
    Link.Inv cfg { s with
      receiver := r.channel
      handed := s.handed ++ r.handed.map Handed.payload } := by
  have hadvance := h.receiver.drain h.span hr
  -- the payload that is taken out of the buffer has a number
  have hlt : s.handed.length < s.assigned.length := by
    rcases checkIncomingBuffers_cases hr with ⟨q, -, -, hhanded, -⟩
    have hprefix := hadvance.part.handed_prefix.length_le
    rw [hhanded, List.length_append] at hprefix
    exact hprefix
  simpa using h.of_advance [] hadvance hspan (by simp) hlt

theorem step_ack {a : AckDatagram} (ha : a ∈ s.acks)
    (hr : processPacket cfg.sender s.sender a.packetdata = r)
    (htimely : s.handed.length < a.index + 32768) :
    Link.Inv cfg { s with
      sender := r.channel
      removed := s.removed ++ (s.sender.outgoingReliablesSent.filter
        fun p => p ∉ r.channel.outgoingReliablesSent).map (indexOf s.assigned.length) } := by
  rcases h.acked a ha with ⟨hdata, hlt, hreceived⟩
  rw [hdata] at hr
  rcases processPacket_ackPacket cfg.sender s.sender (seqOf a.index) with
    ⟨buf, hchannel, hsub, hremoved⟩
  rw [hr] at hchannel
  have hspan := h.span
  refine ⟨?_, h.receiver, h.span, h.acked, ?_⟩
  · rw [hchannel]
    exact h.sender.of_sublist hsub
  · intro i hi
    rcases List.mem_append.1 hi with hi | hi
    · exact h.removed i hi
    · rcases List.mem_map.1 hi with ⟨p, hp, rfl⟩
      rcases List.mem_filter.1 hp with ⟨hmem, hnot⟩
      rw [hchannel] at hnot
      have hseq : p.getSeqnum = seqOf a.index := hremoved p hmem (by simpa using hnot)
      rw [Link.InSpan] at hspan
      rw [indexOf_eq hseq hlt (by omega)]
      exact hreceived

theorem step (hstep : LinkStepInSpan cfg s label t) : t.Inv cfg := by
  rcases hstep with ⟨hstep, htimely, hspan⟩
  have hwire : Arrived s.wire s.handed.length := h.receiver.arrived
  have hsame : (s.assigned ++ []).length < s.handed.length + 32768 := by
    rw [List.append_nil]
    exact h.span
  cases hstep with
  | put hput =>
    have hc := h.sender.put hwire hspan hput
    simpa using h.of_sender _ [] (by simpa using hc) hspan
  | runCommandQueues hrun =>
    have hc := h.sender.run hwire hspan hrun
    simpa using h.of_sender _ [] (by simpa using hc) hspan
  | sendQueued hsend =>
    have hc := h.sender.sendQueued hsend
    simpa using h.of_sender [] _ (by simpa using hc) hsame
  | rawSend hraw =>
    have hc := h.sender.rawSend hwire hspan hraw
    exact h.of_sender _ _ hc hspan
  | @resend due maxPackets =>
    have hc := h.sender.resend due maxPackets
    simpa using h.of_sender [] _ (by simpa using hc) hsame
  | @setWindowSize size =>
    have hc := h.sender.setWindowSize size
    simpa using h.of_sender [] [] (by simpa using hc) hsame
  | disconnectPeer =>
    simpa using h.of_sender [] [] (by simpa using h.sender) hsame
  | deliver hd hr _ => exact h.step_deliver hd hr htimely hspan
  | drain hr _ => exact h.step_drain hr hspan
  | ack ha hr _ => exact h.step_ack ha hr htimely

end

end Link.Inv

/-- In every run, the payloads the receiver has handed on are a prefix of the payloads the sender
assigned numbers to, which are those its packets on the network carry; and each packet that an ACK
took out of the sender's buffer has its payload handed on or in the receiver's buffer. -/
theorem handed_prefix_assigned {labels : List LinkLabel}
    (h : Run (LinkStepInSpan cfg) .initial labels t) :
    t.handed <+: t.assigned ∧ (∀ d ∈ t.wire, Numbered cfg.sender t.assigned d.index d.packet) ∧
      ∀ i ∈ t.removed, Received t.assigned t.receiver t.handed i := by
  have hinv : t.Inv cfg := Run.invariant (fun s label t hs hstep => hs.step hstep) h .initial
  exact ⟨hinv.receiver.handed_prefix, hinv.sender.wire_numbered, hinv.removed⟩

end

def clientLink : LinkConfig :=
  { sender := clientEndpoint, receiver := clientEndpoint, send := defaultConfig }

def firstPacket : BufferedPacket :=
  numberedPacket clientEndpoint (seqOf 0) [1, 7]

/-- One packet is queued. -/
def linkQueued : Link :=
  { Link.initial with
    sender := { Channel.initial with
      nextOutgoingSeqnum := seqOf 1
      queuedReliables := [firstPacket] }
    assigned := [[1, 7]] }

/-- It is on the network. -/
def linkSent : Link :=
  { linkQueued with
    sender := { Channel.initial with
      nextOutgoingSeqnum := seqOf 1
      outgoingReliablesSent := [firstPacket] }
    wire := [⟨0, firstPacket⟩] }

/-- Its payload is handed on, and the ACK is on the network. -/
def linkDelivered : Link :=
  { linkSent with
    receiver := { Channel.initial with nextIncomingSeqnum := seqOf 1 }
    handed := [[1, 7]]
    acks := [⟨0, ackPacket (seqOf 0)⟩] }

/-- The ACK has arrived. -/
def linkAcked : Link :=
  { linkDelivered with
    sender := { Channel.initial with nextOutgoingSeqnum := seqOf 1 }
    removed := [0] }

theorem linkAcked_run : Run (LinkStepInSpan clientLink) .initial
    [.put ⟨[1, 7], true⟩, .sendQueued, .deliver ⟨0, firstPacket⟩, .ack ⟨0, ackPacket (seqOf 0)⟩]
    linkAcked := by
  have hput : LinkStep clientLink .initial (.put ⟨[1, 7], true⟩) linkQueued := .put rfl
  have hsent : sendQueued linkQueued.sender = .ok (linkSent.sender, [firstPacket]) := rfl
  have hsend : LinkStep clientLink linkQueued .sendQueued linkSent := .sendQueued hsent
  have hdeliver : LinkStep clientLink linkSent (.deliver ⟨0, firstPacket⟩) linkDelivered :=
    .deliver (List.mem_singleton_self _) rfl rfl
  have hack : LinkStep clientLink linkDelivered (.ack ⟨0, ackPacket (seqOf 0)⟩) linkAcked :=
    .ack (List.mem_singleton_self _) rfl rfl
  have hspan : ∀ n k : Nat, n ≤ 1 → n < k + 32768 := by omega
  exact .cons ⟨hput, trivial, hspan 1 0 le_rfl⟩ (.cons ⟨hsend, trivial, hspan 1 0 le_rfl⟩
    (.cons ⟨hdeliver, hspan 0 0 (by omega), hspan 1 1 le_rfl⟩
      (.cons ⟨hack, hspan 1 0 le_rfl, hspan 1 1 le_rfl⟩ (.nil _))))

/-- One payload is assigned, sent, delivered and acknowledged. -/
theorem handed_prefix_assigned_one :
    linkAcked.handed = [[1, 7]] ∧ linkAcked.removed = [0] ∧
      linkAcked.handed <+: linkAcked.assigned ∧
      (∀ d ∈ linkAcked.wire, Numbered clientEndpoint linkAcked.assigned d.index d.packet) ∧
      ∀ i ∈ linkAcked.removed, Received linkAcked.assigned linkAcked.receiver linkAcked.handed i :=
  ⟨rfl, rfl, handed_prefix_assigned linkAcked_run⟩

end Mtp
end AxisEngine
