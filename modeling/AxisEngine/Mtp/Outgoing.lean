import AxisEngine.Mtp.Sender

/-!
# Outgoing — what a sender keeps for resending

`sendAsPacketReliable` stores a packet only when its number lies less than half a ring below the
next number to assign.  Numbers are granted without limit while nothing waits for an ACK, and
packets wait in a queue before they are sent, so this is not automatic.

* `SendInv` — the packets queued or sent lie within half a ring below the next number;
* `SendInv.grant` — one more number keeps this when the oldest packet has room;
* `unacked_stored` — then every packet sent stays stored until its ACK.
-/

namespace AxisEngine
namespace Mtp

open Lib ReliablePacketBuffer

/-! ## The base of the outgoing buffer -/

theorem sendBase_eq (next : UInt16) : sendBase next = next + 32768 := by
  have hn := next.toNat_lt
  have hw : maxReliableWindowSize.toNat = 32768 := rfl
  have htmod : Int.tmod ((next.toNat : Int) - 32768) (32768 + 1) = (next.toNat : Int) - 32768 := by
    rcases Nat.lt_or_ge next.toNat 32768 with hlt | hge
    · have hneg : (next.toNat : Int) - 32768 = -(32768 - (next.toNat : Int)) := by omega
      rw [hneg, Int.neg_tmod, Int.tmod_eq_of_lt (by omega) (by omega)]
    · exact Int.tmod_eq_of_lt (by omega) (by omega)
  apply UInt16.toNat_inj.1
  have hcast : ((32768 : Nat) : Int) = 32768 := rfl
  rw [sendBase, hw, hcast, htmod, UInt16.ofInt, UInt16.toNat_ofNat', UInt16.toNat_add]
  have h16 : (32768 : UInt16).toNat = 32768 := rfl
  omega

theorem sendBase_add_one (next : UInt16) : sendBase (next + 1) = sendBase next + 1 := by
  rw [sendBase_eq, sendBase_eq, UInt16.add_assoc, UInt16.add_comm 1, UInt16.add_assoc]

/-- A number at most half a ring below the next one is as far above the base as the two add up to
half a ring. -/
theorem gap_sendBase {next s : UInt16} (h : gap s next ≤ 32768) :
    gap (sendBase next) s = 32768 - gap s next := by
  have hn := next.toNat_lt
  have hs := s.toNat_lt
  have h16 : (32768 : UInt16).toNat = 32768 := rfl
  simp only [sendBase_eq, gap, UInt16.toNat_add, h16] at h ⊢
  omega

/-! ## The invariant -/

def Channel.base (c : Channel) : UInt16 :=
  sendBase c.nextOutgoingSeqnum

/-- The packets queued and the packets sent lie strictly between the base and the next number, each
list in the order of the numbers, and no number occurs in both. -/
structure Channel.SendInv (c : Channel) : Prop where
  windowSize_le : c.windowSize.toNat ≤ maxReliableWindowSizeSend
  outgoing : c.outgoingReliablesSent.Window c.base
  queued : ReliablePacketBuffer.Window c.base c.queuedReliables
  reliable : ∀ p ∈ c.queuedReliables ++ c.outgoingReliablesSent, IsReliable p
  above : ∀ p ∈ c.queuedReliables ++ c.outgoingReliablesSent, 0 < height c.base p
  disjoint : ∀ p ∈ c.queuedReliables, ∀ q ∈ c.outgoingReliablesSent, p.getSeqnum ≠ q.getSeqnum

/-- The fields the sending half works on. -/
def Channel.sending (c : Channel) :
    UInt16 × UInt16 × ReliablePacketBuffer × List BufferedPacket :=
  (c.windowSize, c.nextOutgoingSeqnum, c.outgoingReliablesSent, c.queuedReliables)

section

variable {env : Endpoint} {cfg : SendConfig} {c c' : Channel} {n : UInt16} {p : BufferedPacket}

/-- The channel with other packets queued. -/
def Channel.withQueue (c : Channel) (queue : List BufferedPacket) : Channel :=
  { c with queuedReliables := queue }

theorem isReliable_numberedPacket (original : Bytes) :
    IsReliable (numberedPacket env n original) := by
  constructor
  · simp [numberedPacket, baseHeaderSize]
  · exact readU8_makePacket env.address env.outgoingHeader (makeReliablePacket original n) 0

/-- A new number stands right below the next one. -/
theorem height_new (env : Endpoint) (c : Channel) (original : Bytes) :
    height (c.withNext (c.nextOutgoingSeqnum + 1)).base
      (numberedPacket env c.nextOutgoingSeqnum original) = 32767 := by
  have hgap : gap c.nextOutgoingSeqnum (c.nextOutgoingSeqnum + 1) = 1 := by
    have hn := c.nextOutgoingSeqnum.toNat_lt
    simp only [gap, UInt16.toNat_add, UInt16.toNat_one]
    omega
  rw [height, getSeqnum_numberedPacket, Channel.base]
  exact (gap_sendBase (by rw [Channel.withNext, hgap]; omega)).trans (by rw [Channel.withNext, hgap])

/-- The queue plays no part in giving out numbers. -/
theorem getOutgoingSequenceNumber_withQueue (queue : List BufferedPacket) :
    (c.withQueue queue).getOutgoingSequenceNumber =
      c.getOutgoingSequenceNumber.map fun granted => (granted.1, granted.2.withQueue queue) := by
  have hsame : (c.withQueue queue).outgoingReliablesSent = c.outgoingReliablesSent := rfl
  rw [Channel.getOutgoingSequenceNumber, Channel.getOutgoingSequenceNumber, hsame]
  cases c.outgoingReliablesSent.getFirstSeqnum with
  | none => rfl
  | some lowest =>
    by_cases hroom : Channel.windowHasRoom lowest c.nextOutgoingSeqnum c.windowSize
    · simp only [Channel.withQueue, hroom]
      rfl
    · simp only [Channel.withQueue, hroom]
      rfl

namespace Channel.SendInv

theorem initial : Channel.initial.SendInv where
  windowSize_le := by decide
  outgoing := .nil
  queued := .nil
  reliable := by
    intro p hp
    cases hp
  above := by
    intro p hp
    cases hp
  disjoint := by
    intro p hp
    cases hp

theorem congr (h : c.SendInv) (heq : c'.sending = c.sending) : c'.SendInv := by
  simp only [Channel.sending, Prod.mk.injEq] at heq
  rcases heq with ⟨hsize, hnext, hout, hqueue⟩
  have hbase : c'.base = c.base := by rw [Channel.base, hnext, Channel.base]
  exact
    { windowSize_le := hsize ▸ h.windowSize_le
      outgoing := by rw [hbase, hout]; exact h.outgoing
      queued := by rw [hbase, hqueue]; exact h.queued
      reliable := by rw [hqueue, hout]; exact h.reliable
      above := by rw [hqueue, hout, hbase]; exact h.above
      disjoint := by rw [hqueue, hout]; exact h.disjoint }

/-- Packets that leave the buffer leave the rest in order. -/
theorem of_sublist (h : c.SendInv) {buf : ReliablePacketBuffer}
    (hbuf : buf.Sublist c.outgoingReliablesSent) :
    Channel.SendInv { c with outgoingReliablesSent := buf } where
  windowSize_le := h.windowSize_le
  outgoing := h.outgoing.sublist hbuf
  queued := h.queued
  reliable := fun p hp =>
    h.reliable p (((List.Sublist.refl c.queuedReliables).append hbuf).subset hp)
  above := fun p hp =>
    h.above p (((List.Sublist.refl c.queuedReliables).append hbuf).subset hp)
  disjoint := fun p hp q hq => h.disjoint p hp q (hbuf.subset hq)

theorem setWindowSize (h : c.SendInv) (size : Int) : (c.setWindowSize size).SendInv :=
  { h with
    windowSize_le := by
      have hlimited : max minReliableWindowSize (min maxReliableWindowSizeSend size.toNat) ≤
          maxReliableWindowSizeSend := max_le (by decide) (min_le_left _ _)
      change (UInt16.ofNat _).toNat ≤ _
      rw [UInt16.toNat_ofNat']
      exact (Nat.mod_le _ _).trans hlimited }

/-- When a number is granted, the packets that wait for an ACK are far above the base. -/
theorem one_lt_height_outgoing (h : c.SendInv) (hget : c.getOutgoingSequenceNumber = some (n, c')) :
    ∀ p ∈ c.outgoingReliablesSent, 1 < height c.base p := by
  intro p hp
  cases hout : c.outgoingReliablesSent with
  | nil =>
    rw [hout] at hp
    cases hp
  | cons q rest =>
    have hroom := (getOutgoingSequenceNumber_cases hget).2.2 q rest hout
    have hgap := gap_le_of_windowHasRoom hroom h.windowSize_le
    have hq : 1 < height c.base q := by
      have hbase := gap_sendBase (hgap.trans (by decide))
      rw [height, Channel.base, hbase]
      omega
    rw [hout] at hp
    rcases List.mem_cons.1 hp with rfl | hp'
    · exact hq
    · exact hq.trans ((hout ▸ h.outgoing.sorted).head_lt hp')

/-- One more number, with its packet at the end of the queue. -/
theorem grant (env : Endpoint) (h : c.SendInv) (hget : c.getOutgoingSequenceNumber = some (n, c'))
    (hqueue : ∀ p ∈ c.queuedReliables, 1 < height c.base p) (original : Bytes) :
    (c'.withQueue (c.queuedReliables ++ [numberedPacket env n original])).SendInv := by
  have hout := h.one_lt_height_outgoing hget
  rcases getOutgoingSequenceNumber_cases hget with ⟨rfl, rfl, -⟩
  have hbase : (c.withNext (c.nextOutgoingSeqnum + 1)).base = c.base + 1 :=
    sendBase_add_one c.nextOutgoingSeqnum
  have hnew := height_new env c original
  rw [hbase] at hnew
  -- the base moves up by one, and every packet there is had room
  have hone : ∀ p ∈ c.queuedReliables ++ c.outgoingReliablesSent, 1 < height c.base p := by
    intro p hp
    rcases List.mem_append.1 hp with hp | hp
    · exact hqueue p hp
    · exact hout p hp
  have hne : ∀ p ∈ c.queuedReliables ++ c.outgoingReliablesSent, p.getSeqnum ≠ c.base := by
    intro p hp heq
    have hp1 := hone p hp
    rw [height, heq, gap_self] at hp1
    omega
  have hdown : ∀ p ∈ c.queuedReliables ++ c.outgoingReliablesSent,
      height c.base p = height (c.base + 1) p + 1 := fun p hp => gap_add_one (hne p hp)
  have hbelow : ∀ p ∈ c.queuedReliables ++ c.outgoingReliablesSent,
      height (c.base + 1) p < height (c.base + 1)
        (numberedPacket env c.nextOutgoingSeqnum original) := by
    intro p hp
    have hlt : height c.base p < 32768 := by
      rcases List.mem_append.1 hp with hp | hp
      · exact h.queued.height_lt p hp
      · exact h.outgoing.height_lt p hp
    have hpdown := hdown p hp
    omega
  have hqueued : ReliablePacketBuffer.Window (c.base + 1) c.queuedReliables :=
    h.queued.advance fun p hp => hne p (List.mem_append_left _ hp)
  have houtgoing : c.outgoingReliablesSent.Window (c.base + 1) :=
    h.outgoing.advance fun p hp => hne p (List.mem_append_right _ hp)
  have hmem : ∀ p ∈ (c.queuedReliables ++ [numberedPacket env c.nextOutgoingSeqnum original]) ++
      c.outgoingReliablesSent, p = numberedPacket env c.nextOutgoingSeqnum original ∨
        p ∈ c.queuedReliables ++ c.outgoingReliablesSent := by
    intro p hp
    simp only [List.mem_append, List.mem_singleton] at hp ⊢
    rcases hp with (hp | hp) | hp
    · exact .inr (.inl hp)
    · exact .inl hp
    · exact .inr (.inr hp)
  refine
    { windowSize_le := h.windowSize_le
      outgoing := hbase ▸ houtgoing
      queued := ⟨hbase ▸ hqueued.sorted.append_singleton fun p hp =>
        hbelow p (List.mem_append_left _ hp), ?_⟩
      reliable := ?_
      above := ?_
      disjoint := ?_ }
  · intro p hp
    change height (c.withNext (c.nextOutgoingSeqnum + 1)).base p < 32768
    rw [hbase]
    rcases List.mem_append.1 hp with hp | hp
    · exact hqueued.height_lt p hp
    · rw [List.mem_singleton.1 hp, hnew]
      decide
  · intro p hp
    rcases hmem p hp with rfl | hp'
    · exact isReliable_numberedPacket original
    · exact h.reliable p hp'
  · intro p hp
    change 0 < height (c.withNext (c.nextOutgoingSeqnum + 1)).base p
    rw [hbase]
    rcases hmem p hp with rfl | hp'
    · rw [hnew]
      decide
    · have hp1 := hone p hp'
      have hpdown := hdown p hp'
      omega
  · intro p hp q hq heq
    rcases List.mem_append.1 hp with hp | hp
    · exact h.disjoint p hp q hq heq
    · have hlt := hbelow q (List.mem_append_right _ hq)
      rw [← List.mem_singleton.1 hp] at hlt
      exact absurd (height_eq_iff.2 heq) hlt.ne'

/-- Numbers for all `originals`, with their packets at the end of the queue, when the packets
queued before have room for as many. -/
theorem grantAll {originals : List Bytes} {queue : List BufferedPacket} {haveNumber : Bool}
    (h : (c.withQueue queue).SendInv) (hlen : originals.length ≤ 32767)
    (hroom : ∀ p ∈ queue, originals.length < height c.base p)
    (hall : (numberPackets env haveNumber c originals).1 = true) :
    ((numberPackets env haveNumber c originals).2.2.withQueue
      (queue ++ (numberPackets env haveNumber c originals).2.1)).SendInv := by
  induction originals generalizing c queue haveNumber with
  | nil =>
    rw [numberPackets, List.append_nil]
    exact h
  | cons original rest ih =>
    rw [List.length_cons] at hlen hroom
    cases hget : c.getOutgoingSequenceNumber with
    | none =>
      rw [numberPackets, hget] at hall
      cases hall
    | some granted =>
      rcases granted with ⟨n, c₁⟩
      have hget' : (c.withQueue queue).getOutgoingSequenceNumber =
          some (n, c₁.withQueue queue) := by
        rw [getOutgoingSequenceNumber_withQueue, hget]
        rfl
      have hone : ∀ p ∈ queue, 1 < height c.base p := fun p hp =>
        (Nat.le_add_left 1 rest.length).trans_lt (hroom p hp)
      have hgrant := h.grant env hget' hone original
      simp only [numberPackets, hget] at hall ⊢
      rw [List.append_cons]
      refine ih hgrant (by omega) ?_ hall
      rcases getOutgoingSequenceNumber_cases hget with ⟨rfl, rfl, -⟩
      have hbase : (c.withNext (c.nextOutgoingSeqnum + 1)).base = c.base + 1 :=
        sendBase_add_one c.nextOutgoingSeqnum
      intro p hp
      rcases List.mem_append.1 hp with hp | hp
      · -- one step closer to the base
        have hp1 := hroom p hp
        have hne : p.getSeqnum ≠ c.base := by
          intro heq
          rw [height, heq, gap_self] at hp1
          omega
        have hdown : height c.base p = height (c.base + 1) p + 1 := gap_add_one hne
        rw [hbase]
        omega
      · rw [List.mem_singleton.1 hp, height_new]
        omega

/-- A packet leaves the queue for the buffer: `insert` stores it. -/
theorem store {before after : List BufferedPacket}
    (h : (c.withQueue (before ++ p :: after)).SendInv) :
    ∃ c₁, sendAsPacketReliable (c.withQueue (before ++ after)) p = .ok c₁ ∧ c₁.SendInv ∧
      (∀ q, q ∈ c₁.outgoingReliablesSent ↔ q = p ∨ q ∈ c.outgoingReliablesSent) ∧
      c₁.queuedReliables = before ++ after ∧ c₁.nextOutgoingSeqnum = c.nextOutgoingSeqnum := by
  have hp : p ∈ before ++ p :: after := by simp
  have hmem : p ∈ (before ++ p :: after) ++ c.outgoingReliablesSent := List.mem_append_left _ hp
  have hsub : (before ++ after).Sublist (before ++ p :: after) :=
    (List.Sublist.refl before).append (List.sublist_cons_self p after)
  have hne : p.getSeqnum ≠ c.base := by
    intro heq
    have habove := h.above p hmem
    change 0 < height c.base p at habove
    rw [height, heq, gap_self] at habove
    exact lt_irrefl 0 habove
  have hlt : gap c.base p.getSeqnum < 32768 := h.queued.height_lt p hp
  have hnew : ∀ q ∈ c.outgoingReliablesSent, q.getSeqnum ≠ p.getSeqnum := fun q hq =>
    (h.disjoint p hp q hq).symm
  have hinsert : c.outgoingReliablesSent.insert p c.base =
      .ok (insertAt (height c.base) p c.outgoingReliablesSent) := by
    rcases h.outgoing.insert_eq (h.reliable p hmem) hne hlt with
      ⟨-, heq⟩ | ⟨q, hq, hseq, -⟩ | ⟨⟨q, hq, hseq, -⟩, -⟩
    · exact heq
    · exact absurd hseq (hnew q hq)
    · exact absurd hseq (hnew q hq)
  refine ⟨{ c.withQueue (before ++ after) with
    outgoingReliablesSent := insertAt (height c.base) p c.outgoingReliablesSent }, ?_, ?_,
    fun q => mem_insertAt, rfl, rfl⟩
  · have hinsert' : (c.withQueue (before ++ after)).outgoingReliablesSent.insert p
        (sendBase (c.withQueue (before ++ after)).nextOutgoingSeqnum) = _ := hinsert
    rw [sendAsPacketReliable, hinsert']
  · have hold : ∀ q ∈ (before ++ after) ++ insertAt (height c.base) p c.outgoingReliablesSent,
        q ∈ (before ++ p :: after) ++ c.outgoingReliablesSent := by
      intro q hq
      rcases List.mem_append.1 hq with hq | hq
      · exact List.mem_append_left _ (hsub.subset hq)
      · rcases mem_insertAt.1 hq with rfl | hq
        · exact hmem
        · exact List.mem_append_right _ hq
    refine
      { windowSize_le := h.windowSize_le
        outgoing := h.outgoing.insertAt hnew hlt
        queued := h.queued.sublist hsub
        reliable := fun q hq => h.reliable q (hold q hq)
        above := fun q hq => h.above q (hold q hq)
        disjoint := ?_ }
    intro q hq r hr heq
    rcases mem_insertAt.1 hr with rfl | hr
    · exact h.queued.sorted.ne_of_mem_append hq (height_eq_iff.2 heq)
    · exact h.disjoint q (hsub.subset hq) r hr heq

end Channel.SendInv

/-! ## Room for more numbers -/

/-- `getOutgoingSequenceNumber` gives out `k` numbers in a row. -/
def Channel.grantsAll (c : Channel) : Nat → Bool
  | 0 => true
  | k + 1 =>
    match c.getOutgoingSequenceNumber with
    | none => false
    | some (_, c) => c.grantsAll k

/-- If `k` more numbers are given out, the front of the queue stays within half a ring below the
next number. -/
def Channel.HasRoom (c : Channel) (k : Nat) : Prop :=
  c.grantsAll k = true →
    ∀ p ∈ c.queuedReliables.head?, gap p.getSeqnum c.nextOutgoingSeqnum + k ≤ 32767

/-- There is room for the packets of a command, once it has taken its split number. -/
def Channel.HasRoomFor (c : Channel) (cfg : SendConfig) (cmd : ConnectionCommand) : Prop :=
  ∀ originals' c', originals cfg c cmd = .ok (originals', c') → c'.HasRoom originals'.length

/-- There is room for the numbers a step may take. -/
def SendLabel.HasRoom (cfg : SendConfig) (s : Sender) : SendLabel → Prop
  | .put cmd =>
    s.pendingDisconnect = false → s.channel.startsNow = true → s.channel.HasRoomFor cfg cmd
  | .runCommandQueues =>
    s.pendingDisconnect = false → s.channel.queuedReliables.length < cfg.maxPacketsRequeued →
      ∀ cmd ∈ s.channel.queuedCommands.head?, s.channel.HasRoomFor cfg cmd
  | .rawSend _ => s.channel.HasRoom 1
  | _ => True

theorem grantsAll_of_numberPackets {originals : List Bytes} {haveNumber : Bool}
    (h : (numberPackets env haveNumber c originals).1 = true) :
    c.grantsAll originals.length = true := by
  induction originals generalizing c haveNumber with
  | nil => rfl
  | cons original rest ih =>
    cases hget : c.getOutgoingSequenceNumber with
    | none =>
      rw [numberPackets, hget] at h
      cases h
    | some granted =>
      simp only [numberPackets, hget] at h
      simp only [List.length_cons, Channel.grantsAll, hget]
      exact ih h

namespace Channel.SendInv

/-- Room for the front of the queue is room for the whole queue. -/
theorem lt_height_of_hasRoom (h : c.SendInv) {k : Nat} (hroom : c.HasRoom k)
    (hgrants : c.grantsAll k = true) : ∀ p ∈ c.queuedReliables, k < height c.base p := by
  intro p hp
  cases hqueue : c.queuedReliables with
  | nil =>
    rw [hqueue] at hp
    cases hp
  | cons q rest =>
    have hfront := hroom hgrants q (by rw [hqueue]; rfl)
    have hq : k < height c.base q := by
      rw [height, Channel.base, gap_sendBase (by omega)]
      omega
    rw [hqueue] at hp
    rcases List.mem_cons.1 hp with rfl | hp'
    · exact hq
    · exact hq.trans ((hqueue ▸ h.queued.sorted).head_lt hp')

/-- A command keeps the invariant when there is room for it. -/
theorem processReliableSendCommand (h : c.SendInv) {pending done : Bool}
    {cmd : ConnectionCommand} (hroom : pending = false → c.HasRoomFor cfg cmd)
    (hcmd : Mtp.processReliableSendCommand env cfg pending c cmd = .ok (done, c')) :
    c'.SendInv ∧ c'.outgoingReliablesSent = c.outgoingReliablesSent := by
  rcases processReliableSendCommand_cases hcmd with
    ⟨-, -, rfl⟩ | ⟨hpending, originals', c₁, horiginals, hlen, hdone | hrefused⟩
  · exact ⟨h, rfl⟩
  · rcases hdone with ⟨-, hhave, rfl⟩
    have hroom₁ := hroom hpending originals' c₁ horiginals
    rcases originals_cases horiginals with ⟨splitSeqnum, hc₁⟩
    have h₁ : c₁.SendInv := h.congr (by rw [hc₁]; rfl)
    have hheight := h₁.lt_height_of_hasRoom hroom₁ (grantsAll_of_numberPackets hhave)
    refine ⟨grantAll h₁ (Nat.le_of_lt_succ hlen) hheight hhave, ?_⟩
    rcases numberPackets_eq env false c₁ originals' with ⟨k, -, hnumbered, -⟩
    rw [(Prod.mk.inj hnumbered).2, hc₁]
    rfl
  · rcases hrefused with ⟨-, -, rfl⟩
    rcases originals_cases horiginals with ⟨splitSeqnum, rfl⟩
    exact ⟨h.congr rfl, rfl⟩

end Channel.SendInv

/-! ## Runs -/

/-- An ACK takes the packet with its number out of the buffer, if there is one. -/
theorem handle_ackPacket (env : Endpoint) (c : Channel) (n : UInt16) :
    (c.outgoingReliablesSent.popSeqnum n = none ∧
        (handlePacketTypeControl env c (ackPacket n)).channel = c) ∨
      ∃ p rest, c.outgoingReliablesSent.popSeqnum n = some (p, rest) ∧
        (handlePacketTypeControl env c (ackPacket n)).channel =
          { c with outgoingReliablesSent := rest } := by
  have hn : readU16 (ackPacket n) 2 = n := ofNat_bytes n
  have htype : readU8 (ackPacket n) 1 = controltypeAck := rfl
  have hlen : (ackPacket n).length = 4 := rfl
  rw [handlePacketTypeControl, hlen, htype, hn]
  cases hpop : c.outgoingReliablesSent.popSeqnum n with
  | none => exact .inl ⟨rfl, rfl⟩
  | some popped => exact .inr ⟨popped.1, popped.2, rfl, rfl⟩

/-- What every step keeps: the invariant of the channel, and that unacknowledged packets are
stored. -/
structure Sender.Kept (s : Sender) : Prop where
  inv : s.channel.SendInv
  stored : ∀ p ∈ s.unacked, p ∈ s.channel.outgoingReliablesSent

namespace Sender.Kept

variable {s t : Sender} {a : SendLabel}

theorem initial : Sender.initial.Kept where
  inv := .initial
  stored := by
    intro p hp
    cases hp

section

variable (h : s.Kept)

include h

/-- A step that sends nothing and stores nothing. -/
theorem of_unsent {c : Channel}
    (hc : c.SendInv ∧ c.outgoingReliablesSent = s.channel.outgoingReliablesSent) :
    Sender.Kept { s with channel := c } where
  inv := hc.1
  stored := by
    intro p hp
    change p ∈ c.outgoingReliablesSent
    rw [hc.2]
    exact h.stored p hp

theorem of_sent {c : Channel} {p : BufferedPacket} (hc : c.SendInv)
    (hstored : ∀ q, q ∈ c.outgoingReliablesSent ↔ q = p ∨ q ∈ s.channel.outgoingReliablesSent) :
    Sender.Kept { s with channel := c, unacked := s.unacked ++ [p] } where
  inv := hc
  stored := by
    intro q hq
    rcases List.mem_append.1 hq with hq | hq
    · exact (hstored q).2 (.inr (h.stored q hq))
    · exact (hstored q).2 (.inl (List.mem_singleton.1 hq))

theorem step_put {cmd : ConnectionCommand} (hroom : (SendLabel.put cmd).HasRoom cfg s)
    (hstep : SendStep env cfg s (.put cmd) t) : t.Kept := by
  rcases bind_eq_ok.1 hstep with ⟨c, hput, ht⟩
  cases ht
  refine h.of_unsent ?_
  rw [putReliableSendCommand] at hput
  split at hput
  · cases hput
    exact ⟨h.inv, rfl⟩
  · split at hput
    · rename_i hpending hnow
      rcases bind_eq_ok.1 hput with ⟨⟨done, c₁⟩, hcmd, hrest⟩
      have hc₁ := h.inv.processReliableSendCommand (fun hp => hroom hp hnow) hcmd
      simp only at hrest
      split at hrest
      · cases hrest
        exact hc₁
      · cases hrest
        exact ⟨hc₁.1.congr rfl, hc₁.2⟩
    · cases hput
      exact ⟨h.inv.congr rfl, rfl⟩

theorem step_runCommandQueues (hroom : SendLabel.runCommandQueues.HasRoom cfg s)
    (hstep : SendStep env cfg s .runCommandQueues t) : t.Kept := by
  rcases bind_eq_ok.1 hstep with ⟨c, hrun, ht⟩
  cases ht
  refine h.of_unsent ?_
  rw [runCommandQueues] at hrun
  cases hcommands : s.channel.queuedCommands with
  | nil =>
    rw [hcommands] at hrun
    cases hrun
    exact ⟨h.inv, rfl⟩
  | cons cmd rest =>
    rw [hcommands] at hrun
    simp only at hrun
    split at hrun
    · rename_i hlen
      rcases bind_eq_ok.1 hrun with ⟨⟨done, c₁⟩, hcmd, hrest⟩
      have hc₁ := h.inv.processReliableSendCommand
        (fun hp => hroom hp hlen cmd (by rw [hcommands]; rfl)) hcmd
      simp only at hrest
      split at hrest
      · cases hrest
        exact ⟨hc₁.1.congr rfl, hc₁.2⟩
      · cases hrest
        exact hc₁
    · cases hrun
      exact ⟨h.inv, rfl⟩

theorem step_sendQueued (hstep : SendStep env cfg s .sendQueued t) : t.Kept := by
  rcases bind_eq_ok.1 hstep with ⟨⟨c, sent⟩, hsend, ht⟩
  cases ht
  rw [sendQueued] at hsend
  cases hqueue : s.channel.queuedReliables with
  | nil =>
    rw [hqueue] at hsend
    cases hsend
    exact ⟨h.inv, by simpa using h.stored⟩
  | cons p rest =>
    rw [hqueue] at hsend
    simp only at hsend
    split at hsend
    · have hinv : (s.channel.withQueue ([] ++ p :: rest)).SendInv :=
        h.inv.congr (by rw [List.nil_append, ← hqueue]; rfl)
      rcases hinv.store with ⟨c₁, hstore, hc₁, hstored, -, -⟩
      rcases bind_eq_ok.1 hsend with ⟨c₂, hsend, hrest⟩
      cases hstore.symm.trans hsend
      cases hrest
      exact h.of_sent hc₁ hstored
    · cases hsend
      exact ⟨h.inv, by simpa using h.stored⟩

theorem step_rawSend {data : Bytes} (hroom : (SendLabel.rawSend data).HasRoom cfg s)
    (hstep : SendStep env cfg s (.rawSend data) t) : t.Kept := by
  rcases bind_eq_ok.1 hstep with ⟨⟨done, c, sent⟩, hraw, ht⟩
  cases ht
  rw [rawSendAsPacket] at hraw
  cases hget : s.channel.getOutgoingSequenceNumber with
  | none =>
    rw [hget] at hraw
    cases hraw
    exact ⟨h.inv, by simpa using h.stored⟩
  | some granted =>
    rcases granted with ⟨n, c₁⟩
    have hgrants : s.channel.grantsAll 1 = true := by
      simp only [Channel.grantsAll, hget]
    have hgrant := h.inv.grant env hget (h.inv.lt_height_of_hasRoom hroom hgrants) data
    rcases getOutgoingSequenceNumber_cases hget with ⟨rfl, rfl, -⟩
    rw [hget] at hraw
    simp only at hraw
    split at hraw
    · rcases hgrant.store with ⟨c₂, hstore, hc₂, hstored, -, -⟩
      rw [List.append_nil] at hstore
      rcases bind_eq_ok.1 hraw with ⟨c₃, hsend, hrest⟩
      cases hstore.symm.trans hsend
      cases hrest
      exact h.of_sent hc₂ hstored
    · cases hraw
      refine ⟨hgrant, ?_⟩
      intro p hp
      exact h.stored p (by simpa using hp)

theorem step_ack {n : UInt16} (hstep : SendStep env cfg s (.ack n) t) : t.Kept := by
  cases hstep
  rcases handle_ackPacket env s.channel n with ⟨hnone, hchannel⟩ | ⟨p, rest, hpop, hchannel⟩
  · refine ⟨?_, ?_⟩
    · simp only [hchannel]
      exact h.inv
    · intro q hq
      simp only [hchannel]
      exact h.stored q (List.mem_filter.1 hq).1
  · rcases mem_of_popSeqnum hpop with ⟨-, -, rfl⟩
    refine ⟨?_, ?_⟩
    · simp only [hchannel]
      exact h.inv.of_sublist (List.eraseP_sublist ..)
    · intro q hq
      rcases List.mem_filter.1 hq with ⟨hmem, hne⟩
      simp only [hchannel]
      exact (List.mem_eraseP_of_neg (by simpa using hne)).2 (h.stored q hmem)

theorem step (hroom : a.HasRoom cfg s) (hstep : SendStep env cfg s a t) : t.Kept := by
  cases a with
  | put cmd => exact h.step_put hroom hstep
  | runCommandQueues => exact h.step_runCommandQueues hroom hstep
  | sendQueued => exact h.step_sendQueued hstep
  | rawSend data => exact h.step_rawSend hroom hstep
  | ack n => exact h.step_ack hstep
  | setWindowSize size =>
    cases hstep
    exact ⟨h.inv.setWindowSize size, h.stored⟩
  | disconnectPeer =>
    cases hstep
    exact ⟨h.inv, h.stored⟩

end

end Sender.Kept

/-- In every run whose steps find room for the numbers they take, each packet that
`sendAsPacketReliable` has passed to `rawSend` is stored until an ACK with its number comes. -/
theorem unacked_stored {t : Sender} {as : List SendLabel}
    (h : Run.Guarded (fun s a => a.HasRoom cfg s) (SendStep env cfg) .initial as t) :
    ∀ p ∈ t.unacked, p ∈ t.channel.outgoingReliablesSent := by
  have hkept : t.Kept := Run.guarded_invariant
    (fun s a t hs hroom hstep => hs.step hroom hstep) h .initial
  exact hkept.stored

/-- The state after a label that does not end the program. -/
def Sender.after (env : Endpoint) (cfg : SendConfig) (s : Sender) (a : SendLabel) : Sender :=
  match s.react env cfg a with
  | .ok t => t
  | .error _ => s

theorem sendStep_after {s : Sender} {a : SendLabel} (h : (s.react env cfg a).isOk = true) :
    SendStep env cfg s a (s.after env cfg a) := by
  rw [SendStep, Sender.after]
  cases hreact : s.react env cfg a with
  | ok t => rfl
  | error fault =>
    rw [hreact] at h
    cases h

theorem Channel.HasRoom.of_empty (h : c.queuedReliables = []) (k : Nat) : c.HasRoom k := by
  intro _ p hp
  rw [h] at hp
  cases hp

end

def defaultConfig : SendConfig :=
  { maxPacketSize := 512 }

theorem unacked_stored_one :
    ∃ p, p ∈ ((Sender.initial.after clientEndpoint defaultConfig (.put ⟨[1, 7], true⟩)).after
        clientEndpoint defaultConfig .sendQueued).unacked ∧
      p ∈ ((Sender.initial.after clientEndpoint defaultConfig (.put ⟨[1, 7], true⟩)).after
        clientEndpoint defaultConfig .sendQueued).channel.outgoingReliablesSent := by
  have hsent : SendLabel.sendQueued.HasRoom defaultConfig
      (Sender.initial.after clientEndpoint defaultConfig (.put ⟨[1, 7], true⟩)) := trivial
  have hall := unacked_stored (.cons ⟨?_, sendStep_after (by decide)⟩
    (.cons ⟨hsent, sendStep_after (by decide)⟩ (.nil _)))
  · exact ⟨_, List.mem_cons_self .., hall _ (List.mem_cons_self ..)⟩
  · intro _ _ originals' c' horiginals
    refine .of_empty ?_ _
    cases horiginals
    rfl

/-! ### A packet that is sent and not stored -/

section

variable {env : Endpoint} {c : Channel}

/-- While nothing waits for an ACK, every packet gets a number. -/
theorem numberPackets_of_empty (hempty : c.outgoingReliablesSent = []) (originals : List Bytes) :
    numberPackets env true c originals =
      (true, numberedPackets env c.nextOutgoingSeqnum originals,
        c.withNext (c.nextOutgoingSeqnum + UInt16.ofNat originals.length)) := by
  have htrue : ∀ c : Channel, c.outgoingReliablesSent = [] →
      (numberPackets env true c originals).1 = true := by
    induction originals with
    | nil => exact fun _ _ => rfl
    | cons original rest ih =>
      intro c hc
      have hget : c.getOutgoingSequenceNumber =
          some (c.nextOutgoingSeqnum, c.withNext (c.nextOutgoingSeqnum + 1)) := by
        rw [Channel.getOutgoingSequenceNumber, hc]
        rfl
      simp only [numberPackets, hget]
      exact ih _ hc
  rcases numberPackets_eq env true c originals with ⟨k, -, hnumbered, hk⟩
  have hall := hk (htrue c hempty)
  subst hall
  rw [List.take_length] at hnumbered
  exact Prod.ext (htrue c hempty) hnumbered

/-- A packet that `insert` refuses is sent all the same. -/
theorem sendQueued_refused {p : BufferedPacket} {rest : List BufferedPacket}
    (hqueue : c.queuedReliables = p :: rest)
    (hroom : c.outgoingReliablesSent.length < c.windowSize.toNat)
    (hrefused : c.outgoingReliablesSent.insert p (sendBase c.nextOutgoingSeqnum) =
      .ok c.outgoingReliablesSent) :
    sendQueued c = .ok ({ c with queuedReliables := rest }, [p]) := by
  simp only [sendQueued, hqueue, if_pos hroom, sendAsPacketReliable, hrefused]
  rfl

end

/-- The sender with one packet in its queue. -/
def oneQueued : Sender :=
  Sender.initial.after clientEndpoint defaultConfig (.put ⟨[1, 7], true⟩)

/-- A message of 32767 chunks. -/
theorem originals_big {c : Channel} {data : Bytes} (hlen : data.length = 495 * 32767) :
    ∃ chunks, originals defaultConfig c ⟨data, false⟩ =
        .ok (chunks, { c with nextOutgoingSplitSeqnum := c.nextOutgoingSplitSeqnum + 1 }) ∧
      chunks.length = 32767 := by
  have hm : maximumDataSize 502 = 495 := by decide
  have hcount : SplitMessage.chunkCount ⟨data, 502, c.nextOutgoingSplitSeqnum⟩ = 32767 := by
    rw [SplitMessage.chunkCount, pieceCount, hlen, hm]
  have hs : SplitMessage.Splittable ⟨data, 502, c.nextOutgoingSplitSeqnum⟩ :=
    ⟨(by decide : chunkHeaderSize < (502 : UInt32).toNat),
      (by rw [hlen]; decide : (502 : UInt32).toNat ≤ data.length), by rw [hcount]; decide⟩
  have hfits : SplitMessage.Fits ⟨data, 502, c.nextOutgoingSplitSeqnum⟩ :=
    ⟨(by rw [hlen]; decide : data.length < 2 ^ 32), by rw [hcount, hm]; decide⟩
  have hchunks : ∃ chunks, SplitMessage.split ⟨data, 502, c.nextOutgoingSplitSeqnum⟩ = .ok chunks ∧
      chunks.length = 32767 :=
    ⟨_, SplitMessage.split_eq hs hfits, ((List.length_map _).trans List.length_range).trans hcount⟩
  rcases hchunks with ⟨chunks, hsplit, hlength⟩
  rw [SplitMessage.split] at hsplit
  refine ⟨chunks, ?_, hlength⟩
  have hmax : defaultConfig.maxPacketSize - UInt32.ofNat baseHeaderSize -
      UInt32.ofNat reliableHeaderSize = 502 := by decide
  have hlong : data.length + originalHeaderSize > (502 : UInt32).toNat := by
    rw [hlen]
    decide
  have hauto : makeAutoSplitPacket data 502 c.nextOutgoingSplitSeqnum =
      .ok (chunks, c.nextOutgoingSplitSeqnum + 1) := by
    rw [makeAutoSplitPacket, if_pos hlong, hsplit]
    rfl
  simp only [originals, hmax, hauto]
  rfl

/-- Such a message passes the sanity check and gets 32767 numbers, although one packet is queued. -/
theorem oneQueued_put {data : Bytes} (hlen : data.length = 495 * 32767) :
    ∃ t, SendStep clientEndpoint defaultConfig oneQueued (.put ⟨data, false⟩) t ∧
      t.unacked = [] ∧ t.channel.outgoingReliablesSent = [] ∧
      t.channel.windowSize = oneQueued.channel.windowSize ∧
      t.channel.nextOutgoingSeqnum = seqOf 32768 ∧
      t.channel.queuedReliables.head? = some (numberedPacket clientEndpoint (seqOf 0) [1, 7]) := by
  rcases originals_big (c := oneQueued.channel) hlen with ⟨chunks, horiginals, hchunks⟩
  generalize hc : ({ oneQueued.channel with
    nextOutgoingSplitSeqnum := oneQueued.channel.nextOutgoingSplitSeqnum + 1 } : Channel) = c
    at horiginals
  have hempty : c.outgoingReliablesSent = [] := by
    subst hc
    decide
  have hqueue : c.queuedReliables = [numberedPacket clientEndpoint (seqOf 0) [1, 7]] := by
    subst hc
    decide
  have hnext : c.nextOutgoingSeqnum = seqOf 1 := by
    subst hc
    decide
  have hnumbered : numberPackets clientEndpoint false c chunks =
      (true, numberedPackets clientEndpoint c.nextOutgoingSeqnum chunks,
        c.withNext (c.nextOutgoingSeqnum + UInt16.ofNat chunks.length)) := by
    rw [← numberPackets_of_empty hempty chunks]
    cases chunks with
    | nil => cases hchunks
    | cons original rest => rfl
  have hcmd : processReliableSendCommand clientEndpoint defaultConfig false oneQueued.channel
      ⟨data, false⟩ = .ok (true, { c.withNext (c.nextOutgoingSeqnum + UInt16.ofNat chunks.length) with
        queuedReliables := c.queuedReliables ++
          numberedPackets clientEndpoint c.nextOutgoingSeqnum chunks }) := by
    have hfew : ¬ chunks.length ≥ maxReliableWindowSize.toNat := by
      rw [hchunks]
      decide
    have hshort : (c.queuedReliables ++
        numberedPackets clientEndpoint c.nextOutgoingSeqnum chunks).length < 0xFFFF := by
      rw [hqueue, List.length_append, length_numberedPackets, hchunks]
      decide
    simp only [processReliableSendCommand, horiginals, bind, Except.bind, if_neg hfew, hnumbered]
    exact if_pos hshort
  have hput : SendStep clientEndpoint defaultConfig oneQueued (.put ⟨data, false⟩)
      { oneQueued with channel := { c.withNext (c.nextOutgoingSeqnum + UInt16.ofNat chunks.length)
          with queuedReliables := c.queuedReliables ++
            numberedPackets clientEndpoint c.nextOutgoingSeqnum chunks } } := by
    have hpending : oneQueued.pendingDisconnect = false := by decide
    have hnow : oneQueued.channel.startsNow = true := by decide
    simp only [SendStep, Sender.react, putReliableSendCommand, hpending, hnow, if_true, hcmd,
      bind, Except.bind, Bool.false_eq_true, if_false]
    rfl
  refine ⟨_, hput, (by decide : oneQueued.unacked = []), hempty, ?_, ?_, ?_⟩
  · subst hc
    rfl
  · change c.nextOutgoingSeqnum + UInt16.ofNat chunks.length = seqOf 32768
    rw [hnext, hchunks]
    decide
  · change (c.queuedReliables ++ _).head? = _
    rw [hqueue]
    rfl

/-- The queued packet is 32768 numbers behind the next one when its turn comes: `insert` refuses
it, and it is sent all the same. -/
theorem queued_packet_sent_unstored :
    ∃ t, Run (SendStep clientEndpoint defaultConfig) .initial
        [.put ⟨[1, 7], true⟩, .put ⟨List.replicate (495 * 32767) 0, false⟩, .sendQueued] t ∧
      ∃ p ∈ t.unacked, p ∉ t.channel.outgoingReliablesSent := by
  have hlen : (List.replicate (495 * 32767) (0 : UInt8)).length = 495 * 32767 :=
    List.length_replicate
  rcases oneQueued_put hlen with ⟨s, hput, hunacked, hempty, hsize, hnext, hhead⟩
  rcases List.head?_eq_some_iff.1 hhead with ⟨rest, hqueue⟩
  have hrefused : s.channel.outgoingReliablesSent.insert
      (numberedPacket clientEndpoint (seqOf 0) [1, 7]) (sendBase s.channel.nextOutgoingSeqnum) =
        .ok s.channel.outgoingReliablesSent := by
    refine insert_of_refused (isReliable_numberedPacket _) (.inl ?_)
    rw [hnext]
    decide
  have hroom : s.channel.outgoingReliablesSent.length < s.channel.windowSize.toNat := by
    rw [hempty, hsize]
    decide
  have hsend : sendQueued s.channel =
      .ok ({ s.channel with queuedReliables := rest },
        [numberedPacket clientEndpoint (seqOf 0) [1, 7]]) :=
    sendQueued_refused hqueue hroom hrefused
  have hstep : SendStep clientEndpoint defaultConfig s .sendQueued
      { s with
        channel := { s.channel with queuedReliables := rest }
        unacked := s.unacked ++ [numberedPacket clientEndpoint (seqOf 0) [1, 7]] } := by
    simp only [SendStep, Sender.react, hsend]
    rfl
  refine ⟨_, .cons (sendStep_after (by decide)) (.cons hput (.cons hstep (.nil _))),
    numberedPacket clientEndpoint (seqOf 0) [1, 7], List.mem_append_right _ (by simp), ?_⟩
  intro hmem
  change _ ∈ s.channel.outgoingReliablesSent at hmem
  rw [hempty] at hmem
  cases hmem

end Mtp
end AxisEngine
