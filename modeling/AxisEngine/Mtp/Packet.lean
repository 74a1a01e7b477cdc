import AxisEngine.Lib.Bytes

/-!
# Packet — datagrams, packet types and sequence numbers

The byte layout of MTP packets (`network/mtp/internal.h`, `network/mtp/impl.cpp`).

* A datagram starts with the base header (protocol id, sender peer id, channel) of 7 bytes.
* A reliable packet has a header of 3 bytes (type, `u16` sequence number) around an inner packet.
* Sequence numbers are compared on the ring of 65536 numbers; `gap a b` is how many steps lead up
  from `a` to `b`.

Sizes stay below 4 GiB here, so the `u32` sums of header and payload sizes are plain sums.
-/

namespace AxisEngine
namespace Mtp

open Lib

/-! ## Constants -/

def baseHeaderSize : Nat := 7
def reliableHeaderSize : Nat := 3
def originalHeaderSize : Nat := 1
def seqnumInitial : Nat := 65500
def seqnumMax : Nat := 65535
def maxUdpPeers : Nat := 65535
def maxReliableWindowSize : UInt16 := 0x8000
def maxReliableWindowSizeSend : Nat := 2048
def startReliableWindowSize : Nat := 256
def minReliableWindowSize : Nat := 32

/-! ## Packet and control types -/

def packetTypeControl : UInt8 := 0
def packetTypeOriginal : UInt8 := 1
def packetTypeSplit : UInt8 := 2
def packetTypeReliable : UInt8 := 3
def packetTypeMax : UInt8 := 4

def controltypeAck : UInt8 := 0
def controltypeSetPeerId : UInt8 := 1
def controltypePing : UInt8 := 2
def controltypeDisco : UInt8 := 3

/-! ## Sequence numbers -/

/-- The steps up from `a` to `b` on the ring of sequence numbers. -/
def gap (a b : UInt16) : Nat :=
  (b.toNat + (65536 - a.toNat)) % 65536

/-- `seqnum_higher`; the differences are `int`s and not negative where they are taken. -/
def seqnumHigher (totest base : UInt16) : Bool :=
  if totest.toNat > base.toNat then
    if totest.toNat - base.toNat > seqnumMax / 2 then false else true
  else if base.toNat - totest.toNat > seqnumMax / 2 then true
  else false

def seqnumInWindow (seqnum next windowSize : UInt16) : Bool :=
  let windowStart := next.toNat
  let windowEnd := (next.toNat + windowSize.toNat) % (seqnumMax + 1)
  if windowStart < windowEnd then
    decide (seqnum.toNat ≥ windowStart) && decide (seqnum.toNat < windowEnd)
  else decide (seqnum.toNat < windowEnd) || decide (seqnum.toNat ≥ windowStart)

/-- The `i`-th sequence number of a channel, counted from the first. -/
def seqOf (i : Nat) : UInt16 :=
  UInt16.ofNat (seqnumInitial + i)

@[simp] theorem gap_self (a : UInt16) : gap a a = 0 := by
  have ha := a.toNat_lt
  simp only [gap]
  omega

theorem toNat_seqOf (i : Nat) : (seqOf i).toNat = (65500 + i) % 65536 := by
  simp [seqOf, seqnumInitial]

theorem seqOf_succ (i : Nat) : seqOf (i + 1) = seqOf i + 1 := by
  apply UInt16.toNat_inj.1
  simp only [UInt16.toNat_add, toNat_seqOf, UInt16.toNat_one]
  omega

theorem eq_of_gap_eq {a b c : UInt16} (h : gap a b = gap a c) : b = c := by
  have ha := a.toNat_lt
  have hb := b.toNat_lt
  have hc := c.toNat_lt
  apply UInt16.toNat_inj.1
  simp only [gap] at h
  omega

theorem gap_seqOf {i j : Nat} (h : i ≤ j) (h' : j < i + 65536) :
    gap (seqOf i) (seqOf j) = j - i := by
  simp only [gap, toNat_seqOf]
  omega

theorem gap_add_one {a b : UInt16} (h : b ≠ a) : gap a b = gap (a + 1) b + 1 := by
  have ha := a.toNat_lt
  have hb := b.toNat_lt
  have hne : b.toNat ≠ a.toNat := fun heq => h (UInt16.toNat_inj.1 heq)
  simp only [gap, UInt16.toNat_add, UInt16.toNat_one]
  omega

theorem seqnumInWindow_iff (seqnum next : UInt16) :
    seqnumInWindow seqnum next maxReliableWindowSize = true ↔ gap next seqnum < 32768 := by
  have hs := seqnum.toNat_lt
  have hn := next.toNat_lt
  have hw : maxReliableWindowSize.toNat = 32768 := rfl
  simp only [seqnumInWindow, gap, hw, seqnumMax]
  split <;> simp <;> omega

/-- Outside the receive window a number is either a future or an old one. -/
theorem seqnumHigher_or_of_not_inWindow {seqnum next : UInt16} (h : 32768 ≤ gap next seqnum) :
    seqnumHigher seqnum next = true ∨ seqnumHigher next seqnum = true := by
  have hs := seqnum.toNat_lt
  have hn := next.toNat_lt
  simp only [gap] at h
  simp only [seqnumHigher, seqnumMax]
  grind

/-! ## Packets -/

/-- A network address: the bytes of the IP address and the port. -/
structure Address where
  ip : Bytes
  port : UInt16
  deriving DecidableEq

/-- A datagram with the address it goes to or comes from.  The timers that decide when a stored
packet is due again (`time`, `totaltime`, `resend_count`) are not part of it. -/
structure BufferedPacket where
  address : Address
  data : Bytes
  deriving DecidableEq

namespace BufferedPacket

def size (p : BufferedPacket) : Nat :=
  p.data.length

def getSeqnum (p : BufferedPacket) : UInt16 :=
  if p.size < baseHeaderSize + 3 then 0 else readU16 p.data (baseHeaderSize + 1)

/-- What the reliable packet carries: the bytes behind both headers. -/
def payload (p : BufferedPacket) : Bytes :=
  p.data.drop (baseHeaderSize + reliableHeaderSize)

end BufferedPacket

/-- What a connection puts into the base header. -/
structure Header where
  protocolId : UInt32
  senderPeerId : UInt16
  channel : UInt8
  deriving DecidableEq

def Header.bytes (h : Header) : Bytes :=
  writeU32 h.protocolId ++ writeU16 h.senderPeerId ++ [h.channel]

@[simp] theorem Header.length_bytes (h : Header) : h.bytes.length = 7 := rfl

def makePacket (address : Address) (data : Bytes) (h : Header) : BufferedPacket :=
  { address := address, data := h.bytes ++ data }

def makeOriginalPacket (data : Bytes) : Bytes :=
  packetTypeOriginal :: data

def makeReliablePacket (data : Bytes) (seqnum : UInt16) : Bytes :=
  packetTypeReliable :: (writeU16 seqnum ++ data)

section

variable (address : Address) (h : Header) (data : Bytes) (n : UInt16)

@[simp] theorem makePacket_address : (makePacket address data h).address = address := rfl

@[simp] theorem size_makePacket : (makePacket address data h).size = data.length + 7 := by
  simp [makePacket, BufferedPacket.size, Nat.add_comm]

@[simp] theorem length_makeReliablePacket : (makeReliablePacket data n).length = data.length + 3 := by
  simp [makeReliablePacket]
  omega

theorem readU8_makePacket (i : Nat) :
    readU8 (makePacket address data h).data (7 + i) = readU8 data i := by
  have hlen : h.bytes.length = 7 := rfl
  rw [makePacket, readU8_append_right _ _ _ (by omega), hlen, Nat.add_sub_cancel_left]

theorem readU16_makePacket (i : Nat) :
    readU16 (makePacket address data h).data (7 + i) = readU16 data i := by
  have hlen : h.bytes.length = 7 := rfl
  rw [makePacket, readU16_append_right _ _ _ (by omega), hlen, Nat.add_sub_cancel_left]

/-- A buffered packet shows the sequence number of the data it was made from. -/
theorem getSeqnum_makePacket (hlen : 3 ≤ data.length) :
    (makePacket address data h).getSeqnum = readU16 data 1 := by
  have hsize : ¬ (makePacket address data h).size < baseHeaderSize + 3 := by
    simp [baseHeaderSize]
    omega
  rw [BufferedPacket.getSeqnum, if_neg hsize]
  exact readU16_makePacket address h data 1

theorem readU16_makeReliablePacket : readU16 (makeReliablePacket data n) 1 = n :=
  ofNat_bytes n

theorem getSeqnum_makeReliablePacket :
    (makePacket address (makeReliablePacket data n) h).getSeqnum = n := by
  rw [getSeqnum_makePacket _ _ _ (by simp), readU16_makeReliablePacket]

theorem payload_makeReliablePacket :
    (makePacket address (makeReliablePacket data n) h).payload = data := rfl

end

end Mtp
end AxisEngine
