import AxisEngine.Lib.SortedByKey
import AxisEngine.Mtp.Packet

/-!
# ReliableBuffer — the ordered buffer of reliable packets

`ReliablePacketBuffer` holds the packets a receiver got ahead of the expected one, or the packets a
sender has sent and not seen an ACK for.  Its list is ordered by sequence number, counted upwards
from a base that moves: the next expected number, or half a ring below the next number to assign.

* `Window base buf` — the buffer is strictly ordered from `base` and spans less than half a ring;
* `insert_cases` — what `insert` does to such a buffer;
* `Window.advance` — the base moves up when no packet stands on it.
-/

namespace AxisEngine
namespace Mtp

open Lib

/-- What `insert` throws. -/
inductive InsertError
  | incomingDataCorruption
  | sanityCheck
  deriving DecidableEq, Repr

/-- `m_list`. -/
abbrev ReliablePacketBuffer := List BufferedPacket

namespace ReliablePacketBuffer

/-! ## Operations -/

variable (buf : ReliablePacketBuffer)

def getFirstSeqnum : Option UInt16 :=
  buf.head?.map BufferedPacket.getSeqnum

/-- The buffer without its first packet with the number `seqnum`; `none` is the
`NotFoundException`. -/
def popSeqnum (seqnum : UInt16) : Option (BufferedPacket × ReliablePacketBuffer) :=
  match buf.find? fun p => p.getSeqnum = seqnum with
  | none => none
  | some p => some (p, buf.eraseP fun p => p.getSeqnum = seqnum)

/-- The "resend case" of the receiver: the first packet goes when it has the number `seqnum`. -/
def dropResent (seqnum : UInt16) : ReliablePacketBuffer :=
  if buf.getFirstSeqnum = some seqnum then buf.tail else buf

/-- The condition of the two `while` loops: the scan goes past a packet numbered `s`. -/
def scansPast (seqnum nextExpected s : UInt16) : Bool :=
  if seqnum.toNat < nextExpected.toNat then
    decide (s.toNat < seqnum.toNat) || decide (s.toNat ≥ nextExpected.toNat)
  else
    decide (s.toNat < seqnum.toNat) && decide (s.toNat ≥ nextExpected.toNat)

/-- A packet that is refused leaves the buffer as it is. -/
def insert (p : BufferedPacket) (nextExpected : UInt16) : Except InsertError ReliablePacketBuffer :=
  if p.size < baseHeaderSize + 3 then .ok buf
  else if readU8 p.data baseHeaderSize ≠ packetTypeReliable then .ok buf
  else
    let seqnum := p.getSeqnum
    if ¬ seqnumInWindow seqnum nextExpected maxReliableWindowSize then .ok buf
    else if seqnum = nextExpected then .ok buf
    else if buf.length > seqnumMax then .error .sanityCheck
    else
      let scanned := buf.takeWhile fun q => scansPast seqnum nextExpected q.getSeqnum
      match buf.dropWhile fun q => scansPast seqnum nextExpected q.getSeqnum with
      | [] => .ok (buf ++ [p])
      | q :: rest =>
        if q.getSeqnum = seqnum then
          -- a resent packet; only its size and its address are compared
          if q.size ≠ p.size ∨ q.address ≠ p.address then .error .incomingDataCorruption
          else .ok buf
        else .ok (scanned ++ p :: q :: rest)

/-! ## The order -/

/-- How far above `base` a packet is. -/
def height (base : UInt16) (p : BufferedPacket) : Nat :=
  gap base p.getSeqnum

/-- The packets are strictly ordered upwards from `base` and lie less than half a ring above it. -/
structure Window (base : UInt16) (buf : ReliablePacketBuffer) : Prop where
  sorted : StrictSorted (height base) buf
  height_lt : ∀ p ∈ buf, height base p < 32768

/-- Both `while` loops scan upwards from the base. -/
theorem scansPast_eq (seqnum next s : UInt16) :
    scansPast seqnum next s = decide (gap next s < gap next seqnum) := by
  have hseqnum := seqnum.toNat_lt
  have hnext := next.toNat_lt
  have hs := s.toNat_lt
  rw [Bool.eq_iff_iff, decide_eq_true_iff]
  simp only [scansPast, gap]
  split
  · simp only [Bool.or_eq_true, decide_eq_true_iff]
    omega
  · simp only [Bool.and_eq_true, decide_eq_true_iff]
    omega

section

variable {base next n : UInt16} {buf : ReliablePacketBuffer} {p q : BufferedPacket}

theorem height_eq_iff : height base p = height base q ↔ p.getSeqnum = q.getSeqnum := by
  constructor
  · exact eq_of_gap_eq
  · intro h
    rw [height, height, h]

theorem mem_of_popSeqnum {rest : ReliablePacketBuffer} (h : popSeqnum buf n = some (p, rest)) :
    p ∈ buf ∧ p.getSeqnum = n ∧ rest = buf.eraseP fun p => p.getSeqnum = n := by
  rw [popSeqnum] at h
  cases hfind : buf.find? fun p => p.getSeqnum = n with
  | none =>
    rw [hfind] at h
    cases h
  | some q =>
    rw [hfind] at h
    cases h
    exact ⟨List.mem_of_find?_eq_some hfind, by simpa using List.find?_some hfind, rfl⟩

namespace Window

theorem nil : Window base [] where
  sorted := strictSorted_nil
  height_lt := by
    intro p hp
    cases hp

section

variable (h : Window base buf)

include h

theorem eq_of_seqnum_eq (hp : p ∈ buf) (hq : q ∈ buf) (hseq : p.getSeqnum = q.getSeqnum) : p = q :=
  h.sorted.eq_of_key_eq hp hq (height_eq_iff.2 hseq)

theorem sublist {buf' : ReliablePacketBuffer} (hs : buf'.Sublist buf) :
    Window base buf' where
  sorted := h.sorted.sublist hs
  height_lt := fun p hp => h.height_lt p (hs.subset hp)

/-- The packet that is taken out is the only one with its number. -/
theorem perm_eraseP (hp : p ∈ buf) (hseq : p.getSeqnum = n) :
    (p :: buf.eraseP fun q => q.getSeqnum = n).Perm buf := by
  have hfound : decide (p.getSeqnum = n) = true := decide_eq_true hseq
  rcases List.exists_of_eraseP (p := fun q => decide (q.getSeqnum = n)) hp hfound with
    ⟨q, front, back, -, hq, hbuf, herase⟩
  have hmem : q ∈ buf := hbuf ▸ List.mem_append_right _ List.mem_cons_self
  have hsame : p = q :=
    h.eq_of_seqnum_eq hp hmem (hseq.trans (of_decide_eq_true hq).symm)
  rw [herase, hsame]
  exact hbuf ▸ List.perm_middle.symm

theorem length_le : buf.length ≤ 32768 :=
  h.sorted.length_le h.height_lt

/-- The base moves up by one when no packet stands on it. -/
theorem advance (hpos : ∀ p ∈ buf, p.getSeqnum ≠ base) : Window (base + 1) buf := by
  have hup : ∀ p ∈ buf, height base p = height (base + 1) p + 1 := by
    intro p hp
    exact gap_add_one fun heq => hpos p hp heq
  refine ⟨h.sorted.congr_key ?_, ?_⟩
  · intro p hp q hq hlt
    have hpup := hup p hp
    have hqup := hup q hq
    omega
  · intro p hp
    have hpup := hup p hp
    have hplt := h.height_lt p hp
    omega

/-- Behind the first packet nothing stands on the base. -/
theorem ne_of_mem_dropResent (hp : p ∈ buf.dropResent base) : p.getSeqnum ≠ base := by
  intro hseq
  have hzero : height base p = 0 := by
    rw [height, hseq, gap_self]
  cases buf with
  | nil => simp [dropResent, getFirstSeqnum] at hp
  | cons q buf =>
    have hhead : ∀ r ∈ buf, 0 < height base r := fun r hr => Nat.zero_lt_of_lt (h.sorted.head_lt hr)
    by_cases hq : q.getSeqnum = base
    · have hmem : p ∈ buf := by simpa [dropResent, getFirstSeqnum, hq] using hp
      have hpos := hhead p hmem
      omega
    · have hmem : p ∈ q :: buf := by simpa [dropResent, getFirstSeqnum, hq] using hp
      rcases List.mem_cons.1 hmem with rfl | hmem'
      · exact hq hseq
      · have hpos := hhead p hmem'
        omega

end

theorem dropResent_sublist (buf : ReliablePacketBuffer) (n : UInt16) :
    (buf.dropResent n).Sublist buf := by
  rw [dropResent]
  split
  · exact List.tail_sublist buf
  · exact List.Sublist.refl buf

/-- The expected packet was processed: the first packet goes if it has its number, and the base
moves up. -/
theorem advance_dropResent (h : Window base buf) : Window (base + 1) (buf.dropResent base) :=
  (h.sublist (dropResent_sublist buf base)).advance fun _ hp => h.ne_of_mem_dropResent hp

end Window

/-! ## Insertion -/

/-- A packet that `insert` looks at at all: it has its headers and the type of a reliable packet. -/
def IsReliable (p : BufferedPacket) : Prop :=
  baseHeaderSize + 3 ≤ p.size ∧ readU8 p.data baseHeaderSize = packetTypeReliable

instance : Decidable (IsReliable p) :=
  inferInstanceAs (Decidable (_ ∧ _))

/-- A stored packet has the number of the new one, and another size or address. -/
def Conflicts (buf : ReliablePacketBuffer) (p : BufferedPacket) : Prop :=
  ∃ q ∈ buf, q.getSeqnum = p.getSeqnum ∧ (q.size ≠ p.size ∨ q.address ≠ p.address)

instance : Decidable (Conflicts buf p) :=
  inferInstanceAs (Decidable (∃ q ∈ buf, _))

/-- Outside the window above `next`, and at `next` itself, a packet is refused. -/
theorem insert_of_refused (hp : IsReliable p)
    (h : p.getSeqnum = next ∨ 32768 ≤ gap next p.getSeqnum) : buf.insert p next = .ok buf := by
  have hsize : ¬ p.size < baseHeaderSize + 3 := not_lt.2 hp.1
  rw [insert, if_neg hsize, if_neg (not_not.2 hp.2)]
  by_cases hin : seqnumInWindow p.getSeqnum next maxReliableWindowSize
  · have hlt := (seqnumInWindow_iff _ _).1 hin
    have heq : p.getSeqnum = next := h.resolve_right (by omega)
    simp only [hin, not_true_eq_false, if_false, if_pos heq]
  · exact if_pos hin

/-- What `insert` does to an ordered buffer with a packet it does not refuse: a new number is put
in its place, a resent packet is dropped, a conflicting one is an error. -/
theorem Window.insert_eq (h : Window next buf) (hp : IsReliable p) (hne : p.getSeqnum ≠ next)
    (hlt : gap next p.getSeqnum < 32768) :
    ((∀ q ∈ buf, q.getSeqnum ≠ p.getSeqnum) ∧
        buf.insert p next = .ok (insertAt (height next) p buf)) ∨
      (∃ q ∈ buf, q.getSeqnum = p.getSeqnum ∧ q.size = p.size ∧ q.address = p.address ∧
        buf.insert p next = .ok buf) ∨
      (Conflicts buf p ∧ buf.insert p next = .error .incomingDataCorruption) := by
  have hsize : ¬ p.size < baseHeaderSize + 3 := not_lt.2 hp.1
  have hin : seqnumInWindow p.getSeqnum next maxReliableWindowSize = true :=
    (seqnumInWindow_iff _ _).2 hlt
  have hroom : ¬ buf.length > seqnumMax := by
    have hlen := h.length_le
    simp only [seqnumMax]
    omega
  have hscan : (fun q : BufferedPacket => scansPast p.getSeqnum next q.getSeqnum) =
      fun q => decide (height next q < height next p) := by
    funext q
    exact scansPast_eq _ _ _
  have hinsert : buf.insert p next =
      match buf.dropWhile fun q => decide (height next q < height next p) with
      | [] => .ok (buf ++ [p])
      | q :: rest =>
        if q.getSeqnum = p.getSeqnum then
          if q.size ≠ p.size ∨ q.address ≠ p.address then .error .incomingDataCorruption
          else .ok buf
        else
          .ok ((buf.takeWhile fun q => decide (height next q < height next p)) ++
            p :: q :: rest) := by
    rw [insert, if_neg hsize, if_neg (not_not.2 hp.2)]
    simp only [hin, not_true_eq_false, if_false, if_neg hne, if_neg hroom, hscan]
  by_cases hmem : ∃ q ∈ buf, q.getSeqnum = p.getSeqnum
  · -- the scan ends at the stored packet with this number
    rcases hmem with ⟨q, hq, hseq⟩
    rcases h.sorted.dropWhile_eq_cons hq (height_eq_iff.2 hseq) with ⟨rest, hdrop⟩
    rw [hdrop] at hinsert
    simp only [hseq, if_true] at hinsert
    by_cases hdiff : q.size ≠ p.size ∨ q.address ≠ p.address
    · rw [if_pos hdiff] at hinsert
      exact .inr (.inr ⟨⟨q, hq, hseq, hdiff⟩, hinsert⟩)
    · rw [if_neg hdiff] at hinsert
      rcases not_or.1 hdiff with ⟨hs, ha⟩
      exact .inr (.inl ⟨q, hq, hseq, not_not.1 hs, not_not.1 ha, hinsert⟩)
  · -- no packet with this number: it goes where the scan ends
    have hnew : ∀ q ∈ buf, q.getSeqnum ≠ p.getSeqnum := fun q hq heq => hmem ⟨q, hq, heq⟩
    refine .inl ⟨hnew, ?_⟩
    cases hdrop : buf.dropWhile fun q => decide (height next q < height next p) with
    | nil =>
      have htake := List.takeWhile_append_dropWhile
        (p := fun q => decide (height next q < height next p)) (l := buf)
      rw [hdrop, List.append_nil] at htake
      rw [hinsert, hdrop, insertAt, hdrop, htake]
    | cons q rest =>
      have hq : q ∈ buf := (List.dropWhile_sublist _).subset (hdrop ▸ List.mem_cons_self ..)
      rw [hinsert, hdrop, insertAt, hdrop]
      simp only [hnew q hq, if_false]

theorem Window.insertAt (h : Window next buf) (hnew : ∀ q ∈ buf, q.getSeqnum ≠ p.getSeqnum)
    (hlt : gap next p.getSeqnum < 32768) : Window next (insertAt (height next) p buf) where
  sorted := h.sorted.insertAt fun q hq heq => hnew q hq (height_eq_iff.1 heq)
  height_lt := by
    intro q hq
    rcases mem_insertAt.1 hq with rfl | hq'
    · exact hlt
    · exact h.height_lt q hq'

end

end ReliablePacketBuffer

end Mtp
end AxisEngine
