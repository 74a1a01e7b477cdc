import AxisEngine.Lib.Transition
import AxisEngine.Mtp.ReliableBuffer
import Mathlib.Data.List.Nodup

/-!
# BufferRuns — the buffer of reliable packets over whole runs

Beside its list the buffer keeps the number of the first packet.  Packets come in any order, and
the expected number goes up when no packet that is stored stands on it.

* `CachedBuffer` — the list with the number, and the operations on both;
* `BufferRun`, `BufferAct`, `BufferRun.step` — what is done to it, and what has been put in and
  taken out;
* `Represents`, `run_represents` — the list is in order and holds what was put in and not taken out.
-/

namespace AxisEngine
namespace Mtp

open Lib

/-- `oldestNonAnsweredAck` is not set before the first packet comes. -/
structure CachedBuffer where
  list : ReliablePacketBuffer
  oldestNonAnsweredAck : UInt16

namespace CachedBuffer

/-- What a pop leaves. -/
def afterPop (rest : ReliablePacketBuffer) : CachedBuffer :=
  { list := rest
    oldestNonAnsweredAck := rest.getFirstSeqnum.getD 0 }

/-- `none` is the `NotFoundException`. -/
def popFirst (b : CachedBuffer) : Option (BufferedPacket × CachedBuffer) :=
  match b.list with
  | [] => none
  | p :: rest => some (p, afterPop rest)

def popSeqnum (b : CachedBuffer) (seqnum : UInt16) : Option (BufferedPacket × CachedBuffer) :=
  (b.list.popSeqnum seqnum).map fun r => (r.1, afterPop r.2)

/-- The packets that `insert` returns for before it looks at the list. -/
def refuses (p : BufferedPacket) (nextExpected : UInt16) : Bool :=
  p.size < baseHeaderSize + 3 || readU8 p.data baseHeaderSize ≠ packetTypeReliable ||
    !seqnumInWindow p.getSeqnum nextExpected maxReliableWindowSize || p.getSeqnum = nextExpected

def insert (b : CachedBuffer) (p : BufferedPacket) (nextExpected : UInt16) :
    Except InsertError CachedBuffer :=
  if refuses p nextExpected then .ok b
  else (b.list.insert p nextExpected).map fun list =>
    { list := list
      oldestNonAnsweredAck := list.getFirstSeqnum.getD b.oldestNonAnsweredAck }

end CachedBuffer

/-- `inserted` and `popped` are what has happened so far. -/
structure BufferRun where
  buffer : CachedBuffer
  expected : UInt16
  inserted : List BufferedPacket := []
  popped : List BufferedPacket := []

/-- `advance`: the expected number goes up by one. -/
inductive BufferAct
  | insert (p : BufferedPacket)
  | popFirst
  | popSeqnum (seqnum : UInt16)
  | advance

namespace BufferRun

/-- A reliable packet of the window that is ahead of the expected number, and no resent one. -/
def Takes (s : BufferRun) (p : BufferedPacket) : Prop :=
  CachedBuffer.refuses p s.expected = false ∧ ∀ q ∈ s.buffer.list, q.getSeqnum ≠ p.getSeqnum

instance (s : BufferRun) (p : BufferedPacket) : Decidable (s.Takes p) :=
  inferInstanceAs (Decidable (_ ∧ ∀ q ∈ s.buffer.list, _))

/-- What is thrown leaves all as it was.  The expected number does not go past a stored packet. -/
def step (s : BufferRun) : BufferAct → Option BufferRun
  | .insert p =>
    match s.buffer.insert p s.expected with
    | .error _ => some s
    | .ok buffer => some
        { s with
          buffer := buffer
          inserted := if s.Takes p then s.inserted ++ [p] else s.inserted }
  | .popFirst =>
    match s.buffer.popFirst with
    | none => some s
    | some (p, buffer) => some { s with buffer := buffer, popped := s.popped ++ [p] }
  | .popSeqnum seqnum =>
    match s.buffer.popSeqnum seqnum with
    | none => some s
    | some (p, buffer) => some { s with buffer := buffer, popped := s.popped ++ [p] }
  | .advance =>
    if ∀ p ∈ s.buffer.list, p.getSeqnum ≠ s.expected then
      some { s with expected := s.expected + 1 }
    else none

def Steps (s : BufferRun) (act : BufferAct) (t : BufferRun) : Prop :=
  s.step act = some t

/-! ## What should hold -/

structure Represents (s : BufferRun) : Prop where
  sorted : StrictSorted (fun p => gap s.expected p.getSeqnum) s.buffer.list
  distinct : (s.buffer.list.map BufferedPacket.getSeqnum).Nodup
  contents : (s.popped ++ s.buffer.list).Perm s.inserted
  first : ∀ p ∈ s.buffer.list.head?, s.buffer.oldestNonAnsweredAck = p.getSeqnum

/-- The window is what the steps keep. -/
structure Kept (s : BufferRun) : Prop where
  window : ReliablePacketBuffer.Window s.expected s.buffer.list
  contents : (s.popped ++ s.buffer.list).Perm s.inserted
  first : ∀ p ∈ s.buffer.list.head?, s.buffer.oldestNonAnsweredAck = p.getSeqnum

variable {s t : BufferRun} {act : BufferAct} {acts : List BufferAct} {p : BufferedPacket}
  {rest : ReliablePacketBuffer}

theorem Kept.represents (h : Kept s) : Represents s where
  sorted := h.window.sorted
  distinct := by
    refine h.window.sorted.nodup.map_on fun p hp q hq hseq => ?_
    exact h.window.eq_of_seqnum_eq hp hq hseq
  contents := h.contents
  first := h.first

theorem first_afterPop (rest : ReliablePacketBuffer) :
    ∀ p ∈ rest.head?, (CachedBuffer.afterPop rest).oldestNonAnsweredAck = p.getSeqnum := by
  intro p hp
  rw [Option.mem_def] at hp
  rw [CachedBuffer.afterPop, ReliablePacketBuffer.getFirstSeqnum, hp]
  rfl

theorem Kept.pop (h : Kept s) (hsub : rest.Sublist s.buffer.list)
    (hperm : (p :: rest).Perm s.buffer.list) :
    Kept { s with buffer := CachedBuffer.afterPop rest, popped := s.popped ++ [p] } where
  window := h.window.sublist hsub
  contents := by
    have hall := (hperm.append_left s.popped).trans h.contents
    rw [← List.singleton_append, ← List.append_assoc] at hall
    exact hall
  first := first_afterPop rest

theorem refuses_iff {next : UInt16} : CachedBuffer.refuses p next = false ↔
    ReliablePacketBuffer.IsReliable p ∧ gap next p.getSeqnum < 32768 ∧ p.getSeqnum ≠ next := by
  rw [CachedBuffer.refuses, ReliablePacketBuffer.IsReliable, ← seqnumInWindow_iff]
  simp only [Bool.or_eq_false_iff, decide_eq_false_iff_not, not_lt, ne_eq, not_not,
    Bool.not_eq_false', and_assoc]

/-- The number that is kept when a packet is there. -/
theorem getFirstSeqnum_getD {list : ReliablePacketBuffer} (n : UInt16) :
    ∀ p ∈ list.head?, list.getFirstSeqnum.getD n = p.getSeqnum := by
  intro p hp
  rw [Option.mem_def] at hp
  rw [ReliablePacketBuffer.getFirstSeqnum, hp]
  rfl

theorem Kept.insert (h : Kept s) {buffer : CachedBuffer}
    (hinsert : s.buffer.insert p s.expected = .ok buffer) :
    Kept { s with
      buffer := buffer
      inserted := if s.Takes p then s.inserted ++ [p] else s.inserted } := by
  rw [CachedBuffer.insert] at hinsert
  cases hrefuses : CachedBuffer.refuses p s.expected with
  | true =>
    have htakes : ¬ s.Takes p := fun htakes => by
      rw [htakes.1] at hrefuses
      cases hrefuses
    rw [if_pos hrefuses] at hinsert
    rw [if_neg htakes, ← Except.ok.inj hinsert]
    exact h
  | false =>
    rcases refuses_iff.1 hrefuses with ⟨hp, hlt, hne⟩
    rw [if_neg (Bool.eq_false_iff.1 hrefuses)] at hinsert
    rcases h.window.insert_eq hp hne hlt with
      ⟨hnew, heq⟩ | ⟨q, hq, hseq, -, -, heq⟩ | ⟨-, heq⟩
    · -- a new number
      rw [heq] at hinsert
      rw [if_pos ⟨hrefuses, hnew⟩, ← Except.ok.inj hinsert]
      refine ⟨h.window.insertAt hnew hlt, ?_, getFirstSeqnum_getD _⟩
      have hplace := (perm_insertAt (ReliablePacketBuffer.height s.expected) p
        s.buffer.list).append_left s.popped
      refine hplace.trans (List.perm_middle.trans ?_)
      exact (h.contents.cons p).trans (List.perm_append_singleton p s.inserted).symm
    · -- a resent packet
      have htakes : ¬ s.Takes p := fun htakes => htakes.2 q hq hseq
      rw [heq] at hinsert
      rw [if_neg htakes, ← Except.ok.inj hinsert]
      exact ⟨h.window, h.contents, getFirstSeqnum_getD _⟩
    · rw [heq] at hinsert
      cases hinsert

theorem Kept.step (h : Kept s) (hstep : Steps s act t) : Kept t := by
  rw [Steps] at hstep
  cases act with
  | insert p =>
    rw [BufferRun.step] at hstep
    split at hstep
    next => exact Option.some.inj hstep ▸ h
    next buffer hinsert => exact Option.some.inj hstep ▸ h.insert hinsert
  | popFirst =>
    rw [BufferRun.step, CachedBuffer.popFirst] at hstep
    cases hlist : s.buffer.list with
    | nil =>
      rw [hlist] at hstep
      exact Option.some.inj hstep ▸ h
    | cons p rest =>
      rw [hlist] at hstep
      refine Option.some.inj hstep ▸ h.pop ?_ ?_
      · rw [hlist]
        exact List.sublist_cons_self p rest
      · rw [hlist]
  | popSeqnum seqnum =>
    rw [BufferRun.step, CachedBuffer.popSeqnum] at hstep
    cases hpop : s.buffer.list.popSeqnum seqnum with
    | none =>
      rw [hpop] at hstep
      exact Option.some.inj hstep ▸ h
    | some r =>
      rcases ReliablePacketBuffer.mem_of_popSeqnum hpop with ⟨hmem, hseq, hrest⟩
      rw [hpop] at hstep
      refine Option.some.inj hstep ▸ h.pop ?_ ?_
      · rw [hrest]
        exact List.eraseP_sublist
      · rw [hrest]
        exact h.window.perm_eraseP hmem hseq
  | advance =>
    rw [BufferRun.step] at hstep
    split at hstep
    next hnone =>
      rw [← Option.some.inj hstep]
      exact ⟨h.window.advance hnone, h.contents, h.first⟩
    next => cases hstep

/-- From an empty buffer on, with any expected number to begin with. -/
theorem run_represents (oldest expected : UInt16) (acts : List BufferAct) (s : BufferRun)
    (hrun : Run Steps { buffer := ⟨[], oldest⟩, expected := expected } acts s) :
    Represents s := by
  have hstart : Kept { buffer := ⟨[], oldest⟩, expected := expected } :=
    ⟨.nil, .refl _, fun p hp => by cases hp⟩
  exact (hrun.invariant (P := Kept) (fun _ _ _ h hstep => h.step hstep) hstart).represents

/-- A reliable packet with a number and one byte. -/
def numbered (n : UInt16) (b : UInt8) : BufferedPacket :=
  makePacket ⟨[], 0⟩ (makeReliablePacket [b] n) ⟨0, 0, 0⟩

/-- Two packets across the wrap, the later one first; the earlier one is popped. -/
theorem run_represents_wrap :
    Run Steps { buffer := ⟨[], 7⟩, expected := 65534 }
      [.insert (numbered 1 0), .insert (numbered 65535 0), .advance, .popFirst, .advance]
      { buffer := ⟨[numbered 1 0], 1⟩
        expected := 0
        inserted := [numbered 1 0, numbered 65535 0]
        popped := [numbered 65535 0] } ∧
    Represents
      { buffer := ⟨[numbered 1 0], 1⟩
        expected := 0
        inserted := [numbered 1 0, numbered 65535 0]
        popped := [numbered 65535 0] } := by
  have hrun : Run Steps { buffer := ⟨[], 7⟩, expected := 65534 }
      [.insert (numbered 1 0), .insert (numbered 65535 0), .advance, .popFirst, .advance]
      { buffer := ⟨[numbered 1 0], 1⟩
        expected := 0
        inserted := [numbered 1 0, numbered 65535 0]
        popped := [numbered 65535 0] } :=
    .cons rfl (.cons rfl (.cons rfl (.cons rfl (.cons rfl (.nil _)))))
  exact ⟨hrun, run_represents _ _ _ _ hrun⟩

/-- A packet of the window that has the expected number is not put in, and of two with one number
only the first is. -/
theorem insert_not_stored :
    (∃ (p : BufferedPacket) (expected : UInt16) (s : BufferRun), ReliablePacketBuffer.IsReliable p ∧
      seqnumInWindow p.getSeqnum expected maxReliableWindowSize = true ∧
      Run Steps { buffer := ⟨[], 0⟩, expected := expected } [.insert p] s ∧
      s.buffer.list = []) ∧
    ∃ (p q : BufferedPacket) (expected : UInt16) (s : BufferRun),
      ReliablePacketBuffer.IsReliable p ∧ ReliablePacketBuffer.IsReliable q ∧
      seqnumInWindow p.getSeqnum expected maxReliableWindowSize = true ∧
      seqnumInWindow q.getSeqnum expected maxReliableWindowSize = true ∧
      Run Steps { buffer := ⟨[], 0⟩, expected := expected } [.insert p, .insert q] s ∧
      q ∉ s.buffer.list := by
  refine ⟨⟨numbered 5 0, 5, { buffer := ⟨[], 0⟩, expected := 5 }, by decide, by decide,
    .single rfl, rfl⟩, numbered 6 0, numbered 6 1, 5,
    { buffer := ⟨[numbered 6 0], 6⟩, expected := 5, inserted := [numbered 6 0] },
    by decide, by decide, by decide, by decide, .cons rfl (.single rfl), by decide⟩

end BufferRun

end Mtp
end AxisEngine
