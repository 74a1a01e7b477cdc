import Mathlib.Data.List.AList
import Mathlib.Data.Finset.Card
import Mathlib.Algebra.BigOperators.Group.List.Basic
import Mathlib.Algebra.GroupWithZero.Nat
import AxisEngine.Lib.Collect
import AxisEngine.Lib.Returns
import AxisEngine.Mtp.Packet

/-!
# Split — cutting messages into chunks and putting them together

`makeSplitPacket` cuts a message into chunks with a header of 7 bytes each; an
`IncomingSplitBuffer` gathers the chunks of several messages and gives a message out when its last
chunk has arrived.

All sizes are `u32` as in the code.  A read or a write outside of a buffer is the fault `memory`, a
failed `sanity_check` the fault `sanityCheck`.

* `makeSplitPacket_eq` — the chunks of a message are its consecutive pieces;
* `IncomingSplitBuffer.insert_represents` — one delivery does to the buffer what `collect` does to
  the sets of chunk numbers held.
-/

namespace AxisEngine
namespace Mtp

open Lib

/-- What ends the program in the middle of a function. -/
inductive Fault
  | sanityCheck
  | memory
  | fatalError
  | uncaughtException
  deriving DecidableEq, Repr

def u32 (n : Nat) : Nat := n % 2 ^ 32
def sizeT (n : Nat) : Nat := n % 2 ^ 64

theorem u32_of_lt {n : Nat} (h : n < 2 ^ 32) : u32 n = n :=
  Nat.mod_eq_of_lt h

/-! ## Cutting -/

def chunkHeaderSize : Nat := 7

/-- One chunk; the chunk count in its header is not known yet. -/
def makeChunk (seqnum : UInt16) (chunkNum : Nat) (payload : Bytes) : Bytes :=
  packetTypeSplit :: (writeU16 seqnum ++ [0, 0] ++ writeU16 (UInt16.ofNat chunkNum) ++ payload)

/-- The index of the last byte of the message, a `size_t`. -/
def lastIndex (data : Bytes) : Nat :=
  sizeT (data.length + (2 ^ 64 - 1))

/-- `end`: the index of the last byte of the chunk that begins at `start`. -/
def chunkEnd (data : Bytes) (maximumDataSize start : Nat) : Nat :=
  let chunkEnd := u32 (start + maximumDataSize + (2 ^ 32 - 1))
  if chunkEnd > lastIndex data then u32 (lastIndex data) else chunkEnd

/-- The `do`-loop of `makeSplitPacket`.  `left` counts the rounds until `chunk_num` is `0xFFFF`,
where the `sanity_check` ends the loop. -/
def splitLoop (data : Bytes) (maximumDataSize : Nat) (seqnum : UInt16) :
    Nat → Nat → Nat → Except Fault (List Bytes)
  | left, start, chunkNum =>
    let chunkEnd := chunkEnd data maximumDataSize start
    let payloadSize := u32 (chunkEnd + (2 ^ 32 - start) + 1)
    let packetSize := u32 (chunkHeaderSize + payloadSize)
    -- the `memcpy` of the payload leaves the message or the chunk
    if data.length < start + payloadSize ∨ packetSize < chunkHeaderSize + payloadSize then
      .error .memory
    else
      let chunk := makeChunk seqnum chunkNum ((data.drop start).take payloadSize)
      match left with
      | 0 => .error .sanityCheck
      | left + 1 =>
        if chunkEnd = lastIndex data then .ok [chunk]
        else do
          let chunks ←
            splitLoop data maximumDataSize seqnum left (u32 (chunkEnd + 1)) (chunkNum + 1)
          return chunk :: chunks

/-- `maximum_data_size`: what a chunk holds behind its header. -/
def maximumDataSize (chunksizeMax : UInt32) : Nat :=
  u32 (chunksizeMax.toNat + (2 ^ 32 - chunkHeaderSize))

def makeSplitPacket (data : Bytes) (chunksizeMax : UInt32) (seqnum : UInt16) :
    Except Fault (List Bytes) := do
  let chunks ← splitLoop data (maximumDataSize chunksizeMax) seqnum 0xFFFF 0 0
  return chunks.map fun chunk => putU16 chunk 3 (UInt16.ofNat chunks.length)

/-- The `k`-th piece of a message. -/
def piece (data : Bytes) (m k : Nat) : Bytes :=
  (data.drop (m * k)).take m

/-- How many pieces a message has. -/
def pieceCount (data : Bytes) (m : Nat) : Nat :=
  (data.length + (m - 1)) / m

/-- The pieces of a message, one behind the other, are the message. -/
theorem flatten_pieces (data : Bytes) (m c : Nat) :
    ((List.range c).map (piece data m)).flatten = data.take (m * c) := by
  induction c with
  | zero => simp
  | succ c ih =>
    rw [List.range_succ, List.map_append, List.flatten_append, ih, Nat.mul_succ, List.take_add]
    simp [piece]

theorem lt_pieceCount_iff (data : Bytes) {m : Nat} (hm : 0 < m) (k : Nat) :
    k < pieceCount data m ↔ m * k < data.length := by
  rw [pieceCount, Nat.lt_div_iff_mul_lt hm, Nat.mul_comm k m]
  omega

section

variable {data : Bytes} {m : Nat} {seqnum : UInt16}

theorem lastIndex_eq (hpos : 0 < data.length) (hlt : data.length < 2 ^ 32) :
    lastIndex data = data.length - 1 := by
  simp only [lastIndex, sizeT]
  omega

/-- Where no sum leaves the `u32` range, a chunk ends with its piece or with the message. -/
theorem chunkEnd_eq {start : Nat} (hlt : data.length < 2 ^ 32) (hm : 0 < m)
    (hstart : start < data.length) (hfit : start + m ≤ 2 ^ 32) :
    chunkEnd data m start = min (start + m) data.length - 1 := by
  simp only [chunkEnd, lastIndex_eq (by omega : 0 < data.length) hlt, u32]
  split <;> omega

theorem splitLoop_eq (hlt : data.length < 2 ^ 32) (hm : 0 < m) (hhead : chunkHeaderSize + m < 2 ^ 32)
    (hfit : m * pieceCount data m ≤ 2 ^ 32) {left k : Nat} (hk : k < pieceCount data m)
    (hleft : pieceCount data m ≤ left + k) :
    splitLoop data m seqnum left (m * k) k =
      .ok ((List.range' k (pieceCount data m - k)).map fun j =>
        makeChunk seqnum j (piece data m j)) := by
  induction left generalizing k with
  | zero => omega
  | succ left ih =>
    have hstart : m * k < data.length := (lt_pieceCount_iff data hm k).1 hk
    have hround : m * k + m ≤ 2 ^ 32 := by
      calc m * k + m = m * (k + 1) := (Nat.mul_succ m k).symm
        _ ≤ m * pieceCount data m := Nat.mul_le_mul_left m hk
        _ ≤ 2 ^ 32 := hfit
    have hend := chunkEnd_eq hlt hm hstart hround
    have hnext := lt_pieceCount_iff data hm (k + 1)
    rw [Nat.mul_succ] at hnext
    have hpayload : u32 (chunkEnd data m (m * k) + (2 ^ 32 - m * k) + 1) =
        min m (data.length - m * k) := by
      simp only [hend, u32]
      omega
    have hpiece : (data.drop (m * k)).take (min m (data.length - m * k)) = piece data m k := by
      rw [← List.length_drop, ← List.take_eq_take_min]
      rfl
    have hroom : ¬ (data.length < m * k + min m (data.length - m * k) ∨
        u32 (chunkHeaderSize + min m (data.length - m * k)) <
          chunkHeaderSize + min m (data.length - m * k)) := by
      rw [u32_of_lt (by omega)]
      omega
    rw [splitLoop]
    simp only [hpayload, hpiece, if_neg hroom]
    rw [hend, lastIndex_eq (by omega) hlt]
    by_cases hlast : k + 1 < pieceCount data m
    · -- a full chunk with more of the message behind it
      have hmore := hnext.1 hlast
      have hne : ¬ min (m * k + m) data.length - 1 = data.length - 1 := by omega
      have hstart' : u32 (min (m * k + m) data.length - 1 + 1) = m * (k + 1) := by
        rw [Nat.mul_succ, u32_of_lt (by omega)]
        omega
      have hsucc : pieceCount data m - k = (pieceCount data m - (k + 1)) + 1 := by omega
      rw [if_neg hne, hstart', ih hlast (by omega), hsucc, List.range'_succ]
      rfl
    · -- the last chunk ends with the message
      have hfinal : min (m * k + m) data.length - 1 = data.length - 1 := by
        have := mt hnext.2 hlast
        omega
      have hone : pieceCount data m - k = 1 := by omega
      rw [if_pos hfinal, hone]
      rfl

end

/-- A chunk with its whole header. -/
def splitChunk (seqnum : UInt16) (chunkCount chunkNum : Nat) (payload : Bytes) : Bytes :=
  packetTypeSplit :: (writeU16 seqnum ++ writeU16 (UInt16.ofNat chunkCount) ++
    writeU16 (UInt16.ofNat chunkNum) ++ payload)

/-- A message to be split. -/
structure SplitMessage where
  data : Bytes
  chunksizeMax : UInt32
  seqnum : UInt16
  deriving DecidableEq

namespace SplitMessage

variable (msg : SplitMessage)

def chunkCount : Nat :=
  pieceCount msg.data (maximumDataSize msg.chunksizeMax)

def piece (k : Nat) : Bytes :=
  Mtp.piece msg.data (maximumDataSize msg.chunksizeMax) k

def split : Except Fault (List Bytes) :=
  makeSplitPacket msg.data msg.chunksizeMax msg.seqnum

/-- What a message must satisfy to be split: room behind the chunk header, a message that does not
fit into one chunk, and chunk numbers that fit into 16 bits. -/
structure Splittable : Prop where
  header_lt : chunkHeaderSize < msg.chunksizeMax.toNat
  long : msg.chunksizeMax.toNat ≤ msg.data.length
  chunkCount_le : msg.chunkCount ≤ 65535

/-- No `u32` of the splitting and of the reassembly wraps. -/
structure Fits : Prop where
  length_lt : msg.data.length < 2 ^ 32
  chunks_le : maximumDataSize msg.chunksizeMax * msg.chunkCount ≤ 2 ^ 32

variable {msg}

section

variable (h : msg.Splittable)

include h

theorem Splittable.maximumDataSize_eq :
    maximumDataSize msg.chunksizeMax = msg.chunksizeMax.toNat - chunkHeaderSize := by
  have hlt := msg.chunksizeMax.toNat_lt
  have hheader := h.header_lt
  simp only [maximumDataSize, u32, chunkHeaderSize] at hheader ⊢
  omega

theorem Splittable.maximumDataSize_pos : 0 < maximumDataSize msg.chunksizeMax := by
  rw [h.maximumDataSize_eq]
  exact Nat.sub_pos_of_lt h.header_lt

theorem Splittable.chunkCount_pos : 0 < msg.chunkCount := by
  have hheader := h.header_lt
  have hlong := h.long
  exact (lt_pieceCount_iff _ h.maximumDataSize_pos 0).2 (by omega)

/-- `makeSplitPacket` gives the consecutive pieces of the message. -/
theorem split_eq (hfits : msg.Fits) :
    msg.split = .ok ((List.range msg.chunkCount).map fun k =>
      splitChunk msg.seqnum msg.chunkCount k (msg.piece k)) := by
  have hhead : chunkHeaderSize + maximumDataSize msg.chunksizeMax < 2 ^ 32 := by
    have hlt := msg.chunksizeMax.toNat_lt
    have hheader := h.header_lt
    rw [h.maximumDataSize_eq]
    omega
  have hloop : splitLoop msg.data (maximumDataSize msg.chunksizeMax) msg.seqnum 0xFFFF 0 0 =
      .ok ((List.range msg.chunkCount).map fun k => makeChunk msg.seqnum k (msg.piece k)) := by
    have hall := @splitLoop_eq msg.data _ msg.seqnum hfits.length_lt h.maximumDataSize_pos hhead
      hfits.chunks_le 0xFFFF 0 h.chunkCount_pos (Nat.le_add_right_of_le h.chunkCount_le)
    rw [Nat.mul_zero] at hall
    rw [hall, List.range_eq_range']
    rfl
  rw [split, makeSplitPacket, hloop]
  have hcount : ((List.range msg.chunkCount).map fun k =>
      makeChunk msg.seqnum k (msg.piece k)).length = msg.chunkCount := by simp
  simp only [pure, Except.pure, bind, Except.bind, hcount, List.map_map]
  rfl

theorem Splittable.flatten_pieces :
    ((List.range msg.chunkCount).map msg.piece).flatten = msg.data := by
  have hend : msg.data.length ≤ maximumDataSize msg.chunksizeMax * msg.chunkCount := by
    by_contra hlt
    have := (lt_pieceCount_iff msg.data h.maximumDataSize_pos msg.chunkCount).2 (not_le.1 hlt)
    exact lt_irrefl _ this
  calc ((List.range msg.chunkCount).map msg.piece).flatten
      = msg.data.take (maximumDataSize msg.chunksizeMax * msg.chunkCount) :=
        Mtp.flatten_pieces _ _ _
    _ = msg.data := List.take_of_length_le hend

end

end SplitMessage

/-! ## Gathering -/

/-- The chunks of one message that have arrived. -/
structure IncomingSplitPacket where
  chunkCount : Nat
  reliable : Bool
  /-- Key is chunk number, value is data without headers. -/
  chunks : AList fun _ : Nat => Bytes := ∅

namespace IncomingSplitPacket

variable (sp : IncomingSplitPacket)

def allReceived : Bool :=
  decide (sp.chunks.entries.length = sp.chunkCount)

/-- The new state and whether the chunk was new. -/
def insert (chunkNum : Nat) (chunkdata : Bytes) : Except Fault (IncomingSplitPacket × Bool) :=
  if chunkNum < sp.chunkCount then
    if chunkNum ∈ sp.chunks then .ok (sp, false)
    else .ok ({ sp with chunks := sp.chunks.insert chunkNum chunkdata }, true)
  else .error .sanityCheck

/-- Copy one chunk behind those already copied. -/
def copyChunk (totalsize : Nat) (full : Bytes) (chunkNum : Nat) : Except Fault Bytes :=
  let buf := (sp.chunks.lookup chunkNum).getD []
  if totalsize < full.length + buf.length then .error .memory else .ok (full ++ buf)

def reassemble : Except Fault Bytes :=
  if sp.allReceived then do
    let totalsize := u32 (sp.chunks.entries.map fun chunk => chunk.2.length).sum
    let full ← (List.range sp.chunkCount).foldlM (sp.copyChunk totalsize) []
    return full ++ List.replicate (totalsize - full.length) 0
  else .error .sanityCheck

end IncomingSplitPacket

abbrev IncomingSplitBuffer := AList fun _ : UInt16 => IncomingSplitPacket

namespace IncomingSplitBuffer

/-- The second half of `insert`: the chunk goes to the entry of its message. -/
def store (b : IncomingSplitBuffer) (seqnum : UInt16) (chunkCount chunkNum : Nat)
    (chunkdata : Bytes) (reliable : Bool) : Except Fault (Bytes × IncomingSplitBuffer) :=
  -- a differing `reliable` flag is only logged; the flag of the first chunk stays
  let sp := (b.lookup seqnum).getD { chunkCount := chunkCount, reliable := reliable }
  let b := AList.insert seqnum sp b
  if chunkCount ≠ sp.chunkCount then .ok ([], b)
  else do
    let (sp, isNew) ← sp.insert chunkNum chunkdata
    let b := AList.insert seqnum sp b
    if isNew ∧ sp.allReceived then
      let fulldata ← sp.reassemble
      return (fulldata, AList.erase seqnum b)
    else return ([], b)

/-- What is returned and the new buffer; a packet that is refused leaves the buffer as it is. -/
def insert (b : IncomingSplitBuffer) (p : BufferedPacket) (reliable : Bool) :
    Except Fault (Bytes × IncomingSplitBuffer) :=
  let headersize := baseHeaderSize + 7
  if p.size < headersize then .ok ([], b)
  else
    let type := readU8 p.data baseHeaderSize
    let seqnum := readU16 p.data (baseHeaderSize + 1)
    let chunkCount := (readU16 p.data (baseHeaderSize + 3)).toNat
    let chunkNum := (readU16 p.data (baseHeaderSize + 5)).toNat
    if type ≠ packetTypeSplit then .ok ([], b)
    else if chunkNum ≥ chunkCount then .ok ([], b)
    else
      let chunkdata := (p.data.drop headersize).take (u32 (p.size - headersize))
      b.store seqnum chunkCount chunkNum chunkdata reliable

end IncomingSplitBuffer

/-! ### One entry -/

namespace IncomingSplitPacket

variable {sp : IncomingSplitPacket} {msg : SplitMessage} {held : Finset Nat}

/-- `sp` holds the chunks `held` of `msg`. -/
structure Represents (msg : SplitMessage) (held : Finset Nat) (sp : IncomingSplitPacket) : Prop where
  chunkCount_eq : sp.chunkCount = msg.chunkCount
  lookup_eq : ∀ k, sp.chunks.lookup k = if k ∈ held then some (msg.piece k) else none

namespace Represents

theorem empty (msg : SplitMessage) (reliable : Bool) :
    Represents msg ∅ { chunkCount := msg.chunkCount, reliable := reliable } where
  chunkCount_eq := rfl
  lookup_eq k := by simp

section

variable (h : Represents msg held sp)

include h

theorem mem_chunks (k : Nat) : k ∈ sp.chunks ↔ k ∈ held := by
  rw [← AList.lookup_isSome, h.lookup_eq]
  split <;> simp_all

theorem toFinset_keys : sp.chunks.keys.toFinset = held := by
  ext k
  rw [List.mem_toFinset, ← AList.mem_keys, h.mem_chunks]

theorem insert_of_mem {k : Nat} (hk : k < msg.chunkCount) (hmem : k ∈ held) (d : Bytes) :
    sp.insert k d = .ok (sp, false) := by
  rw [IncomingSplitPacket.insert, if_pos (h.chunkCount_eq ▸ hk), if_pos ((h.mem_chunks k).2 hmem)]

theorem insert_of_notMem {k : Nat} (hk : k < msg.chunkCount) (hmem : k ∉ held) :
    ∃ sp', sp.insert k (msg.piece k) = .ok (sp', true) ∧
      Represents msg (Insert.insert k held) sp' := by
  refine ⟨{ sp with chunks := sp.chunks.insert k (msg.piece k) }, ?_, h.chunkCount_eq, ?_⟩
  · rw [IncomingSplitPacket.insert, if_pos (h.chunkCount_eq ▸ hk),
      if_neg (mt (h.mem_chunks k).1 hmem)]
  · intro j
    by_cases hj : j = k
    · subst hj
      simp
    · rw [AList.lookup_insert_ne hj, h.lookup_eq]
      simp [hj]

theorem allReceived_iff (hsub : held ⊆ Finset.range msg.chunkCount) :
    sp.allReceived = true ↔ held = Finset.range msg.chunkCount := by
  have hlen : sp.chunks.entries.length = held.card := by
    calc sp.chunks.entries.length = sp.chunks.keys.length := by simp [AList.keys, List.keys]
      _ = sp.chunks.keys.toFinset.card := (List.toFinset_card_of_nodup sp.chunks.keys_nodup).symm
      _ = held.card := by rw [h.toFinset_keys]
  rw [allReceived, decide_eq_true_iff, hlen, h.chunkCount_eq]
  constructor
  · intro hcard
    exact Finset.eq_of_subset_of_card_le hsub (by rw [Finset.card_range, hcard])
  · rintro rfl
    exact Finset.card_range _

end

/-- The sizes of all chunks add up to the size of the message. -/
theorem sum_sizes (h : Represents msg (Finset.range msg.chunkCount) sp) (hs : msg.Splittable) :
    (sp.chunks.entries.map fun chunk => chunk.2.length).sum = msg.data.length := by
  have hentry : ∀ e ∈ sp.chunks.entries, e.2.length = (msg.piece e.1).length := by
    intro e he
    have hlookup := AList.mem_lookup_iff.2 he
    rw [Option.mem_def, h.lookup_eq] at hlookup
    split at hlookup <;> simp_all
  have hkeys : sp.chunks.keys.Perm (List.range msg.chunkCount) := by
    refine (List.perm_ext_iff_of_nodup sp.chunks.keys_nodup List.nodup_range).2 fun k => ?_
    rw [← AList.mem_keys, h.mem_chunks, Finset.mem_range, List.mem_range]
  calc (sp.chunks.entries.map fun chunk => chunk.2.length).sum
      = (sp.chunks.keys.map fun k => (msg.piece k).length).sum := by
        rw [List.map_congr_left hentry, AList.keys, List.keys, List.map_map, Function.comp_def]
    _ = ((List.range msg.chunkCount).map fun k => (msg.piece k).length).sum :=
        (hkeys.map _).sum_eq
    _ = msg.data.length := by
        rw [← hs.flatten_pieces, List.length_flatten, List.map_map, Function.comp_def]

/-- Copying the chunks of a list of numbers, one behind the other. -/
theorem foldlM_copyChunk {total : Nat} {ks : List Nat} {full : Bytes}
    (hks : ∀ k ∈ ks, sp.chunks.lookup k = some (msg.piece k))
    (hroom : full.length + (ks.map msg.piece).flatten.length ≤ total) :
    ks.foldlM (sp.copyChunk total) full = .ok (full ++ (ks.map msg.piece).flatten) := by
  induction ks generalizing full with
  | nil => simp [pure, Except.pure]
  | cons k ks ih =>
    rw [List.map_cons, List.flatten_cons, List.length_append] at hroom
    have hcopy : sp.copyChunk total full k = .ok (full ++ msg.piece k) := by
      rw [copyChunk, hks k (List.mem_cons_self ..), Option.getD_some, if_neg (by omega)]
    have htail : (full ++ msg.piece k).length + (ks.map msg.piece).flatten.length ≤ total := by
      rw [List.length_append]
      omega
    rw [List.foldlM_cons, hcopy]
    calc ks.foldlM (sp.copyChunk total) (full ++ msg.piece k)
        = .ok (full ++ msg.piece k ++ (ks.map msg.piece).flatten) :=
          ih (fun j hj => hks j (List.mem_cons_of_mem _ hj)) htail
      _ = .ok (full ++ ((k :: ks).map msg.piece).flatten) := by
          rw [List.append_assoc, List.map_cons, List.flatten_cons]

/-- With all chunks there, `reassemble` gives the message back. -/
theorem reassemble_eq (h : Represents msg (Finset.range msg.chunkCount) sp) (hs : msg.Splittable)
    (hfits : msg.Fits) : sp.reassemble = .ok msg.data := by
  have hall : sp.allReceived = true := (h.allReceived_iff subset_rfl).2 rfl
  have hcopy : (List.range sp.chunkCount).foldlM (sp.copyChunk msg.data.length) [] =
      .ok msg.data := by
    rw [h.chunkCount_eq, foldlM_copyChunk, hs.flatten_pieces, List.nil_append]
    · intro k hk
      rw [h.lookup_eq, if_pos (Finset.mem_range.2 (List.mem_range.1 hk))]
    · rw [hs.flatten_pieces, List.length_nil, Nat.zero_add]
  rw [reassemble, if_pos hall]
  simp [h.sum_sizes hs, u32_of_lt hfits.length_lt, hcopy, bind, Except.bind, pure, Except.pure]

end Represents

end IncomingSplitPacket

/-! ### The whole buffer -/

section

variable {n : UInt16} {count k : Nat} {payload : Bytes} (address : Address) (h : Header)

theorem toNat_ofNat_of_le (hcount : count ≤ 65535) : (UInt16.ofNat count).toNat = count := by
  rw [UInt16.toNat_ofNat']
  exact Nat.mod_eq_of_lt (Nat.lt_succ_of_le hcount)

/-- What `insert` reads from a chunk that arrives: the header fields and the piece. -/
theorem IncomingSplitBuffer.insert_splitChunk (b : IncomingSplitBuffer) (hcount : count ≤ 65535)
    (hk : k < count) (hpayload : payload.length < 2 ^ 32) (reliable : Bool) :
    b.insert (makePacket address (splitChunk n count k payload) h) reliable =
      b.store n count k payload reliable := by
  have hlen : (splitChunk n count k payload).length = payload.length + 7 := by
    simp [splitChunk]
    omega
  have hsize : (makePacket address (splitChunk n count k payload) h).size =
      payload.length + 14 := by
    rw [size_makePacket, hlen]
  have htype : readU8 (makePacket address (splitChunk n count k payload) h).data baseHeaderSize =
      packetTypeSplit := readU8_makePacket address h _ 0
  have hseqnum : readU16 (makePacket address (splitChunk n count k payload) h).data
      (baseHeaderSize + 1) = n := (readU16_makePacket address h _ 1).trans (ofNat_bytes n)
  have hcountRead : (readU16 (makePacket address (splitChunk n count k payload) h).data
      (baseHeaderSize + 3)).toNat = count := by
    have hread := (readU16_makePacket address h (splitChunk n count k payload) 3).trans
      (ofNat_bytes (UInt16.ofNat count))
    exact (congrArg UInt16.toNat hread).trans (toNat_ofNat_of_le hcount)
  have hnumRead : (readU16 (makePacket address (splitChunk n count k payload) h).data
      (baseHeaderSize + 5)).toNat = k := by
    have hread := (readU16_makePacket address h (splitChunk n count k payload) 5).trans
      (ofNat_bytes (UInt16.ofNat k))
    exact (congrArg UInt16.toNat hread).trans (toNat_ofNat_of_le (by omega))
  have hdata : (makePacket address (splitChunk n count k payload) h).data.drop
      (baseHeaderSize + 7) = payload := rfl
  have hheader : ¬ payload.length + 14 < baseHeaderSize + 7 := by
    simp only [baseHeaderSize]
    omega
  have hcut : u32 (payload.length + 14 - (baseHeaderSize + 7)) = payload.length :=
    u32_of_lt hpayload
  rw [IncomingSplitBuffer.insert, hsize]
  simp only [htype, hseqnum, hcountRead, hnumRead, hdata, hcut, List.take_length, if_neg hheader,
    if_neg (not_le.2 hk), ne_eq, not_true_eq_false, if_false]

end

namespace IncomingSplitBuffer

variable {b : IncomingSplitBuffer} {msg : SplitMessage} {held : Finset Nat}

/-- `b` holds the chunks `held` of `msg`. -/
def Holds (b : IncomingSplitBuffer) (msg : SplitMessage) (held : Finset Nat) : Prop :=
  match b.lookup msg.seqnum with
  | none => held = ∅
  | some sp => sp.Represents msg held

theorem Holds.of_lookup_eq {b' : IncomingSplitBuffer} (h : b.Holds msg held)
    (hlookup : b'.lookup msg.seqnum = b.lookup msg.seqnum) : b'.Holds msg held := by
  rwa [Holds, hlookup]

/-- The entry of a message, or the new one `store` makes. -/
theorem Holds.entry (h : b.Holds msg held) (reliable : Bool) :
    ((b.lookup msg.seqnum).getD
      { chunkCount := msg.chunkCount, reliable := reliable }).Represents msg held := by
  rw [Holds] at h
  cases hlookup : b.lookup msg.seqnum with
  | none =>
    rw [hlookup] at h
    subst h
    exact .empty msg reliable
  | some sp =>
    rw [hlookup] at h
    exact h

/-- One more chunk: the message when it is complete now, else nothing; entries of other messages
stay as they are. -/
theorem store_spec (hs : msg.Splittable) (hfits : msg.Fits) (h : b.Holds msg held)
    (hheld : held ⊂ Finset.range msg.chunkCount) {k : Nat} (hk : k < msg.chunkCount)
    (reliable : Bool) :
    ∃ out b', b.store msg.seqnum msg.chunkCount k (msg.piece k) reliable = .ok (out, b') ∧
      (∀ n, n ≠ msg.seqnum → b'.lookup n = b.lookup n) ∧
      (Insert.insert k held = Finset.range msg.chunkCount →
        out = msg.data ∧ b'.lookup msg.seqnum = none) ∧
      (Insert.insert k held ≠ Finset.range msg.chunkCount →
        out = [] ∧ b'.Holds msg (Insert.insert k held)) := by
  have hsp := h.entry reliable
  generalize hentry : (b.lookup msg.seqnum).getD
    { chunkCount := msg.chunkCount, reliable := reliable } = sp at hsp
  have hkeep : ∀ (sp : IncomingSplitPacket) (c : IncomingSplitBuffer) (n : UInt16),
      n ≠ msg.seqnum → (AList.insert msg.seqnum sp c).lookup n = c.lookup n :=
    fun sp c n hn => AList.lookup_insert_ne hn
  have hfound : ∀ (sp : IncomingSplitPacket) (c : IncomingSplitBuffer) (held' : Finset Nat),
      sp.Represents msg held' →
        IncomingSplitBuffer.Holds (AList.insert msg.seqnum sp c) msg held' := by
    intro sp c held' hrep
    rw [Holds, AList.lookup_insert]
    exact hrep
  simp only [store, hentry, hsp.chunkCount_eq, ne_eq, not_true_eq_false, if_false]
  by_cases hmem : k ∈ held
  · -- a duplicate: nothing changes
    have hsame : Insert.insert k held = held := Finset.insert_eq_of_mem hmem
    rw [hsp.insert_of_mem hk hmem, hsame]
    refine ⟨[], _, by simp [bind, Except.bind, pure, Except.pure]; rfl, ?_, ?_, ?_⟩
    · exact fun n hn => hkeep _ _ n hn
    · exact fun hfull => absurd hfull hheld.ne
    · exact fun _ => ⟨rfl, hfound _ _ _ hsp⟩
  · obtain ⟨sp', hinsert, hsp'⟩ := hsp.insert_of_notMem hk hmem
    have hsub : Insert.insert k held ⊆ Finset.range msg.chunkCount :=
      Finset.insert_subset (Finset.mem_range.2 hk) hheld.subset
    rw [hinsert]
    by_cases hfull : Insert.insert k held = Finset.range msg.chunkCount
    · have hall := (hsp'.allReceived_iff hsub).2 hfull
      have hdata := (hfull ▸ hsp').reassemble_eq hs hfits
      refine ⟨msg.data, _, by simp [bind, Except.bind, pure, Except.pure, hall, hdata]; rfl,
        ?_, ?_, ?_⟩
      · intro n hn
        rw [AList.lookup_erase_ne hn, hkeep _ _ n hn]
      · exact fun _ => ⟨rfl, AList.lookup_erase _ _⟩
      · exact fun hne => absurd hfull hne
    · have hnot : ¬ sp'.allReceived = true := mt (hsp'.allReceived_iff hsub).1 hfull
      refine ⟨[], _, by simp [bind, Except.bind, pure, Except.pure, hnot]; rfl, ?_, ?_, ?_⟩
      · exact fun n hn => hkeep _ _ n hn
      · exact fun hfull' => absurd hfull' hfull
      · exact fun _ => ⟨rfl, hfound _ _ _ hsp'⟩

end IncomingSplitBuffer

/-! ## Deliveries -/

/-- A chunk that arrives, with the message it was cut from. -/
structure Delivery where
  message : SplitMessage
  chunkNum : Nat
  chunk : Bytes
  address : Address
  header : Header
  reliable : Bool

namespace Delivery

variable (d : Delivery)

/-- The chunk is one that `makeSplitPacket` made of one of the messages. -/
def Of (messages : List SplitMessage) : Prop :=
  d.message ∈ messages ∧ ∃ chunks, d.message.split = .ok chunks ∧ chunks[d.chunkNum]? = some d.chunk

def packet : BufferedPacket :=
  makePacket d.address d.chunk d.header

/-- Which part of which message arrives. -/
def part : SplitMessage × Nat :=
  (d.message, d.chunkNum)

variable {d} {messages : List SplitMessage}

theorem Of.chunk_eq (hd : d.Of messages) (hs : d.message.Splittable) (hfits : d.message.Fits) :
    d.chunkNum < d.message.chunkCount ∧
      d.chunk = splitChunk d.message.seqnum d.message.chunkCount d.chunkNum
        (d.message.piece d.chunkNum) := by
  obtain ⟨-, chunks, hsplit, hchunk⟩ := hd
  rw [SplitMessage.split_eq hs hfits] at hsplit
  cases hsplit
  rw [List.getElem?_map, Option.map_eq_some_iff] at hchunk
  obtain ⟨k, hk, hchunk⟩ := hchunk
  obtain ⟨hlt, hget⟩ := List.getElem?_eq_some_iff.1 hk
  rw [List.getElem_range] at hget
  subst hget
  exact ⟨by simpa using hlt, hchunk.symm⟩

end Delivery

/-- The numbers of the chunks of a message. -/
def chunkNumbers (msg : SplitMessage) : Finset Nat :=
  Finset.range msg.chunkCount

/-- After the deliveries `ds` the chunk `d` is the last one its message misses, counted from the
last time the message was complete. -/
def LastMissing (ds : List Delivery) (d : Delivery) : Prop :=
  Completes chunkNumbers (collectAll chunkNumbers (ds.map Delivery.part)) d.part

/-- The buffer after the deliveries `ds`. -/
def insertAll (b : IncomingSplitBuffer) : List Delivery → Except Fault IncomingSplitBuffer
  | [] => .ok b
  | d :: ds => do
      let (_, b) ← b.insert d.packet d.reliable
      insertAll b ds

section

variable {messages : List SplitMessage} {held : SplitMessage → Finset Nat}
variable {b : IncomingSplitBuffer}

section

variable (hdistinct : (messages.map SplitMessage.seqnum).Nodup)
  (hsplit : ∀ msg ∈ messages, msg.Splittable ∧ msg.Fits)

include hdistinct hsplit

/-- One delivery does to the buffer what `collect` does to the sets of chunk numbers held. -/
theorem IncomingSplitBuffer.insert_collect (hb : ∀ msg ∈ messages, b.Holds msg (held msg))
    (hheld : ∀ msg ∈ messages, held msg ⊂ chunkNumbers msg) {d : Delivery} (hd : d.Of messages) :
    ∃ out b', b.insert d.packet d.reliable = .ok (out, b') ∧
      (∀ msg ∈ messages, b'.Holds msg (collect chunkNumbers held d.part msg)) ∧
      (Completes chunkNumbers held d.part →
        out = d.message.data ∧ b'.lookup d.message.seqnum = none) ∧
      (¬ Completes chunkNumbers held d.part → out = []) := by
  obtain ⟨hs, hfits⟩ := hsplit d.message hd.1
  obtain ⟨hk, hchunk⟩ := hd.chunk_eq hs hfits
  have hpiece : (d.message.piece d.chunkNum).length < 2 ^ 32 := by
    refine lt_of_le_of_lt ?_ hfits.length_lt
    exact ((List.take_sublist _ _).trans (List.drop_sublist _ _)).length_le
  have hcompletes : Completes chunkNumbers held d.part ↔
      Insert.insert d.chunkNum (held d.message) = chunkNumbers d.message :=
    completes_iff_insert_eq (d := d.part) (hheld d.message hd.1) (Finset.mem_range.2 hk)
  obtain ⟨out, b', hstore, hframe, hfull, hrest⟩ :=
    store_spec hs hfits (hb d.message hd.1) (hheld d.message hd.1) hk d.reliable
  refine ⟨out, b', ?_, ?_, fun hc => hfull (hcompletes.1 hc),
    fun hc => (hrest (mt hcompletes.2 hc)).1⟩
  · rw [Delivery.packet, hchunk, insert_splitChunk _ _ b hs.chunkCount_le hk hpiece, hstore]
  · intro msg hmsg
    by_cases hsame : msg = d.message
    · subst hsame
      by_cases hc : Completes chunkNumbers held d.part
      · have hnone := (hfull (hcompletes.1 hc)).2
        rw [Holds, hnone]
        exact collect_of_completes hc
      · have hholds := (hrest (mt hcompletes.2 hc)).2
        have hcollect := collect_of_not_completes hc
        rw [show d.part.1 = d.message from rfl] at hcollect
        rwa [hcollect]
    · have hne : msg.seqnum ≠ d.message.seqnum := fun heq =>
        hsame (List.inj_on_of_nodup_map hdistinct hmsg hd.1 heq)
      rw [collect_of_ne hsame]
      exact (hb msg hmsg).of_lookup_eq (hframe _ hne)

theorem insertAll_collectAll {ds : List Delivery} (hds : ∀ d ∈ ds, d.Of messages)
    (hb : ∀ msg ∈ messages, b.Holds msg (held msg))
    (hheld : ∀ msg ∈ messages, held msg ⊂ chunkNumbers msg) :
    ∃ b', insertAll b ds = .ok b' ∧
      (∀ msg ∈ messages,
        b'.Holds msg ((ds.map Delivery.part).foldl (collect chunkNumbers) held msg)) ∧
      ∀ msg ∈ messages,
        (ds.map Delivery.part).foldl (collect chunkNumbers) held msg ⊂ chunkNumbers msg := by
  induction ds generalizing b held with
  | nil => exact ⟨b, rfl, hb, hheld⟩
  | cons d ds ih =>
    have hd := hds d (List.mem_cons_self ..)
    obtain ⟨out, b₁, hinsert, hb₁, -⟩ :=
      IncomingSplitBuffer.insert_collect hdistinct hsplit hb hheld hd
    obtain ⟨hs, hfits⟩ := hsplit d.message hd.1
    have hpart : d.part.2 ∈ chunkNumbers d.part.1 := Finset.mem_range.2 (hd.chunk_eq hs hfits).1
    have hheld₁ : ∀ msg ∈ messages, collect chunkNumbers held d.part msg ⊂ chunkNumbers msg :=
      fun msg hmsg => collect_ssubset ⟨_, hpart⟩ hpart (hheld _ hd.1) (hheld msg hmsg)
    obtain ⟨b', hrest, hb'⟩ := ih (fun e he => hds e (List.mem_cons_of_mem _ he)) hb₁ hheld₁
    refine ⟨b', ?_, hb'⟩
    rw [insertAll, hinsert]
    exact hrest

end

/-- Splitting and gathering are inverse.  Every message splits; and after any deliveries of its
chunks, in any order, with any duplicates and interleaved with those of other messages, the next
delivery gives the message exactly when it brings the last missing chunk, and the entry of the
message is gone then. -/
theorem split_insert_inverse (hdistinct : (messages.map SplitMessage.seqnum).Nodup)
    (hsplit : ∀ msg ∈ messages, msg.Splittable ∧ msg.Fits) :
    (∀ msg ∈ messages, ∃ chunks, msg.split = .ok chunks ∧ chunks.length = msg.chunkCount) ∧
    ∀ (ds : List Delivery) (d : Delivery), (∀ e ∈ ds ++ [d], e.Of messages) →
      ∃ b out b', insertAll ∅ ds = .ok b ∧ b.insert d.packet d.reliable = .ok (out, b') ∧
        (out ≠ [] ↔ LastMissing ds d) ∧
        (out ≠ [] → out = d.message.data ∧ b'.lookup d.message.seqnum = none) := by
  constructor
  · intro msg hmsg
    obtain ⟨hs, hfits⟩ := hsplit msg hmsg
    exact ⟨_, SplitMessage.split_eq hs hfits, by simp⟩
  · intro ds d hds
    have hd : d.Of messages := hds d (by simp)
    obtain ⟨hs, hfits⟩ := hsplit d.message hd.1
    have hempty : ∀ msg ∈ messages, IncomingSplitBuffer.Holds ∅ msg ∅ := fun msg _ => by
      rw [IncomingSplitBuffer.Holds, AList.lookup_empty]
    have hnone : ∀ msg ∈ messages, ∅ ⊂ chunkNumbers msg := fun msg hmsg =>
      Finset.empty_ssubset.2 (Finset.nonempty_range_iff.2 (hsplit msg hmsg).1.chunkCount_pos.ne')
    obtain ⟨b, hall, hb, hheld⟩ := insertAll_collectAll hdistinct hsplit
      (fun e he => hds e (List.mem_append_left _ he)) hempty hnone
    obtain ⟨out, b', hinsert, -, hfull, hrest⟩ :=
      IncomingSplitBuffer.insert_collect hdistinct hsplit hb hheld hd
    have hdata : d.message.data ≠ [] := by
      have hheader := hs.header_lt
      have hlong := hs.long
      exact List.ne_nil_of_length_pos (by omega)
    have hiff : out ≠ [] ↔ LastMissing ds d := by
      constructor
      · intro hout
        by_contra hc
        exact hout (hrest hc)
      · intro hc
        rw [(hfull hc).1]
        exact hdata
    exact ⟨b, out, b', hall, hinsert, hiff, fun hout => hfull (hiff.1 hout)⟩

end

/-- A message of three chunks. -/
def threeChunks : SplitMessage :=
  { data := [1, 2, 3, 4, 5, 6, 7, 8, 9, 10, 11], chunksizeMax := 11, seqnum := 7 }

/-- Chunk `k` of the message on its way. -/
def threeChunksDelivery (k : Nat) : Delivery :=
  { message := threeChunks, chunkNum := k,
    chunk := splitChunk 7 threeChunks.chunkCount k (threeChunks.piece k),
    address := ⟨[127, 0, 0, 1], 30000⟩, header := ⟨0x4f457403, 2, 0⟩, reliable := true }

theorem threeChunks_splittable : threeChunks.Splittable ∧ threeChunks.Fits :=
  ⟨⟨by decide, by decide, by decide⟩, ⟨by decide, by decide⟩⟩

theorem threeChunksDelivery_of {k : Nat} (hk : k < 3) :
    (threeChunksDelivery k).Of [threeChunks] := by
  obtain ⟨hs, hfits⟩ := threeChunks_splittable
  refine ⟨List.mem_singleton.2 rfl, _, SplitMessage.split_eq hs hfits, ?_⟩
  have hcount : threeChunks.chunkCount = 3 := by decide
  have hk' : (threeChunksDelivery k).chunkNum < (threeChunksDelivery k).message.chunkCount :=
    hk.trans_eq hcount.symm
  rw [List.getElem?_map, List.getElem?_range hk']
  rfl

/-- The chunks arrive as 2, 0, 2, 1. -/
theorem split_insert_inverse_three :
    ∃ b out b', insertAll ∅ ([2, 0, 2].map threeChunksDelivery) = .ok b ∧
      b.insert (threeChunksDelivery 1).packet true = .ok (out, b') ∧
      (out ≠ [] ↔ LastMissing ([2, 0, 2].map threeChunksDelivery) (threeChunksDelivery 1)) ∧
      (out ≠ [] → out = threeChunks.data ∧ b'.lookup threeChunks.seqnum = none) := by
  have hmsgs : ∀ msg ∈ [threeChunks], msg.Splittable ∧ msg.Fits := by
    intro msg hmsg
    rw [List.mem_singleton.1 hmsg]
    exact threeChunks_splittable
  refine (split_insert_inverse (by decide) hmsgs).2 _ (threeChunksDelivery 1) ?_
  intro e he
  have hk : ∃ k < 3, e = threeChunksDelivery k := by
    simp only [List.map_cons, List.map_nil, List.cons_append, List.nil_append, List.mem_cons,
      List.not_mem_nil, or_false] at he
    rcases he with rfl | rfl | rfl | rfl
    exacts [⟨2, by decide, rfl⟩, ⟨0, by decide, rfl⟩, ⟨2, by decide, rfl⟩, ⟨1, by decide, rfl⟩]
  obtain ⟨k, hk, rfl⟩ := hk
  exact threeChunksDelivery_of hk

/-- Two chunks whose second ends past `2 ^ 32`: the index of its last byte wraps, and the copy runs
over the end of the message. -/
theorem SplitMessage.split_wrapping {msg : SplitMessage} (hlen : msg.data.length = 2 ^ 32 - 1)
    (hmax : msg.chunksizeMax.toNat = 2 ^ 31 + 8) :
    msg.Splittable ∧ msg.split = .error .memory := by
  have hm : maximumDataSize msg.chunksizeMax = 2 ^ 31 + 1 := by
    rw [maximumDataSize, hmax]
    rfl
  have hcount : msg.chunkCount = 2 := by
    rw [chunkCount, pieceCount, hm, hlen]
    rfl
  refine ⟨⟨by rw [hmax]; decide, by omega, by omega⟩, ?_⟩
  have hlast : lastIndex msg.data = 2 ^ 32 - 2 := by
    rw [lastIndex, hlen]
    rfl
  have hend₀ : chunkEnd msg.data (2 ^ 31 + 1) 0 = 2 ^ 31 := by
    rw [chunkEnd, hlast]
    rfl
  have hend₁ : chunkEnd msg.data (2 ^ 31 + 1) (2 ^ 31 + 1) = 1 := by
    rw [chunkEnd, hlast]
    rfl
  -- the second round reads `2 ^ 31 + 1` bytes where `2 ^ 31 - 2` are left
  have hsecond : splitLoop msg.data (2 ^ 31 + 1) msg.seqnum 0xFFFE (2 ^ 31 + 1) 1 =
      .error .memory := by
    rw [splitLoop, hend₁, hlen]
    rfl
  have hfirst : splitLoop msg.data (2 ^ 31 + 1) msg.seqnum (0xFFFE + 1) 0 0 = .error .memory := by
    rw [splitLoop, hend₀, hlast, hlen]
    have hnext : u32 (2 ^ 31 + 1) = 2 ^ 31 + 1 := rfl
    simp only [hnext, hsecond]
    rfl
  rw [split, makeSplitPacket, hm, hfirst]
  rfl

/-- A message of 4 GiB less one byte and chunks a little larger than half of it. -/
theorem split_4GiB_memory_fault :
    (SplitMessage.mk (List.replicate (2 ^ 32 - 1) 0) 2147483656 0).Splittable ∧
      (SplitMessage.mk (List.replicate (2 ^ 32 - 1) 0) 2147483656 0).split = .error .memory :=
  SplitMessage.split_wrapping List.length_replicate rfl

end Mtp
end AxisEngine
