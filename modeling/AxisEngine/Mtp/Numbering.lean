import AxisEngine.Mtp.Sender

/-!
# Numbering — when a number is given out, and what a refused command leaves behind

* `getOutgoingSequenceNumber_isSome_iff` — where the window test agrees with the distance on the
  ring from the oldest number without an ACK to the next one;
* `processReliableSendCommand_allOrNothing` — a command gets all its numbers, or those it got are
  put back; a message that was cut has used up a split number either way.
-/

namespace AxisEngine
namespace Mtp

open Lib

/-! ## The window -/

/-- Above the wrap the test counts one step too few, and a full turn where it should count none. -/
theorem windowHasRoom_iff (lowest next windowSize : UInt16) :
    Channel.windowHasRoom lowest next windowSize = true ↔
      (lowest < next ∧ gap lowest next ≤ windowSize.toNat) ∨
        (next < lowest ∧ gap lowest next ≤ windowSize.toNat + 1) ∨
        (lowest = next ∧ windowSize = 65535) := by
  have hlowest := lowest.toNat_lt
  have hnext := next.toNat_lt
  have hsize := windowSize.toNat_lt
  have hmax : windowSize = 65535 ↔ windowSize.toNat = 65535 := UInt16.toNat_inj.symm
  have heq : lowest = next ↔ lowest.toNat = next.toNat := UInt16.toNat_inj.symm
  simp only [UInt16.lt_iff_toNat_lt, hmax, heq, gap]
  by_cases hlt : lowest.toNat < next.toNat
  · rw [Channel.windowHasRoom, if_pos hlt, decide_eq_true_eq]
    omega
  · rw [Channel.windowHasRoom, if_neg hlt, decide_eq_true_eq, seqnumMax]
    omega

theorem getOutgoingSequenceNumber_isSome {c : Channel} {p : BufferedPacket}
    {rest : List BufferedPacket} (hsent : c.outgoingReliablesSent = p :: rest) :
    c.getOutgoingSequenceNumber.isSome =
      Channel.windowHasRoom p.getSeqnum c.nextOutgoingSeqnum c.windowSize := by
  simp only [Channel.getOutgoingSequenceNumber, ReliablePacketBuffer.getFirstSeqnum, hsent,
    List.head?_cons, Option.map_some]
  cases Channel.windowHasRoom p.getSeqnum c.nextOutgoingSeqnum c.windowSize <;> rfl

/-- A number is given out for the distances up to the window size exactly when the wrap is not
between the two numbers, or the distance is not the one just above the window size. -/
theorem getOutgoingSequenceNumber_isSome_iff (c : Channel) (p : BufferedPacket)
    (rest : List BufferedPacket) (hsent : c.outgoingReliablesSent = p :: rest) :
    (c.getOutgoingSequenceNumber.isSome = true ↔
        gap p.getSeqnum c.nextOutgoingSeqnum ≤ c.windowSize.toNat) ↔
      (p.getSeqnum < c.nextOutgoingSeqnum ∨
        (c.nextOutgoingSeqnum < p.getSeqnum ∧
          gap p.getSeqnum c.nextOutgoingSeqnum ≠ c.windowSize.toNat + 1) ∨
        (p.getSeqnum = c.nextOutgoingSeqnum ∧ c.windowSize = 65535)) := by
  have hroom := windowHasRoom_iff p.getSeqnum c.nextOutgoingSeqnum c.windowSize
  have hsome := getOutgoingSequenceNumber_isSome hsent
  rw [hsome, hroom]
  generalize p.getSeqnum = lowest
  generalize c.nextOutgoingSeqnum = next
  have hmax : c.windowSize = 65535 ↔ c.windowSize.toNat = 65535 := UInt16.toNat_inj.symm
  have heq : lowest = next ↔ lowest.toNat = next.toNat := UInt16.toNat_inj.symm
  have hzero : lowest = next → gap lowest next = 0 := by
    rintro rfl
    exact gap_self lowest
  have hsize := c.windowSize.toNat_lt
  simp only [UInt16.lt_iff_toNat_lt, heq, hmax] at hzero ⊢
  omega

/-- A connection of the smallest kind. -/
def plainEndpoint : Endpoint :=
  ⟨⟨[], 0⟩, 0, 0, 0, 0⟩

/-- A channel of a new peer whose numbers from `lowest` up to `next` are given out, the first of
them not yet acknowledged. -/
def openChannel (lowest next : UInt16) : Channel :=
  { Channel.initial with
    nextOutgoingSeqnum := next
    outgoingReliablesSent := [numberedPacket plainEndpoint lowest []] }

/-- At the same distance, one more than the window size, the answer depends on the wrap. -/
theorem getOutgoingSequenceNumber_wrap :
    (openChannel 65500 221).windowSize = 256 ∧ gap 65500 221 = 257 ∧ gap 1000 1257 = 257 ∧
      (openChannel 65500 221).getOutgoingSequenceNumber.isSome = true ∧
      (openChannel 1000 1257).getOutgoingSequenceNumber.isSome = false := by
  decide

theorem getOutgoingSequenceNumber_isSome_iff_open :
    (openChannel 65500 220).getOutgoingSequenceNumber.isSome = true ∧ gap 65500 220 ≤ 256 :=
  have h := (getOutgoingSequenceNumber_isSome_iff (openChannel 65500 220)
    (numberedPacket plainEndpoint 65500 []) [] rfl).2 (by decide)
  ⟨h.2 (by decide), by decide⟩

/-! ## A command -/

/-- `chunksize_max` of `processReliableSendCommand`. -/
def chunksizeMax (cfg : SendConfig) : UInt32 :=
  cfg.maxPacketSize - UInt32.ofNat baseHeaderSize - UInt32.ofNat reliableHeaderSize

/-- Whether the data of a command is too long for one packet. -/
def ConnectionCommand.isCut (cmd : ConnectionCommand) (cfg : SendConfig) : Bool :=
  !cmd.raw && decide (cmd.data.length + originalHeaderSize > (chunksizeMax cfg).toNat)

/-- The channel once the command has its packets. -/
def Channel.named (c : Channel) (cfg : SendConfig) (cmd : ConnectionCommand) : Channel :=
  if cmd.isCut cfg then { c with nextOutgoingSplitSeqnum := c.nextOutgoingSplitSeqnum + 1 } else c

section

variable {env : Endpoint} {cfg : SendConfig} {c c' : Channel} {cmd : ConnectionCommand}

/-- A computation that ends in a fault has it from its first part or from the rest. -/
theorem bind_eq_error {ε α β : Type} {x : Except ε α} {f : α → Except ε β} {e : ε}
    (h : x >>= f = .error e) : x = .error e ∨ ∃ a, x = .ok a ∧ f a = .error e := by
  cases x with
  | error e' =>
    cases h
    exact .inl rfl
  | ok a => exact .inr ⟨a, rfl, h⟩

theorem splitLoop_ne_fatalError (data : Bytes) (m : Nat) (n : UInt16) (left start k : Nat) :
    splitLoop data m n left start k ≠ .error .fatalError := by
  induction left generalizing start k with
  | zero =>
    rw [splitLoop]
    split <;> exact fun h => by cases h
  | succ left ih =>
    rw [splitLoop]
    dsimp only
    split
    · exact fun h => by cases h
    · split
      · exact fun h => by cases h
      · cases hnext : splitLoop data m n left (u32 (chunkEnd data m start + 1)) (k + 1) with
        | ok chunks => exact fun h => by cases h
        | error e =>
          intro h
          cases h
          exact ih _ _ hnext

/-- The packets of a command are made without the put-back check, and only a message that is cut
takes a split number. -/
theorem originals_named {chunks : List Bytes} (h : originals cfg c cmd = .ok (chunks, c')) :
    c' = c.named cfg cmd := by
  rw [originals] at h
  cases hraw : cmd.raw with
  | true =>
    rw [if_pos hraw] at h
    cases h
    simp [Channel.named, ConnectionCommand.isCut, hraw]
  | false =>
    rw [if_neg (by simp [hraw])] at h
    rcases bind_eq_ok.1 h with ⟨⟨made, n⟩, hmade, hrest⟩
    cases hrest
    change makeAutoSplitPacket cmd.data (chunksizeMax cfg) _ = _ at hmade
    rw [makeAutoSplitPacket] at hmade
    by_cases hlong : cmd.data.length + originalHeaderSize > (chunksizeMax cfg).toNat
    · rw [if_pos hlong] at hmade
      rcases bind_eq_ok.1 hmade with ⟨made', -, hrest⟩
      cases hrest
      simp [Channel.named, ConnectionCommand.isCut, hraw, hlong]
    · rw [if_neg hlong] at hmade
      cases hmade
      simp [Channel.named, ConnectionCommand.isCut, hraw, hlong]

theorem makeAutoSplitPacket_ne_fatalError (data : Bytes) (size : UInt32) (n : UInt16) :
    makeAutoSplitPacket data size n ≠ .error .fatalError := by
  intro h
  rw [makeAutoSplitPacket] at h
  split at h
  · rcases bind_eq_error h with h | ⟨chunks, -, h⟩
    · rcases bind_eq_error h with h | ⟨chunks, -, h⟩
      · exact splitLoop_ne_fatalError _ _ _ _ _ _ h
      · cases h
    · cases h
  · cases h

theorem originals_ne_fatalError : originals cfg c cmd ≠ .error .fatalError := by
  intro h
  rw [originals] at h
  split at h
  · cases h
  · rcases bind_eq_error h with h | ⟨made, -, h⟩
    · exact makeAutoSplitPacket_ne_fatalError _ _ _ h
    · cases h

theorem numberedPackets_eq_mapIdx (env : Endpoint) (n : UInt16) (chunks : List Bytes) :
    numberedPackets env n chunks =
      chunks.mapIdx fun i chunk => numberedPacket env (n + UInt16.ofNat i) chunk := by
  induction chunks generalizing n with
  | nil => rfl
  | cons chunk rest ih =>
    have hnext : ∀ i, n + 1 + UInt16.ofNat i = n + UInt16.ofNat (i + 1) := by
      intro i
      rw [UInt16.ofNat_add, UInt16.add_assoc, UInt16.add_comm 1]
      rfl
    simp [numberedPackets, ih, List.mapIdx_cons, hnext]

/-- The numbers that a refused command got can be put back. -/
theorem processReliableSendCommand_ne_fatalError (pending : Bool) :
    processReliableSendCommand env cfg pending c cmd ≠ .error .fatalError := by
  rw [processReliableSendCommand]
  cases pending with
  | true => exact fun h => by cases h
  | false =>
    cases hmade : originals cfg c cmd with
    | error e =>
      intro h
      cases h
      exact originals_ne_fatalError hmade
    | ok made =>
      rcases made with ⟨chunks, c₁⟩
      rcases numberPackets_eq env false c₁ chunks with ⟨k, hk, hnumbered, -⟩
      rcases Prod.mk.inj hnumbered with ⟨htoadd, hchannel⟩
      have hlength : (chunks.take k).length = k := List.length_take_of_le hk
      have hrefuse := refuseCommand_eq env c₁ (chunks.take k)
      rw [hlength] at hrefuse
      intro h
      change (if chunks.length ≥ maxReliableWindowSize.toNat then _ else _) = _ at h
      split at h
      · cases h
      · dsimp only at h
        split at h
        · split at h <;> cases h
        · rw [htoadd, hchannel, hrefuse] at h
          cases h

/-- A command that is done has all its packets at the end of the queue, numbered one after the
other; one that is refused leaves the channel as it was, but for the split number of a message that
was cut.  The put-back check never fails. -/
theorem processReliableSendCommand_allOrNothing (env : Endpoint) (cfg : SendConfig)
    (pending : Bool) (c : Channel) (cmd : ConnectionCommand) :
    processReliableSendCommand env cfg pending c cmd ≠ .error .fatalError ∧
      ∀ done c', processReliableSendCommand env cfg pending c cmd = .ok (done, c') →
        (pending = true → done = true ∧ c' = c) ∧
        (pending = false → done = true →
          ∃ chunks, originals cfg c cmd = .ok (chunks, c.named cfg cmd) ∧
            c' = { c.named cfg cmd with
              nextOutgoingSeqnum := c.nextOutgoingSeqnum + UInt16.ofNat chunks.length
              queuedReliables := c.queuedReliables ++ chunks.mapIdx fun i chunk =>
                numberedPacket env (c.nextOutgoingSeqnum + UInt16.ofNat i) chunk }) ∧
        (done = false → c' = c.named cfg cmd) := by
  refine ⟨processReliableSendCommand_ne_fatalError pending, ?_⟩
  intro done c' h
  rcases processReliableSendCommand_cases h with
    ⟨rfl, rfl, rfl⟩ | ⟨rfl, chunks, c₁, hmade, -, hcases⟩
  · exact ⟨fun _ => ⟨rfl, rfl⟩, nofun, nofun⟩
  · have hnamed := originals_named hmade
    have hnext : c₁.nextOutgoingSeqnum = c.nextOutgoingSeqnum := by
      rw [hnamed, Channel.named]
      split <;> rfl
    have hqueue : c₁.queuedReliables = c.queuedReliables := by
      rw [hnamed, Channel.named]
      split <;> rfl
    refine ⟨nofun, ?_, ?_⟩
    · rintro - rfl
      rcases hcases with ⟨-, hhave, hc'⟩ | ⟨hfalse, -, -⟩
      · rcases numberPackets_eq env false c₁ chunks with ⟨k, -, hnumbered, hall⟩
        have hk := hall hhave
        subst hk
        refine ⟨chunks, hnamed ▸ hmade, ?_⟩
        rw [hc', hnumbered, List.take_length, numberedPackets_eq_mapIdx, hnext, hqueue, ← hnamed]
        rfl
      · cases hfalse
    · rintro rfl
      rcases hcases with ⟨hfalse, -, -⟩ | ⟨-, -, hc'⟩
      · cases hfalse
      · rw [hc', hnamed]

end

/-- The packet size that a connection asks for. -/
def plainConfig : SendConfig :=
  { maxPacketSize := 512 }

/-- A message of 600 bytes is cut. -/
def longCommand : ConnectionCommand :=
  { data := List.replicate 600 0, raw := false }

/-- A refused command has used up a split number. -/
theorem processReliableSendCommand_splitSeqnum :
    (openChannel 1000 1257).nextOutgoingSplitSeqnum = 65500 ∧
      (processReliableSendCommand plainEndpoint plainConfig false (openChannel 1000 1257)
          longCommand).toOption.map (fun r => (r.1, r.2.nextOutgoingSplitSeqnum)) =
        some (false, 65501) := by
  decide +kernel

theorem processReliableSendCommand_allOrNothing_long :
    (processReliableSendCommand plainEndpoint plainConfig false (openChannel 1000 1257)
        longCommand).toOption.map (fun r => r.2.nextOutgoingSeqnum) = some 1257 := by
  have hrefused : (processReliableSendCommand plainEndpoint plainConfig false
      (openChannel 1000 1257) longCommand).toOption.map Prod.fst = some false := by
    decide +kernel
  cases hrun : processReliableSendCommand plainEndpoint plainConfig false (openChannel 1000 1257)
      longCommand with
  | error e =>
    rw [hrun] at hrefused
    cases hrefused
  | ok r =>
    rcases r with ⟨done, c'⟩
    rw [hrun] at hrefused
    cases hrefused
    have h := ((processReliableSendCommand_allOrNothing plainEndpoint plainConfig false
      (openChannel 1000 1257) longCommand).2 false c' hrun).2.2 rfl
    rw [h, Channel.named]
    split <;> rfl

end Mtp
end AxisEngine
