import AxisEngine.Lib.Transition
import AxisEngine.Server.RemoteClient

/-!
# SendBlocks — no client keeps an outdated block

`SendBlocks` asks every client for the blocks it wants, sorts them, and sends them while the totals
allow it.  It holds the environment's lock all the time, so no block is modified meanwhile, but the
lock on the clients only while it asks and while it sends: in between acknowledgements come in.  A
block that several clients want is serialized once for each format version.

* `World` — the blocks, the clients, and how far `SendBlocks` is;
* `Event`, `Step` — what may happen next;
* `Kept` — what holds in every state;
* `no_outdated_block` — a block a client is not sent again is one it has in its current version.
-/

namespace AxisEngine
namespace Server

open Lib

/-- A client, the copy of each block that was last transmitted to it, and the modified blocks for
which `SetBlockNotSent` has not been called yet. -/
structure Peer (Block : Type) where
  client : RemoteClient
  serializationVersion : Nat
  transmitted : V3s16 → Option Block := fun _ => none
  unflagged : Finset V3s16 := ∅

/-- A block that was selected, and the peer it is for. -/
abbrev BlockTransfer := Nat × V3s16

inductive Phase (Block : Type)
  | idle
  /-- The list is collected and the clients are unlocked. -/
  | collected (queue : List BlockTransfer) (totalSending : Nat)
  /-- The loop that sends, with the clients locked, and its cache of serialized blocks. -/
  | sending (queue : List BlockTransfer) (totalSending : Nat)
      (cache : V3s16 × Nat → Option Block)

/-- `Block` is what a block holds.  A block that is not loaded holds what it will be loaded with. -/
structure World (Block : Type) where
  blocks : V3s16 → Block
  peers : Nat → Peer Block
  phase : Phase Block

inductive Event (Block : Type)
  /-- Any change to a block. -/
  | modify (p : V3s16) (b : Block)
  | setBlockNotSent (peerId : Nat) (p : V3s16) (lowPriority : Bool)
  | resendBlockIfOnWire (peerId : Nat) (p : V3s16)
  /-- An acknowledgement, whatever it is for. -/
  | gotBlock (peerId : Nat) (p : V3s16)
  /-- `Server::SendBlock`, which a script calls. -/
  | sendBlock (peerId : Nat) (p : V3s16)
  /-- A client takes the place of the one that had this id. -/
  | join (peerId : Nat) (client : RemoteClient) (serializationVersion : Nat)
  /-- `SendBlocks` asks these clients. -/
  | collect (views : List (Nat × View))
  /-- It has sorted the list and begins to send. -/
  | startSending (queue : List BlockTransfer)
  /-- It sends the first of the list, with the cache or without. -/
  | send (cached : Bool)
  /-- The block is not loaded, or the client has gone. -/
  | skip
  | endSending

namespace World

variable {Block : Type} (w : World Block) (peerId : Nat)

def setPeer (c : Peer Block) : World Block :=
  { w with peers := fun k => if k = peerId then c else w.peers k }

/-- The call of a method of one client. -/
def onClient (f : RemoteClient → RemoteClient) : World Block :=
  w.setPeer peerId { w.peers peerId with client := f (w.peers peerId).client }

/-- The changed block waits for `SetBlockNotSent` at every client. -/
def modify (w : World Block) (p : V3s16) (b : Block) : World Block :=
  { w with
    blocks := fun q => if q = p then b else w.blocks q
    peers := fun k =>
      { w.peers k with unflagged := insert p (w.peers k).unflagged } }

def setBlockNotSent (p : V3s16) (lowPriority : Bool) : World Block :=
  let w := w.onClient peerId fun c => c.setBlockNotSent p lowPriority
  w.setPeer peerId
    { w.peers peerId with unflagged := (w.peers peerId).unflagged.erase p }

/-- `SendBlockNoLock`: the packet holds `b`. -/
def transmit (p : V3s16) (b : Block) : World Block :=
  w.setPeer peerId { w.peers peerId with
    transmitted := fun q => if q = p then some b else (w.peers peerId).transmitted q }

def sendBlock (p : V3s16) : World Block :=
  if (w.peers peerId).client.isBlockSent p then w else w.transmit peerId p (w.blocks p)

/-- The first loop of `SendBlocks`. -/
def collect (w : World Block) : List (Nat × View) → World Block × List BlockTransfer × Nat
  | [] => (w, [], 0)
  | (peerId, v) :: views =>
    let client := (w.peers peerId).client
    let (client', dest) := client.getNextBlocks v
    let (w', queue, totalSending) := (w.onClient peerId fun _ => client').collect views
    (w', dest.map (fun p => (peerId, p)) ++ queue, client.blocksSending.card + totalSending)

end World

section

variable {Block : Type}

/-- The first entry of the list is sent: from the cache, or serialized and put into it. -/
def World.sendNext (w : World Block) (peerId : Nat) (p : V3s16) (queue : List BlockTransfer)
    (totalSending : Nat) (cache : V3s16 × Nat → Option Block) (cached : Bool) : World Block :=
  let key := (p, (w.peers peerId).serializationVersion)
  let b := if cached then (cache key).getD (w.blocks p) else w.blocks p
  let cache' := if cached then (fun k => if k = key then some b else cache k) else cache
  let w := (w.transmit peerId p b).onClient peerId fun c => c.sentBlock p
  { w with phase := .sending queue (totalSending + 1) cache' }

/-- `maxBlocksToSend` is the limit on the blocks under way to all clients. -/
inductive Step (maxBlocksToSend : Nat) : World Block → Event Block → World Block → Prop
  | modify {w : World Block} {p : V3s16} {b : Block} : w.phase = .idle →
      Step maxBlocksToSend w (.modify p b) (w.modify p b)
  | setBlockNotSent {w : World Block} {peerId : Nat} {p : V3s16} {lowPriority : Bool} :
      (∀ queue n cache, w.phase ≠ .sending queue n cache) →
      Step maxBlocksToSend w (.setBlockNotSent peerId p lowPriority)
        (w.setBlockNotSent peerId p lowPriority)
  | resendBlockIfOnWire {w : World Block} {peerId : Nat} {p : V3s16} :
      (∀ queue n cache, w.phase ≠ .sending queue n cache) →
      Step maxBlocksToSend w (.resendBlockIfOnWire peerId p)
        (w.onClient peerId fun c => c.resendBlockIfOnWire p)
  | gotBlock {w : World Block} {peerId : Nat} {p : V3s16} :
      (∀ queue n cache, w.phase ≠ .sending queue n cache) →
      Step maxBlocksToSend w (.gotBlock peerId p) (w.onClient peerId fun c => c.gotBlock p)
  | sendBlock {w : World Block} {peerId : Nat} {p : V3s16} :
      (∀ queue n cache, w.phase ≠ .sending queue n cache) →
      Step maxBlocksToSend w (.sendBlock peerId p) (w.sendBlock peerId p)
  | join {w : World Block} {peerId : Nat} {client : RemoteClient} {ver : Nat} :
      (∀ queue n cache, w.phase ≠ .sending queue n cache) →
      client.blocksSent = ∅ → client.blocksSending = ∅ →
      Step maxBlocksToSend w (.join peerId client ver)
        (w.setPeer peerId { client := client, serializationVersion := ver })
  | collect {w w' : World Block} {views : List (Nat × View)} {queue : List BlockTransfer}
      {totalSending : Nat} : w.phase = .idle → w.collect views = (w', queue, totalSending) →
      Step maxBlocksToSend w (.collect views)
        { w' with phase := .collected queue totalSending }
  | startSending {w : World Block} {queue queue' : List BlockTransfer} {totalSending : Nat} :
      w.phase = .collected queue totalSending → queue'.Perm queue →
      Step maxBlocksToSend w (.startSending queue')
        { w with phase := .sending queue' totalSending fun _ => none }
  | send {w : World Block} {peerId : Nat} {p : V3s16} {queue : List BlockTransfer}
      {totalSending : Nat} {cache : V3s16 × Nat → Option Block} {cached : Bool} :
      w.phase = .sending ((peerId, p) :: queue) totalSending cache →
      totalSending < maxBlocksToSend →
      Step maxBlocksToSend w (.send cached) (w.sendNext peerId p queue totalSending cache cached)
  | skip {w : World Block} {entry : BlockTransfer} {queue : List BlockTransfer}
      {totalSending : Nat} {cache : V3s16 × Nat → Option Block} :
      w.phase = .sending (entry :: queue) totalSending cache →
      totalSending < maxBlocksToSend →
      Step maxBlocksToSend w .skip { w with phase := .sending queue totalSending cache }
  | endSending {w : World Block} {queue : List BlockTransfer} {totalSending : Nat}
      {cache : V3s16 × Nat → Option Block} :
      w.phase = .sending queue totalSending cache →
      queue = [] ∨ maxBlocksToSend ≤ totalSending →
      Step maxBlocksToSend w .endSending { w with phase := .idle }

/-! ## What holds in every state -/

/-- The two sets are apart, and a block in one of them is at the client as it is, unless it waits
for `SetBlockNotSent`. -/
structure Peer.UpToDate (blocks : V3s16 → Block) (c : Peer Block) : Prop where
  disjoint : Disjoint c.client.blocksSending c.client.blocksSent
  current : ∀ p, c.client.Recorded p → p ∉ c.unflagged → c.transmitted p = some (blocks p)

/-- What was selected is not recorded until it is sent, and the cache holds blocks as they are. -/
def Phase.Fits (w : World Block) : Phase Block → Prop
  | .idle => True
  | .collected queue _ => ∀ e ∈ queue, ¬ (w.peers e.1).client.Recorded e.2
  | .sending queue _ cache => (∀ e ∈ queue, e.2 ∉ (w.peers e.1).client.blocksSent) ∧
      ∀ k b, cache k = some b → b = w.blocks k.1

structure Kept (w : World Block) : Prop where
  upToDate : ∀ k, (w.peers k).UpToDate w.blocks
  fits : w.phase.Fits w

variable {w w' : World Block} {peerId : Nat} {p : V3s16}

variable {totalSending : Nat} {f : RemoteClient → RemoteClient}

section

variable (h : Kept w) (hphase : ∀ queue n cache, w.phase ≠ .sending queue n cache)

include h hphase

theorem Kept.within {c : Peer Block}
    (hwithin : RemoteClient.Within (w.peers peerId).client c.client)
    (hcurrent : ∀ p, c.client.Recorded p → p ∉ c.unflagged → c.transmitted p = some (w.blocks p)) :
    Kept (w.setPeer peerId c) := by
  refine ⟨fun k => ?_, ?_⟩
  · by_cases hk : k = peerId
    · have hpeer : (w.setPeer peerId c).peers k = c := if_pos hk
      rw [hpeer]
      exact ⟨hwithin.disjoint (h.upToDate peerId).disjoint, hcurrent⟩
    · have hpeer : (w.setPeer peerId c).peers k = w.peers k := if_neg hk
      rw [hpeer]
      exact h.upToDate k
  · have hfits := h.fits
    cases hw : w.phase with
    | idle =>
      rw [show (w.setPeer peerId c).phase = .idle from hw]
      trivial
    | collected queue n =>
      rw [hw] at hfits
      rw [show (w.setPeer peerId c).phase = .collected queue n from hw]
      intro e he hrec
      by_cases hk : e.1 = peerId
      · have hpeer : (w.setPeer peerId c).peers e.1 = c := if_pos hk
        rw [hpeer] at hrec
        exact hfits e he (hk ▸ hwithin.recorded e.2 hrec)
      · have hpeer : (w.setPeer peerId c).peers e.1 = w.peers e.1 := if_neg hk
        rw [hpeer] at hrec
        exact hfits e he hrec
    | sending queue n cache => exact absurd hw (hphase queue n cache)

theorem Kept.onClient
    (hwithin : RemoteClient.Within (w.peers peerId).client (f (w.peers peerId).client)) :
    Kept (w.onClient peerId f) :=
  h.within hphase hwithin fun p hrec hflag =>
    (h.upToDate peerId).current p (hwithin.recorded p hrec) hflag

end

theorem Kept.modify {b : Block} (h : Kept w) (hidle : w.phase = .idle) : Kept (w.modify p b) := by
  refine ⟨fun k => ⟨(h.upToDate k).disjoint, fun q hrec hflag => ?_⟩, ?_⟩
  · have hne : q ≠ p := fun hq => hflag (hq ▸ Finset.mem_insert_self q _)
    have hblock : (w.modify p b).blocks q = w.blocks q := if_neg hne
    rw [hblock]
    exact (h.upToDate k).current q hrec fun hq => hflag (Finset.mem_insert_of_mem hq)
  · rw [show (w.modify p b).phase = .idle from hidle]
    trivial

section

variable (h : Kept w) (hphase : ∀ queue n cache, w.phase ≠ .sending queue n cache)

include h hphase

theorem Kept.setBlockNotSent {lowPriority : Bool} :
    Kept (w.setBlockNotSent peerId p lowPriority) := by
  have hwithin := RemoteClient.within_setBlockNotSent (w.peers peerId).client p lowPriority
  have hclient := h.onClient (f := fun c => c.setBlockNotSent p lowPriority) hphase hwithin
  have hself : (w.onClient peerId fun c => c.setBlockNotSent p lowPriority).peers peerId =
      { w.peers peerId with client := (w.peers peerId).client.setBlockNotSent p lowPriority } :=
    if_pos rfl
  rw [World.setBlockNotSent]
  dsimp only
  rw [hself]
  refine hclient.within hphase ?_ fun q hrec hflag => ?_
  · rw [hself]
    exact ⟨fun q hq => hq, id⟩
  · rcases RemoteClient.recorded_setBlockNotSent.1 hrec with ⟨hne, hrec⟩
    refine (h.upToDate peerId).current q hrec fun hq => ?_
    exact hflag (Finset.mem_erase.2 ⟨hne, hq⟩)

theorem Kept.sendBlock : Kept (w.sendBlock peerId p) := by
  rw [World.sendBlock]
  split
  · exact h
  · refine h.within hphase ⟨fun q hq => hq, id⟩ fun q hrec hflag => ?_
    dsimp only
    split
    · rename_i hq
      rw [hq]
    · exact (h.upToDate peerId).current q hrec hflag

end

/-! ## The steps of SendBlocks -/

/-- Asking the clients changes neither the blocks nor what the clients have. -/
structure SameRecords (w w' : World Block) : Prop where
  blocks : w'.blocks = w.blocks
  client : ∀ k, RemoteClient.SameRecord (w.peers k).client (w'.peers k).client
  transmitted : ∀ k, (w'.peers k).transmitted = (w.peers k).transmitted
  unflagged : ∀ k, (w'.peers k).unflagged = (w.peers k).unflagged

theorem SameRecords.refl (w : World Block) : SameRecords w w :=
  ⟨rfl, fun _ => ⟨rfl, rfl⟩, fun _ => rfl, fun _ => rfl⟩

theorem SameRecords.trans {w'' : World Block} (h : SameRecords w w') (h' : SameRecords w' w'') :
    SameRecords w w'' :=
  ⟨h'.blocks.trans h.blocks, fun k => (h.client k).trans (h'.client k),
    fun k => (h'.transmitted k).trans (h.transmitted k),
    fun k => (h'.unflagged k).trans (h.unflagged k)⟩

theorem sameRecords_onClient
    (hf : RemoteClient.SameRecord (w.peers peerId).client (f (w.peers peerId).client)) :
    SameRecords w (w.onClient peerId f) := by
  have hpeer : ∀ k, (w.onClient peerId f).peers k = w.peers k ∨
      k = peerId ∧ (w.onClient peerId f).peers k =
        { w.peers k with client := f (w.peers k).client } := by
    intro k
    by_cases hk : k = peerId
    · subst hk
      exact .inr ⟨rfl, if_pos rfl⟩
    · exact .inl (if_neg hk)
  refine ⟨rfl, fun k => ?_, fun k => ?_, fun k => ?_⟩
  · rcases hpeer k with hk | ⟨rfl, hk⟩
    · rw [hk]
      exact ⟨rfl, rfl⟩
    · rw [hk]
      exact hf
  · rcases hpeer k with hk | ⟨rfl, hk⟩ <;> rw [hk]
  · rcases hpeer k with hk | ⟨rfl, hk⟩ <;> rw [hk]

theorem collect_spec (views : List (Nat × View)) (w : World Block) :
    SameRecords w (w.collect views).1 ∧
      ∀ e ∈ (w.collect views).2.1, ¬ (w.peers e.1).client.Recorded e.2 := by
  induction views generalizing w with
  | nil => exact ⟨.refl w, fun e he => absurd he List.not_mem_nil⟩
  | cons entry views ih =>
    rcases entry with ⟨peerId, v⟩
    rcases RemoteClient.getNextBlocks_spec (w.peers peerId).client v with ⟨hsame, hdest⟩
    have hfirst : SameRecords w (w.onClient peerId fun _ =>
        ((w.peers peerId).client.getNextBlocks v).1) := sameRecords_onClient hsame
    rcases ih (w.onClient peerId fun _ => ((w.peers peerId).client.getNextBlocks v).1) with
      ⟨hrest, hqueue⟩
    refine ⟨hfirst.trans hrest, fun e he => ?_⟩
    rcases List.mem_append.1 he with he | he
    · rcases List.mem_map.1 he with ⟨p, hp, rfl⟩
      exact hdest p hp
    · intro hrec
      exact hqueue e he (((hfirst.client e.1).recorded e.2).2 hrec)

theorem Kept.collect {views : List (Nat × View)} (h : Kept w) :
    Kept { (w.collect views).1 with
      phase := .collected (w.collect views).2.1 totalSending } := by
  rcases collect_spec views w with ⟨hsame, hqueue⟩
  refine ⟨fun k => ⟨?_, fun p hrec hflag => ?_⟩, fun e he hrec => ?_⟩
  · have hdisjoint := (h.upToDate k).disjoint
    dsimp only
    rw [(hsame.client k).sending, (hsame.client k).sent]
    exact hdisjoint
  · dsimp only at hrec hflag ⊢
    rw [hsame.unflagged] at hflag
    rw [hsame.transmitted, hsame.blocks]
    exact (h.upToDate k).current p (((hsame.client k).recorded p).1 hrec) hflag
  · exact hqueue e he (((hsame.client e.1).recorded e.2).1 hrec)

theorem Kept.startSending {queue queue' : List BlockTransfer} {totalSending n : Nat} (h : Kept w)
    (hphase : w.phase = .collected queue totalSending) (hperm : queue'.Perm queue) :
    Kept { w with phase := .sending queue' n fun _ => none } := by
  have hfits := h.fits
  rw [hphase] at hfits
  refine ⟨h.upToDate, fun e he hsent => ?_, fun k b hb => nomatch hb⟩
  exact hfits e (hperm.mem_iff.1 he) (.inr hsent)

/-- The block that is sent is as it is in the world, also when it comes from the cache. -/
theorem Kept.sendNext {queue : List BlockTransfer} {cache : V3s16 × Nat → Option Block}
    {cached : Bool} (h : Kept w)
    (hphase : w.phase = .sending ((peerId, p) :: queue) totalSending cache) :
    Kept (w.sendNext peerId p queue totalSending cache cached) := by
  have hfits := h.fits
  rw [hphase] at hfits
  rcases hfits with ⟨hqueue, hcache⟩
  have hsent : p ∉ (w.peers peerId).client.blocksSent := hqueue (peerId, p) List.mem_cons_self
  have hblock : (if cached then (cache (p, (w.peers peerId).serializationVersion)).getD
      (w.blocks p) else w.blocks p) = w.blocks p := by
    split
    · cases hkey : cache (p, (w.peers peerId).serializationVersion) with
      | none => rfl
      | some b => exact hcache _ b hkey
    · rfl
  rw [World.sendNext, hblock]
  have hself : ((w.transmit peerId p (w.blocks p)).onClient peerId
      fun c => c.sentBlock p).peers peerId = { w.peers peerId with
        client := (w.peers peerId).client.sentBlock p
        transmitted := fun q => if q = p then some (w.blocks p)
          else (w.peers peerId).transmitted q } := by
    simp only [World.onClient, World.transmit, World.setPeer, if_true]
  have hother : ∀ k, k ≠ peerId → ((w.transmit peerId p (w.blocks p)).onClient peerId
      fun c => c.sentBlock p).peers k = w.peers k := by
    intro k hk
    simp only [World.onClient, World.transmit, World.setPeer, if_neg hk]
  have hpeer := h.upToDate peerId
  refine ⟨fun k => ?_, fun e he => ?_, fun k b hb => ?_⟩
  · dsimp only
    by_cases hk : k = peerId
    · subst hk
      rw [hself]
      refine ⟨Finset.disjoint_insert_left.2 ⟨hsent, hpeer.disjoint⟩, fun q hrec hflag => ?_⟩
      dsimp only at hflag ⊢
      split
      · rename_i hq
        rw [hq]
        rfl
      · rename_i hq
        refine hpeer.current q (hrec.imp_left fun hmem => ?_) hflag
        exact (Finset.mem_insert.1 hmem).resolve_left hq
    · rw [hother k hk]
      exact h.upToDate k
  · dsimp only
    by_cases hk : e.1 = peerId
    · rw [hk, hself, ← hk]
      exact hqueue e (List.mem_cons_of_mem _ he)
    · rw [hother e.1 hk]
      exact hqueue e (List.mem_cons_of_mem _ he)
  · split at hb
    · dsimp only at hb
      split at hb
      · rename_i hkey
        cases hb
        rw [hkey]
        rfl
      · exact hcache k b hb
    · exact hcache k b hb

/-! ## Every step, and every run -/

theorem Kept.step {maxBlocksToSend : Nat} {e : Event Block} (h : Kept w)
    (hstep : Step maxBlocksToSend w e w') : Kept w' := by
  cases hstep with
  | modify hidle => exact h.modify hidle
  | setBlockNotSent hphase => exact h.setBlockNotSent hphase
  | resendBlockIfOnWire hphase =>
    exact h.onClient hphase (RemoteClient.within_resendBlockIfOnWire _ _)
  | gotBlock hphase => exact h.onClient hphase (RemoteClient.within_gotBlock _ _)
  | sendBlock hphase => exact h.sendBlock hphase
  | join hphase hsent hsending =>
    have hnone : ∀ p, ¬ RemoteClient.Recorded _ p := fun p hrec =>
      hrec.elim (hsending ▸ Finset.notMem_empty p) (hsent ▸ Finset.notMem_empty p)
    refine h.within hphase ⟨fun p hrec => absurd hrec (hnone p), fun _ => ?_⟩
      fun p hrec _ => absurd hrec (hnone p)
    dsimp only
    rw [hsending]
    exact Finset.disjoint_empty_left _
  | @collect w₁ views queue totalSending hidle hcollect =>
    have hkept : Kept { (w.collect views).1 with
        phase := .collected (w.collect views).2.1 totalSending } := h.collect
    rw [hcollect] at hkept
    exact hkept
  | startSending hphase hperm => exact h.startSending hphase hperm
  | send hphase _ => exact h.sendNext hphase
  | skip hphase _ =>
    have hfits := h.fits
    rw [hphase] at hfits
    exact ⟨h.upToDate, fun e he => hfits.1 e (List.mem_cons_of_mem _ he), hfits.2⟩
  | endSending _ _ => exact ⟨h.upToDate, trivial⟩

/-- Nobody has been sent anything yet. -/
structure World.Started (w : World Block) : Prop where
  idle : w.phase = .idle
  sending : ∀ k, (w.peers k).client.blocksSending = ∅
  sent : ∀ k, (w.peers k).client.blocksSent = ∅

theorem World.Started.kept (h : w.Started) : Kept w := by
  have hnone : ∀ k p, ¬ (w.peers k).client.Recorded p := fun k p hrec =>
    hrec.elim (h.sending k ▸ Finset.notMem_empty p) (h.sent k ▸ Finset.notMem_empty p)
  refine ⟨fun k => ⟨?_, fun p hrec => absurd hrec (hnone k p)⟩, ?_⟩
  · rw [h.sending k]
    exact Finset.disjoint_empty_left _
  · rw [h.idle]
    trivial

/-- However modifications, acknowledgements and sends follow each other: the blocks under way to a
client and those it has acknowledged are apart, each of them was last transmitted as it is now
unless it waits for `SetBlockNotSent`, and any other block is selected like one never sent. -/
theorem no_outdated_block {maxBlocksToSend : Nat} {es : List (Event Block)} (hstart : w.Started)
    (hrun : Run (Step maxBlocksToSend) w es w') (k : Nat) :
    Disjoint (w'.peers k).client.blocksSending (w'.peers k).client.blocksSent ∧
      (∀ p, p ∈ (w'.peers k).client.blocksSending ∨ p ∈ (w'.peers k).client.blocksSent →
        p ∉ (w'.peers k).unflagged → (w'.peers k).transmitted p = some (w'.blocks p)) ∧
      ∀ p, (w'.peers k).transmitted p ≠ some (w'.blocks p) → p ∉ (w'.peers k).unflagged →
        (w'.peers k).client.Eligible p := by
  have hkept : Kept w' := hrun.invariant (P := Kept) (fun _ _ _ h hst => h.step hst) hstart.kept
  have hpeer := hkept.upToDate k
  refine ⟨hpeer.disjoint, hpeer.current, fun p hold hflag => ?_⟩
  exact RemoteClient.eligible_of_not_recorded fun hrec => hold (hpeer.current p hrec hflag)

end

/-! ## One block, changed while it is under way -/

def origin : V3s16 := ⟨0, 0, 0⟩

def newClient : RemoteClient where
  maxSimulSends := 40
  blockCullOptimizeDistance := 25
  occCull := false

/-- The client sees the block at the origin, and nothing else. -/
def originView : View where
  dtime := 90
  unloadTimeout := 29000
  hasPlayer := true
  center := origin
  cameraTurned := false
  maxSimulSendsUsually := 40
  fullDMax := 0
  dOpt := 4
  dCullOpt := 25
  dMaxGen := 0
  facePositions := fun _ => [origin]
  blockposOverMaxLimit := fun _ => false
  isBlockInSight := fun _ => true
  block := fun _ => some { isGenerated := true, isAir := false }
  isBlockInQueue := fun _ => false
  isBlockOccluded := fun _ _ => false
  enqueueBlockEmerge := fun _ _ => false

/-- Blocks numbered by how often they were changed. -/
def newWorld : World Nat where
  blocks := fun _ => 0
  peers := fun _ => { client := newClient, serializationVersion := 29 }
  phase := .idle

/-- The acknowledgement of the old copy comes after the change. -/
def changedOnTheWay : List (Event Nat) :=
  [.collect [(0, originView)], .startSending [(0, origin)], .send false, .endSending,
    .modify origin 1, .setBlockNotSent 0 origin false, .gotBlock 0 origin]

theorem no_outdated_block_one : ∃ w, Run (Step 1) newWorld changedOnTheWay w ∧
    (w.peers 0).transmitted origin = some 0 ∧ (w.peers 0).client.Eligible origin := by
  have hrun : Run (Step 1) newWorld changedOnTheWay _ :=
    .cons (.collect rfl rfl) <| .cons (.startSending rfl (.refl [(0, origin)])) <|
      .cons (.send rfl (by decide)) <| .cons (.endSending rfl (.inl rfl)) <|
        .cons (.modify rfl) <| .cons (.setBlockNotSent fun _ _ _ => nofun) <|
          .single (.gotBlock fun _ _ _ => nofun)
  refine ⟨_, hrun, rfl, ?_⟩
  exact (no_outdated_block ⟨rfl, fun _ => rfl, fun _ => rfl⟩ hrun 0).2.2 origin (by decide)
    (by decide)
end Server
end AxisEngine
