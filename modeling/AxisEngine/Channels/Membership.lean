import AxisEngine.Channels.ModChannels

/-!
# Membership — the consumers of a channel are those who joined it

`DisconnectPeer` takes a peer off every channel but lets an empty channel stand, and `deletingPeer`
takes it off none.  Where a peer that is deleted is on no channel any more, and a peer that is
disconnected is on no channel alone, the table of channels agrees with what the connections did.

* `Covered` — a table whose channels are not empty and whose consumers satisfy a relation;
* `Covered.joinChannel`, `Covered.leaveChannel`, `Covered.leaveAllChannels` — the operations;
* `Tidy` — the condition on a step;
* `channels_sound` — along runs whose steps are tidy.
-/

namespace AxisEngine
namespace Channels

open Lib Login

/-! ## The table of channels -/

namespace ModChannel

variable {ch : ModChannel} {p q : SessionT}

theorem mem_registerConsumer :
    q ∈ (ch.registerConsumer p).1.clientConsumers ↔ q ∈ ch.clientConsumers ∨ q = p := by
  rw [registerConsumer]
  split
  case isTrue hp =>
    refine ⟨Or.inl, ?_⟩
    rintro (hq | rfl)
    · exact hq
    · exact hp
  case isFalse hp =>
    simp

theorem nodup_registerConsumer (h : ch.clientConsumers.Nodup) :
    (ch.registerConsumer p).1.clientConsumers.Nodup := by
  rw [registerConsumer]
  split
  case isTrue hp => exact h
  case isFalse hp =>
    refine List.nodup_append.2 ⟨h, List.nodup_singleton p, ?_⟩
    intro a ha b hb
    have hbp : b = p := List.mem_singleton.1 hb
    subst hbp
    rintro rfl
    exact hp ha

theorem mem_removeConsumer :
    q ∈ (ch.removeConsumer p).1.clientConsumers ↔ q ∈ ch.clientConsumers ∧ q ≠ p := by
  simp [removeConsumer]

theorem nodup_removeConsumer (h : ch.clientConsumers.Nodup) :
    (ch.removeConsumer p).1.clientConsumers.Nodup :=
  h.filter _

/-- Without duplicates, a channel is left empty only by its one consumer. -/
theorem removeConsumer_ne_nil (hnodup : ch.clientConsumers.Nodup) (hne : ch.clientConsumers ≠ [])
    (halone : ch.clientConsumers ≠ [p]) : (ch.removeConsumer p).1.clientConsumers ≠ [] := by
  intro hnil
  have hall : ∀ q ∈ ch.clientConsumers, q = p := by
    intro q hq
    by_contra hqp
    have hmem : q ∈ (ch.removeConsumer p).1.clientConsumers := mem_removeConsumer.2 ⟨hq, hqp⟩
    rw [hnil] at hmem
    exact List.not_mem_nil hmem
  cases hconsumers : ch.clientConsumers with
  | nil => exact hne hconsumers
  | cons a rest =>
    rw [hconsumers] at hall hnodup
    have ha : a = p := hall a List.mem_cons_self
    cases rest with
    | nil => exact halone (by rw [hconsumers, ha])
    | cons b rest =>
      have hb : b = p := hall b (List.mem_cons_of_mem _ List.mem_cons_self)
      have hab : a ∉ b :: rest := (List.nodup_cons.1 hnodup).1
      exact hab (by rw [ha, ← hb]; exact List.mem_cons_self)

end ModChannel

/-- Every channel has consumers, without duplicates, and each of them may be one. -/
def Covered (m : ModChannelMgr) (may : Bytes → SessionT → Prop) : Prop :=
  ∀ channel ch, m channel = some ch →
    ch.clientConsumers ≠ [] ∧ ch.clientConsumers.Nodup ∧ ∀ p ∈ ch.clientConsumers, may channel p

namespace Covered

variable {m : ModChannelMgr} {may may' : Bytes → SessionT → Prop} {channel : Bytes} {p : SessionT}

section

variable (h : Covered m may)

include h

theorem mono (hmay : ∀ c q, may c q → may' c q) : Covered m may' := by
  intro c ch hch
  rcases h c ch hch with ⟨hne, hnodup, hall⟩
  exact ⟨hne, hnodup, fun q hq => hmay c q (hall q hq)⟩

theorem update {ch : ModChannel} (hne : ch.clientConsumers ≠ [])
    (hnodup : ch.clientConsumers.Nodup) (hall : ∀ q ∈ ch.clientConsumers, may channel q) :
    Covered (Function.update m channel (some ch)) may := by
  intro c ch' hch'
  by_cases hc : c = channel
  · subst hc
    rw [Function.update_self] at hch'
    cases hch'
    exact ⟨hne, hnodup, hall⟩
  · rw [Function.update_of_ne hc] at hch'
    exact h c ch' hch'

theorem joinChannel (hp : may channel p) : Covered (m.joinChannel channel p).1 may := by
  have hnodup : ((m channel).getD {}).clientConsumers.Nodup := by
    cases hch : m channel with
    | none => exact List.nodup_nil
    | some ch => exact (h channel ch hch).2.1
  refine h.update ?_ (ModChannel.nodup_registerConsumer hnodup) ?_
  · exact List.ne_nil_of_mem (ModChannel.mem_registerConsumer.2 (.inr rfl))
  · intro q hq
    rcases ModChannel.mem_registerConsumer.1 hq with hq | rfl
    · cases hch : m channel with
      | none =>
        rw [hch] at hq
        exact absurd hq List.not_mem_nil
      | some ch =>
        rw [hch] at hq
        exact (h channel ch hch).2.2 q hq
    · exact hp

theorem setChannelState (state : ModChannelState) :
    Covered (m.setChannelState channel state).1 may := by
  rw [ModChannelMgr.setChannelState]
  split
  case h_1 ch hch =>
    rcases h channel ch hch with ⟨hne, hnodup, hall⟩
    exact h.update hne hnodup hall
  case h_2 => exact h

/-- Who leaves a channel need not be allowed on it any more. -/
theorem leaveChannel (hmay : ∀ c q, may c q → ¬ (channel = c ∧ p = q) → may' c q) :
    Covered (m.leaveChannel channel p).1 may' := by
  -- the other channels stay, and their consumers are not the one that leaves
  have hother : ∀ c ch, c ≠ channel → m c = some ch →
      ch.clientConsumers ≠ [] ∧ ch.clientConsumers.Nodup ∧ ∀ q ∈ ch.clientConsumers, may' c q := by
    intro c ch hc hch
    rcases h c ch hch with ⟨hne, hnodup, hall⟩
    exact ⟨hne, hnodup, fun q hq => hmay c q (hall q hq) fun heq => hc heq.1.symm⟩
  intro c ch' hch'
  rw [ModChannelMgr.leaveChannel] at hch'
  cases hch : m channel with
  | none =>
    rw [hch] at hch'
    have hold : m c = some ch' := hch'
    refine hother c ch' ?_ hold
    rintro rfl
    rw [hch] at hold
    cases hold
  | some ch =>
    rw [hch] at hch'
    dsimp only at hch'
    by_cases hc : c = channel
    · subst hc
      rcases h c ch hch with ⟨-, hnodup, hall⟩
      by_cases hnil : (ch.removeConsumer p).1.clientConsumers = []
      · rw [if_pos hnil, ModChannelMgr.removeChannel, Function.update_self] at hch'
        cases hch'
      · rw [if_neg hnil, Function.update_self] at hch'
        cases hch'
        refine ⟨hnil, ModChannel.nodup_removeConsumer hnodup, fun q hq => ?_⟩
        rcases ModChannel.mem_removeConsumer.1 hq with ⟨hq, hqp⟩
        exact hmay c q (hall q hq) fun heq => hqp heq.2.symm
    · refine hother c ch' hc ?_
      by_cases hnil : (ch.removeConsumer p).1.clientConsumers = []
      · rw [if_pos hnil, ModChannelMgr.removeChannel, Function.update_of_ne hc,
          Function.update_of_ne hc] at hch'
        exact hch'
      · rw [if_neg hnil, Function.update_of_ne hc] at hch'
        exact hch'

theorem leaveAllChannels (halone : ∀ channel ch, m channel = some ch → ch.clientConsumers ≠ [p]) :
    Covered (m.leaveAllChannels p) fun c q => may c q ∧ q ≠ p := by
  intro c ch' hch'
  rcases Option.map_eq_some_iff.1 hch' with ⟨ch, hch, rfl⟩
  rcases h c ch hch with ⟨hne, hnodup, hall⟩
  refine ⟨ModChannel.removeConsumer_ne_nil hnodup hne (halone c ch hch),
    ModChannel.nodup_removeConsumer hnodup, fun q hq => ?_⟩
  rcases ModChannel.mem_removeConsumer.1 hq with ⟨hq, hqp⟩
  exact ⟨hall q hq, hqp⟩

/-- Who is on no channel need not be allowed on one. -/
theorem avoid (habsent : ∀ channel ch, m channel = some ch → p ∉ ch.clientConsumers) :
    Covered m fun c q => may c q ∧ q ≠ p := by
  intro c ch hch
  rcases h c ch hch with ⟨hne, hnodup, hall⟩
  refine ⟨hne, hnodup, fun q hq => ⟨hall q hq, ?_⟩⟩
  rintro rfl
  exact habsent c ch hch hq

end

end Covered

/-! ## One step -/

namespace ChannelServer

variable {s : ChannelServer} {channel : Bytes} {p : SessionT}

/-- Who may be on a channel. -/
def Belongs (s : ChannelServer) (channel : Bytes) (p : SessionT) : Prop :=
  Joined channel p s.log ∧ (p = peerIdServer ∨ p ∈ s.clients)

theorem sound_iff :
    Sound s ↔ Covered s.modchannelMgr s.Belongs ∧ SentToJoined s.log := by
  constructor
  · intro h
    refine ⟨fun channel ch hch => ?_, h.sent⟩
    exact ⟨h.nonempty channel ch hch, h.nodup channel ch hch,
      fun p hp => h.consumer channel ch p hch hp⟩
  · rintro ⟨hcovered, hsent⟩
    exact {
      consumer := fun channel ch p hch hp => (hcovered channel ch hch).2.2 p hp
      nodup := fun channel ch hch => (hcovered channel ch hch).2.1
      nonempty := fun channel ch hch => (hcovered channel ch hch).1
      sent := hsent }

section

variable (h : Sound s)

include h

/-- Only the connections' states have changed. -/
theorem Sound.of_clients {clients : Clients} (hclients : ∀ q, q ∈ s.clients → q ∈ clients) :
    Sound { s with clients := clients } := by
  rcases sound_iff.1 h with ⟨hcovered, hsent⟩
  refine sound_iff.2 ⟨hcovered.mono ?_, hsent⟩
  rintro c q ⟨hjoined, hq⟩
  exact ⟨hjoined, hq.imp_right (hclients q)⟩

theorem sound_notify (e : ClientStateEvent) : Sound (s.notify p e) := by
  refine Sound.of_clients h fun q hq => ?_
  cases hevent : s.clients.event p e with
  | none => exact hq
  | some clients => exact (Clients.mem_of_event hevent).2 hq

theorem sound_disconnectPeer
    (halone : ∀ channel ch, s.modchannelMgr channel = some ch → ch.clientConsumers ≠ [p]) :
    Sound (s.disconnectPeer p) := by
  rcases sound_iff.1 h with ⟨hcovered, hsent⟩
  exact sound_iff.2 ⟨(hcovered.leaveAllChannels halone).mono fun _ _ hmay => hmay.1, hsent⟩

theorem sound_setPendingSerializationVersion (version : UInt8) :
    Sound (s.setPendingSerializationVersion p version) := by
  rw [setPendingSerializationVersion]
  split
  case h_1 => exact h
  case h_2 c hc => exact Sound.of_clients h fun q hq => (AList.mem_insert s.clients).2 (.inr hq)

theorem sound_peerAdded (hp : 2 ≤ p) (hnew : p ∉ s.clients) : Sound (s.peerAdded p) := by
  rcases sound_iff.1 h with ⟨hcovered, hsent⟩
  refine sound_iff.2 ⟨hcovered.mono ?_, hsent⟩
  rintro c q ⟨hjoined, hq⟩
  have hqp : p ≠ q := by
    rintro rfl
    rcases hq with rfl | hq
    · exact absurd hp (by decide)
    · exact hnew hq
  exact ⟨⟨hqp, hjoined⟩, hq.imp_right fun hq => Clients.mem_createClient.2 (.inr hq)⟩

theorem sound_deletingPeer
    (habsent : ∀ channel ch, s.modchannelMgr channel = some ch → p ∉ ch.clientConsumers) :
    Sound (s.deletingPeer p) := by
  rcases sound_iff.1 (sound_notify h .disconnect (p := p)) with ⟨hcovered, hsent⟩
  refine sound_iff.2 ⟨(hcovered.avoid habsent).mono ?_, hsent⟩
  rintro c q ⟨⟨hjoined, hq⟩, hqp⟩
  exact ⟨⟨hqp.symm, hjoined⟩, hq.imp_right fun hq => AList.mem_erase.2 ⟨hqp, hq⟩⟩

end

theorem joinChannel_snd {m : ModChannelMgr} (h : (m.joinChannel channel p).2 = false) :
    ∃ ch, m channel = some ch ∧ p ∈ ch.clientConsumers := by
  have hmem : p ∈ ((m channel).getD {}).clientConsumers := by
    by_contra hp
    have htrue : (m.joinChannel channel p).2 = true := by
      rw [ModChannelMgr.joinChannel]
      dsimp only
      rw [ModChannel.registerConsumer, if_neg hp]
    rw [htrue] at h
    cases h
  cases hch : m channel with
  | none =>
    rw [hch] at hmem
    exact absurd hmem List.not_mem_nil
  | some ch =>
    rw [hch] at hmem
    exact ⟨ch, rfl, hmem⟩

/-- Whoever joins is on the channel, now or already. -/
theorem sound_join (h : Sound s) (hp : p = peerIdServer ∨ p ∈ s.clients) :
    Sound (s.join channel p) := by
  rcases sound_iff.1 h with ⟨hcovered, hsent⟩
  cases hjoined : (s.modchannelMgr.joinChannel channel p).2 with
  | true =>
    have hlog : (s.join channel p).log = .joined channel p :: s.log := by
      rw [join]
      dsimp only
      rw [if_pos hjoined]
    have hmay : ∀ c q, s.Belongs c q → (s.join channel p).Belongs c q := by
      rintro c q ⟨hold, hq⟩
      refine ⟨?_, hq⟩
      rw [hlog]
      exact .inr hold
    refine sound_iff.2 ⟨(hcovered.mono hmay).joinChannel ⟨?_, hp⟩, ?_⟩
    · rw [hlog]
      exact .inl ⟨rfl, rfl⟩
    · rw [hlog]
      exact hsent
  | false =>
    have hlog : (s.join channel p).log = s.log := by
      rw [join]
      dsimp only
      rw [if_neg (by rw [hjoined]; exact Bool.false_ne_true)]
    have hmay : ∀ c q, s.Belongs c q → (s.join channel p).Belongs c q := by
      rintro c q ⟨hold, hq⟩
      refine ⟨?_, hq⟩
      rw [hlog]
      exact hold
    rcases joinChannel_snd hjoined with ⟨ch, hch, hmem⟩
    refine sound_iff.2 ⟨(hcovered.mono hmay).joinChannel ?_, ?_⟩
    · exact hmay _ _ ((hcovered channel ch hch).2.2 p hmem)
    · rw [hlog]
      exact hsent

theorem sound_joinModChannel (h : Sound s) : Sound (s.joinModChannel channel) := by
  have hjoin : Sound (s.join channel peerIdServer) := sound_join h (.inl rfl)
  rw [joinModChannel]
  split
  case isTrue =>
    rcases sound_iff.1 hjoin with ⟨hcovered, hsent⟩
    exact sound_iff.2 ⟨hcovered.setChannelState .readWrite, hsent⟩
  case isFalse => exact hjoin

theorem sound_leave (h : Sound s) : Sound (s.leave channel p) := by
  rcases sound_iff.1 h with ⟨hcovered, hsent⟩
  refine sound_iff.2 ⟨hcovered.leaveChannel ?_, hsent⟩
  rintro c q ⟨hjoined, hq⟩ hne
  exact ⟨⟨hne, hjoined⟩, hq⟩

/-- The messages of one broadcast; nobody joins or leaves by them. -/
theorem sent_foldl {peers : List SessionT} (sender message : Bytes) (fromPeer : SessionT)
    {log : List Deed} (hsent : SentToJoined log) (hpeers : ∀ p ∈ peers, Joined channel p log) :
    let log' := peers.foldl (fun log p =>
      if p = fromPeer then log else .sent p channel sender message :: log) log
    SentToJoined log' ∧ ∀ c q, Joined c q log' ↔ Joined c q log := by
  induction peers generalizing log with
  | nil => exact ⟨hsent, fun c q => Iff.rfl⟩
  | cons p peers ih =>
    rw [List.forall_mem_cons] at hpeers
    rcases hpeers with ⟨hp, hpeers⟩
    dsimp only
    rw [List.foldl_cons]
    by_cases hfrom : p = fromPeer
    · rw [if_pos hfrom]
      exact ih hsent hpeers
    · rw [if_neg hfrom]
      have hlog : SentToJoined (.sent p channel sender message :: log) := ⟨hp, hsent⟩
      exact ih hlog hpeers

theorem sound_broadcastModChannelMessage (h : Sound s) {message sender : Bytes}
    {fromPeer : SessionT} :
    Sound (s.broadcastModChannelMessage channel message fromPeer sender) := by
  rcases sound_iff.1 h with ⟨hcovered, hsent⟩
  rw [broadcastModChannelMessage]
  dsimp only
  split
  · exact h
  split
  · exact h
  split
  · exact h
  have hpeers : ∀ p ∈ s.modchannelMgr.getChannelPeers channel, Joined channel p s.log := by
    intro p hp
    rw [ModChannelMgr.getChannelPeers] at hp
    cases hch : s.modchannelMgr channel with
    | none =>
      rw [hch] at hp
      exact absurd hp List.not_mem_nil
    | some ch =>
      rw [hch] at hp
      exact ((hcovered channel ch hch).2.2 p hp).1
  rcases sent_foldl sender message fromPeer hsent hpeers with ⟨hsent', hjoined'⟩
  refine sound_iff.2 ⟨hcovered.mono ?_, ?_⟩
  · rintro c q ⟨hold, hq⟩
    refine ⟨?_, hq⟩
    dsimp only
    split
    · exact (hjoined' c q).2 hold
    · exact (hjoined' c q).2 hold
  · dsimp only
    split
    · exact hsent'
    · exact hsent'

/-- What is asked of a step: a peer that is deleted is on no channel, and a peer that is
disconnected is on no channel alone. -/
def Tidy (s : ChannelServer) : Event → Prop
  | .deletingPeer p _ =>
    ∀ channel ch, s.modchannelMgr channel = some ch → p ∉ ch.clientConsumers
  | .denyAccess p | .disconnectPeer p =>
    ∀ channel ch, s.modchannelMgr channel = some ch → ch.clientConsumers ≠ [p]
  | _ => True

theorem sound_step {s t : ChannelServer} {e : Event} (h : Sound s) (htidy : s.Tidy e)
    (hstep : Step s e t) : Sound t := by
  cases hstep with
  | apply hpossible =>
    cases e with
    | peerAdded p => exact sound_peerAdded h hpossible.1 hpossible.2
    | deletingPeer p timeout => exact sound_deletingPeer h htidy
    | denyAccess p => exact sound_disconnectPeer (sound_notify h .setDenied) htidy
    | disconnectPeer p => exact sound_disconnectPeer h htidy
    | setPendingSerializationVersion p version =>
      exact sound_setPendingSerializationVersion h version
    | notify p e => exact sound_notify h e
    | modChannelJoin p data enabled =>
      rw [apply]
      split
      case isFalse => exact h
      case isTrue hadmits =>
        rw [handleCommandModChannelJoin]
        split
        · exact h
        split
        · exact sound_join h (.inr (Clients.mem_of_admits (by decide) hadmits))
        · exact h
    | modChannelLeave p data enabled =>
      rw [apply, handleCommandModChannelLeave]
      split
      case isFalse => exact h
      split
      · exact h
      split
      · exact sound_leave h
      · exact h
    | modChannelMsg p data enabled playerName =>
      rw [apply, handleCommandModChannelMsg]
      split
      case isFalse => exact h
      split
      · exact h
      split
      case isFalse => exact h
      split
      · exact h
      · exact sound_broadcastModChannelMessage h
    | joinModChannel channel => exact sound_joinModChannel h
    | leaveModChannel channel => exact sound_leave h
    | sendModChannelMessage channel message =>
      rw [apply, sendModChannelMessage]
      split
      · exact sound_broadcastModChannelMessage h
      · exact h

/-- A step that is not tidy leaves a channel behind that is wrong. -/
theorem not_sound_step {s t : ChannelServer} {e : Event} (htidy : ¬ s.Tidy e)
    (hstep : Step s e t) : ¬ Sound t := by
  have hempty : ∀ {s : ChannelServer} {p : SessionT},
      ¬ (∀ channel ch, s.modchannelMgr channel = some ch → ch.clientConsumers ≠ [p]) →
        ¬ Sound (s.disconnectPeer p) := by
    intro s p halone hsound
    simp only [not_forall, not_not] at halone
    rcases halone with ⟨channel, ch, hch, hconsumers⟩
    have hleft : (s.disconnectPeer p).modchannelMgr channel = some (ch.removeConsumer p).1 := by
      change (s.modchannelMgr channel).map (fun ch => (ch.removeConsumer p).1) = _
      rw [hch, Option.map_some]
    have hnone : (ch.removeConsumer p).1.clientConsumers = [] := by
      rw [ModChannel.removeConsumer, hconsumers]
      simp
    exact hsound.nonempty channel _ hleft hnone
  cases hstep with
  | apply hpossible =>
    cases e with
    | deletingPeer p timeout =>
      intro hsound
      simp only [Tidy, not_forall, not_not] at htidy
      rcases htidy with ⟨channel, ch, hch, hp⟩
      have hjoined : Joined channel p (.gone p :: s.log) :=
        (hsound.consumer channel ch p hch hp).1
      exact hjoined.1 rfl
    | denyAccess p => exact hempty (s := s.notify p .setDenied) htidy
    | disconnectPeer p => exact hempty htidy
    | _ => exact absurd trivial htidy

end ChannelServer

/-! ## Whole runs -/

/-- A run goes through states with sound channels exactly if each of its steps is tidy. -/
theorem channels_sound {es : List Event} {s : ChannelServer} :
    Run.Guarded ChannelServer.Tidy ChannelServer.Step {} es s ↔
      Run (fun s e t => ChannelServer.Step s e t ∧ Sound t) {} es s := by
  refine Run.guarded_iff (fun s e t hs => ChannelServer.sound_step hs)
    (fun s e t _ => ChannelServer.not_sound_step) ?_
  exact {
    consumer := fun channel ch p hch => by cases hch
    nodup := fun channel ch hch => by cases hch
    nonempty := fun channel ch hch => by cases hch
    sent := trivial }

/-- A connection gets as far as the game, joins a channel, and times out. -/
def timesOut : List Event :=
  [.peerAdded 2, .setPendingSerializationVersion 2 29, .notify 2 .hello, .notify 2 .authAccept,
    .notify 2 .gotInit2, .notify 2 .setDefinitionsSent, .notify 2 .setClientReady,
    .modChannelJoin 2 [0, 1, 97] true, .deletingPeer 2 true]

/-- Nobody with this id is connected, and it is on the channel still. -/
theorem timesOut_staysOn : ∃ s, Run ChannelServer.Step {} timesOut s ∧
    s.modchannelMgr.getChannelPeers [97] = [2] ∧ 2 ∉ s.clients := by
  refine ⟨timesOut.foldl ChannelServer.apply {}, ?_, by decide, by decide⟩
  exact .cons (.apply ⟨by decide, by decide⟩) <| .cons (.apply trivial) <|
    .cons (.apply trivial) <| .cons (.apply trivial) <| .cons (.apply trivial) <|
    .cons (.apply trivial) <| .cons (.apply trivial) <| .cons (.apply trivial) <|
    .cons (.apply (AList.lookup_isSome.1 rfl)) <| .nil _

end Channels
end AxisEngine
