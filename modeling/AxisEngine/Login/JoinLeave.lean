import AxisEngine.Login.Moves
import AxisEngine.Lib.InTurn
import AxisEngine.Lib.Transition

/-!
# JoinLeave — a game is told of each player who joins, and then that they leave

CLIENT_READY puts the player into the environment and then moves the state on, and the deletion of a
connection asks the environment.  So the calls pair up as long as a player comes from the state that
may become active, and no player of that name is in the game.

* `presence`, `Paired` — the calls for a name are made in turn;
* `ReadyInOrder` — when CLIENT_READY is harmless;
* `joins_paired` — runs of harmless steps;
* `adaLeaves_unpaired` — a leave without a join, and two joins without a leave.
-/

namespace AxisEngine
namespace Login

open Lib

/-- A join opens and a leave closes. -/
def presence (name : Bytes) : Deed → Option Bool
  | .joinPlayer n => if n = name then some true else none
  | .leavePlayer n => if n = name then some false else none
  | _ => none

/-- No player comes or goes. -/
def NoPlayer : Deed → Prop
  | .joinPlayer _ | .leavePlayer _ => False
  | _ => True

/-- For each name, joins and leaves are told in turn, beginning with a join. -/
def Paired (log : List Deed) : Prop :=
  ∀ name, InTurn (presence name) log

namespace Server

variable {A : Type}

/-- A CLIENT_READY that brings a player into the game comes in the state for it, and no player of
that name is there. -/
def ReadyInOrder (s : Server A) (e : Event A) : Prop :=
  ∀ p x c, e = .packet p (.clientReady true) x → x.userLimitReached = false →
    s.clients.admits p .startup = true → s.clients.lookup p = some c →
    s.getPlayerByName c.name false = none → s.getPlayer p = none →
    c.state ≠ .initDone ∧
      ∀ player ∈ s.players, player.name = c.name → player.peerId = peerIdInexistent

/-- The players who are there are those whose join was told and whose leave was not. -/
structure Present (s : Server A) : Prop where
  paired : Paired s.log
  isOpen_iff : ∀ name, isOpen (presence name) s.log = true ↔
    ∃ player ∈ s.players, player.name = name ∧ player.peerId ≠ peerIdInexistent
  unique : s.players.Pairwise fun a b =>
    a.peerId ≠ peerIdInexistent → b.peerId ≠ peerIdInexistent → a.name ≠ b.name
  live : ∀ p c, s.clients.lookup p = some c → .active ≤ c.state →
    ∃ player ∈ s.players, player.peerId = p
  peers : ∀ p ∈ s.clients, p ≠ peerIdInexistent

section

variable {W : World A} {s t : Server A} {e : Event A} {p : SessionT} {x : Outside} {name : Bytes}
  {c c' : RemoteClient} {cs : Clients} {d : Deed}

theorem readyInOrder_of_ne (h : ∀ p x, e ≠ .packet p (.clientReady true) x) :
    s.ReadyInOrder e :=
  fun p x _ he => absurd he (h p x)

/-- Only CLIENT_READY makes a client active. -/
theorem active_of_next {a b : ClientState} {e : ClientStateEvent} (he : e ≠ .setClientReady)
    (h : a.next e = some b) (hb : .active ≤ b) : .active ≤ a := by
  cases a
  case active => decide
  case sudoMode => decide
  all_goals
    cases e <;> first
      | exact absurd rfl he
      | (cases h; done)
      | (cases h; exact absurd hb (by decide))

theorem presence_join : presence name (.joinPlayer name) = some true := if_pos rfl

theorem presence_leave : presence name (.leavePlayer name) = some false := if_pos rfl

theorem presence_join_of_ne {n : Bytes} (h : n ≠ name) : presence name (.joinPlayer n) = none :=
  if_neg h

theorem presence_leave_of_ne {n : Bytes} (h : n ≠ name) : presence name (.leavePlayer n) = none :=
  if_neg h

theorem turns_of_noPlayer (hd : NoPlayer d) (log : List Deed) :
    turns (presence name) (d :: log) = turns (presence name) log := by
  refine turns_cons_of_none ?_
  cases d
  case joinPlayer => cases hd
  case leavePlayer => cases hd
  all_goals rfl

variable {Q : Prop} {players : List RemotePlayer}

section

variable (h : Present s)

include h

theorem Present.note (hd : NoPlayer d) : Present (s.note d) where
  paired name := (InTurn.of_turns_eq (turns_of_noPlayer hd _)).2 (h.paired name)
  isOpen_iff name := by
    have hopen : isOpen (presence name) (s.note d).log = isOpen (presence name) s.log :=
      isOpen_of_turns_eq (turns_of_noPlayer hd _)
    rw [hopen]
    exact h.isOpen_iff name
  unique := h.unique
  live := h.live
  peers := h.peers

/-- Other clients, but nobody becomes active who is not in the game. -/
theorem Present.clients
    (hlive : ∀ q c', cs.lookup q = some c' → .active ≤ c'.state →
      ∃ c, s.clients.lookup q = some c ∧ .active ≤ c.state) (hmem : ∀ q ∈ cs, q ∈ s.clients) :
    Present { s with clients := cs } where
  paired := h.paired
  isOpen_iff := h.isOpen_iff
  unique := h.unique
  live q c' hc' hactive := by
    rcases hlive q c' hc' hactive with ⟨c, hc, hactive⟩
    exact h.live q c hc hactive
  peers q hq := h.peers q (hmem q hq)

theorem Present.event {e : ClientStateEvent} (he : e ≠ .setClientReady)
    (hcs : s.clients.event p e = some cs) : Present { s with clients := cs } := by
  refine h.clients (fun q c' hc' hactive => ?_) fun q hq => (Clients.mem_of_event hcs).1 hq
  rcases Clients.event_eq_some hcs with ⟨-, rfl⟩ | ⟨c, d, hp, hd, rfl⟩
  · exact ⟨c', hc', hactive⟩
  · by_cases hq : q = p
    · subst hq
      rw [AList.lookup_insert] at hc'
      cases hc'
      rcases RemoteClient.notifyEvent_eq_some.1 hd with ⟨b, hb, rfl⟩
      exact ⟨c, hp, active_of_next he hb hactive⟩
    · rw [AList.lookup_insert_ne hq] at hc'
      exact ⟨c', hc', hactive⟩

theorem Present.modify {f : RemoteClient → RemoteClient} (hf : ∀ c, (f c).state = c.state) :
    Present (s.modify p f) := by
  unfold Server.modify
  split
  · exact h
  · rename_i c hc
    refine h.clients (fun q c' hc' hactive => ?_) fun q hq => ?_
    · by_cases hq : q = p
      · subst hq
        rw [AList.lookup_insert] at hc'
        cases hc'
        rw [hf] at hactive
        exact ⟨c, hc, hactive⟩
      · rw [AList.lookup_insert_ne hq] at hc'
        exact ⟨c', hc', hactive⟩
    · rcases (AList.mem_insert _).1 hq with rfl | hq
      · exact AList.lookup_isSome.1 (hc ▸ rfl)
      · exact hq

theorem Present.moves {D : Deed → Prop} {E : ClientStateEvent → Prop} (hD : ∀ d, D d → NoPlayer d)
    (hE : ∀ e, E e → e ≠ .setClientReady) (hmoves : Moves p D E Q s t) : Present t := by
  induction hmoves with
  | refl => exact h
  | note _ hd ih => exact ih.note (hD _ hd)
  | modify _ hf ih => exact ih.modify hf
  | event _ he hcs ih => exact ih.event (hE _ he) hcs
  | questions _ _ ih => exact ⟨ih.paired, ih.isOpen_iff, ih.unique, ih.live, ih.peers⟩
  | auth _ ih => exact ⟨ih.paired, ih.isOpen_iff, ih.unique, ih.live, ih.peers⟩

theorem Present.quiet (hmoves : Moves p Quiet QuietEvent Q s t) : Present t := by
  refine h.moves (fun d hd => ?_) (fun e he => he.1) hmoves
  cases d
  case joinPlayer => cases hd
  case leavePlayer => cases hd
  all_goals trivial

theorem Present.nothing (hmoves : Moves p Nothing QuietEvent Q s t) :
    Present t :=
  h.moves (fun _ => False.elim) (fun _ he => he.1) hmoves

theorem Present.secret (hmoves : Moves p Secret (· ≠ .setClientReady) Q s t) : Present t := by
  refine h.moves (fun d hd => ?_) (fun e he => he) hmoves
  cases d
  case joinPlayer => cases hd
  case leavePlayer => cases hd
  all_goals trivial

theorem Present.denyAccess : Present (s.denyAccess p) :=
  h.nothing (Q := True) (Moves.refl.denyAccess setDenied_quiet)

end

theorem Present.caught {r : Handled A} (h : Present r.1) : Present (caught r p) :=
  h.nothing (Q := True) (Moves.caught .refl setDenied_quiet)

/-! ## A player joins -/

theorem forall_of_getPlayer_eq_none (h : s.getPlayer p = none) :
    ∀ player ∈ s.players, player.peerId ≠ p := by
  intro player hplayer
  have hnot := List.find?_eq_none.1 h player hplayer
  exact fun heq => hnot (decide_eq_true heq)

theorem Present.join (h : Present s) (hp : p ≠ peerIdInexistent)
    (hnone : ∀ player ∈ s.players, player.name = name → player.peerId = peerIdInexistent)
    (hlive : ∀ q c', cs.lookup q = some c' → .active ≤ c'.state → q = p ∨
      ∃ c, s.clients.lookup q = some c ∧ .active ≤ c.state)
    (hmem : ∀ q ∈ cs, q ∈ s.clients) :
    Present ({ s with
      players := s.players ++ [(⟨name, p⟩ : RemotePlayer)]
      clients := cs }.note (.joinPlayer name)) where
  paired n := by
    by_cases hn : name = n
    · subst hn
      refine (inTurn_cons presence_join).2 ⟨fun hopen => ?_, h.paired name⟩
      rcases (h.isOpen_iff name).1 hopen.symm with ⟨player, hplayer, hname, hpeer⟩
      exact hpeer (hnone player hplayer hname)
    · exact (InTurn.of_turns_eq (turns_cons_of_none (presence_join_of_ne hn))).2 (h.paired n)
  isOpen_iff n := by
    change isOpen (presence n) (.joinPlayer name :: s.log) = true ↔
      ∃ player ∈ s.players ++ [(⟨name, p⟩ : RemotePlayer)], _
    by_cases hn : name = n
    · subst hn
      rw [isOpen_cons_of_some presence_join]
      exact iff_of_true rfl ⟨⟨name, p⟩, List.mem_append_right _ (List.mem_singleton_self _), rfl, hp⟩
    · rw [isOpen_of_turns_eq (turns_cons_of_none (presence_join_of_ne hn)), h.isOpen_iff]
      refine exists_congr fun player => and_congr_left fun hplayer => ?_
      rw [List.mem_append, List.mem_singleton, or_iff_left]
      rintro rfl
      exact hn hplayer.1
  unique := by
    have hnew : [(⟨name, p⟩ : RemotePlayer)].Pairwise fun a b =>
        a.peerId ≠ peerIdInexistent → b.peerId ≠ peerIdInexistent → a.name ≠ b.name :=
      List.pairwise_singleton _ _
    refine List.pairwise_append.2 ⟨h.unique, hnew, fun a ha b hb => ?_⟩
    rw [List.mem_singleton.1 hb]
    intro hpeer _ hname
    exact hpeer (hnone a ha hname)
  live q c' hc' hactive := by
    rcases hlive q c' hc' hactive with rfl | ⟨c, hc, hactive⟩
    · exact ⟨⟨name, q⟩, List.mem_append_right _ (List.mem_singleton_self _), rfl⟩
    · rcases h.live q c hc hactive with ⟨player, hplayer, hpeer⟩
      exact ⟨player, List.mem_append_left _ hplayer, hpeer⟩
  peers q hq := h.peers q (hmem q hq)

/-- A client that gets content and is not in the game may become active. -/
theorem definitionsSent_of_initDone_le {a : ClientState} (hle : .initDone ≤ a)
    (hinit : a ≠ .initDone) (hactive : ¬ .active ≤ a) : a = .definitionsSent := by
  cases a <;> first
    | rfl
    | exact absurd rfl hinit
    | exact absurd hle (by decide)
    | exact absurd (by decide) hactive

theorem present_clientReady (h : Present s) {complete : Bool}
    (hguard : s.ReadyInOrder (.packet p (.clientReady complete) x))
    (hadmits : s.clients.admits p .startup = true) :
    Present (caught (s.handleCommandClientReady p complete x) p) := by
  have hcaught : ∀ t : Server A, Present t → Present (caught t.done p) :=
    fun t ht => Present.caught (r := t.done) ht
  unfold handleCommandClientReady
  split
  · exact hcaught _ h
  rename_i c hc
  split
  · exact hcaught _ h
  rename_i hcomplete
  split
  · exact hcaught _ h.denyAccess
  rename_i hlimit
  have hstart : ∃ c, s.clients.getClientNoEx p .initDone = some c := by
    cases hget : s.clients.getClientNoEx p .initDone with
    | some c => exact ⟨c, rfl⟩
    | none =>
      rw [Clients.admits, hget] at hadmits
      cases hadmits
  rcases hstart with ⟨c₁, hc₁⟩
  rcases Clients.getClientNoEx_eq_some.1 hc with ⟨hlookup, -⟩
  rcases Clients.getClientNoEx_eq_some.1 hc₁ with ⟨hlookup₁, hinit⟩
  cases hlookup.symm.trans hlookup₁
  unfold stageTwoClientInit
  rw [hc₁]
  dsimp only
  split
  · exact hcaught _ h.denyAccess
  · rename_i hnot
    rw [if_pos rfl]
    rw [Bool.or_eq_true, not_or, Bool.not_eq_true, Option.isSome_eq_false_iff, Bool.not_eq_true,
      Option.isSome_eq_false_iff, Option.isNone_iff_eq_none, Option.isNone_iff_eq_none] at hnot
    rcases hnot with ⟨hname, hpeer⟩
    have hcompl : complete = true := by
      rw [Bool.not_eq_true', Bool.not_eq_false] at hcomplete
      exact hcomplete
    subst hcompl
    rcases hguard p x c rfl (Bool.eq_false_iff.2 hlimit) hadmits hlookup hname hpeer with
      ⟨hstate, hnone⟩
    -- whoever is active is in the game already
    have hnew : ¬ ClientState.active ≤ c.state := by
      intro hactive
      rcases h.live p c hlookup hactive with ⟨player, hplayer, heq⟩
      exact forall_of_getPlayer_eq_none hpeer player hplayer heq
    have hsent := definitionsSent_of_initDone_le hinit hstate hnew
    have hp : p ≠ peerIdInexistent := h.peers p (AList.lookup_isSome.1 (hlookup ▸ rfl))
    unfold Server.event
    dsimp only
    cases hcs : s.clients.event p .setClientReady with
    | none =>
      rw [Clients.event, hlookup] at hcs
      rw [Option.map_eq_none_iff, RemoteClient.notifyEvent, hsent] at hcs
      cases hcs
    | some cs =>
      refine h.join hp hnone (fun q c' hc' hactive => ?_) fun q hq =>
        (Clients.mem_of_event hcs).1 hq
      rcases Clients.event_eq_some hcs with ⟨hgone, -⟩ | ⟨d, d', -, -, rfl⟩
      · rw [hlookup] at hgone
        cases hgone
      · by_cases hq : q = p
        · exact .inl hq
        · rw [AList.lookup_insert_ne hq] at hc'
          exact .inr ⟨c', hc', hactive⟩

/-! ## A player leaves -/

theorem mem_disconnected {player : RemotePlayer} (hplayer : player ∈ disconnected p players) :
    player ∈ players ∨ player.peerId = peerIdInexistent := by
  induction players with
  | nil => exact .inl hplayer
  | cons first players ih =>
    unfold disconnected at hplayer
    split at hplayer
    · rcases List.mem_cons.1 hplayer with rfl | hmem
      · exact .inr rfl
      · exact .inl (List.mem_cons_of_mem _ hmem)
    · rcases List.mem_cons.1 hplayer with rfl | hmem
      · exact .inl List.mem_cons_self
      · exact (ih hmem).imp_left (List.mem_cons_of_mem _)

theorem mem_disconnected_of_ne {first player : RemotePlayer}
    (hfirst : players.find? (fun player => player.peerId = p) = some first)
    (hplayer : player ∈ players) (hne : player ≠ first) : player ∈ disconnected p players := by
  induction players with
  | nil => exact hplayer
  | cons head players ih =>
    unfold disconnected
    rw [List.find?_cons] at hfirst
    by_cases hhead : head.peerId = p
    · rw [decide_eq_true hhead] at hfirst
      cases hfirst
      rw [if_pos hhead]
      rcases List.mem_cons.1 hplayer with rfl | hmem
      · exact absurd rfl hne
      · exact List.mem_cons_of_mem _ hmem
    · rw [decide_eq_false hhead] at hfirst
      rw [if_neg hhead]
      rcases List.mem_cons.1 hplayer with rfl | hmem
      · exact List.mem_cons_self
      · exact List.mem_cons_of_mem _ (ih hfirst hmem)

section

variable (h : players.Pairwise fun a b =>
  a.peerId ≠ peerIdInexistent → b.peerId ≠ peerIdInexistent → a.name ≠ b.name)

include h

theorem pairwise_disconnected :
    (disconnected p players).Pairwise fun a b =>
      a.peerId ≠ peerIdInexistent → b.peerId ≠ peerIdInexistent → a.name ≠ b.name := by
  induction players with
  | nil => exact h
  | cons first players ih =>
    rcases List.pairwise_cons.1 h with ⟨hfirst, hrest⟩
    unfold disconnected
    split
    · exact List.pairwise_cons.2 ⟨fun b _ hnot => absurd rfl hnot, hrest⟩
    · refine List.pairwise_cons.2 ⟨fun b hb ha hpeer => ?_, ih hrest⟩
      rcases mem_disconnected hb with hmem | hgone
      · exact hfirst b hmem ha hpeer
      · exact absurd hgone hpeer

/-- The first player of the peer is the only one of that name who is there, and is gone then. -/
theorem not_present_disconnected {first : RemotePlayer}
    (hfirst : players.find? (fun player => player.peerId = p) = some first)
    (hp : p ≠ peerIdInexistent) (hname : first.name = name) :
    ∀ player ∈ disconnected p players, player.name = name → player.peerId = peerIdInexistent := by
  induction players with
  | nil => cases hfirst
  | cons player players ih =>
    rcases List.pairwise_cons.1 h with ⟨hhead, hrest⟩
    intro other hother hothername
    by_contra hthere
    unfold disconnected at hother
    rw [List.find?_cons] at hfirst
    by_cases hpeer : player.peerId = p
    · rw [if_pos hpeer] at hother
      rw [decide_eq_true hpeer] at hfirst
      cases hfirst
      rcases List.mem_cons.1 hother with rfl | hmem
      · exact hthere rfl
      · refine hhead other hmem ?_ hthere (hname.trans hothername.symm)
        rw [hpeer]
        exact hp
    · rw [if_neg hpeer] at hother
      rw [decide_eq_false hpeer] at hfirst
      rcases List.mem_cons.1 hother with rfl | hmem
      · have hmem := List.mem_of_find?_eq_some hfirst
        have heq : first.peerId = p := of_decide_eq_true (List.find?_some hfirst :)
        refine hhead first hmem hthere ?_ (hothername.trans hname.symm)
        rw [heq]
        exact hp
      · exact hthere (ih hrest hfirst other hmem hothername)

end

section

variable (h : Present s) (hp : p ≠ peerIdInexistent)

include h hp

theorem Present.leave {player : RemotePlayer} (hplayer : s.getPlayer p = some player) :
    Present ({ s with
      players := disconnected p s.players
      clients := s.clients.erase p }.note (.leavePlayer player.name)) where
  paired n := by
    by_cases hn : player.name = n
    · subst hn
      refine (inTurn_cons presence_leave).2 ⟨fun hclosed => ?_, h.paired _⟩
      have hpeer : player.peerId = p := of_decide_eq_true (List.find?_some hplayer :)
      have hopen := (h.isOpen_iff player.name).2 ⟨player, List.mem_of_find?_eq_some hplayer, rfl, by
        rw [hpeer]
        exact hp⟩
      rw [← hclosed] at hopen
      cases hopen
    · exact (InTurn.of_turns_eq (turns_cons_of_none (presence_leave_of_ne hn))).2 (h.paired n)
  isOpen_iff n := by
    change isOpen (presence n) (.leavePlayer player.name :: s.log) = true ↔
      ∃ other ∈ disconnected p s.players, _
    by_cases hn : player.name = n
    · rw [← hn, isOpen_cons_of_some presence_leave]
      refine iff_of_false Bool.false_ne_true ?_
      rintro ⟨other, hother, hname, hpeer⟩
      exact hpeer (not_present_disconnected h.unique hplayer hp rfl other hother hname)
    · rw [isOpen_of_turns_eq (turns_cons_of_none (presence_leave_of_ne hn)), h.isOpen_iff]
      constructor
      · rintro ⟨other, hother, hname, hpeer⟩
        refine ⟨other, mem_disconnected_of_ne hplayer hother fun heq => hn ?_, hname, hpeer⟩
        rw [← heq, hname]
      · rintro ⟨other, hother, hname, hpeer⟩
        rcases mem_disconnected hother with hmem | hgone
        · exact ⟨other, hmem, hname, hpeer⟩
        · exact absurd hgone hpeer
  unique := pairwise_disconnected h.unique
  live q c hc hactive := by
    by_cases hq : q = p
    · subst hq
      change AList.lookup q (s.clients.erase q) = some c at hc
      rw [AList.lookup_erase] at hc
      cases hc
    · change AList.lookup q (s.clients.erase p) = some c at hc
      rw [AList.lookup_erase_ne hq] at hc
      rcases h.live q c hc hactive with ⟨other, hother, hpeer⟩
      refine ⟨other, mem_disconnected_of_ne hplayer hother fun heq => hq ?_, hpeer⟩
      have hfirst : player.peerId = p := of_decide_eq_true (List.find?_some hplayer :)
      rw [← hpeer, heq, hfirst]
  peers q hq := h.peers q ((AList.mem_erase).1 hq).2

/-- The connection goes, with the player if there is one. -/
theorem present_deleteClient : Present (s.deleteClient p) := by
  have hquestion : Present (s.dropQuestion p) := h.quiet moves_dropQuestion
  unfold deleteClient dropPlayer
  cases hplayer : (s.dropQuestion p).getPlayer p with
  | some player => exact hquestion.leave hp hplayer
  | none =>
    refine hquestion.clients (fun q c' hc' hactive => ?_) fun q hq => (AList.mem_erase.1 hq).2
    by_cases hq : q = p
    · subst hq
      rw [AList.lookup_erase] at hc'
      cases hc'
    · rw [AList.lookup_erase_ne hq] at hc'
      exact ⟨c', hc', hactive⟩

theorem present_deletingPeer : Present (s.deletingPeer p) := by
  unfold deletingPeer Server.event
  split
  · exact Present.caught (r := (s, true)) h
  · rename_i cs hcs
    exact Present.caught (r := (_, false)) (present_deleteClient (h.event (by decide) hcs) hp)

end

theorem present_peerAdded (h : Present s) (hnew : p ∉ s.clients) (hp : p ≠ peerIdInexistent) :
    Present (s.peerAdded p) where
  paired := h.paired
  isOpen_iff := h.isOpen_iff
  unique := h.unique
  live q c hc hactive := by
    have hnone : s.clients.lookup p = none := AList.lookup_eq_none.2 hnew
    change AList.lookup q (s.clients.createClient p) = some c at hc
    rw [Clients.createClient, hnone] at hc
    by_cases hq : q = p
    · subst hq
      rw [AList.lookup_insert] at hc
      cases hc
      exact absurd hactive (by decide)
    · rw [AList.lookup_insert_ne hq] at hc
      exact h.live q c hc hactive
  peers q hq := by
    rcases Clients.mem_createClient.1 hq with rfl | hmem
    · exact hp
    · exact h.peers q hmem

/-- Who has left already is not missed. -/
theorem present_playerRemoved (h : Present s) {i : Nat}
    (hi : ∀ player, s.players[i]? = some player → player.peerId = peerIdInexistent) :
    Present { s with players := s.players.eraseIdx i } := by
  have hkeep : ∀ player ∈ s.players, player.peerId ≠ peerIdInexistent →
      player ∈ s.players.eraseIdx i := by
    intro player hplayer hpeer
    rcases List.mem_iff_getElem?.1 hplayer with ⟨j, hj⟩
    refine List.mem_eraseIdx_iff_getElem?.2 ⟨j, fun heq => hpeer (hi player ?_), hj⟩
    rw [← heq]
    exact hj
  refine ⟨h.paired, fun name => ?_, h.unique.sublist (List.eraseIdx_sublist _ _), ?_, h.peers⟩
  · rw [h.isOpen_iff]
    constructor
    · rintro ⟨player, hplayer, hname, hpeer⟩
      exact ⟨player, hkeep player hplayer hpeer, hname, hpeer⟩
    · rintro ⟨player, hplayer, hname, hpeer⟩
      exact ⟨player, List.mem_of_mem_eraseIdx hplayer, hname, hpeer⟩
  · intro q c hc hactive
    rcases h.live q c hc hactive with ⟨player, hplayer, hpeer⟩
    refine ⟨player, hkeep player hplayer ?_, hpeer⟩
    rw [hpeer]
    exact h.peers q (AList.lookup_isSome.1 (hc ▸ rfl))

/-! ## Runs -/

theorem present_step (h : Present s) (hguard : s.ReadyInOrder e) (hstep : Step W s e t) :
    Present t := by
  rcases hstep with ⟨hpossible⟩
  cases e with
  | peerAdded p => exact present_peerAdded h hpossible.1 hpossible.2
  | packet p pkt x =>
    cases pkt with
    | init pkt => exact (h.quiet moves_handleCommandInit).caught
    | init2 complete => exact (h.nothing moves_handleCommandInit2).caught
    | firstSrp pkt => exact (h.secret moves_handleCommandFirstSrp).caught
    | srpBytesA pkt => exact (h.nothing moves_handleCommandSrpBytesA).caught
    | srpBytesM bytesM => exact (h.secret moves_handleCommandSrpBytesM).caught
    | clientReady complete =>
      change Present (if s.clients.admits p .startup then _ else s)
      split
      · rename_i hadmits
        exact present_clientReady h hguard hadmits
      · exact h
    | other => exact h
  | deletingPeer p => exact present_deletingPeer h hpossible
  | stepAwaitingAuth order x =>
    exact stepAwaitingAuth_invariant (fun s p h => h.quiet moves_stepAwaiting) h
  | answer caller res => exact h.quiet (moves_deliver (p := peerIdServer))
  | denyAccess p => exact h.denyAccess
  | settingsChanged settings => exact ⟨h.paired, h.isOpen_iff, h.unique, h.live, h.peers⟩
  | authChanged auth => exact ⟨h.paired, h.isOpen_iff, h.unique, h.live, h.peers⟩
  | playerRemoved i => exact present_playerRemoved h hpossible

theorem present_initial (auth : A) (settings : Settings) :
    Present ({ auth := auth, settings := settings } : Server A) where
  paired _ := inTurn_nil
  isOpen_iff _ := iff_of_false Bool.false_ne_true fun ⟨_, hmem, _⟩ => by cases hmem
  unique := .nil
  live _ _ hc := by cases hc
  peers _ hp := by cases hp

/-- As long as each CLIENT_READY comes in order, joins and leaves pair up. -/
theorem joins_paired {auth : A} {settings : Settings} {es : List (Event A)}
    (hrun : Run.Guarded ReadyInOrder (Step W) { auth := auth, settings := settings } es s) :
    Paired s.log :=
  (hrun.guarded_invariant (fun _ _ _ h hguard hstep => present_step h hguard hstep)
    (present_initial auth settings)).paired

end

/-! ## Ada -/

theorem adaJoins_paired : ∃ s, Run.Guarded ReadyInOrder (Step smallWorld) (smallServer {})
    [.peerAdded 2, .packet 2 (initOf (ascii "ada")) {}, .packet 2 register {},
      .packet 2 (.init2 true) {}, .packet 2 (.clientReady true) {}, .deletingPeer 2] s ∧
    s.log.head? = some (.leavePlayer (ascii "ada")) ∧ Paired s.log := by
  have hpeer : (2 : SessionT) ≠ peerIdInexistent := by decide
  have hready : ∀ s : Server (List (Bytes × Bytes)),
      (s.clients.lookup 2).map RemoteClient.state = some .definitionsSent → s.players = [] →
      s.ReadyInOrder (.packet 2 (.clientReady true) {}) := by
    intro s hstate hplayers p x c he _ _ hc _ _
    cases he
    rw [hc] at hstate
    refine ⟨fun hinit => ?_, fun player hplayer => ?_⟩
    · rw [Option.map_some, hinit] at hstate
      cases hstate
    · rw [hplayers] at hplayer
      cases hplayer
  have hrun : ∃ s, Run.Guarded ReadyInOrder (Step smallWorld) (smallServer {})
      [.peerAdded 2, .packet 2 (initOf (ascii "ada")) {}, .packet 2 register {},
        .packet 2 (.init2 true) {}, .packet 2 (.clientReady true) {}, .deletingPeer 2] s ∧
      s.log.head? = some (.leavePlayer (ascii "ada")) :=
    ⟨_, .cons ⟨readyInOrder_of_ne fun _ _ => nofun, .apply ⟨AList.notMem_empty _, hpeer⟩⟩ <|
      .cons ⟨readyInOrder_of_ne fun _ _ => nofun, .apply (AList.notMem_empty _)⟩ <|
      .cons ⟨readyInOrder_of_ne fun _ _ => nofun, .apply trivial⟩ <|
      .cons ⟨readyInOrder_of_ne fun _ _ => nofun, .apply trivial⟩ <|
      .cons ⟨hready _ (by decide) (by decide), .apply trivial⟩ <|
      .cons ⟨readyInOrder_of_ne fun _ _ => nofun, .apply hpeer⟩ <| .nil _, rfl⟩
  rcases hrun with ⟨s, hrun, hhead⟩
  exact ⟨s, hrun, hhead, joins_paired hrun⟩

/-- INIT2 is cut off, and the player is in the environment when the state does not move on.  Or a
player who has left hides one of the same name who is there. -/
theorem adaLeaves_unpaired : (∃ s, Run (Step smallWorld) (smallServer {})
    [.peerAdded 2, .packet 2 (initOf (ascii "ada")) {}, .packet 2 register {},
      .packet 2 (.init2 false) {}, .packet 2 (.clientReady true) {}, .deletingPeer 2] s ∧
    ¬ Paired s.log) ∧
    ∃ s, Run (Step smallWorld) (smallServer {})
      [.peerAdded 2, .packet 2 (initOf (ascii "ada")) {}, .packet 2 register {},
        .packet 2 (.init2 true) {}, .packet 2 (.clientReady true) {}, .deletingPeer 2,
        .peerAdded 3, .packet 3 (initOf (ascii "ada")) {}, .packet 3 startProof {},
        .packet 3 finishProof { verified := true }, .packet 3 (.init2 true) {},
        .packet 3 (.clientReady true) {},
        .peerAdded 4, .packet 4 (initOf (ascii "ada")) {}, .packet 4 startProof {},
        .packet 4 finishProof { verified := true }, .packet 4 (.init2 true) {},
        .packet 4 (.clientReady true) {}] s ∧
      ¬ Paired s.log := by
  have hpeer : (2 : SessionT) ≠ peerIdInexistent := by decide
  constructor
  · refine ⟨_, .cons (.apply ⟨AList.notMem_empty _, hpeer⟩) <|
      .cons (.apply (AList.notMem_empty _)) <| .cons (.apply trivial) <| .cons (.apply trivial) <|
      .cons (.apply trivial) <| .cons (.apply hpeer) <| .nil _,
      fun hpaired => absurd (hpaired (ascii "ada")) ?_⟩
    decide
  · refine ⟨_, .cons (.apply ⟨AList.notMem_empty _, hpeer⟩) <|
      .cons (.apply (AList.notMem_empty _)) <| .cons (.apply trivial) <| .cons (.apply trivial) <|
      .cons (.apply trivial) <| .cons (.apply hpeer) <|
      .cons (.apply ⟨AList.lookup_eq_none.1 rfl, by decide⟩) <|
      .cons (.apply (AList.lookup_eq_none.1 rfl)) <| .cons (.apply trivial) <|
      .cons (.apply trivial) <| .cons (.apply trivial) <| .cons (.apply trivial) <|
      .cons (.apply ⟨AList.lookup_eq_none.1 rfl, by decide⟩) <|
      .cons (.apply (AList.lookup_eq_none.1 rfl)) <| .cons (.apply trivial) <|
      .cons (.apply trivial) <| .cons (.apply trivial) <| .cons (.apply trivial) <| .nil _,
      fun hpaired => absurd (hpaired (ascii "ada")) ?_⟩
    decide +kernel

end Server
end Login
end AxisEngine
