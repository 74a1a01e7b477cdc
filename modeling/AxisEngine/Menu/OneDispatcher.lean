import AxisEngine.Menu.Matchmaking

/-!
# OneDispatcher — who is asked, and who answers

The screen names its dispatcher anew for every request.  A list of servers, a frame or a second try can change
the entry while something is under way; then the answer of one dispatcher is taken for that of another.

* `State.Busy` — a queue is held, or a dispatcher still has to answer;
* `Label.Steady` — the steps that do not change the dispatcher meanwhile;
* `Right` — one request of a kind, and each to the right dispatcher;
* `right_of_run` — in runs of steady steps every state is right, and what was asked before a stop changes nothing.
-/

namespace AxisEngine
namespace Menu

open Lib

/-! ## What should hold -/

def Kind.isModes : Kind → Bool
  | .modes _ => true
  | _ => false

def Kind.isQueue : Kind → Bool
  | .queue .. => true
  | _ => false

/-- The callback goes on with the dispatcher that is chosen when the answer comes. -/
def Kind.talks : Kind → Bool
  | .modes _ | .join .. | .queue .. | .start _ => true
  | _ => false

/-- The requests of a kind that were made since the last stop -/
def State.waiting (s : State) (p : Kind → Bool) : ℕ :=
  s.outstanding.countP fun r => p r.kind && r.epoch = s.epoch

structure Right (s : State) : Prop where
  modes : s.waiting Kind.isModes ≤ 1
  queue : s.waiting Kind.isQueue ≤ 1
  shown : ∀ asked named, s.shownFrom = some (asked, named) → asked = named
  sent : ∀ x ∈ s.sent, x.url = x.granter

/-- Something hangs on the dispatcher that is chosen now. -/
def State.Busy (s : State) : Prop :=
  s.queue.isSome ∨ ∃ r ∈ s.outstanding, r.epoch = s.epoch ∧ r.kind.talks = true

def Label.answers : Label → Option Request
  | .answer r _ | .ticket r _ _ | .invite r _ => some r
  | _ => none

/-- The step leaves the dispatcher alone while something hangs on it, a frame finds no other dispatcher than
the last while the arenas are being asked for, and no invitation comes that was asked for before a stop. -/
def Label.Steady (s : State) : Label → Prop
  | .enter => s.Busy → s.opened.pickEntry.dispatchUrl = s.dispatchUrl
  | .update => s.shown = true →
      (s.invited.Busy → s.invited.pickEntry.dispatchUrl = s.invited.dispatchUrl) ∧
        (0 < s.invited.waiting Kind.isModes → s.invited.pickEntry.dispatchUrl = s.invited.lastDispatch)
  | .retry => s.Busy → (State.pickEntry { s with bad := [], modes := none }).dispatchUrl = s.dispatchUrl
  | .servers all entry usable => s.Busy →
      State.dispatchUrl { s with servers := all, serversEntry := entry, serversUsable := usable, loaded := true } =
        s.dispatchUrl
  | .answer r res => ∀ again why t, r.kind = .modes again → r.epoch = s.epoch → decode res = .error why →
      s.received r = some t → t.Busy → (t.dropEntry r.url).dispatchUrl = t.dispatchUrl
  | .ticket r _ _ => ∀ id want, r.kind = .ticket id want true → r.epoch = s.epoch
  | .invite r _ => r.epoch = s.epoch
  | _ => True

/-! ## The invariant -/

structure Inv (s : State) : Prop where
  modes : s.waiting Kind.isModes ≤ if s.asking then 1 else 0
  queue : s.waiting Kind.isQueue ≤ if s.polling then 1 else 0
  here : ∀ r ∈ s.outstanding, r.epoch = s.epoch → r.kind.talks = true → r.url = s.dispatchUrl
  held : s.queue.isSome → s.granter = s.dispatchUrl
  past : ∀ r ∈ s.outstanding, r.epoch ≤ s.epoch
  shown : ∀ asked named, s.shownFrom = some (asked, named) → asked = named
  sent : ∀ x ∈ s.sent, x.url = x.granter

theorem Inv.right {s : State} (h : Inv s) : Right s where
  modes := Nat.le_trans h.modes (by split <;> omega)
  queue := Nat.le_trans h.queue (by split <;> omega)
  shown := h.shown
  sent := h.sent

section Parts

variable {s t : State} {p : Kind → Bool}

theorem waiting_send (s : State) (kind : Kind) :
    (s.send kind).waiting p = s.waiting p + if p kind then 1 else 0 := by
  have hsplit : (s.send kind).waiting p = s.waiting p +
      [(⟨kind, s.dispatchUrl, s.epoch⟩ : Request)].countP fun r => p r.kind && r.epoch = s.epoch :=
    List.countP_append
  rw [hsplit, List.countP_singleton]
  simp

section

variable (h : Inv s)

include h

/-- The choice moves, but not while something hangs on it. -/
theorem Inv.moved (hout : t.outstanding = s.outstanding) (hepoch : t.epoch = s.epoch)
    (hasking : t.asking = s.asking) (hpolling : t.polling = s.polling) (hqueue : t.queue = s.queue)
    (hgranter : t.granter = s.granter) (hshown : t.shownFrom = s.shownFrom) (hsent : t.sent = s.sent)
    (hsteady : s.Busy → t.dispatchUrl = s.dispatchUrl) : Inv t where
  modes := by simpa only [State.waiting, hout, hepoch, hasking] using h.modes
  queue := by simpa only [State.waiting, hout, hepoch, hpolling] using h.queue
  here := by
    intro r hr hcurrent htalks
    rw [hout] at hr
    rw [hepoch] at hcurrent
    rw [hsteady (.inr ⟨r, hr, hcurrent, htalks⟩)]
    exact h.here r hr hcurrent htalks
  held := by
    intro hq
    rw [hqueue] at hq
    rw [hgranter, hsteady (.inl hq)]
    exact h.held hq
  past := by
    rw [hout, hepoch]
    exact h.past
  shown := by
    rw [hshown]
    exact h.shown
  sent := by
    rw [hsent]
    exact h.sent

theorem Inv.send {kind : Kind} (hmodes : kind.isModes = true → s.asking = true ∧ s.waiting Kind.isModes = 0)
    (hqueue : kind.isQueue = true → s.polling = true ∧ s.waiting Kind.isQueue = 0) : Inv (s.send kind) where
  modes := by
    rw [waiting_send]
    split
    · next hkind =>
        rcases hmodes hkind with ⟨hasking, hnone⟩
        simp [State.send, hasking, hnone]
    · exact h.modes
  queue := by
    rw [waiting_send]
    split
    · next hkind =>
        rcases hqueue hkind with ⟨hpolling, hnone⟩
        simp [State.send, hpolling, hnone]
    · exact h.queue
  here := by
    intro r hr hcurrent htalks
    rcases List.mem_append.1 hr with hr | hr
    · exact h.here r hr hcurrent htalks
    · rw [List.mem_singleton.1 hr]
      rfl
  held := h.held
  past := by
    intro r hr
    rcases List.mem_append.1 hr with hr | hr
    · exact h.past r hr
    · have hepoch : r.epoch = s.epoch := by rw [List.mem_singleton.1 hr]
      exact Nat.le_of_eq hepoch
  shown := h.shown
  sent := h.sent

theorem Inv.sendQueued (kind : Kind) {granter : Bytes} (hgranter : granter = s.dispatchUrl)
    (hmodes : kind.isModes = false)
    (hqueue : kind.isQueue = true → s.polling = true ∧ s.waiting Kind.isQueue = 0) :
    Inv (s.sendQueued kind granter) := by
  have hsend : Inv (s.send kind) := h.send (by simp [hmodes]) hqueue
  refine ⟨hsend.modes, hsend.queue, hsend.here, hsend.held, hsend.past, hsend.shown, ?_⟩
  intro x hx
  rcases List.mem_cons.1 hx with rfl | hx
  · exact hgranter.symm
  · exact h.sent x hx

theorem Inv.sendLauncher {kind : Kind} (htalks : kind.talks = false) :
    Inv { s with outstanding := s.outstanding ++ [⟨kind, [], s.epoch⟩] } := by
  have hmodes : kind.isModes = false := by cases kind <;> simp_all [Kind.talks, Kind.isModes]
  have hqueue : kind.isQueue = false := by cases kind <;> simp_all [Kind.talks, Kind.isQueue]
  refine ⟨?_, ?_, ?_, h.held, ?_, h.shown, h.sent⟩
  · simpa [State.waiting, List.countP_append, List.countP_singleton, hmodes] using h.modes
  · simpa [State.waiting, List.countP_append, List.countP_singleton, hqueue] using h.queue
  · intro r hr hcurrent hr'
    rcases List.mem_append.1 hr with hr | hr
    · exact h.here r hr hcurrent hr'
    · rw [List.mem_singleton.1 hr, htalks] at hr'
      cases hr'
  · intro r hr
    rcases List.mem_append.1 hr with hr | hr
    · exact h.past r hr
    · have hepoch : r.epoch = s.epoch := by rw [List.mem_singleton.1 hr]
      exact Nat.le_of_eq hepoch

/-- What a stop leaves behind: nobody waits any more. -/
theorem Inv.forget : Inv { s with epoch := s.epoch + 1, asking := false, polling := false } := by
  have hnone : ∀ p, State.waiting { s with epoch := s.epoch + 1, asking := false, polling := false } p = 0 := by
    intro p
    refine List.countP_eq_zero.2 fun r hr hcurrent => ?_
    have hpast := h.past r hr
    simp only [Bool.and_eq_true, decide_eq_true_eq] at hcurrent
    omega
  refine ⟨by rw [hnone]; exact Nat.zero_le _, by rw [hnone]; exact Nat.zero_le _, ?_, h.held, ?_, h.shown,
    h.sent⟩
  · intro r hr hcurrent
    have hpast := h.past r hr
    simp only at hcurrent
    omega
  · intro r hr
    exact Nat.le_trans (h.past r hr) (Nat.le_succ _)

theorem Inv.drop : Inv { s with queue := none } :=
  ⟨h.modes, h.queue, h.here, by simp, h.past, h.shown, h.sent⟩

theorem Inv.stop : Inv s.stop := by
  unfold State.stop
  have hforget := h.forget
  cases hqueue : s.queue with
  | none => exact ⟨hforget.modes, hforget.queue, hforget.here, by simp, hforget.past, h.shown, h.sent⟩
  | some q =>
    have hdrop := hforget.drop
    have hgranter : s.granter = s.dispatchUrl := h.held (by rw [hqueue]; rfl)
    simp only
    split
    · exact ⟨hdrop.modes, hdrop.queue, hdrop.here, hdrop.held, hdrop.past, hdrop.shown, hdrop.sent⟩
    · have hsent := hdrop.sendQueued (.leave s.pass) hgranter rfl
        (fun hkind => by cases hkind)
      exact ⟨hsent.modes, hsent.queue, hsent.here, hsent.held, hsent.past, hsent.shown, hsent.sent⟩

end

/-! ## The arenas -/

theorem Inv.modesUnavailable (h : Inv s) (hnone : s.waiting Kind.isModes = 0) : Inv s.modesUnavailable :=
  ⟨Nat.le_of_eq hnone, h.queue, h.here, h.held, h.past, h.shown, h.sent⟩

theorem Inv.refreshModes (h : Inv s) {again : Bool} (hnone : again = true → s.waiting Kind.isModes = 0) :
    Inv (s.refreshModes again) := by
  unfold State.refreshModes
  split
  · exact h
  · next hgo =>
      have hzero : s.waiting Kind.isModes = 0 := by
        cases again with
        | true => exact hnone rfl
        | false =>
          have hmodes := h.modes
          have hasking : s.asking = false := by simpa using hgo
          rw [hasking] at hmodes
          simpa using hmodes
      have hasked : Inv { s with asking := true } :=
        ⟨Nat.le_trans (Nat.le_of_eq hzero) (Nat.zero_le _), h.queue, h.here, h.held, h.past, h.shown, h.sent⟩
      simp only
      split
      · exact hasked.modesUnavailable hzero
      · exact hasked.send (fun _ => ⟨rfl, hzero⟩) (fun hkind => by cases hkind)

theorem Inv.calm (h : Inv s) (hnone : s.waiting Kind.isModes = 0) : Inv { s with asking := false } :=
  ⟨Nat.le_of_eq hnone, h.queue, h.here, h.held, h.past, h.shown, h.sent⟩

/-- The choice of an entry changes the entry alone. -/
theorem pickEntry_eq (s : State) : ∃ region, s.pickEntry = { s with region } := by
  unfold State.pickEntry
  dsimp only
  split_ifs
  · exact ⟨s.region, rfl⟩
  · split
    · exact ⟨_, rfl⟩
    · exact ⟨_, rfl⟩

theorem Inv.pickEntry (h : Inv s) (hsteady : s.Busy → s.pickEntry.dispatchUrl = s.dispatchUrl) :
    Inv s.pickEntry := by
  rcases pickEntry_eq s with ⟨region, heq⟩
  rw [heq] at hsteady ⊢
  exact h.moved rfl rfl rfl rfl rfl rfl rfl rfl hsteady

theorem Inv.dropEntry (h : Inv s) {asked : Bytes}
    (hsteady : s.Busy → (s.dropEntry asked).dispatchUrl = s.dispatchUrl) : Inv (s.dropEntry asked) := by
  unfold State.dropEntry at hsteady ⊢
  split
  · next hdrop =>
      rw [if_pos hdrop] at hsteady
      rcases pickEntry_eq { s with bad := asked :: s.bad, answered := false } with ⟨region, heq⟩
      rw [heq] at hsteady ⊢
      exact h.moved rfl rfl rfl rfl rfl rfl rfl rfl hsteady
  · exact h

theorem waiting_dropEntry (s : State) (asked : Bytes) : (s.dropEntry asked).waiting p = s.waiting p := by
  unfold State.dropEntry
  split
  · rcases pickEntry_eq { s with bad := asked :: s.bad, answered := false } with ⟨region, heq⟩
    rw [heq]
    rfl
  · rfl

/-- The callback of `refreshModes`, with its request taken away -/
theorem Inv.modesAnswered (h : Inv s) (hnone : s.waiting Kind.isModes = 0) {asked : Bytes}
    (hasked : asked = s.dispatchUrl) {res : Answer}
    (hsteady : ∀ why, decode res = .error why → s.Busy → (s.dropEntry asked).dispatchUrl = s.dispatchUrl) :
    Inv (s.modesAnswered asked res) := by
  unfold State.modesAnswered
  cases hdecode : decode res with
  | ok body =>
    have hstored : ∀ modes crates, Inv { s with
        modes, crates, modesStatus := [], answered := true, shownFrom := some (asked, s.dispatchUrl) } := by
      intro modes crates
      refine ⟨h.modes, h.queue, h.here, h.held, h.past, ?_, h.sent⟩
      intro asked' named heq
      cases heq
      exact hasked
    simp only
    split
    · exact (hstored _ _).refreshModes fun _ => hnone
    · exact (hstored _ _).calm hnone
  | error why =>
    have hdropped := h.dropEntry (hsteady why hdecode)
    have hzero : (s.dropEntry asked).waiting Kind.isModes = 0 := (waiting_dropEntry s asked).trans hnone
    simp only
    split
    · exact (hdropped.calm hzero).refreshModes fun _ => hzero
    · exact hdropped.modesUnavailable hzero

/-! ## The queue -/

section

variable (h : Inv s)

include h

theorem Inv.pollFailed (why : Why) : Inv (s.pollFailed why) :=
  ⟨h.modes, h.queue, h.here, by simp [State.pollFailed], h.past, h.shown, h.sent⟩

theorem Inv.rest (hnone : s.waiting Kind.isQueue = 0) : Inv { s with polling := false } :=
  ⟨h.modes, Nat.le_of_eq hnone, h.here, h.held, h.past, h.shown, h.sent⟩

theorem Inv.poll : Inv s.poll := by
  unfold State.poll
  split
  · exact h
  · next hgo =>
      have hpolling : s.polling = false := by
        rw [not_or] at hgo
        simpa using hgo.1
      have hzero : s.waiting Kind.isQueue = 0 := by
        have hqueue := h.queue
        rw [hpolling] at hqueue
        simpa using hqueue
      split
      · exact (h.rest hzero).pollFailed _
      · have hheld : s.queue.isSome := by
          have := hgo
          cases hqueue : s.queue <;> simp_all
        have hpolled : Inv { s with polling := true } :=
          ⟨h.modes, Nat.le_trans (Nat.le_of_eq hzero) (Nat.zero_le _), h.here, h.held, h.past, h.shown, h.sent⟩
        exact hpolled.sendQueued _ (h.held hheld) rfl fun _ => ⟨rfl, hzero⟩

theorem Inv.readQueue (body : Body) {granter : Bytes} (hgranter : granter = s.dispatchUrl) :
    Inv (s.readQueue body granter) :=
  ⟨h.modes, h.queue, h.here, fun _ => hgranter, h.past, h.shown, h.sent⟩

theorem keptGranter_eq {url : Bytes} (hurl : url = s.dispatchUrl) : s.keptGranter url = s.dispatchUrl := by
  unfold State.keptGranter
  split
  · next hheld => exact h.held hheld
  · exact hurl

theorem Inv.enterMatch {body : Body} (hmatch : s.enterMatch body = some t) : Inv t := by
  unfold State.enterMatch at hmatch
  split at hmatch
  · cases hmatch
  · split at hmatch
    · cases hmatch
      exact h.stop
    · cases hmatch
      refine ⟨h.modes, h.queue, h.here, ?_, h.past, h.shown, h.sent⟩
      intro hheld
      refine h.held ?_
      simpa using hheld

/-- A new state of the queue, and what follows from it -/
theorem Inv.goOn (body : Body) : Inv (s.goOn body) := by
  unfold State.goOn
  cases hmatch : s.enterMatch body with
  | some t => exact h.enterMatch hmatch
  | none => exact h.poll

theorem Inv.pollAnswered (hnone : s.waiting Kind.isQueue = 0) {url : Bytes} (hurl : url = s.dispatchUrl)
    (res : Answer) : Inv (s.pollAnswered url res) := by
  have hrest := h.rest hnone
  unfold State.pollAnswered
  cases decode res with
  | error why => exact hrest.pollFailed why
  | ok body => exact (hrest.readQueue body (keptGranter_eq hrest hurl)).goOn body

theorem Inv.said (status : Bytes) : Inv { s with status } :=
  ⟨h.modes, h.queue, h.here, h.held, h.past, h.shown, h.sent⟩

theorem Inv.enqueue (want : Want) (pass ticket : Bytes) : Inv (s.enqueue want pass ticket) := by
  unfold State.enqueue
  split
  · exact h.said _
  · exact h.send (fun hkind => by cases hkind) (fun hkind => by cases hkind)

theorem Inv.joinAnswered {url : Bytes} (hurl : url = s.dispatchUrl) (res : Answer) :
    Inv (s.joinAnswered url res) := by
  unfold State.joinAnswered
  cases decode res with
  | error why => exact h.said _
  | ok body =>
    have hpass : ∀ pass, Inv { s with pass } := fun pass =>
      ⟨h.modes, h.queue, h.here, h.held, h.past, h.shown, h.sent⟩
    let pass := if body.pass.getD [] = [] then s.pass else body.pass.getD []
    exact (((hpass pass).readQueue body hurl).said []).goOn body

end

/-! ## Tickets and invitations -/

theorem Inv.ticketAnswered (h : Inv s) (want : Want) (invited : Bool) (epoch : ℕ) (ticket trouble : Bytes) :
    Inv (s.ticketAnswered want invited epoch ticket trouble) := by
  have hentering : ∀ entering, Inv { s with entering } := fun entering =>
    ⟨h.modes, h.queue, h.here, h.held, h.past, h.shown, h.sent⟩
  have hinvite : ∀ entering invite, Inv { s with entering, invite } := fun entering invite =>
    ⟨h.modes, h.queue, h.here, h.held, h.past, h.shown, h.sent⟩
  unfold State.ticketAnswered
  cases invited with
  | false =>
    simp only [Bool.false_eq_true, if_false]
    split_ifs
    · exact h
    · exact h.said _
    · exact h.enqueue want [] ticket
  | true =>
    simp only [if_true]
    split_ifs
    · exact hentering false
    · exact (hentering false).said _
    · exact (hinvite false []).enqueue want [] ticket

theorem Inv.ticketForJoin (h : Inv s) (want : Want) (invited : Bool) : Inv (s.ticketForJoin want invited) := by
  unfold State.ticketForJoin
  split
  · exact h.ticketAnswered ..
  · split
    · exact h.ticketAnswered ..
    · exact h.sendLauncher rfl

theorem Inv.withCredential (h : Inv s) (want : Want) : Inv (s.withCredential want) := by
  unfold State.withCredential
  have hsaid := h.said []
  split
  · exact h
  · dsimp only
    split
    · exact hsaid.enqueue want s.pass []
    · exact hsaid.ticketForJoin want false

theorem Inv.follow (h : Inv s) (room : Bytes) : Inv (s.follow room) := by
  have hgo : ∀ invite entering, Inv { s with invite, entering } := fun invite entering =>
    ⟨h.modes, h.queue, h.here, h.held, h.past, h.shown, h.sent⟩
  unfold State.follow
  simp only
  split
  · exact (hgo [] false).enqueue (.room room) s.pass []
  · exact (hgo room true).ticketForJoin (.room room) true

theorem Inv.inviteAnswered (h : Inv s) (room : Bytes) : Inv (s.inviteAnswered room) := by
  have hasked : ∀ invite, Inv { s with askingInvite := false, invite } := fun invite =>
    ⟨h.modes, h.queue, h.here, h.held, h.past, h.shown, h.sent⟩
  unfold State.inviteAnswered
  simp only
  split_ifs
  · exact (hasked s.invite).follow room
  · exact hasked room
  · exact hasked s.invite

theorem Inv.followInvite (h : Inv s) : Inv s.followInvite := by
  have hasked : Inv { s with inviteAsked := true, askingInvite := true } :=
    ⟨h.modes, h.queue, h.here, h.held, h.past, h.shown, h.sent⟩
  unfold State.followInvite
  split
  · exact h
  · split
    · exact h.follow s.invite
    · split
      · exact h
      · dsimp only
        split
        · exact hasked.inviteAnswered []
        · exact hasked.sendLauncher rfl

/-! ## Calls of the screen -/

theorem Inv.startParty (h : Inv s) : Inv s.startParty := by
  unfold State.startParty
  split
  · exact h
  · next q hqueue =>
      have hheld : s.queue.isSome := by
        rw [hqueue]
        rfl
      split
      · exact h
      · split
        · exact h.said _
        · exact h.sendQueued _ (h.held hheld) rfl fun hkind => by cases hkind

theorem Inv.startAnswered (h : Inv s) {url : Bytes} (hurl : url = s.dispatchUrl) (res : Answer) :
    Inv (s.startAnswered url res) := by
  unfold State.startAnswered
  cases decode res with
  | error why => exact h.said _
  | ok body => exact (h.readQueue body (keptGranter_eq h hurl)).said []

theorem Inv.joinFailed (h : Inv s) : Inv s.joinFailed := by
  unfold State.joinFailed
  split
  · split
    · exact h.drop
    · exact h
  · exact h

theorem Inv.retry (h : Inv s)
    (hsteady : s.Busy → (State.pickEntry { s with bad := [], modes := none }).dispatchUrl = s.dispatchUrl) :
    Inv s.retry := by
  have hforgiven : Inv { s with bad := [], modes := none } :=
    ⟨h.modes, h.queue, h.here, h.held, h.past, h.shown, h.sent⟩
  exact (hforgiven.pickEntry hsteady).refreshModes fun hagain => by cases hagain

theorem Inv.enter (h : Inv s) (hsteady : s.Busy → s.opened.pickEntry.dispatchUrl = s.dispatchUrl) :
    Inv s.enter := by
  have hpicked : Inv s.opened.pickEntry := by
    rcases pickEntry_eq s.opened with ⟨region, heq⟩
    rw [heq] at hsteady ⊢
    unfold State.opened State.sync at hsteady ⊢
    split at hsteady
    · next hlauncher =>
        rw [if_pos hlauncher]
        exact h.moved rfl rfl rfl rfl rfl rfl rfl rfl hsteady
    · next hlauncher =>
        rw [if_neg hlauncher]
        exact h.moved rfl rfl rfl rfl rfl rfl rfl rfl hsteady
  have hlast : ∀ lastDispatch, Inv { s.opened.pickEntry with lastDispatch } := fun lastDispatch =>
    ⟨hpicked.modes, hpicked.queue, hpicked.here, hpicked.held, hpicked.past, hpicked.shown, hpicked.sent⟩
  unfold State.enter
  simp only
  split
  · exact (hlast _).refreshModes fun hagain => by cases hagain
  · exact hlast _

theorem Inv.invited (h : Inv s) : Inv s.invited := by
  unfold State.invited
  split
  · exact h.followInvite
  · exact h

theorem waiting_pickEntry (s : State) : s.pickEntry.waiting p = s.waiting p := by
  rcases pickEntry_eq s with ⟨region, heq⟩
  rw [heq]
  rfl

/-- A frame: another dispatcher than the last is asked only when no one is being asked. -/
theorem Inv.update (h : Inv s) (hsteady : Label.update.Steady s) : Inv s.update := by
  unfold State.update
  split
  · exact h
  · next hshown =>
      rcases hsteady (by simpa using hshown) with ⟨hstay, hlast⟩
      have hpicked : Inv s.invited.pickEntry := h.invited.pickEntry hstay
      have hsame : s.invited.pickEntry.lastDispatch = s.invited.lastDispatch := by
        rcases pickEntry_eq s.invited with ⟨region, heq⟩
        rw [heq]
      have hlasted : ∀ {u : State} (lastDispatch : Bytes), Inv u → Inv { u with lastDispatch } := by
        intro u lastDispatch hu
        exact ⟨hu.modes, hu.queue, hu.here, hu.held, hu.past, hu.shown, hu.sent⟩
      dsimp only
      split
      · refine Inv.refreshModes (hlasted _ ?_) fun hagain => by cases hagain
        split
        · next hother =>
            have hnone : s.invited.pickEntry.waiting Kind.isModes = 0 := by
              rw [waiting_pickEntry]
              refine Nat.eq_zero_of_not_pos fun hpos => hother ?_
              rw [hsame]
              exact hlast hpos
            exact ⟨Nat.le_of_eq hnone, hpicked.queue, hpicked.here, hpicked.held, hpicked.past, hpicked.shown,
              hpicked.sent⟩
        · exact hpicked
      · exact hpicked

/-! ## Answers -/

theorem received_eq {r : Request} (ht : s.received r = some t) :
    r ∈ s.outstanding ∧ t = { s with outstanding := s.outstanding.erase r } := by
  unfold State.received at ht
  split at ht
  · next hr =>
      cases ht
      exact ⟨hr, rfl⟩
  · cases ht

theorem Inv.received (h : Inv s) {r : Request} (ht : s.received r = some t) : Inv t := by
  rcases received_eq ht with ⟨-, rfl⟩
  have hless : ∀ p, State.waiting { s with outstanding := s.outstanding.erase r } p ≤ s.waiting p := fun p =>
    List.Sublist.countP_le List.erase_sublist
  exact ⟨Nat.le_trans (hless _) h.modes, Nat.le_trans (hless _) h.queue,
    fun r' hr' => h.here r' (List.mem_of_mem_erase hr'), h.held,
    fun r' hr' => h.past r' (List.mem_of_mem_erase hr'), h.shown, h.sent⟩

theorem waiting_received {r : Request} (ht : s.received r = some t) (hone : s.waiting p ≤ 1)
    (hkind : p r.kind = true) (hcurrent : r.epoch = s.epoch) : t.waiting p = 0 := by
  rcases received_eq ht with ⟨hr, rfl⟩
  have hsplit : s.waiting p = State.waiting { s with outstanding := s.outstanding.erase r } p + 1 := by
    calc
      s.waiting p = (r :: s.outstanding.erase r).countP fun r => p r.kind && r.epoch = s.epoch :=
        (List.perm_cons_erase hr).countP_eq _
      _ = _ := by
        rw [List.countP_cons_of_pos]
        · rfl
        · simp [hkind, hcurrent]
  omega

theorem Inv.answer {u : State} (h : Inv s) {r : Request} {res : Answer} (ht : s.received r = some t)
    (hsteady : (Label.answer r res).Steady s) (hu : t.answer r res = some u) : Inv u := by
  have hreceived := h.received ht
  have hright := h.right
  rcases received_eq ht with ⟨hr, htt⟩
  have hepoch : t.epoch = s.epoch := by rw [htt]
  have hurl : r.epoch = s.epoch → r.kind.talks = true → r.url = t.dispatchUrl := by
    intro hcurrent htalks
    rw [htt]
    exact h.here r hr hcurrent htalks
  rcases r with ⟨kind, url, epoch⟩
  unfold State.answer at hu
  cases kind with
  | modes again =>
    dsimp only at hu
    split at hu
    · cases hu
      exact hreceived
    · next hcurrent =>
        cases hu
        have hnow : epoch = s.epoch := hepoch ▸ not_not.1 hcurrent
        exact hreceived.modesAnswered (waiting_received ht hright.modes rfl hnow) (hurl hnow rfl)
          fun why hwhy => hsteady again why t rfl hnow hwhy ht
  | join want region pass ticket =>
    dsimp only at hu
    split at hu
    · cases hu
      exact hreceived
    · next hcurrent =>
        cases hu
        exact hreceived.joinAnswered (hurl (hepoch ▸ not_not.1 hcurrent) rfl) res
  | queue pass region =>
    dsimp only at hu
    split at hu
    · cases hu
      exact hreceived
    · next hcurrent =>
        cases hu
        have hnow : epoch = s.epoch := hepoch ▸ not_not.1 hcurrent
        exact hreceived.pollAnswered (waiting_received ht hright.queue rfl hnow) (hurl hnow rfl) res
  | start pass =>
    dsimp only at hu
    split at hu
    · cases hu
      exact hreceived
    · next hcurrent =>
        cases hu
        exact hreceived.startAnswered (hurl (hepoch ▸ not_not.1 hcurrent) rfl) res
  | leave pass =>
    cases hu
    exact hreceived
  | ticket serverId want invited => cases hu
  | invite => cases hu

/-! ## Steps and runs -/

theorem Inv.step (h : Inv s) {l : Label} (hsteady : l.Steady s) (hstep : s.Step l t) : Inv t := by
  cases l with
  | enter =>
    cases hstep
    exact h.enter hsteady
  | leave =>
    cases hstep
    have hhidden : Inv { s with shown := false } :=
      ⟨h.modes, h.queue, h.here, h.held, h.past, h.shown, h.sent⟩
    exact hhidden.stop
  | update =>
    cases hstep
    exact h.update hsteady
  | join mode =>
    cases hstep
    exact h.withCredential _
  | createParty mode =>
    cases hstep
    exact h.withCredential _
  | joinParty code =>
    cases hstep
    unfold State.joinParty
    split
    · exact h
    · exact h.withCredential _
  | startParty =>
    cases hstep
    exact h.startParty
  | cancel =>
    cases hstep
    exact h.stop.refreshModes fun hagain => by cases hagain
  | retry =>
    cases hstep
    exact h.retry hsteady
  | joinFailed =>
    cases hstep
    exact h.joinFailed
  | invited room =>
    cases hstep
    exact ⟨h.modes, h.queue, h.here, h.held, h.past, h.shown, h.sent⟩
  | servers all entry usable =>
    cases hstep
    exact h.moved rfl rfl rfl rfl rfl rfl rfl rfl hsteady
  | answer r res =>
    rcases Option.bind_eq_some_iff.1 hstep with ⟨u, hu, ht⟩
    exact h.answer hu hsteady ht
  | ticket r ticket trouble =>
    rcases Option.bind_eq_some_iff.1 hstep with ⟨u, hu, ht⟩
    have hreceived := h.received hu
    cases hkind : r.kind with
    | ticket serverId want invited =>
      simp only [hkind] at ht
      cases ht
      exact hreceived.ticketAnswered ..
    | _ =>
      simp only [hkind] at ht
      cases ht
  | invite r room =>
    rcases Option.bind_eq_some_iff.1 hstep with ⟨u, hu, ht⟩
    split at ht
    · cases ht
      exact (h.received hu).inviteAnswered room
    · cases ht

theorem inv_new (ownDispatch : Bytes) (launcher : Bool) : Inv (State.new ownDispatch launcher) where
  modes := Nat.zero_le _
  queue := Nat.zero_le _
  here := fun r hr => absurd hr List.not_mem_nil
  held := fun hheld => by cases hheld
  past := fun r hr => absurd hr List.not_mem_nil
  shown := fun asked named heq => by cases heq
  sent := fun x hx => absurd hx List.not_mem_nil

/-- What was asked before a stop changes nothing. -/
theorem stale_answer {l : Label} (hsteady : l.Steady s) (hstep : s.Step l t) {r : Request}
    (hr : l.answers = some r) (hstale : r.epoch ≠ s.epoch) :
    t = { s with outstanding := s.outstanding.erase r } := by
  cases l with
  | answer r' res =>
    cases hr
    rcases Option.bind_eq_some_iff.1 hstep with ⟨u, hu, ht⟩
    rcases received_eq hu with ⟨-, rfl⟩
    unfold State.answer at ht
    cases hkind : r.kind <;> simp only [hkind] at ht
    case ticket => cases ht
    case invite => cases ht
    case leave => exact (Option.some.inj ht).symm
    all_goals
      rw [if_pos hstale] at ht
      exact (Option.some.inj ht).symm
  | ticket r' ticket trouble =>
    cases hr
    rcases Option.bind_eq_some_iff.1 hstep with ⟨u, hu, ht⟩
    rcases received_eq hu with ⟨-, rfl⟩
    cases hkind : r.kind with
    | ticket serverId want invited =>
      simp only [hkind] at ht
      cases invited with
      | false =>
        have hsame := Option.some.inj ht
        unfold State.ticketAnswered at hsame
        simp only [Bool.false_eq_true, if_false, if_pos hstale] at hsame
        exact hsame.symm
      | true => exact absurd (hsteady serverId want hkind) hstale
    | _ =>
      simp only [hkind] at ht
      cases ht
  | invite r' room =>
    cases hr
    exact absurd hsteady hstale
  | _ => cases hr

end Parts

/-- In every run of steady steps at most one request of a kind is under way, the arenas are those of the
dispatcher they were asked of, a held queue is dealt with by its own dispatcher, and an answer to what was
asked before a stop changes nothing. -/
theorem right_of_run {ownDispatch : Bytes} {launcher : Bool} {ls : List Label} {s : State}
    (h : Run.Guarded (fun s l => l.Steady s) State.Step (.new ownDispatch launcher) ls s) :
    Right s ∧ ∀ (l : Label) (t : State) (r : Request), l.Steady s → s.Step l t → l.answers = some r →
      r.epoch ≠ s.epoch → t = { s with outstanding := s.outstanding.erase r } := by
  have hinv : Inv s := Run.guarded_invariant (fun u l v hu hl hstep => hu.step hl hstep) h (inv_new _ _)
  exact ⟨hinv.right, fun l t r hsteady hstep hr hstale => stale_answer hsteady hstep hr hstale⟩

/-- The lobby of an arena, at a dispatcher -/
def lobby (dispatch : String) : ServerEntry where
  id := ascii "arena"
  dispatch := ascii dispatch
  region := ascii "eu"
  role := ascii "matches"

theorem not_busy {s : State} (hqueue : s.queue = none) (hnone : s.outstanding = []) : ¬ s.Busy := by
  rintro (hheld | ⟨r, hr, -⟩)
  · rw [hqueue] at hheld
    cases hheld
  · rw [hnone] at hr
    cases hr

theorem right_of_run_opened :
    ∃ s, Run.Guarded (fun s l => l.Steady s) State.Step (.new [] true)
        [.servers [lobby "a"] [] [], .enter] s ∧ s.waiting Kind.isModes = 1 ∧ Right s := by
  have hrun : ∃ s, Run.Guarded (fun s l => l.Steady s) State.Step (.new [] true)
      [.servers [lobby "a"] [] [], .enter] s ∧ s.waiting Kind.isModes = 1 := by
    refine ⟨_, .cons ⟨?_, rfl⟩ (.cons ⟨?_, rfl⟩ (.nil _)), rfl⟩
    · exact fun hbusy => absurd hbusy (not_busy rfl rfl)
    · exact fun hbusy => absurd hbusy (not_busy rfl rfl)
  rcases hrun with ⟨s, hs, hone⟩
  exact ⟨s, hs, hone, (right_of_run hs).1⟩

/-- The list changes while the arenas are being asked for, and the next frame asks another dispatcher. -/
theorem two_modes_requests :
    ¬ ∀ (ownDispatch : Bytes) (launcher : Bool) (ls : List Label) (s : State),
      Run State.Step (.new ownDispatch launcher) ls s → Right s := by
  intro hall
  have hrun : ∃ s, Run State.Step (.new [] true)
      [.servers [lobby "a"] [] [], .enter, .servers [lobby "b"] [] [], .update] s ∧
        s.waiting Kind.isModes = 2 :=
    ⟨_, .cons rfl (.cons rfl (.cons rfl (.cons rfl (.nil _)))), rfl⟩
  rcases hrun with ⟨s, hs, htwo⟩
  have hone := (hall _ _ _ _ hs).modes
  omega

end Menu
end AxisEngine
