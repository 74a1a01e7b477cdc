import AxisEngine.Login.Moves

/-!
# Evidence — what the log says about a connection that is let in

Deeds are noted with the number of their connection, so what is shown of a connection was done on
this very connection.

* `Since` — a deed, and what was before it;
* `Vouched`, `Greeted`, `Proven` — the ticket and the account service, HELLO, and the password;
* `Backed` — what the state of a client is backed by;
* `Ends`, `Settled` — what a handler leaves of a client;
* `ends_handleCommandSrpBytesM`, ... — the handlers after HELLO;
* `settled_finishInit` — HELLO is only said to a connection that is vouched for.
-/

namespace AxisEngine
namespace Login

open Lib

/-- `d` was noted, and `P` held of what was noted before. -/
def Since (d : Deed) (P : List Deed → Prop) (log : List Deed) : Prop :=
  ∃ earlier, d :: earlier <:+ log ∧ P earlier

section

variable {A : Type} (W : World A) (n : Nat) (name : Bytes)

def Begun (ticket : Bytes) (time : Int) (st : Settings) : List Deed → Prop :=
  Since (.init n name ticket time st) fun _ => True

/-- The account service was asked about the ticket. -/
def Asked (ticket : Bytes) (time : Int) (st : Settings) : List Deed → Prop :=
  Since (.asked n ticket) (Begun n name ticket time st)

/-- The ticket is good, and so is what the account service says where there is one. -/
def Vouched (log : List Deed) : Prop :=
  ∃ ticket time st id, checkTicket W.tickets time ticket name st.serverId = .ok id ∧
    Begun n name ticket time st log ∧
    (st.hasService = true → ∃ res id', readAccountServiceAnswer W res id = some id' ∧
      Since (.answered n res) (Asked n name ticket time st) log)

/-- The game did not refuse the player, and HELLO was said. -/
def Greeted (encPwd : Bytes) : List Deed → Prop :=
  Since (.hello n name encPwd) (Since (.prejoin n name false) (Vouched W n name))

/-- The proof is asked for against this password. -/
def Against (encPwd : Bytes) (v : SrpVerifier) : Prop :=
  v.username = name ∧ ∃ pkt random,
    verifierAndSalt W { name := name, encPwd := encPwd } pkt random = some (v.verifier, v.salt)

/-- After HELLO its password was proven, or a name without a password got one. -/
def Proven (log : List Deed) : Prop :=
  ∃ encPwd, (∃ v, Against W name encPwd v ∧
      Since (.accepted n (some v) true false) (Greeted W n name encPwd) log) ∨
    ∃ pwd, Since (.createAuth n name pwd false) (Greeted W n name encPwd) log

/-- What the state of a client is backed by. -/
structure Backed (log : List Deed) (c : RemoteClient) : Prop where
  greeted : c.state = .helloSent → Greeted W n c.name c.encPwd log
  challenged : c.state = .helloSent → c.chosenMech ≠ .none →
    ∃ v, c.authData = some v ∧ Against W c.name c.encPwd v
  proven : .awaitingInit2 ≤ c.state → Proven W n c.name log

end

section

variable {A : Type} {W : World A} {n : Nat} {name encPwd : Bytes} {d : Deed}
  {P Q : List Deed → Prop} {log log' : List Deed} {c c' : RemoteClient} {e : ClientStateEvent}

theorem Since.mono (h : Since d P log) (hlog : log <:+ log') : Since d P log' := by
  rcases h with ⟨earlier, hsuffix, hP⟩
  exact ⟨earlier, hsuffix.trans hlog, hP⟩

theorem Since.now (h : P log) : Since d P (d :: log) :=
  ⟨log, List.suffix_rfl, h⟩

theorem Vouched.mono (h : Vouched W n name log) (hlog : log <:+ log') : Vouched W n name log' := by
  rcases h with ⟨ticket, time, st, id, hid, hbegun, hservice⟩
  refine ⟨ticket, time, st, id, hid, hbegun.mono hlog, fun hhas => ?_⟩
  rcases hservice hhas with ⟨res, id', hid', hsince⟩
  exact ⟨res, id', hid', hsince.mono hlog⟩

theorem Proven.mono (h : Proven W n name log) (hlog : log <:+ log') : Proven W n name log' := by
  rcases h with ⟨encPwd, ⟨v, hv, hsince⟩ | ⟨pwd, hsince⟩⟩
  · exact ⟨encPwd, .inl ⟨v, hv, hsince.mono hlog⟩⟩
  · exact ⟨encPwd, .inr ⟨pwd, hsince.mono hlog⟩⟩

theorem Backed.mono (h : Backed W n log c) (hlog : log <:+ log') : Backed W n log' c where
  greeted hstate := (h.greeted hstate).mono hlog
  challenged := h.challenged
  proven hstate := (h.proven hstate).mono hlog

/-- Up to HELLO there is nothing to back. -/
theorem backed_of_le (h : c.state ≤ .created) : Backed W n log c := by
  refine ⟨fun hstate => ?_, fun hstate => ?_, fun hstate => ?_⟩
  · rw [hstate] at h
    exact absurd h (by decide)
  · rw [hstate] at h
    exact absurd h (by decide)
  · exact absurd (Nat.le_trans hstate h) (by decide)

/-- After HELLO the fields of a login do not matter, but for the name. -/
theorem Backed.keep (h : Backed W n log c) (hstate : c'.state = c.state) (hname : c'.name = c.name)
    (hne : c'.state ≠ .helloSent) : Backed W n log c' := by
  refine ⟨fun hhello => absurd hhello hne, fun hhello => absurd hhello hne, fun hle => ?_⟩
  rw [hname]
  rw [hstate] at hle
  exact h.proven hle

/-! ## Events -/

variable {a b : ClientState}

theorem ClientState.ne_created_of_next (h : a.next e = some b) : b ≠ .created := by
  rintro rfl
  cases a <;> cases e <;> cases h

theorem ClientState.le_of_next_setDenied (h : a.next .setDenied = some b) : b ≤ .denied := by
  cases a <;> cases h <;> decide

/-- HELLO is only reached by saying it, and what is beyond it by an accepted proof. -/
theorem ClientState.le_of_next (h : a.next e = some b) (hhello : e ≠ .hello)
    (haccept : e ≠ .authAccept) : b ≠ .helloSent ∧ (.awaitingInit2 ≤ b → .awaitingInit2 ≤ a) := by
  cases e with
  | hello => exact absurd rfl hhello
  | authAccept => exact absurd rfl haccept
  | _ => all_goals cases a <;> cases h <;> decide

theorem RemoteClient.name_notice : (c.notice e).name = c.name := by
  unfold notice
  split
  all_goals rfl

theorem Backed.notify (h : Backed W n log c) (hhello : e ≠ .hello) (haccept : e ≠ .authAccept)
    (hc : c.notifyEvent e = some c') : Backed W n log c' := by
  rcases RemoteClient.notifyEvent_eq_some.1 hc with ⟨b, hb, rfl⟩
  rcases ClientState.le_of_next hb hhello haccept with ⟨hne, hle⟩
  refine ⟨fun hstate => absurd hstate hne, fun hstate => absurd hstate hne, fun hstate => ?_⟩
  have hproven := h.proven (hle hstate)
  rw [← @RemoteClient.name_notice c e] at hproven
  exact hproven

end

namespace Server

variable {A : Type}

/-- What a handler leaves of a client: it is backed, and is as it was if it is still created. -/
def Ends (W : World A) (p : SessionT) (n : Nat) (c : RemoteClient) (t : Server A) : Prop :=
  ∀ c', t.clients.lookup p = some c' → Backed W n t.log c' ∧ (c'.state = .created → c' = c)

/-- The client is backed, and no longer created. -/
def Settled (W : World A) (p : SessionT) (n : Nat) (t : Server A) : Prop :=
  ∀ c', t.clients.lookup p = some c' → Backed W n t.log c' ∧ c'.state ≠ .created

section

variable {W : World A} {s t : Server A} {p q : SessionT} {x : Outside} {n : Nat}
  {c c₁ : RemoteClient} {e : ClientStateEvent} {k : Server A → Handled A} {r : Handled A}

/-! ## Clients -/

variable {complete : Bool} {f : RemoteClient → RemoteClient}

theorem lookup_modify (hc : s.clients.lookup p = some c) :
    (s.modify p f).clients.lookup p = some (f c) := by
  rw [Server.modify, hc]
  exact AList.lookup_insert s.clients

@[simp] theorem log_modify : (s.modify p f).log = s.log := by
  rw [modify_eq]

theorem event_eq (hc : s.clients.lookup p = some c) (hc₁ : c.notifyEvent e = some c₁) :
    s.event p e k = k { s with clients := s.clients.insert p c₁ } := by
  rw [Server.event, Clients.event, hc]
  dsimp only
  rw [hc₁]
  rfl

theorem Settled.ends (h : Settled W p n t) : Ends W p n c t := by
  intro c' hc'
  rcases h c' hc' with ⟨hback, hne⟩
  exact ⟨hback, fun hstate => absurd hstate hne⟩

theorem settled_denyAccess : Settled W p n (s.denyAccess p) := by
  intro c' hc'
  have hdenied : c'.state ≤ .denied := by
    cases hc : s.clients.lookup p with
    | none =>
      rw [Server.denyAccess, Clients.event, hc] at hc'
      cases hc.symm.trans hc'
    | some c =>
      rcases c.notifyEvent_setDenied with ⟨c₁, hc₁⟩
      rw [Server.denyAccess, Clients.event, hc] at hc'
      dsimp only at hc'
      rw [hc₁] at hc'
      cases (AList.lookup_insert s.clients).symm.trans hc'
      rcases RemoteClient.notifyEvent_eq_some.1 hc₁ with ⟨b, hb, rfl⟩
      exact ClientState.le_of_next_setDenied hb
  refine ⟨backed_of_le (Nat.le_trans hdenied (by decide)), fun hstate => ?_⟩
  rw [hstate] at hdenied
  exact absurd hdenied (by decide)

theorem ends_denyAccess : Ends W p n c (s.denyAccess p) :=
  settled_denyAccess.ends

theorem ends_self (hc : s.clients.lookup p = some c) (hback : Backed W n s.log c) :
    Ends W p n c s := by
  intro c' hc'
  cases hc.symm.trans hc'
  exact ⟨hback, fun _ => rfl⟩

section

variable (hc₁ : t.clients.lookup p = some c₁)

include hc₁

theorem ends_of (hback : Backed W n t.log c₁) (hstate : c₁.state ≠ .created) : Ends W p n c t := by
  intro c' hc'
  cases hc₁.symm.trans hc'
  exact ⟨hback, fun hcreated => absurd hcreated hstate⟩

/-- An event, when it is neither HELLO nor an accepted proof. -/
theorem ends_event (hback : Backed W n t.log c₁) (hstate : c₁.state ≠ .created)
    (hhello : e ≠ .hello) (haccept : e ≠ .authAccept)
    (hk : ∀ c₂ u, u.clients.lookup p = some c₂ → u.log = t.log → Backed W n u.log c₂ →
      c₂.state ≠ .created → c₂.state ≠ .helloSent → Ends W p n c (k u).1) :
    Ends W p n c (t.event p e k).1 := by
  cases hc₂ : c₁.notifyEvent e with
  | none =>
    rw [Server.event, Clients.event, hc₁]
    dsimp only
    rw [hc₂]
    exact ends_of hc₁ hback hstate
  | some c₂ =>
    rw [event_eq hc₁ hc₂]
    have hback₂ := hback.notify hhello haccept hc₂
    rcases RemoteClient.notifyEvent_eq_some.1 hc₂ with ⟨b, hb, rfl⟩
    exact hk _ _ (AList.lookup_insert t.clients) rfl hback₂ (ClientState.ne_created_of_next hb)
      (ClientState.le_of_next hb hhello haccept).1

end

/-! ## INIT2, and the packets of a login -/

theorem stageTwoClientInit_cases (s : Server A) (p : SessionT) :
    s.stageTwoClientInit p = (s.denyAccess p, false) ∨
      ∃ players, s.stageTwoClientInit p = ({ s with players := players }, true) := by
  unfold stageTwoClientInit
  split
  · exact .inl rfl
  split
  · exact .inl rfl
  · exact .inr ⟨_, rfl⟩

theorem ends_handleCommandClientReady (hc : s.clients.lookup p = some c)
    (hback : Backed W n s.log c) (hstate : .initDone ≤ c.state) :
    Ends W p n c (s.handleCommandClientReady p complete x).1 := by
  have hne : c.state ≠ .created := by
    intro hcreated
    rw [hcreated] at hstate
    exact absurd hstate (by decide)
  unfold handleCommandClientReady
  split
  · exact ends_self hc hback
  split
  · exact ends_self hc hback
  split
  · exact ends_denyAccess
  dsimp only
  rcases stageTwoClientInit_cases s p with hstage | ⟨players, hstage⟩
  · rw [hstage]
    exact ends_denyAccess
  · rw [hstage, if_pos rfl]
    have hevents : ClientStateEvent.setClientReady ≠ .hello ∧
        ClientStateEvent.setClientReady ≠ .authAccept := by decide
    refine ends_event (t := { s with players := players }) hc hback hne hevents.1 hevents.2
      fun c₂ u hc₂ _ hback₂ hne₂ _ => ?_
    exact ends_of hc₂ (hback₂.mono (List.suffix_cons ..)) hne₂

/-! ## The rest of INIT -/

/-- HELLO is said to a connection that is vouched for and not refused. -/
theorem settled_sendHello {mechs : UInt32} (hn : t.connOf p = n)
    (hc₁ : t.clients.lookup p = some c₁) (hstate : c₁.state = .created)
    (hchosen : c₁.chosenMech = .none)
    (hlog : Since (.prejoin n c₁.name false) (Vouched W n c₁.name) t.log) :
    Settled W p n (t.sendHello p mechs).1 := by
  have hset := @lookup_modify A t p c₁ (fun c => { c with allowedAuthMechs := mechs }) hc₁
  have hhello : ({ c₁ with allowedAuthMechs := mechs } : RemoteClient).notifyEvent .hello =
      some { c₁ with allowedAuthMechs := mechs, state := .helloSent } := by
    unfold RemoteClient.notifyEvent RemoteClient.notice
    rw [hstate]
    rfl
  have hresult : (t.sendHello p mechs).1 =
      { (t.modify p fun c => { c with allowedAuthMechs := mechs }).note
          (.hello n c₁.name c₁.encPwd) with
        clients := AList.insert p { c₁ with allowedAuthMechs := mechs, state := .helloSent }
          (t.modify p fun c => { c with allowedAuthMechs := mechs }).clients } := by
    rw [sendHello, hset]
    dsimp only
    rw [connOf_modify, hn, event_eq (s := Server.note _ _) hset hhello]
    rfl
  rw [hresult]
  intro c' hc'
  cases (AList.lookup_insert _).symm.trans hc'
  have hbefore : ¬ ClientState.awaitingInit2 ≤ .helloSent := by decide
  refine ⟨⟨fun _ => ?_, fun _ hne => absurd hchosen hne, fun hle => absurd hle hbefore⟩, ?_⟩
  · change Greeted W n c₁.name c₁.encPwd (_ :: (t.modify p _).log)
    rw [log_modify]
    exact Since.now hlog
  · intro hcreated
    cases hcreated

theorem settled_finishInit (hn : t.connOf p = n) (hc₁ : t.clients.lookup p = some c₁)
    (hback : Backed W n t.log c₁) (hvouched : c₁.state = .created → Vouched W n c₁.name t.log) :
    Settled W p n (t.finishInit W p x).1 := by
  have hself : c₁.state ≠ .created → Settled W p n t := by
    intro hne c' hc'
    cases hc₁.symm.trans hc'
    exact ⟨hback, hne⟩
  unfold finishInit
  cases hget : t.clients.getClientNoEx p .created with
  | none =>
    refine hself fun hstate => ?_
    have hsome : t.clients.getClientNoEx p .created = some c₁ := by
      refine Clients.getClientNoEx_eq_some.2 ⟨hc₁, ?_⟩
      rw [hstate]
      decide
    cases hget.symm.trans hsome
  | some c =>
    cases hc₁.symm.trans (Clients.getClientNoEx_eq_some.1 hget).1
    dsimp only
    split
    · rename_i hne
      exact hself hne
    rename_i hstate
    have hstate := not_not.1 hstate
    split
    · exact settled_denyAccess
    rename_i hrefused
    split
    · exact settled_denyAccess
    -- from here on the player is not refused
    have hlog : Since (.prejoin n c₁.name false) (Vouched W n c₁.name)
        (t.note (.prejoin (t.connOf p) c₁.name x.refused)).log := by
      rw [eq_false_of_ne_true hrefused, hn]
      exact Since.now (hvouched hstate)
    have hchosen := @lookup_modify A (t.note (.prejoin (t.connOf p) c₁.name x.refused)) p c₁
      (fun c => { c with chosenMech := .none }) hc₁
    have hhello : ∀ (f : RemoteClient → RemoteClient) (mechs : UInt32),
        (∀ c, (f c).state = c.state ∧ (f c).name = c.name ∧ (f c).chosenMech = c.chosenMech) →
        Settled W p n ((((t.note (.prejoin (t.connOf p) c₁.name x.refused)).modify p
          fun c => { c with chosenMech := .none }).modify p f).sendHello p mechs).1 := by
      intro f mechs hf
      rcases hf { c₁ with chosenMech := .none } with ⟨hfstate, hfname, hfmech⟩
      refine settled_sendHello ?_ (lookup_modify hchosen) (hfstate.trans hstate) hfmech ?_
      · rw [connOf_modify, connOf_modify]
        exact hn
      · rw [log_modify, log_modify, hfname]
        exact hlog
    split
    · split
      · split
        · exact hhello _ _ fun c => ⟨rfl, rfl, rfl⟩
        · exact settled_denyAccess
      · split
        · exact hhello _ _ fun c => ⟨rfl, rfl, rfl⟩
        · exact settled_denyAccess
    · split
      · refine settled_sendHello ?_ hchosen hstate rfl ?_
        · rw [connOf_modify]
          exact hn
        · rw [log_modify]
          exact hlog
      · exact hhello _ _ fun c => ⟨rfl, rfl, rfl⟩

end

end Server
end Login
end AxisEngine
