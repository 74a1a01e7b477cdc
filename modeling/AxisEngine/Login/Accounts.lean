import AxisEngine.Login.Moves
import AxisEngine.Lib.Transition

/-!
# Accounts — a login does not overwrite a password

A name without a password may be registered, and who has proven their password may change it.  The
decision to register is made at HELLO and carried out later, when another connection may have been
faster.

* `HoldsSudo`, `OwnersOnly` — who may register and change passwords;
* `ProvenInOrder` — when an accepted proof is harmless;
* `owners_only` — runs of harmless steps;
* `secondProof_overwrites` — two connections register one name.
-/

namespace AxisEngine
namespace Login

open Lib

/-- The connection has proven its password while it was active, and has not left sudo mode since. -/
def HoldsSudo (n : Nat) (log : List Deed) : Prop :=
  ∃ data later earlier, log = later ++ .accepted n data true true :: earlier ∧
    Deed.sudoLeave n ∉ later

/-- Only new names are registered, and a password is changed on leaving sudo mode. -/
structure OwnersOnly (log : List Deed) : Prop where
  created : ∀ n name encPwd known, .createAuth n name encPwd known ∈ log → known = false
  changed : ∀ n name encPwd earlier, .setPassword n name encPwd :: earlier <:+ log →
    ∃ before, earlier = .sudoLeave n :: before ∧ HoldsSudo n before

/-- Neither passwords nor sudo mode are touched. -/
def Harmless : Deed → Prop
  | .createAuth .. | .setPassword .. | .sudoLeave _ => False
  | _ => True

section

variable {n : Nat} {d : Deed} {log : List Deed}

theorem HoldsSudo.cons (h : HoldsSudo n log) (hd : d ≠ .sudoLeave n) : HoldsSudo n (d :: log) := by
  rcases h with ⟨data, later, earlier, rfl, hlater⟩
  refine ⟨data, d :: later, earlier, rfl, fun hmem => ?_⟩
  rcases List.mem_cons.1 hmem with heq | hmem
  · exact hd heq.symm
  · exact hlater hmem

theorem OwnersOnly.nil : OwnersOnly [] where
  created _ _ _ _ hmem := by cases hmem
  changed _ _ _ _ hsuffix := by cases List.suffix_nil.1 hsuffix

theorem OwnersOnly.cons (h : OwnersOnly log)
    (hcreate : ∀ n name encPwd known, d = .createAuth n name encPwd known → known = false)
    (hchange : ∀ n name encPwd, d = .setPassword n name encPwd →
      ∃ before, log = .sudoLeave n :: before ∧ HoldsSudo n before) : OwnersOnly (d :: log) where
  created n name encPwd known hmem := by
    rcases List.mem_cons.1 hmem with heq | hmem
    · exact hcreate n name encPwd known heq.symm
    · exact h.created n name encPwd known hmem
  changed n name encPwd earlier hsuffix := by
    rcases List.suffix_cons_iff.1 hsuffix with heq | hsuffix
    · rcases List.cons.inj heq with ⟨hd, rfl⟩
      exact hchange n name encPwd hd.symm
    · exact h.changed n name encPwd earlier hsuffix

end

namespace Server

variable {A : Type}

/-- SRP_BYTES_M is accepted, for its proof or because there is a single player. -/
def accepts (W : World A) (c : RemoteClient) (bytesM : Bytes) (x : Outside) : Prop :=
  (c.state = .helloSent ∨ c.state = .active) ∧
    (c.chosenMech = .srp ∨ c.chosenMech = .legacyPassword) ∧ bytesM.length = sessionKeyLength ∧
    (x.verified || (W.singleplayer && isSingleplayerName c.name)) = true

/-- What registers a name on success finds no entry for it, and who is active is accepted for a
proof. -/
def ProvenInOrder (W : World A) (s : Server A) (e : Event A) : Prop :=
  ∀ p bytesM x c, e = .packet p (.srpBytesM (some bytesM)) x → s.clients.lookup p = some c →
    accepts W c bytesM x →
    (c.createPlayerOnAuthSuccess = true → W.auth.getAuth s.auth c.name = none) ∧
      (c.state = .active → x.verified = true)

/-- Whoever is in sudo mode has shown the right to it. -/
structure Owned (s : Server A) : Prop where
  owners : OwnersOnly s.log
  sudoers : ∀ p c, s.clients.lookup p = some c → c.state = .sudoMode → HoldsSudo (s.connOf p) s.log
  numbered : ∀ p ∈ s.clients, s.connOf p < s.connections
  distinct : ∀ p ∈ s.clients, ∀ q ∈ s.clients, s.connOf p = s.connOf q → p = q

section

variable {W : World A} {s t : Server A} {e : Event A} {p : SessionT} {x : Outside}
  {c c' : RemoteClient} {cs : Clients} {d : Deed}

theorem sudoMode_of_next {a : ClientState} {e : ClientStateEvent} (he : e ≠ .sudoSuccess)
    (h : a.next e = some .sudoMode) : a = .sudoMode := by
  cases a
  case sudoMode => rfl
  all_goals
    cases e <;> first
      | exact absurd rfl he
      | cases h

theorem Owned.note (h : Owned s) (hd : Harmless d) : Owned (s.note d) where
  owners := by
    refine h.owners.cons (fun n name encPwd known heq => ?_) fun n name encPwd heq => ?_
    · rw [heq] at hd
      cases hd
    · rw [heq] at hd
      cases hd
  sudoers p c hc hstate := by
    refine (h.sudoers p c hc hstate).cons fun heq => ?_
    rw [heq] at hd
    cases hd
  numbered := h.numbered
  distinct := h.distinct

theorem Owned.clients (h : Owned s)
    (hsudo : ∀ q c', cs.lookup q = some c' → c'.state = .sudoMode → HoldsSudo (s.connOf q) s.log)
    (hmem : ∀ q ∈ cs, q ∈ s.clients) : Owned { s with clients := cs } where
  owners := h.owners
  sudoers := hsudo
  numbered q hq := h.numbered q (hmem q hq)
  distinct q hq r hr := h.distinct q (hmem q hq) r (hmem r hr)

theorem Owned.event {e : ClientStateEvent} (h : Owned s)
    (he : e = .sudoSuccess → HoldsSudo (s.connOf p) s.log)
    (hcs : s.clients.event p e = some cs) : Owned { s with clients := cs } := by
  refine h.clients (fun q c' hc' hstate => ?_) fun q hq => (Clients.mem_of_event hcs).1 hq
  rcases Clients.event_eq_some hcs with ⟨-, rfl⟩ | ⟨c, d, hp, hd, rfl⟩
  · exact h.sudoers q c' hc' hstate
  · by_cases hq : q = p
    · subst hq
      rw [AList.lookup_insert] at hc'
      cases hc'
      rcases RemoteClient.notifyEvent_eq_some.1 hd with ⟨b, hb, rfl⟩
      by_cases hsudo : e = .sudoSuccess
      · exact he hsudo
      · have hbefore : c.state = .sudoMode := by
          refine sudoMode_of_next hsudo ?_
          rw [hb, show b = .sudoMode from hstate]
        exact h.sudoers q c hp hbefore
    · rw [AList.lookup_insert_ne hq] at hc'
      exact h.sudoers q c' hc' hstate

theorem Owned.modify {f : RemoteClient → RemoteClient} (h : Owned s)
    (hf : ∀ c, (f c).state = c.state) : Owned (s.modify p f) := by
  unfold Server.modify
  split
  · exact h
  · rename_i c hc
    refine h.clients (fun q c' hc' hstate => ?_) fun q hq => ?_
    · by_cases hq : q = p
      · subst hq
        rw [AList.lookup_insert] at hc'
        cases hc'
        rw [hf] at hstate
        exact h.sudoers q c hc hstate
      · rw [AList.lookup_insert_ne hq] at hc'
        exact h.sudoers q c' hc' hstate
    · rcases (AList.mem_insert _).1 hq with rfl | hq
      · exact AList.lookup_isSome.1 (hc ▸ rfl)
      · exact hq

theorem Owned.auth (h : Owned s) (auth : A) : Owned { s with auth := auth } :=
  ⟨h.owners, h.sudoers, h.numbered, h.distinct⟩

theorem Owned.moves {D : Deed → Prop} {Q : Prop} (h : Owned s) (hD : ∀ d, D d → Harmless d)
    (hmoves : Moves p D QuietEvent Q s t) : Owned t := by
  induction hmoves with
  | refl => exact h
  | note _ hd ih => exact ih.note (hD _ hd)
  | modify _ hf ih => exact ih.modify hf
  | event _ he hcs ih => exact ih.event (fun hsudo => absurd hsudo he.2.1) hcs
  | questions _ _ ih => exact ⟨ih.owners, ih.sudoers, ih.numbered, ih.distinct⟩
  | auth _ ih => exact ih.auth _

theorem Owned.quiet {Q : Prop} (h : Owned s) (hmoves : Moves p Quiet QuietEvent Q s t) :
    Owned t := by
  refine h.moves (fun d hd => ?_) hmoves
  cases d
  case createAuth => cases hd
  case setPassword => cases hd
  case sudoLeave => cases hd
  all_goals trivial

theorem Owned.nothing {Q : Prop} (h : Owned s) (hmoves : Moves p Nothing QuietEvent Q s t) :
    Owned t :=
  h.moves (fun _ => False.elim) hmoves

theorem Owned.eventThen {e : ClientStateEvent} {k : Server A → Handled A} (h : Owned s)
    (hk : ∀ cs, s.clients.event p e = some cs → Owned (k { s with clients := cs }).1) :
    Owned (s.event p e k).1 := by
  unfold Server.event
  split
  · exact h
  · rename_i cs hcs
    exact hk cs hcs

theorem Owned.caught {r : Handled A} (h : Owned r.1) : Owned (caught r p) :=
  h.nothing (Q := True) (Moves.caught .refl setDenied_quiet)

theorem Owned.denyAccess (h : Owned s) : Owned (s.denyAccess p) :=
  h.nothing (Q := True) (Moves.refl.denyAccess setDenied_quiet)

/-! ## Passwords -/

theorem Owned.createAuth {name encPwd : Bytes} (h : Owned s)
    (hnone : W.auth.getAuth s.auth name = none) : Owned (s.createAuth W p name encPwd) where
  owners := by
    refine h.owners.cons (fun n name' encPwd' known heq => ?_) fun n name' encPwd' heq => ?_
    · cases heq
      rw [hnone]
      rfl
    · cases heq
  sudoers q c hc hstate := (h.sudoers q c hc hstate).cons nofun
  numbered := h.numbered
  distinct := h.distinct

theorem Owned.acceptAuth {forSudo : Bool} (h : Owned s)
    (hholds : forSudo = true → HoldsSudo (s.connOf p) s.log) :
    Owned (s.acceptAuth p forSudo).1 := by
  unfold Server.acceptAuth
  split
  · rename_i hsudo
    exact h.eventThen fun cs hcs => h.event (fun _ => hholds hsudo) hcs
  · have hnot : ClientStateEvent.authAccept ≠ .sudoSuccess := by decide
    exact h.eventThen fun cs hcs =>
      h.event (fun heq => absurd heq hnot) hcs

/-- The connection leaves sudo mode, and no other one is concerned. -/
theorem Owned.leaveSudo (h : Owned s) (hc : s.clients.lookup p = some c)
    (hstate : c.state = .sudoMode) (hcs : s.clients.event p .sudoLeave = some cs) :
    Owned ({ s with clients := cs }.note (.sudoLeave (s.connOf p))) := by
  have hnot : ClientStateEvent.sudoLeave ≠ .sudoSuccess := by decide
  have hleft := h.event (fun heq => absurd heq hnot) hcs
  have hp : p ∈ s.clients := AList.lookup_isSome.1 (hc ▸ rfl)
  refine ⟨hleft.owners.cons nofun nofun, fun q c' hc' hsudo => ?_, hleft.numbered, hleft.distinct⟩
  have hq : q ∈ s.clients := (Clients.mem_of_event hcs).1 (AList.lookup_isSome.1 (hc' ▸ rfl))
  refine (hleft.sudoers q c' hc' hsudo).cons fun heq => ?_
  have heq : q = p := h.distinct q hq p hp (Deed.sudoLeave.inj heq).symm
  subst heq
  -- this one is active now
  rcases Clients.event_eq_some hcs with ⟨hgone, -⟩ | ⟨d, d', hd, hd', rfl⟩
  · rw [hc] at hgone
    cases hgone
  · rw [hc] at hd
    cases hd
    rcases RemoteClient.notifyEvent_eq_some.1 hd' with ⟨b, hb, rfl⟩
    rw [hstate] at hb
    cases hb
    change AList.lookup q (s.clients.insert q _) = some c' at hc'
    rw [AList.lookup_insert] at hc'
    cases hc'
    cases hsudo

/-- The password is changed on leaving. -/
theorem Owned.setPassword (h : Owned s) {name encPwd : Bytes} {n : Nat} {before : List Deed}
    (hlog : s.log = .sudoLeave n :: before) (hholds : HoldsSudo n before) :
    Owned (s.note (.setPassword n name encPwd)) where
  owners := by
    refine h.owners.cons nofun fun m name' encPwd' heq => ?_
    cases heq
    exact ⟨before, hlog, hholds⟩
  sudoers q c hc hstate := (h.sudoers q c hc hstate).cons nofun
  numbered := h.numbered
  distinct := h.distinct

theorem owned_firstSrp (h : Owned s) {pkt : Option FirstSrpPacket} :
    Owned (s.handleCommandFirstSrp W p pkt).1 := by
  unfold handleCommandFirstSrp
  split
  · rename_i c pkt hc
    dsimp only
    split
    · split
      · exact h.denyAccess
      split
      · exact h.denyAccess
      split
      · exact h.denyAccess
      · rename_i hnone
        have hcreated : Owned (s.createAuth W p c.name
            (encodeSrpVerifier W pkt.verificationKey pkt.salt)) :=
          h.createAuth (Option.not_isSome_iff_eq_none.1 hnone)
        refine Owned.acceptAuth (hcreated.modify fun _ => rfl) fun hsudo => ?_
        cases hsudo
    · rename_i hhello
      split
      · exact h
      rename_i hsudo
      have hstate : c.state = .sudoMode := by
        cases hcase : c.state <;> first
          | rfl
          | (rw [hcase] at hsudo; exact absurd (by decide) hsudo)
      have hnot : ClientStateEvent.sudoLeave ≠ .sudoSuccess := by decide
      refine h.eventThen fun cs hcs => ?_
      have hleft := h.leaveSudo hc hstate hcs
      dsimp only
      split
      · exact hleft
      have hset : ∀ name encPwd auth, Owned ({ ({ s with clients := cs }.note
          (.sudoLeave (s.connOf p))) with auth := auth }.note
            (.setPassword (s.connOf p) name encPwd)) := fun _ _ auth =>
        (hleft.auth auth).setPassword rfl (h.sudoers p c hc hstate)
      split
      · exact (hset _ _ _).modify fun _ => rfl
      · exact hset _ _ _
  · exact h

theorem owned_srpBytesM (h : Owned s) {bytesM : Option Bytes}
    (hguard : ProvenInOrder W s (.packet p (.srpBytesM bytesM) x)) :
    Owned (s.handleCommandSrpBytesM W p bytesM x).1 := by
  unfold handleCommandSrpBytesM
  split
  · exact h
  rename_i c hc
  dsimp only
  split
  · exact h
  rename_i hstate
  split
  · split
    · exact h
    · exact h.denyAccess
  rename_i hmech
  split
  · exact h
  rename_i bytesM
  split
  · exact h.denyAccess
  rename_i hlength
  split
  · split
    · exact h.modify fun _ => rfl
    · exact h.denyAccess
  · rename_i hproof
    have haccepts : accepts W c bytesM x := by
      refine ⟨not_not.1 hstate, ?_, not_not.1 hlength, ?_⟩
      · rw [not_and_or, not_not, not_not] at hmech
        exact hmech
      · rw [Bool.and_eq_true, not_and_or, Bool.not_eq_true', Bool.not_eq_true', Bool.not_eq_false,
          Bool.not_eq_false] at hproof
        exact Bool.or_eq_true_iff.2 hproof
    rcases hguard p bytesM x c rfl hc haccepts with ⟨hnew, hverified⟩
    have hnoted : Owned (s.note (.accepted (s.connOf p) c.authData x.verified
        (decide (c.state = .active)))) := h.note trivial
    have hholds : decide (c.state = .active) = true → HoldsSudo (s.connOf p)
        (.accepted (s.connOf p) c.authData x.verified (decide (c.state = .active)) :: s.log) := by
      intro hactive
      rw [hactive, hverified (of_decide_eq_true hactive)]
      exact ⟨c.authData, [], s.log, rfl, List.not_mem_nil⟩
    split
    · rename_i hcreate
      have hcreated : Owned (Server.createAuth W _ p c.name c.encPwd) :=
        hnoted.createAuth (hnew hcreate)
      split
      · exact hcreated.denyAccess
      · refine Owned.acceptAuth (hcreated.modify fun _ => rfl) fun hactive => ?_
        rw [modify_eq]
        exact (hholds hactive).cons nofun
    · exact hnoted.acceptAuth hholds

/-! ## Runs -/

theorem owned_clientReady (h : Owned s) {complete : Bool} :
    Owned (s.handleCommandClientReady p complete x).1 := by
  have hnot : ClientStateEvent.setClientReady ≠ .sudoSuccess := by decide
  unfold handleCommandClientReady
  split
  · exact h
  split
  · exact h
  split
  · exact h.denyAccess
  have hstage : Owned (s.stageTwoClientInit p).1 := by
    unfold stageTwoClientInit
    split
    · exact h.denyAccess
    split
    · exact h.denyAccess
    · exact ⟨h.owners, h.sudoers, h.numbered, h.distinct⟩
  dsimp only
  split
  · refine hstage.eventThen fun cs hcs => ?_
    exact (hstage.event (fun heq => absurd heq hnot) hcs).note trivial
  · exact hstage

theorem owned_deleteClient (h : Owned s) : Owned (s.deleteClient p) := by
  have hquestion : Owned (s.dropQuestion p) := h.quiet moves_dropQuestion
  have hplayer : Owned ((s.dropQuestion p).dropPlayer p) := by
    unfold dropPlayer
    split
    · exact hquestion
    · refine Owned.note ?_ trivial
      exact ⟨hquestion.owners, hquestion.sudoers, hquestion.numbered, hquestion.distinct⟩
  refine hplayer.clients (fun q c' hc' hstate => ?_) fun q hq => (AList.mem_erase.1 hq).2
  by_cases hq : q = p
  · subst hq
    rw [AList.lookup_erase] at hc'
    cases hc'
  · rw [AList.lookup_erase_ne hq] at hc'
    exact hplayer.sudoers q c' hc' hstate

theorem owned_deletingPeer (h : Owned s) : Owned (s.deletingPeer p) := by
  have hnot : ClientStateEvent.disconnect ≠ .sudoSuccess := by decide
  refine (h.eventThen fun cs hcs => ?_).caught
  exact owned_deleteClient (h.event (fun heq => absurd heq hnot) hcs)

theorem owned_peerAdded (h : Owned s) (hnew : p ∉ s.clients) : Owned (s.peerAdded p) where
  owners := h.owners
  sudoers q c hc hstate := by
    have hnone : s.clients.lookup p = none := AList.lookup_eq_none.2 hnew
    change AList.lookup q (s.clients.createClient p) = some c at hc
    rw [Clients.createClient, hnone] at hc
    by_cases hq : q = p
    · subst hq
      rw [AList.lookup_insert] at hc
      cases hc
      cases hstate
    · rw [AList.lookup_insert_ne hq] at hc
      change HoldsSudo (Function.update s.connOf p s.connections q) s.log
      rw [Function.update_of_ne hq]
      exact h.sudoers q c hc hstate
  numbered q hq := by
    change Function.update s.connOf p s.connections q < s.connections + 1
    rcases Clients.mem_createClient.1 hq with rfl | hold
    · rw [Function.update_self]
      exact Nat.lt_succ_self _
    · rw [Function.update_of_ne (ne_of_mem_of_not_mem hold hnew)]
      exact Nat.lt_succ_of_lt (h.numbered q hold)
  distinct q hq r hr heq := by
    change Function.update s.connOf p s.connections q = Function.update s.connOf p s.connections r
      at heq
    rcases Clients.mem_createClient.1 hq with rfl | hqold
    · rcases Clients.mem_createClient.1 hr with rfl | hrold
      · rfl
      · rw [Function.update_self, Function.update_of_ne (ne_of_mem_of_not_mem hrold hnew)] at heq
        exact absurd heq.symm (Nat.ne_of_lt (h.numbered r hrold))
    · rw [Function.update_of_ne (ne_of_mem_of_not_mem hqold hnew)] at heq
      rcases Clients.mem_createClient.1 hr with rfl | hrold
      · rw [Function.update_self] at heq
        exact absurd heq (Nat.ne_of_lt (h.numbered q hqold))
      · rw [Function.update_of_ne (ne_of_mem_of_not_mem hrold hnew)] at heq
        exact h.distinct q hqold r hrold heq

theorem owned_step (h : Owned s) (hguard : ProvenInOrder W s e) (hstep : Step W s e t) :
    Owned t := by
  rcases hstep with ⟨hpossible⟩
  cases e with
  | peerAdded p => exact owned_peerAdded h hpossible.1
  | packet p pkt x =>
    cases pkt with
    | init pkt => exact (h.quiet moves_handleCommandInit).caught
    | init2 complete => exact (h.nothing moves_handleCommandInit2).caught
    | firstSrp pkt => exact (owned_firstSrp h).caught
    | srpBytesA pkt => exact (h.nothing moves_handleCommandSrpBytesA).caught
    | srpBytesM bytesM => exact (owned_srpBytesM h hguard).caught
    | clientReady complete =>
      change Owned (if s.clients.admits p .startup then _ else s)
      split
      · exact (owned_clientReady h).caught
      · exact h
    | other => exact h
  | deletingPeer p => exact owned_deletingPeer h
  | stepAwaitingAuth order x =>
    exact stepAwaitingAuth_invariant (fun s p h => h.quiet moves_stepAwaiting) h
  | answer caller res => exact h.quiet (moves_deliver (p := peerIdServer))
  | denyAccess p => exact h.denyAccess
  | settingsChanged settings => exact ⟨h.owners, h.sudoers, h.numbered, h.distinct⟩
  | authChanged auth => exact h.auth auth
  | playerRemoved i => exact ⟨h.owners, h.sudoers, h.numbered, h.distinct⟩

theorem owned_initial (auth : A) (settings : Settings) :
    Owned ({ auth := auth, settings := settings } : Server A) where
  owners := .nil
  sudoers _ _ hc := by cases hc
  numbered _ hp := by cases hp
  distinct _ hp := by cases hp

/-- As long as each accepted proof comes in order, nobody's password is overwritten. -/
theorem owners_only {auth : A} {settings : Settings} {es : List (Event A)}
    (hrun : Run.Guarded (ProvenInOrder W) (Step W) { auth := auth, settings := settings } es s) :
    OwnersOnly s.log :=
  (hrun.guarded_invariant (fun _ _ _ h hguard hstep => owned_step h hguard hstep)
    (owned_initial auth settings)).owners

end

/-! ## Ada, and her namesake -/

theorem provenInOrder_of_ne {W : World A} {s : Server A} {e : Event A}
    (h : ∀ p bytesM x, e ≠ .packet p (.srpBytesM bytesM) x) : ProvenInOrder W s e :=
  fun p _ x _ he => absurd he (h p _ x)

/-- A default password lets Ada in, and she changes it. -/
theorem adaChanges_owns : ∃ s, Run.Guarded (ProvenInOrder smallWorld) (Step smallWorld)
    (smallServer { defaultPassword := ascii "welcome" })
    [.peerAdded 2, .packet 2 (initOf (ascii "ada")) {}, .packet 2 startProof {},
      .packet 2 finishProof { verified := true }, .packet 2 (.init2 true) {},
      .packet 2 (.clientReady true) {}, .packet 2 startProof {},
      .packet 2 finishProof { verified := true }, .packet 2 register {}] s ∧
    s.log.head? = some (.setPassword 0 (ascii "ada") (ascii "#1#" ++ [1] ++ ascii "#" ++ [2])) ∧
    OwnersOnly s.log := by
  have hproof : ∀ s : Server (List (Bytes × Bytes)),
      (s.auth = [] ∨ (s.clients.lookup 2).map RemoteClient.createPlayerOnAuthSuccess = some false) →
      ProvenInOrder smallWorld s (.packet 2 finishProof { verified := true }) := by
    intro s hs p bytesM x c he hc _
    cases he
    refine ⟨fun hcreate => ?_, fun _ => rfl⟩
    rcases hs with hempty | hold
    · rw [hempty]
      rfl
    · rw [hc, Option.map_some, hcreate] at hold
      cases hold
  have hrun : ∃ s, Run.Guarded (ProvenInOrder smallWorld) (Step smallWorld)
      (smallServer { defaultPassword := ascii "welcome" })
      [.peerAdded 2, .packet 2 (initOf (ascii "ada")) {}, .packet 2 startProof {},
        .packet 2 finishProof { verified := true }, .packet 2 (.init2 true) {},
        .packet 2 (.clientReady true) {}, .packet 2 startProof {},
        .packet 2 finishProof { verified := true }, .packet 2 register {}] s ∧
      s.log.head? =
        some (.setPassword 0 (ascii "ada") (ascii "#1#" ++ [1] ++ ascii "#" ++ [2])) :=
    ⟨_, .cons ⟨provenInOrder_of_ne fun _ _ _ => nofun, .apply ⟨AList.notMem_empty _, by decide⟩⟩ <|
      .cons ⟨provenInOrder_of_ne fun _ _ _ => nofun, .apply (AList.notMem_empty _)⟩ <|
      .cons ⟨provenInOrder_of_ne fun _ _ _ => nofun, .apply trivial⟩ <|
      .cons ⟨hproof _ (.inl rfl), .apply trivial⟩ <|
      .cons ⟨provenInOrder_of_ne fun _ _ _ => nofun, .apply trivial⟩ <|
      .cons ⟨provenInOrder_of_ne fun _ _ _ => nofun, .apply trivial⟩ <|
      .cons ⟨provenInOrder_of_ne fun _ _ _ => nofun, .apply trivial⟩ <|
      .cons ⟨hproof _ (.inr (by decide)), .apply trivial⟩ <|
      .cons ⟨provenInOrder_of_ne fun _ _ _ => nofun, .apply trivial⟩ <| .nil _, rfl⟩
  rcases hrun with ⟨s, hrun, hhead⟩
  exact ⟨s, hrun, hhead, owners_only hrun⟩

/-- Two connections get as far as HELLO, and the second one to prove the default password registers
the name again. -/
theorem secondProof_overwrites : ∃ s, Run (Step smallWorld)
    (smallServer { defaultPassword := ascii "welcome" })
    [.peerAdded 2, .packet 2 (initOf (ascii "ada")) {}, .peerAdded 3,
      .packet 3 (initOf (ascii "ada")) {}, .packet 2 startProof {},
      .packet 2 finishProof { verified := true }, .packet 3 startProof {},
      .packet 3 finishProof { verified := true }] s ∧ ¬ OwnersOnly s.log := by
  refine ⟨_, .cons (.apply ⟨AList.notMem_empty _, by decide⟩) <|
    .cons (.apply (AList.notMem_empty _)) <|
    .cons (.apply ⟨AList.lookup_eq_none.1 rfl, by decide⟩) <|
    .cons (.apply (AList.lookup_eq_none.1 rfl)) <| .cons (.apply trivial) <|
    .cons (.apply trivial) <| .cons (.apply trivial) <| .cons (.apply trivial) <| .nil _,
    fun howners => ?_⟩
  have hcreated := howners.created 1 (ascii "ada") (ascii "#1##welcome") true
    (List.mem_of_mem_head? rfl)
  cases hcreated

end Server
end Login
end AxisEngine
