import AxisEngine.Login.Handshake

/-!
# Moves — what the handlers of a login are made of

A handler changes clients, lets events happen and notes deeds.  Most invariants only ask which
events and which deeds there may be.

* `Moves` — a change that is made of such steps;
* `Quiet`, `QuietEvent` — what happens but for passwords and players;
* `moves_handleCommandInit`, ... — the handlers.
-/

namespace AxisEngine
namespace Login

open Lib

/-- No password and no player is touched. -/
def Quiet : Deed → Prop
  | .init .. | .asked .. | .answered .. | .prejoin .. | .hello .. => True
  | .callerAlloc _ | .callerFree _ => True
  | _ => False

def QuietEvent (e : ClientStateEvent) : Prop :=
  e ≠ .setClientReady ∧ e ≠ .sudoSuccess ∧ e ≠ .sudoLeave

/-- HELLO, and what the game says before. -/
def Greeting : Deed → Prop
  | .prejoin .. | .hello .. => True
  | _ => False

/-- What has to do with passwords. -/
def Secret : Deed → Prop
  | .accepted .. | .createAuth .. | .setPassword .. | .sudoLeave _ => True
  | _ => False

def Nothing : Deed → Prop := fun _ => False

namespace Server

variable {A : Type}

/-- Only the client `p` changes, only the deeds `D` and the events `E` happen, and the questions
that are out stay as they are unless `Q`. -/
inductive Moves (p : SessionT) (D : Deed → Prop) (E : ClientStateEvent → Prop) (Q : Prop)
    (s : Server A) : Server A → Prop
  | refl : Moves p D E Q s s
  | note {t : Server A} {d : Deed} : Moves p D E Q s t → D d → Moves p D E Q s (t.note d)
  | modify {t : Server A} {f : RemoteClient → RemoteClient} :
      Moves p D E Q s t → (∀ c, (f c).state = c.state) → Moves p D E Q s (t.modify p f)
  | event {t : Server A} {e : ClientStateEvent} {cs : Clients} :
      Moves p D E Q s t → E e → t.clients.event p e = some cs →
        Moves p D E Q s { t with clients := cs }
  | questions {t : Server A} {http : AList fun _ : UInt64 => HttpCaller}
      {awaiting : AList fun _ : SessionT => AwaitingAuth} :
      Moves p D E Q s t → Q → Moves p D E Q s { t with http := http, awaitingAuth := awaiting }
  | auth {t : Server A} {auth : A} : Moves p D E Q s t → Moves p D E Q s { t with auth := auth }

section

variable {W : World A} {D D' : Deed → Prop} {E E' : ClientStateEvent → Prop} {Q Q' : Prop}
  {s t u : Server A} {p : SessionT} {x : Outside} {e : ClientStateEvent} {k : Server A → Handled A}
  {r : Handled A}

namespace Moves

section

variable (h : Moves p D E Q s t)

include h

theorem mono (hD : ∀ d, D d → D' d) (hE : ∀ e, E e → E' e) (hQ : Q → Q') :
    Moves p D' E' Q' s t := by
  induction h with
  | refl => exact .refl
  | note _ hd ih => exact .note ih (hD _ hd)
  | modify _ hf ih => exact .modify ih hf
  | event _ he hcs ih => exact .event ih (hE _ he) hcs
  | questions _ hq ih => exact .questions ih (hQ hq)
  | auth _ ih => exact .auth ih

theorem trans (h' : Moves p D E Q t u) : Moves p D E Q s u := by
  induction h' with
  | refl => exact h
  | note _ hd ih => exact .note ih hd
  | modify _ hf ih => exact .modify ih hf
  | event _ he hcs ih => exact .event ih he hcs
  | questions _ hq ih => exact .questions ih hq
  | auth _ ih => exact .auth ih

theorem eventThen (he : E e) (hk : ∀ u, Moves p D E Q s u → Moves p D E Q s (k u).1) :
    Moves p D E Q s (t.event p e k).1 := by
  unfold Server.event
  split
  · exact h
  · rename_i cs hcs
    exact hk _ (.event h he hcs)

theorem denyAccess (hE : E .setDenied) : Moves p D E Q s (t.denyAccess p) := by
  unfold Server.denyAccess
  cases hcs : t.clients.event p .setDenied with
  | none => exact h
  | some cs => exact .event h hE hcs

end

theorem caught (h : Moves p D E Q s r.1) (hE : E .setDenied) : Moves p D E Q s (caught r p) := by
  unfold Server.caught
  split
  · exact h.denyAccess hE
  · exact h

theorem callerAlloc (h : Moves p D E Q s t) {caller : UInt64} (hD : D (.callerAlloc caller))
    (hQ : Q) : Moves p D E Q s (t.callerAlloc caller) :=
  .note (.questions h hQ) hD

theorem callerFree (h : Moves p D E Q s t) {caller : UInt64} (hD : D (.callerFree caller))
    (hQ : Q) : Moves p D E Q s (t.callerFree caller) :=
  .note (.questions h hQ) hD

/-! What stays -/

theorem connOf (h : Moves p D E Q s t) : t.connOf = s.connOf := by
  induction h with
  | refl => rfl
  | note _ _ ih => exact ih
  | @modify t f _ _ ih =>
    rw [← ih]
    unfold Server.modify
    split
    · rfl
    · rfl
  | event _ _ _ ih => exact ih
  | questions _ _ ih => exact ih
  | auth _ ih => exact ih

end Moves

theorem setDenied_quiet : QuietEvent .setDenied :=
  ⟨by decide, by decide, by decide⟩

theorem quiet_of_greeting {d : Deed} (h : Greeting d) : Quiet d := by
  cases d
  case prejoin => trivial
  case hello => trivial
  all_goals cases h

/-! ## INIT -/

theorem modify_eq (s : Server A) (p : SessionT) (f : RemoteClient → RemoteClient) :
    s.modify p f = { s with clients := (s.modify p f).clients } := by
  unfold modify
  split
  · rfl
  · rfl

variable {c : RemoteClient} {res : HTTPFetchResult} {caller : UInt64}
  {f : RemoteClient → RemoteClient}

@[simp] theorem connOf_modify : (s.modify p f).connOf = s.connOf := by
  rw [modify_eq]

@[simp] theorem settings_modify : (s.modify p f).settings = s.settings := by
  rw [modify_eq]

theorem moves_sendHello {mechs : UInt32} (h : Moves p Greeting QuietEvent False s t) :
    Moves p Greeting QuietEvent False s (t.sendHello p mechs).1 := by
  have hhello : QuietEvent .hello := ⟨by decide, by decide, by decide⟩
  have hmodify : Moves p Greeting QuietEvent False s
      (t.modify p fun c => { c with allowedAuthMechs := mechs }) := .modify h fun _ => rfl
  unfold sendHello
  refine Moves.eventThen ?_ hhello fun _ hu => hu
  split
  · exact hmodify
  · exact .note hmodify trivial

theorem moves_finishInit : Moves p Greeting QuietEvent False s (s.finishInit W p x).1 := by
  unfold finishInit
  split
  · exact .refl
  · rename_i c hc
    dsimp only
    split
    · exact .refl
    have hnote : Moves p Greeting QuietEvent False s
        (s.note (.prejoin (s.connOf p) c.name x.refused)) := .note .refl trivial
    split
    · exact hnote.denyAccess setDenied_quiet
    split
    · exact hnote.denyAccess setDenied_quiet
    have hchosen : Moves p Greeting QuietEvent False s ((s.note (.prejoin (s.connOf p) c.name
        x.refused)).modify p fun c => { c with chosenMech := .none }) := .modify hnote fun _ => rfl
    split
    · split
      · split
        · exact moves_sendHello (.modify hchosen fun _ => rfl)
        · exact hchosen.denyAccess setDenied_quiet
      · split
        · exact moves_sendHello (.modify hchosen fun _ => rfl)
        · exact hchosen.denyAccess setDenied_quiet
    · split
      · exact moves_sendHello hchosen
      · exact moves_sendHello (.modify hchosen fun _ => rfl)

theorem Moves.finishInit (h : Moves p Quiet QuietEvent True s t) :
    Moves p Quiet QuietEvent True s (t.finishInit W p x).1 :=
  h.trans (moves_finishInit.mono (fun _ => quiet_of_greeting) (fun _ he => he) False.elim)

theorem moves_nameClient {name ticket : Bytes} (h : Moves p Quiet QuietEvent True s t) :
    Moves p Quiet QuietEvent True s (t.nameClient W p name ticket x).1 := by
  have hnamed : Moves p Quiet QuietEvent True s ((t.modify p fun c =>
      { c with name := name, ticket := ticket }).note (.init (t.connOf p) name ticket x.time
        t.settings)) := .note (.modify h fun _ => rfl) trivial
  unfold nameClient
  dsimp only
  rw [connOf_modify, settings_modify]
  split
  · exact hnamed.finishInit
  split
  · exact hnamed.denyAccess setDenied_quiet
  · rename_i id _
    have hidentity := Moves.modify (f := fun c => { c with identity := id }) hnamed fun _ => rfl
    have halloc : Moves p Quiet QuietEvent True s (Server.callerAlloc _ x.caller) :=
      hidentity.callerAlloc trivial trivial
    split
    · exact .questions (.note (.questions halloc trivial) trivial) trivial
    · exact (halloc.callerFree trivial trivial).finishInit

theorem state_checkInit (pkt : InitPacket) : (checkInit W s c pkt).1.state = c.state := by
  unfold checkInit
  dsimp only
  repeat' split
  all_goals rfl

/-- The client is overwritten by one that is in the same state. -/
theorem moves_checkInit {pkt : InitPacket} (hc : s.clients.lookup p = some c) :
    Moves p D E Q s (s.modify p fun _ => (checkInit W s c pkt).1) := by
  have hsame : s.modify p (fun _ => (checkInit W s c pkt).1) = s.modify p fun c' =>
      { (checkInit W s c pkt).1 with state := c'.state } := by
    unfold modify
    rw [hc]
    dsimp only
    rw [← state_checkInit (W := W) (s := s) pkt]
  rw [hsame]
  exact .modify .refl fun _ => rfl

theorem moves_handleCommandInit {pkt : Option InitPacket} :
    Moves p Quiet QuietEvent True s (s.handleCommandInit W p pkt x).1 := by
  unfold handleCommandInit
  split
  · exact .refl
  · rename_i c hc
    split
    · exact .refl
    split
    · exact .refl
    split
    · exact .refl
    split
    · exact Moves.refl.denyAccess setDenied_quiet
    split
    · exact .refl
    · rename_i pkt
      have hmodify : Moves p Quiet QuietEvent True s
          (s.modify p fun _ => (checkInit W s c pkt).1) :=
        moves_checkInit (Clients.getClientNoEx_eq_some.1 hc).1
      dsimp only
      split
      · exact hmodify
      · exact hmodify.denyAccess setDenied_quiet
      · exact moves_nameClient hmodify

theorem moves_handleCommandInit2 {complete : Bool} :
    Moves p Nothing QuietEvent False s (s.handleCommandInit2 p complete).1 := by
  unfold handleCommandInit2
  split
  · exact .refl
  split
  · exact .refl
  refine Moves.refl.eventThen ⟨by decide, by decide, by decide⟩ fun u hu => ?_
  split
  · exact hu
  · exact hu.eventThen ⟨by decide, by decide, by decide⟩ fun _ h => h

theorem moves_handleCommandSrpBytesA {pkt : Option SrpBytesAPacket} :
    Moves p Nothing QuietEvent False s (s.handleCommandSrpBytesA W p pkt x).1 := by
  have hdeny : Moves p Nothing QuietEvent False s (s.denyAccess p) :=
    Moves.refl.denyAccess setDenied_quiet
  unfold handleCommandSrpBytesA
  split
  · exact .refl
  dsimp only
  split
  · exact .refl
  split
  · split
    · exact .refl
    · exact hdeny
  split
  · exact .refl
  split
  · split
    · exact .refl
    · exact hdeny
  · have hchosen : ∀ mech, Moves p Nothing QuietEvent False s
        (s.modify p fun c => { c with chosenMech := mech }) := fun _ => .modify .refl fun _ => rfl
    split
    · exact (hchosen _).denyAccess setDenied_quiet
    · rename_i verifier salt _
      have hdata : ∀ mech bytesA, Moves p Nothing QuietEvent False s ((s.modify p fun c =>
          { c with chosenMech := mech }).modify p fun c =>
            { c with authData := some ⟨c.name, salt, verifier, bytesA⟩ }) :=
        fun mech _ => .modify (hchosen mech) fun _ => rfl
      split
      · exact hdata _ _
      split
      · exact .modify (hdata _ _) fun _ => rfl
      · exact (hdata _ _).denyAccess setDenied_quiet

/-! ## The account service -/

theorem moves_concludeAuth (h : Moves p Quiet QuietEvent True s t) :
    Moves p Quiet QuietEvent True s (t.concludeAuth W p caller res x) := by
  have hfree : Moves p Quiet QuietEvent True s (t.callerFree caller) :=
    h.callerFree trivial trivial
  unfold concludeAuth
  split
  · exact hfree
  dsimp only
  split
  · exact hfree.denyAccess setDenied_quiet
  · exact Moves.finishInit (.modify hfree fun _ => rfl)

theorem moves_asyncGet (h : Moves p D E True s t) : Moves p D E True s (t.asyncGet caller).2 := by
  unfold asyncGet
  split
  · exact h
  split
  · exact h
  · exact .questions h trivial

theorem moves_stepAwaiting : Moves p Quiet QuietEvent True s (s.stepAwaiting W p x) := by
  unfold stepAwaiting
  split
  · exact .refl
  dsimp only
  split
  · exact .refl
  · exact .questions (moves_concludeAuth (moves_asyncGet .refl)) trivial

theorem stepAwaitingAuth_invariant {P : Server A → Prop} {order : List SessionT}
    {x : SessionT → Outside} (hround : ∀ s p, P s → P (s.stepAwaiting W p (x p))) (h : P s) :
    P (s.stepAwaitingAuth W order x) := by
  induction order generalizing s with
  | nil => exact h
  | cons p order ih => exact ih (hround s p h)

theorem moves_deliver : Moves p Quiet QuietEvent True s (s.deliver caller res) := by
  unfold deliver
  split
  · exact .refl
  split
  · exact .refl
  · exact .note (.questions .refl trivial) trivial

theorem moves_dropQuestion : Moves p Quiet QuietEvent True s (s.dropQuestion p) := by
  unfold dropQuestion
  split
  · exact .refl
  · exact .questions (Moves.callerFree .refl trivial trivial) trivial

/-! ## Passwords -/

theorem moves_acceptAuth {forSudo : Bool} (h : Moves p Secret (· ≠ .setClientReady) False s t) :
    Moves p Secret (· ≠ .setClientReady) False s (t.acceptAuth p forSudo).1 := by
  unfold acceptAuth
  split
  · exact h.eventThen (by decide) fun _ hu => hu
  · exact h.eventThen (by decide) fun _ hu => hu

theorem moves_createAuth {name encPwd : Bytes} (h : Moves p Secret E Q s t) :
    Moves p Secret E Q s (t.createAuth W p name encPwd) :=
  .note (.auth h) trivial

theorem moves_handleCommandFirstSrp {pkt : Option FirstSrpPacket} :
    Moves p Secret (· ≠ .setClientReady) False s (s.handleCommandFirstSrp W p pkt).1 := by
  have hdeny : Moves p Secret (· ≠ .setClientReady) False s (s.denyAccess p) :=
    Moves.refl.denyAccess (by decide)
  unfold handleCommandFirstSrp
  split
  · dsimp only
    split
    · split
      · exact hdeny
      split
      · exact hdeny
      split
      · exact hdeny
      · exact moves_acceptAuth (.modify (moves_createAuth .refl) fun _ => rfl)
    · split
      · exact .refl
      refine Moves.refl.eventThen (by decide) fun u hu => ?_
      have hleave : Moves p Secret (· ≠ .setClientReady) False s
          (u.note (.sudoLeave (u.connOf p))) := .note hu trivial
      split
      · exact hleave
      split
      · exact .modify (.note (.auth hleave) trivial) fun _ => rfl
      · exact .note (.auth hleave) trivial
  · exact .refl

theorem moves_handleCommandSrpBytesM {bytesM : Option Bytes} :
    Moves p Secret (· ≠ .setClientReady) False s (s.handleCommandSrpBytesM W p bytesM x).1 := by
  have hdeny : Moves p Secret (· ≠ .setClientReady) False s (s.denyAccess p) :=
    Moves.refl.denyAccess (by decide)
  unfold handleCommandSrpBytesM
  split
  · exact .refl
  dsimp only
  split
  · exact .refl
  split
  · split
    · exact .refl
    · exact hdeny
  split
  · exact .refl
  split
  · exact hdeny
  split
  · split
    · exact .modify .refl fun _ => rfl
    · exact hdeny
  · split
    · split
      · exact Moves.denyAccess (moves_createAuth (.note .refl trivial)) (by decide)
      · exact moves_acceptAuth (.modify (moves_createAuth (.note .refl trivial)) fun _ => rfl)
    · exact moves_acceptAuth (.note .refl trivial)

end

end Server
end Login
end AxisEngine
