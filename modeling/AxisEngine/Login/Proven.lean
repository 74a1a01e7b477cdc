import AxisEngine.Login.Evidence
import AxisEngine.Lib.Transition

/-!
# Proven — nobody gets in unproven

* `Callers` — the callers of the questions that are out, one for each;
* `Waiting` — what is known of a connection while its question is out;
* `Orderly` — the invariant: clients are backed, and so are those who wait;
* `orderly_step` — what may happen next keeps it;
* `nobody_unproven` — the clients that are let in, and the callers, after any run.
-/

namespace AxisEngine
namespace Login

open Lib

/-! ## Callers -/

def Deed.allocates (caller : UInt64) : Deed → Bool
  | .callerAlloc k => k = caller
  | _ => false

def Deed.frees (caller : UInt64) : Deed → Bool
  | .callerFree k => k = caller
  | _ => false

/-- How often a caller was allocated. -/
def allocated (caller : UInt64) (log : List Deed) : Nat :=
  log.countP (Deed.allocates caller)

def freed (caller : UInt64) (log : List Deed) : Nat :=
  log.countP (Deed.frees caller)

/-- No caller is concerned. -/
def Callerless (d : Deed) : Prop :=
  ∀ caller, d.allocates caller = false ∧ d.frees caller = false

namespace Server

variable {A : Type}

/-- Each question that is out has a caller of its own, and no other caller is left. -/
structure Callers (s : Server A) : Prop where
  out : ∀ k, k ∈ s.http ↔ ∃ p w, s.awaitingAuth.lookup p = some w ∧ w.caller = k
  distinct : ∀ p q w w', s.awaitingAuth.lookup p = some w → s.awaitingAuth.lookup q = some w' →
    w.caller = w'.caller → p = q
  balanced : ∀ k, allocated k s.log = freed k s.log + if k ∈ s.http then 1 else 0

/-- The same questions are out. -/
structure Kept (s t : Server A) : Prop where
  http : ∀ k, t.http.lookup k = s.http.lookup k
  awaiting : ∀ p, t.awaitingAuth.lookup p = s.awaitingAuth.lookup p
  balanced : ∀ k, allocated k t.log + freed k s.log = freed k t.log + allocated k s.log

/-- The question about `p` is not out any more. -/
structure Released (p : SessionT) (w : AwaitingAuth) (s t : Server A) : Prop where
  http : ∀ k, k ≠ w.caller → t.http.lookup k = s.http.lookup k
  gone : t.http.lookup w.caller = none
  awaiting : ∀ q, q ≠ p → t.awaitingAuth.lookup q = s.awaitingAuth.lookup q
  left : t.awaitingAuth.lookup p = none
  balanced : ∀ k, allocated k t.log + freed k s.log + (if k = w.caller then 1 else 0) =
    freed k t.log + allocated k s.log

/-- A question about `p` goes out. -/
structure Asks (p : SessionT) (w : AwaitingAuth) (s t : Server A) : Prop where
  http : ∀ k, k ≠ w.caller → t.http.lookup k = s.http.lookup k
  present : w.caller ∈ t.http
  awaiting : ∀ q, q ≠ p → t.awaitingAuth.lookup q = s.awaitingAuth.lookup q
  waits : t.awaitingAuth.lookup p = some w
  balanced : ∀ k, allocated k t.log + freed k s.log =
    freed k t.log + allocated k s.log + if k = w.caller then 1 else 0

section

variable {s t u : Server A} {p q : SessionT} {w : AwaitingAuth}

theorem mem_http_congr {k : UInt64} (h : t.http.lookup k = s.http.lookup k) :
    k ∈ t.http ↔ k ∈ s.http := by
  rw [← AList.lookup_isSome, ← AList.lookup_isSome, h]

theorem Kept.refl (s : Server A) : Kept s s :=
  ⟨fun _ => rfl, fun _ => rfl, fun _ => Nat.add_comm _ _⟩

theorem Kept.trans (h : Kept s t) (h' : Kept t u) : Kept s u := by
  refine ⟨fun k => (h'.http k).trans (h.http k), fun p => (h'.awaiting p).trans (h.awaiting p),
    fun k => ?_⟩
  have hfirst := h.balanced k
  have hsecond := h'.balanced k
  omega

theorem Callers.kept (h : Callers s) (hkept : Kept s t) : Callers t := by
  refine ⟨fun k => ?_, fun p q w w' => ?_, fun k => ?_⟩
  · rw [mem_http_congr (hkept.http k), h.out k]
    simp only [hkept.awaiting]
  · rw [hkept.awaiting, hkept.awaiting]
    exact h.distinct p q w w'
  · have hbefore := h.balanced k
    have hdeeds := hkept.balanced k
    rw [if_congr (mem_http_congr (hkept.http k)) rfl rfl]
    omega

theorem Callers.released (h : Callers s) (hw : s.awaitingAuth.lookup p = some w)
    (ht : Released p w s t) : Callers t := by
  have hlookup : ∀ q w', t.awaitingAuth.lookup q = some w' →
      q ≠ p ∧ s.awaitingAuth.lookup q = some w' := by
    intro q w' hq
    have hne : q ≠ p := by
      rintro rfl
      cases ht.left.symm.trans hq
    exact ⟨hne, (ht.awaiting q hne).symm.trans hq⟩
  have hmem : ∀ k, k ∈ t.http ↔ k ≠ w.caller ∧ k ∈ s.http := by
    intro k
    by_cases hk : k = w.caller
    · subst hk
      exact iff_of_false (AList.lookup_eq_none.1 ht.gone) fun hne => hne.1 rfl
    · rw [mem_http_congr (ht.http k hk)]
      exact ⟨fun hk' => ⟨hk, hk'⟩, fun hk' => hk'.2⟩
  refine ⟨fun k => ?_, fun q r w₁ w₂ hq hr => ?_, fun k => ?_⟩
  · rw [hmem k, h.out k]
    constructor
    · rintro ⟨hk, q, w', hq, rfl⟩
      have hne : q ≠ p := by
        rintro rfl
        cases hw.symm.trans hq
        exact hk rfl
      exact ⟨q, w', (ht.awaiting q hne).trans hq, rfl⟩
    · rintro ⟨q, w', hq, rfl⟩
      rcases hlookup q w' hq with ⟨hne, hq⟩
      refine ⟨fun heq => hne ?_, q, w', hq, rfl⟩
      exact h.distinct q p w' w hq hw heq
  · exact h.distinct q r w₁ w₂ (hlookup q w₁ hq).2 (hlookup r w₂ hr).2
  · have hbefore := h.balanced k
    have hdeeds := ht.balanced k
    by_cases hk : k = w.caller
    · have hin : k ∈ s.http := (h.out k).2 ⟨p, w, hw, hk.symm⟩
      rw [if_pos hin] at hbefore
      rw [if_pos hk] at hdeeds
      rw [if_neg fun hmem' => ((hmem k).1 hmem').1 hk]
      omega
    · rw [if_neg hk] at hdeeds
      rw [if_congr (mem_http_congr (ht.http k hk)) rfl rfl]
      omega

theorem Callers.asks (h : Callers s) (hp : p ∉ s.awaitingAuth) (hnew : w.caller ∉ s.http)
    (ht : Asks p w s t) : Callers t := by
  have hother : ∀ q w', q ≠ p → t.awaitingAuth.lookup q = some w' →
      s.awaitingAuth.lookup q = some w' ∧ w'.caller ≠ w.caller := by
    intro q w' hne hq
    have hq := (ht.awaiting q hne).symm.trans hq
    refine ⟨hq, fun heq => hnew ?_⟩
    exact (h.out w.caller).2 ⟨q, w', hq, heq⟩
  refine ⟨fun k => ?_, fun q r w₁ w₂ hq hr heq => ?_, fun k => ?_⟩
  · by_cases hk : k = w.caller
    · subst hk
      exact iff_of_true ht.present ⟨p, w, ht.waits, rfl⟩
    · rw [mem_http_congr (ht.http k hk), h.out k]
      constructor
      · rintro ⟨q, w', hq, rfl⟩
        have hne : q ≠ p := by
          rintro rfl
          exact hp (AList.lookup_isSome.1 (hq ▸ rfl))
        exact ⟨q, w', (ht.awaiting q hne).trans hq, rfl⟩
      · rintro ⟨q, w', hq, rfl⟩
        by_cases hne : q = p
        · subst hne
          cases ht.waits.symm.trans hq
          exact absurd rfl hk
        · exact ⟨q, w', (hother q w' hne hq).1, rfl⟩
  · by_cases hq' : q = p
    · subst hq'
      cases ht.waits.symm.trans hq
      by_cases hr' : r = q
      · exact hr'.symm
      · exact absurd heq.symm (hother r w₂ hr' hr).2
    · by_cases hr' : r = p
      · subst hr'
        cases ht.waits.symm.trans hr
        exact absurd heq (hother q w₁ hq' hq).2
      · exact h.distinct q r w₁ w₂ (hother q w₁ hq' hq).1 (hother r w₂ hr' hr).1 heq
  · have hbefore := h.balanced k
    have hdeeds := ht.balanced k
    by_cases hk : k = w.caller
    · subst hk
      rw [if_neg hnew] at hbefore
      rw [if_pos rfl] at hdeeds
      rw [if_pos ht.present]
      omega
    · rw [if_neg hk] at hdeeds
      rw [if_congr (mem_http_congr (ht.http k hk)) rfl rfl]
      omega

end

/-! ## What handlers leave as it was -/

section

variable {D : Deed → Prop} {E : ClientStateEvent → Prop} {Q : Prop} {s t : Server A}
  {p q : SessionT} {d : Deed}

variable (k caller : UInt64) (log : List Deed) {f : RemoteClient → RemoteClient}

theorem lookup_modify_of_ne (hq : q ≠ p) : (s.modify p f).clients.lookup q = s.clients.lookup q := by
  unfold Server.modify
  split
  · rfl
  · exact AList.lookup_insert_ne hq

theorem mem_modify : q ∈ (s.modify p f).clients ↔ q ∈ s.clients := by
  unfold Server.modify
  split
  · exact Iff.rfl
  · rename_i c hc
    refine (AList.mem_insert _).trans ⟨?_, Or.inr⟩
    rintro (rfl | hq)
    · exact AList.lookup_isSome.1 (hc ▸ rfl)
    · exact hq

theorem lookup_event_of_ne {e : ClientStateEvent} {cs : Clients} (hq : q ≠ p)
    (h : s.clients.event p e = some cs) : cs.lookup q = s.clients.lookup q := by
  rcases Clients.event_eq_some h with ⟨-, rfl⟩ | ⟨c, c', -, -, rfl⟩
  · rfl
  · exact AList.lookup_insert_ne hq

/-- Other connections are not touched, and the log only grows. -/
theorem Moves.frame (h : Moves p D E Q s t) :
    (∀ q, q ≠ p → t.clients.lookup q = s.clients.lookup q) ∧
      (∀ q, q ∈ t.clients ↔ q ∈ s.clients) ∧ s.log <:+ t.log := by
  induction h with
  | refl => exact ⟨fun _ _ => rfl, fun _ => Iff.rfl, List.suffix_rfl⟩
  | note _ _ ih => exact ⟨ih.1, ih.2.1, ih.2.2.trans (List.suffix_cons ..)⟩
  | modify _ _ ih =>
    refine ⟨fun q hq => (lookup_modify_of_ne hq).trans (ih.1 q hq),
      fun q => mem_modify.trans (ih.2.1 q), ?_⟩
    rw [log_modify]
    exact ih.2.2
  | event _ _ hcs ih =>
    exact ⟨fun q hq => (lookup_event_of_ne hq hcs).trans (ih.1 q hq),
      fun q => (Clients.mem_of_event hcs).trans (ih.2.1 q), ih.2.2⟩
  | questions _ _ ih => exact ih
  | auth _ ih => exact ih

theorem allocated_of_not {k : UInt64} (hd : d.allocates k = false) (log : List Deed) :
    allocated k (d :: log) = allocated k log :=
  List.countP_cons_of_neg (by rw [hd]; exact Bool.false_ne_true)

theorem freed_of_not {k : UInt64} (hd : d.frees k = false) (log : List Deed) :
    freed k (d :: log) = freed k log :=
  List.countP_cons_of_neg (by rw [hd]; exact Bool.false_ne_true)

theorem allocated_callerAlloc :
    allocated k (.callerAlloc caller :: log) = allocated k log + if k = caller then 1 else 0 := by
  rw [allocated, List.countP_cons, allocated]
  congr 1
  exact if_congr (decide_eq_true_iff.trans eq_comm) rfl rfl

theorem freed_callerFree :
    freed k (.callerFree caller :: log) = freed k log + if k = caller then 1 else 0 := by
  rw [freed, List.countP_cons, freed]
  congr 1
  exact if_congr (decide_eq_true_iff.trans eq_comm) rfl rfl

theorem kept_note (hd : Callerless d) : Kept s (s.note d) := by
  refine ⟨fun _ => rfl, fun _ => rfl, fun k => ?_⟩
  change allocated k (d :: s.log) + _ = freed k (d :: s.log) + _
  rw [allocated_of_not (hd k).1, freed_of_not (hd k).2]
  exact Nat.add_comm _ _

theorem Moves.kept (h : Moves p D E False s t) (hD : ∀ d, D d → Callerless d) : Kept s t := by
  induction h with
  | refl => exact .refl s
  | note _ hd ih => exact ih.trans (kept_note (hD _ hd))
  | modify _ _ ih =>
    refine ih.trans ?_
    rw [modify_eq]
    exact ⟨fun _ => rfl, fun _ => rfl, fun _ => Nat.add_comm _ _⟩
  | event _ _ _ ih => exact ih.trans ⟨fun _ => rfl, fun _ => rfl, fun _ => Nat.add_comm _ _⟩
  | questions _ hq ih => exact hq.elim
  | auth _ ih => exact ih.trans ⟨fun _ => rfl, fun _ => rfl, fun _ => Nat.add_comm _ _⟩

theorem callerless_of_greeting (h : Greeting d) : Callerless d := by
  cases d with
  | prejoin | hello => exact fun _ => ⟨rfl, rfl⟩
  | _ => all_goals cases h

end

/-! ## The invariant -/

/-- The ticket is good, and the service is asked about it; an answer is one to this question. -/
def Waiting (W : World A) (s : Server A) (p : SessionT) (w : AwaitingAuth) (c : RemoteClient) :
    Prop :=
  ∃ ticket time st, checkTicket W.tickets time ticket c.name st.serverId = .ok c.identity ∧
    Asked (s.connOf p) c.name ticket time st s.log ∧
    ∀ h, s.http.lookup w.caller = some h → (∀ m, h.question = some m → m = s.connOf p) ∧
      ∀ res ∈ h.results,
        Since (.answered (s.connOf p) res) (Asked (s.connOf p) c.name ticket time st) s.log

/-- Clients are backed, and so are those whose question is out. -/
structure Orderly (W : World A) (s : Server A) : Prop where
  callers : Callers s
  backed : ∀ p c, s.clients.lookup p = some c → Backed W (s.connOf p) s.log c
  waiting : ∀ p w, s.awaitingAuth.lookup p = some w →
    ∃ c, s.clients.lookup p = some c ∧ (c.state = .created → Waiting W s p w c)

section

variable {W : World A} {s t : Server A} {p q : SessionT} {w : AwaitingAuth} {c : RemoteClient}
  {x : Outside} {D : Deed → Prop} {E : ClientStateEvent → Prop} {r : Handled A}

theorem Waiting.mono (h : Waiting W s p w c) (hconn : t.connOf p = s.connOf p)
    (hlog : s.log <:+ t.log) (hhttp : t.http.lookup w.caller = s.http.lookup w.caller) :
    Waiting W t p w c := by
  rcases h with ⟨ticket, time, st, hticket, hasked, hanswers⟩
  refine ⟨ticket, time, st, hticket, ?_, fun h hh => ?_⟩
  · rw [hconn]
    exact hasked.mono hlog
  · rw [hconn]
    rw [hhttp] at hh
    rcases hanswers h hh with ⟨hquestion, hresults⟩
    exact ⟨hquestion, fun res hres => (hresults res hres).mono hlog⟩

/-- Only one connection is to be looked at after a step. -/
theorem Orderly.of_peer (h : Orderly W s) (hcallers : Callers t) (hlog : s.log <:+ t.log)
    (hothers : ∀ q, q ≠ p → t.clients.lookup q = s.clients.lookup q)
    (hconn : ∀ q, q ≠ p → t.connOf q = s.connOf q)
    (hawaiting : ∀ q, q ≠ p → t.awaitingAuth.lookup q = s.awaitingAuth.lookup q)
    (hhttp : ∀ q, q ≠ p → ∀ w, s.awaitingAuth.lookup q = some w →
      t.http.lookup w.caller = s.http.lookup w.caller)
    (hbacked : ∀ c, t.clients.lookup p = some c → Backed W (t.connOf p) t.log c)
    (hwaiting : ∀ w, t.awaitingAuth.lookup p = some w →
      ∃ c, t.clients.lookup p = some c ∧ (c.state = .created → Waiting W t p w c)) :
    Orderly W t := by
  refine ⟨hcallers, fun q c hc => ?_, fun q w hw => ?_⟩
  · by_cases hq : q = p
    · subst hq
      exact hbacked c hc
    · rw [hothers q hq] at hc
      rw [hconn q hq]
      exact (h.backed q c hc).mono hlog
  · by_cases hq : q = p
    · subst hq
      exact hwaiting w hw
    · rw [hawaiting q hq] at hw
      rcases h.waiting q w hw with ⟨c, hc, hcreated⟩
      refine ⟨c, (hothers q hq).trans hc, fun hstate => ?_⟩
      exact (hcreated hstate).mono (hconn q hq) hlog (hhttp q hq w hw)

/-- A handler that leaves the questions as they are. -/
theorem Orderly.moves (h : Orderly W s) (hD : ∀ d, D d → Callerless d)
    (hmoves : Moves p D E False s t)
    (hends : ∀ c, s.clients.lookup p = some c → Ends W p (s.connOf p) c t) : Orderly W t := by
  rcases hmoves.frame with ⟨hothers, hmem, hlog⟩
  have hkept := hmoves.kept hD
  have hconn := congrFun hmoves.connOf
  have hbefore : ∀ c', t.clients.lookup p = some c' → ∃ c, s.clients.lookup p = some c := by
    intro c' hc'
    have hp : p ∈ s.clients := (hmem p).1 (AList.lookup_isSome.1 (hc' ▸ rfl))
    exact Option.isSome_iff_exists.1 (AList.lookup_isSome.2 hp)
  refine h.of_peer (h.callers.kept hkept) hlog hothers (fun q _ => hconn q)
    (fun q _ => hkept.awaiting q) (fun q _ w _ => hkept.http w.caller) (fun c' hc' => ?_)
    fun w hw => ?_
  · rcases hbefore c' hc' with ⟨c, hc⟩
    rw [hconn p]
    exact (hends c hc c' hc').1
  · rw [hkept.awaiting p] at hw
    rcases h.waiting p w hw with ⟨c, hc, hcreated⟩
    have hp : p ∈ t.clients := (hmem p).2 (AList.lookup_isSome.1 (hc ▸ rfl))
    rcases Option.isSome_iff_exists.1 (AList.lookup_isSome.2 hp) with ⟨c', hc'⟩
    refine ⟨c', hc', fun hstate => ?_⟩
    -- the client is still the one that waits
    cases (hends c hc c' hc').2 hstate
    exact (hcreated hstate).mono (hconn p) hlog (hkept.http w.caller)

theorem Orderly.denyAccess (h : Orderly W s) : Orderly W (s.denyAccess p) :=
  h.moves (fun _ => False.elim) (Moves.refl.denyAccess (D := Nothing) setDenied_quiet)
    fun _ _ => ends_denyAccess

theorem Orderly.caught (h : Orderly W r.1) : Orderly W (caught r p) := by
  rw [Server.caught]
  split
  · exact h.denyAccess
  · exact h

/-! ## INIT -/

variable {caller : UInt64} {res : HTTPFetchResult} {f : RemoteClient → RemoteClient}

section

variable (h : Orderly W s)

include h

/-- A handler for a connection whose question is not out. -/
theorem Orderly.moves_of_backed (hp : p ∉ s.awaitingAuth) (hD : ∀ d, D d → Callerless d)
    (hmoves : Moves p D E False s t)
    (hbacked : ∀ c, t.clients.lookup p = some c → Backed W (s.connOf p) t.log c) : Orderly W t := by
  rcases hmoves.frame with ⟨hothers, -, hlog⟩
  have hkept := hmoves.kept hD
  have hconn := congrFun hmoves.connOf
  refine h.of_peer (h.callers.kept hkept) hlog hothers (fun q _ => hconn q)
    (fun q _ => hkept.awaiting q) (fun q _ w _ => hkept.http w.caller) (fun c hc => ?_)
    fun w hw => ?_
  · rw [hconn p]
    exact hbacked c hc
  · rw [hkept.awaiting p, AList.lookup_eq_none.2 hp] at hw
    cases hw

theorem Orderly.finishInit (hp : p ∉ s.awaitingAuth) (hc : s.clients.lookup p = some c)
    (hvouched : c.state = .created → Vouched W (s.connOf p) c.name s.log) :
    Orderly W (s.finishInit W p x).1 :=
  h.moves_of_backed hp (fun _ => callerless_of_greeting) moves_finishInit fun c' hc' =>
    (settled_finishInit rfl hc (h.backed p c hc) hvouched c' hc').1

/-- A field of a connection that is created is set. -/
theorem Orderly.modify (hp : p ∉ s.awaitingAuth) (hc : s.clients.lookup p = some c)
    (hstate : c.state = .created) (f : RemoteClient → RemoteClient) (hf : ∀ c, (f c).state = c.state) :
    Orderly W (s.modify p f) := by
  refine h.moves_of_backed (D := Nothing) (E := QuietEvent) hp (fun _ => False.elim)
    (.modify .refl hf) fun c' hc' => ?_
  cases (lookup_modify hc).symm.trans hc'
  refine backed_of_le ?_
  rw [hf, hstate]
  decide

theorem Orderly.note {d : Deed} (hd : Callerless d) : Orderly W (s.note d) := by
  refine h.moves (p := peerIdServer) (D := Callerless) (E := QuietEvent) (fun _ hd => hd)
    (.note .refl hd) fun c hc => ?_
  exact ends_self hc ((h.backed peerIdServer c hc).mono (List.suffix_cons ..))

/-- A caller that is not needed is freed at once. -/
theorem Orderly.allocFree {caller : UInt64} (hnew : caller ∉ s.http) :
    Orderly W ((s.callerAlloc caller).callerFree caller) := by
  have hkept : Kept s ((s.callerAlloc caller).callerFree caller) := by
    refine ⟨fun k => ?_, fun _ => rfl, fun k => ?_⟩
    · change ((s.http.insert caller {}).erase caller).lookup k = s.http.lookup k
      by_cases hk : k = caller
      · subst hk
        rw [AList.lookup_erase, AList.lookup_eq_none.2 hnew]
      · rw [AList.lookup_erase_ne hk, AList.lookup_insert_ne hk]
    · change allocated k (.callerFree caller :: .callerAlloc caller :: s.log) + _ =
        freed k (.callerFree caller :: .callerAlloc caller :: s.log) + _
      rw [allocated_of_not rfl, allocated_callerAlloc, freed_callerFree, freed_of_not rfl]
      omega
  have hlog : s.log <:+ ((s.callerAlloc caller).callerFree caller).log :=
    (List.suffix_cons ..).trans (List.suffix_cons ..)
  refine ⟨h.callers.kept hkept, fun p c hc => (h.backed p c hc).mono hlog, fun p w hw => ?_⟩
  rcases h.waiting p w hw with ⟨c, hc, hcreated⟩
  exact ⟨c, hc, fun hstate => (hcreated hstate).mono rfl hlog (hkept.http w.caller)⟩

/-- The account service is asked about a connection. -/
theorem Orderly.ask (hp : p ∉ s.awaitingAuth) (hnew : x.caller ∉ s.http)
    (hc : s.clients.lookup p = some c) {ticket : Bytes} {time : Int}
    {st : Settings} (hticket : checkTicket W.tickets time ticket c.name st.serverId = .ok c.identity)
    (hbegun : Begun (s.connOf p) c.name ticket time st s.log) :
    Orderly W { (s.callerAlloc x.caller).startAccountServiceCheck p x.caller ticket with
      awaitingAuth := ((s.callerAlloc x.caller).startAccountServiceCheck p x.caller
        ticket).awaitingAuth.insert p ⟨x.caller, x.now⟩ } := by
  have hasks : Asks p ⟨x.caller, x.now⟩ s
      { (s.callerAlloc x.caller).startAccountServiceCheck p x.caller ticket with
        awaitingAuth := ((s.callerAlloc x.caller).startAccountServiceCheck p x.caller
          ticket).awaitingAuth.insert p ⟨x.caller, x.now⟩ } := by
    refine ⟨fun k hk => ?_, ?_, fun q hq => AList.lookup_insert_ne hq, AList.lookup_insert _,
      fun k => ?_⟩
    · exact (AList.lookup_insert_ne hk).trans (AList.lookup_insert_ne hk)
    · exact (AList.mem_insert _).2 (.inl rfl)
    · change allocated k (.asked _ _ :: .callerAlloc x.caller :: s.log) + _ =
        freed k (.asked _ _ :: .callerAlloc x.caller :: s.log) + _ + _
      rw [allocated_of_not rfl, allocated_callerAlloc, freed_of_not rfl, freed_of_not rfl]
      dsimp only
      omega
  have hlog : s.log <:+ Deed.asked (s.connOf p) ticket :: .callerAlloc x.caller :: s.log :=
    (List.suffix_cons ..).trans (List.suffix_cons ..)
  have hcallers := h.callers.asks hp hnew hasks
  refine h.of_peer hcallers hlog (fun q _ => rfl) (fun q _ => rfl) hasks.awaiting
    (fun q hq w hw => hasks.http _ ?_) (fun c' hc' => ?_) fun w hw => ?_
  · intro heq
    exact hnew ((h.callers.out x.caller).2 ⟨q, w, hw, heq⟩)
  · exact (h.backed p c' hc').mono hlog
  · cases hasks.waits.symm.trans hw
    refine ⟨c, hc, fun _ => ⟨ticket, time, st, hticket, ?_, fun handle hhandle => ?_⟩⟩
    · exact Since.now (hbegun.mono (List.suffix_cons ..))
    · cases (AList.lookup_insert _).symm.trans hhandle
      refine ⟨fun m hm => (Option.some.inj hm).symm, fun res hres => ?_⟩
      cases hres

end

theorem awaitingAuth_modify : (s.modify p f).awaitingAuth = s.awaitingAuth := by
  rw [modify_eq]

theorem http_modify : (s.modify p f).http = s.http := by
  rw [modify_eq]

/-- The ticket is good. -/
theorem Orderly.identify (h : Orderly W s) (hp : p ∉ s.awaitingAuth) (hnew : x.caller ∉ s.http)
    (hc : s.clients.lookup p = some c) (hstate : c.state = .created) {ticket : Bytes}
    {id : TicketIdentity}
    (hid : checkTicket W.tickets x.time ticket c.name s.settings.serverId = .ok id)
    (hbegun : Begun (s.connOf p) c.name ticket x.time s.settings s.log) :
    Orderly W (if ((s.modify p fun c => { c with identity := id }).callerAlloc
          x.caller).settings.hasService then
        let s := ((s.modify p fun c => { c with identity := id }).callerAlloc
          x.caller).startAccountServiceCheck p x.caller ticket
        { s with awaitingAuth := s.awaitingAuth.insert p ⟨x.caller, x.now⟩ }.done
      else (((s.modify p fun c => { c with identity := id }).callerAlloc x.caller).callerFree
        x.caller).finishInit W p x).1 := by
  have hset := @lookup_modify A s p c (fun c => { c with identity := id }) hc
  have hidentified := h.modify hp hc hstate (fun c => { c with identity := id }) fun _ => rfl
  have hconn : (s.modify p fun c => { c with identity := id }).connOf p = s.connOf p := by
    rw [connOf_modify]
  have hlog : (s.modify p fun c => { c with identity := id }).log = s.log := log_modify
  have hp' : p ∉ (s.modify p fun c => { c with identity := id }).awaitingAuth := by
    rw [awaitingAuth_modify]
    exact hp
  have hnew' : x.caller ∉ (s.modify p fun c => { c with identity := id }).http := by
    rw [http_modify]
    exact hnew
  have hsettings : ((s.modify p fun c => { c with identity := id }).callerAlloc x.caller).settings =
      s.settings := settings_modify
  rw [← hconn, ← hlog] at hbegun
  split
  · exact hidentified.ask hp' hnew' hset hid hbegun
  · rename_i hservice
    rw [hsettings] at hservice
    refine (hidentified.allocFree hnew').finishInit hp' hset fun _ => ?_
    refine ⟨ticket, x.time, s.settings, id, hid, ?_, fun hhas => absurd hhas hservice⟩
    exact hbegun.mono ((List.suffix_cons ..).trans (List.suffix_cons ..))

theorem Orderly.nameClient (h : Orderly W s) (hmulti : W.singleplayer = false)
    (hp : p ∉ s.awaitingAuth) (hnew : x.caller ∉ s.http) (hc : s.clients.lookup p = some c)
    (hstate : c.state = .created) (name ticket : Bytes) :
    Orderly W (s.nameClient W p name ticket x).1 := by
  have hbegun := (h.modify hp hc hstate (fun c => { c with name := name, ticket := ticket })
    fun _ => rfl).note (d := .init (s.connOf p) name ticket x.time s.settings) fun _ => ⟨rfl, rfl⟩
  have hnamed := @lookup_modify A s p c (fun c => { c with name := name, ticket := ticket }) hc
  unfold Server.nameClient
  dsimp only
  rw [connOf_modify, settings_modify, if_neg (by rw [hmulti]; exact Bool.false_ne_true)]
  split
  · exact hbegun.denyAccess
  · rename_i id hid
    refine hbegun.identify ?_ ?_ hnamed hstate ?_ ?_
    · change p ∉ (s.modify p _).awaitingAuth
      rw [awaitingAuth_modify]
      exact hp
    · change x.caller ∉ (s.modify p _).http
      rw [http_modify]
      exact hnew
    · exact hid
    · change Begun ((s.modify p _).connOf p) name ticket x.time (s.modify p _).settings (_ :: _)
      rw [connOf_modify, settings_modify]
      exact Since.now trivial

theorem created_of_getClientNoEx (h : s.clients.getClientNoEx p .created = some c)
    (hle : c.state ≤ .created) : s.clients.lookup p = some c ∧ c.state = .created := by
  rcases Clients.getClientNoEx_eq_some.1 h with ⟨hc, hge⟩
  refine ⟨hc, ?_⟩
  cases hstate : c.state with
  | created => rfl
  | _ =>
    all_goals
      rw [hstate] at hle hge
      first
        | exact absurd hle (by decide)
        | exact absurd hge (by decide)

theorem Orderly.handleCommandInit (h : Orderly W s) (hmulti : W.singleplayer = false)
    (hnew : x.caller ∉ s.http) (pkt : Option InitPacket) :
    Orderly W (s.handleCommandInit W p pkt x).1 := by
  unfold Server.handleCommandInit
  split
  · exact h
  rename_i c hget
  split
  · exact h
  split
  · exact h
  rename_i hle
  rcases created_of_getClientNoEx hget (not_not.1 hle) with ⟨hc, hstate⟩
  split
  · exact h
  rename_i hp
  split
  · exact h.denyAccess
  split
  · exact h
  rename_i pkt
  -- the versions are noted in the client
  have hchecked : Orderly W (s.modify p fun _ => (checkInit W s c pkt).1) := by
    refine h.moves_of_backed (D := Nothing) (E := QuietEvent) hp (fun _ => False.elim)
      (moves_checkInit hc) fun c' hc' => ?_
    cases (lookup_modify hc).symm.trans hc'
    refine backed_of_le ?_
    rw [state_checkInit, hstate]
    decide
  dsimp only
  split
  · exact hchecked
  · exact hchecked.denyAccess
  · refine hchecked.nameClient hmulti ?_ ?_ (lookup_modify hc) ?_ _ _
    · rw [awaitingAuth_modify]
      exact hp
    · rw [http_modify]
      exact hnew
    · rw [state_checkInit]
      exact hstate

/-! ## The account service -/

/-- What was asked of the service is acted on. -/
theorem settled_concludeAuth (hc : s.clients.lookup p = some c) (hback : Backed W (s.connOf p) s.log c)
    (hvouched : c.state = .created → ∀ id', readAccountServiceAnswer W res c.identity = some id' →
      Vouched W (s.connOf p) c.name s.log) :
    Settled W p (s.connOf p) (s.concludeAuth W p caller res x) := by
  have hlog : s.log <:+ (s.callerFree caller).log := List.suffix_cons ..
  unfold concludeAuth
  cases hget : s.clients.getClientNoEx p .created with
  | none =>
    intro c' hc'
    cases hc.symm.trans hc'
    refine ⟨hback.mono hlog, fun hstate => ?_⟩
    have hsome : s.clients.getClientNoEx p .created = some c := by
      refine Clients.getClientNoEx_eq_some.2 ⟨hc, ?_⟩
      rw [hstate]
      decide
    cases hget.symm.trans hsome
  | some c₁ =>
    cases hc.symm.trans (Clients.getClientNoEx_eq_some.1 hget).1
    dsimp only
    split
    · exact settled_denyAccess
    · rename_i id hid
      have hset := @lookup_modify A (s.callerFree caller) p c (fun c => { c with identity := id }) hc
      refine settled_finishInit ?_ hset ?_ fun hstate => ?_
      · rw [connOf_modify]
        rfl
      · rw [log_modify]
        have hfree := hback.mono hlog
        exact ⟨hfree.greeted, hfree.challenged, hfree.proven⟩
      · rw [log_modify]
        exact (hvouched hstate id hid).mono hlog

theorem moves_concludeAuth_free :
    Moves p Greeting QuietEvent False (s.callerFree caller) (s.concludeAuth W p caller res x) := by
  unfold concludeAuth
  split
  · exact .refl
  dsimp only
  split
  · exact Moves.refl.denyAccess setDenied_quiet
  · rename_i id _
    have hset : Moves p Greeting QuietEvent False (s.callerFree caller)
        ((s.callerFree caller).modify p fun c => { c with identity := id }) :=
      .modify .refl fun _ => rfl
    exact hset.trans moves_finishInit

/-- A result that is taken is one of those that were there. -/
theorem asyncGet_spec (s : Server A) (caller : UInt64) :
    ∃ http, (s.asyncGet caller).2 = { s with http := http } ∧
      (∀ k, k ≠ caller → http.lookup k = s.http.lookup k) ∧
      ∀ res, (s.asyncGet caller).1 = some res →
        ∃ h, s.http.lookup caller = some h ∧ res ∈ h.results := by
  unfold asyncGet
  split
  · exact ⟨s.http, rfl, fun _ _ => rfl, fun res hres => by cases hres⟩
  · rename_i h hh
    split
    · exact ⟨s.http, rfl, fun _ _ => rfl, fun res hres => by cases hres⟩
    · rename_i res results hresults
      refine ⟨_, rfl, fun k hk => AList.lookup_insert_ne hk, fun res' hres' => ?_⟩
      cases hres'
      refine ⟨h, hh, ?_⟩
      rw [hresults]
      exact List.mem_cons_self

/-- What a round of the loop does when it acts on a question. -/
theorem Orderly.conclude (h : Orderly W s) (hw : s.awaitingAuth.lookup p = some w)
    {res : HTTPFetchResult}
    (hres : res = {} ∨ ∃ handle, s.http.lookup w.caller = some handle ∧ res ∈ handle.results)
    {http : AList fun _ : UInt64 => HttpCaller}
    (hhttp : ∀ k, k ≠ w.caller → http.lookup k = s.http.lookup k) :
    Orderly W { ({ s with http := http } : Server A).concludeAuth W p w.caller res x with
      awaitingAuth := (({ s with http := http } : Server A).concludeAuth W p w.caller res
        x).awaitingAuth.erase p } := by
  rcases h.waiting p w hw with ⟨c, hc, hcreated⟩
  have hmoves := @moves_concludeAuth_free A W { s with http := http } p x w.caller res
  rcases hmoves.frame with ⟨hothers, -, hlog⟩
  have hkept := hmoves.kept fun _ => callerless_of_greeting
  have hconn := congrFun hmoves.connOf
  -- the question is not out any more
  have hreleased : Released p w s
      { ({ s with http := http } : Server A).concludeAuth W p w.caller res x with
        awaitingAuth := (({ s with http := http } : Server A).concludeAuth W p w.caller res
          x).awaitingAuth.erase p } := by
    refine ⟨fun k hk => ?_, ?_, fun q hq => ?_, AList.lookup_erase _ _, fun k => ?_⟩
    · refine (hkept.http k).trans (Eq.trans ?_ (hhttp k hk))
      exact AList.lookup_erase_ne hk
    · exact (hkept.http w.caller).trans (AList.lookup_erase _ _)
    · exact (AList.lookup_erase_ne hq).trans (hkept.awaiting q)
    · have hdeeds := hkept.balanced k
      change allocated k _ + freed k (.callerFree w.caller :: s.log) =
        freed k _ + allocated k (.callerFree w.caller :: s.log) at hdeeds
      rw [freed_callerFree, allocated_of_not rfl] at hdeeds
      change allocated k (Server.concludeAuth _ _ _ _ _ _).log + _ + _ =
        freed k (Server.concludeAuth _ _ _ _ _ _).log + _
      omega
  refine h.of_peer (h.callers.released hw hreleased) ((List.suffix_cons ..).trans hlog) hothers
    (fun q _ => hconn q) hreleased.awaiting (fun q hq w' hw' => hreleased.http _ ?_)
    (fun c' hc' => ?_) fun w' hw' => ?_
  · intro heq
    exact hq (h.callers.distinct q p w' w hw' hw heq)
  · have hsettled := @settled_concludeAuth A W { s with http := http } p c x w.caller res hc
      (h.backed p c hc)
    rw [show Server.connOf _ p = s.connOf p from hconn p]
    refine (hsettled (fun hstate id' hid' => ?_) c' hc').1
    rcases hcreated hstate with ⟨ticket, time, st, hticket, hasked, hanswers⟩
    rcases hres with rfl | ⟨handle, hhandle, hmem⟩
    · cases hid'
    · rcases hasked with ⟨earlier, hsuffix, hbegun⟩
      refine ⟨ticket, time, st, c.identity, hticket, ?_, fun _ => ⟨res, id', hid', ?_⟩⟩
      · exact hbegun.mono ((List.suffix_cons ..).trans hsuffix)
      · exact (hanswers handle hhandle).2 res hmem
  · cases hreleased.left.symm.trans hw'

theorem Orderly.stepAwaiting (h : Orderly W s) : Orderly W (s.stepAwaiting W p x) := by
  unfold Server.stepAwaiting
  split
  · exact h
  rename_i w hw
  dsimp only
  split
  · exact h
  rcases asyncGet_spec s w.caller with ⟨http, hgot, hhttp, hresult⟩
  rw [hgot]
  refine h.conclude hw ?_ hhttp
  cases hres : (s.asyncGet w.caller).1 with
  | none => exact .inl rfl
  | some res => exact .inr (hresult res hres)

theorem Orderly.deliver (h : Orderly W s) (caller : UInt64) (res : HTTPFetchResult) :
    Orderly W (s.deliver caller res) := by
  unfold Server.deliver
  split
  · exact h
  rename_i handle hhandle
  split
  · exact h
  rename_i n hn
  dsimp only
  -- whose question it is
  rcases (h.callers.out caller).1 (AList.lookup_isSome.1 (hhandle ▸ rfl)) with ⟨p, w, hw, rfl⟩
  rcases h.waiting p w hw with ⟨c, hc, hcreated⟩
  have hlog : s.log <:+ Deed.answered n res :: s.log := List.suffix_cons ..
  refine h.of_peer (p := p) ?_ hlog (fun q _ => rfl) (fun q _ => rfl) (fun q _ => rfl)
    (fun q hq w' hw' => ?_) (fun c' hc' => (h.backed p c' hc').mono hlog) fun w' hw' => ?_
  · refine ⟨fun k => ?_, h.callers.distinct, fun k => ?_⟩
    · refine Iff.trans ?_ (h.callers.out k)
      refine (AList.mem_insert _).trans ⟨?_, Or.inr⟩
      rintro (rfl | hk)
      · exact AList.lookup_isSome.1 (hhandle ▸ rfl)
      · exact hk
    · have hbefore := h.callers.balanced k
      change allocated k (.answered n res :: s.log) = freed k (.answered n res :: s.log) + _
      rw [allocated_of_not rfl, freed_of_not rfl, hbefore]
      congr 1
      refine if_congr ?_ rfl rfl
      refine Iff.symm ((AList.mem_insert _).trans ⟨?_, Or.inr⟩)
      rintro (rfl | hk)
      · exact AList.lookup_isSome.1 (hhandle ▸ rfl)
      · exact hk
  · refine AList.lookup_insert_ne fun heq => hq ?_
    exact h.callers.distinct q p w' w hw' hw heq
  · cases hw.symm.trans hw'
    refine ⟨c, hc, fun hstate => ?_⟩
    rcases hcreated hstate with ⟨ticket, time, st, hticket, hasked, hanswers⟩
    rcases hanswers handle hhandle with ⟨hquestion, hresults⟩
    have hconn := hquestion n hn
    subst hconn
    refine ⟨ticket, time, st, hticket, hasked.mono hlog, fun handle' hhandle' => ?_⟩
    cases (AList.lookup_insert _).symm.trans hhandle'
    refine ⟨fun m hm => ?_, fun res' hres' => ?_⟩
    · cases hm
    rcases List.mem_append.1 hres' with hres' | hres'
    · exact (hresults res' hres').mono hlog
    · rw [List.mem_singleton.1 hres']
      exact Since.now hasked

/-! ## Peers -/

theorem Orderly.peerAdded (h : Orderly W s) (hnew : p ∉ s.clients) : Orderly W (s.peerAdded p) := by
  have hkept : Kept s (s.peerAdded p) := ⟨fun _ => rfl, fun _ => rfl, fun _ => Nat.add_comm _ _⟩
  have hclients : s.clients.createClient p = s.clients.insert p {} := by
    rw [Clients.createClient, AList.lookup_eq_none.2 hnew]
  refine h.of_peer (p := p) (h.callers.kept hkept) List.suffix_rfl (fun q hq => ?_)
    (fun q hq => Function.update_of_ne hq _ _) (fun q _ => rfl) (fun q _ w _ => rfl)
    (fun c hc => ?_) fun w hw => ?_
  · change (s.clients.createClient p).lookup q = s.clients.lookup q
    rw [hclients, AList.lookup_insert_ne hq]
  · change (s.clients.createClient p).lookup p = some c at hc
    rw [hclients, AList.lookup_insert] at hc
    cases hc
    exact backed_of_le (by decide)
  · rcases h.waiting p w hw with ⟨c, hc, -⟩
    exact absurd (AList.lookup_isSome.1 (hc ▸ rfl)) hnew

theorem dropPlayer_spec (s : Server A) (p : SessionT) :
    Kept s (s.dropPlayer p) ∧ (s.dropPlayer p).clients = s.clients ∧
      (s.dropPlayer p).connOf = s.connOf ∧ s.log <:+ (s.dropPlayer p).log := by
  unfold dropPlayer
  split
  · exact ⟨.refl s, rfl, rfl, List.suffix_rfl⟩
  · rename_i player _
    refine ⟨Kept.trans ?_ (kept_note fun _ => ⟨rfl, rfl⟩), rfl, rfl, List.suffix_cons ..⟩
    exact ⟨fun _ => rfl, fun _ => rfl, fun _ => Nat.add_comm _ _⟩

/-- Who has left is not waited for. -/
theorem Orderly.dropQuestion (h : Orderly W s) :
    Callers (s.dropQuestion p) ∧ (s.dropQuestion p).clients = s.clients ∧
      (s.dropQuestion p).connOf = s.connOf ∧ s.log <:+ (s.dropQuestion p).log ∧
      (s.dropQuestion p).awaitingAuth.lookup p = none ∧
      (∀ q, q ≠ p → (s.dropQuestion p).awaitingAuth.lookup q = s.awaitingAuth.lookup q) ∧
      ∀ q, q ≠ p → ∀ w, s.awaitingAuth.lookup q = some w →
        (s.dropQuestion p).http.lookup w.caller = s.http.lookup w.caller := by
  unfold Server.dropQuestion
  cases hw : s.awaitingAuth.lookup p with
  | none => exact ⟨h.callers, rfl, rfl, List.suffix_rfl, hw, fun _ _ => rfl, fun _ _ _ _ => rfl⟩
  | some w =>
    have hreleased : Released p w s { s.callerFree w.caller with
        awaitingAuth := (s.callerFree w.caller).awaitingAuth.erase p } := by
      refine ⟨fun k hk => AList.lookup_erase_ne hk, AList.lookup_erase _ _,
        fun q hq => AList.lookup_erase_ne hq, AList.lookup_erase _ _, fun k => ?_⟩
      change allocated k (.callerFree w.caller :: s.log) + _ + _ =
        freed k (.callerFree w.caller :: s.log) + _
      rw [allocated_of_not rfl, freed_callerFree]
      omega
    refine ⟨h.callers.released hw hreleased, rfl, rfl, List.suffix_cons .., hreleased.left,
      hreleased.awaiting, fun q hq w' hw' => hreleased.http _ fun heq => hq ?_⟩
    exact h.callers.distinct q p w' w hw' hw heq

theorem Orderly.deleteClient (h : Orderly W s) : Orderly W (s.deleteClient p) := by
  rcases h.dropQuestion (p := p) with
    ⟨hcallers, hclients, hconn, hlog, hleft, hawaiting, hhttp⟩
  rcases dropPlayer_spec (s.dropQuestion p) p with ⟨hkept, hclients', hconn', hlog'⟩
  have hlookup : (s.deleteClient p).clients.lookup p = none := AList.lookup_erase _ _
  refine h.of_peer (p := p) (hcallers.kept ⟨hkept.http, hkept.awaiting, hkept.balanced⟩)
    (hlog.trans hlog') (fun q hq => ?_) (fun q _ => ?_)
    (fun q hq => (hkept.awaiting q).trans (hawaiting q hq))
    (fun q hq w hw => (hkept.http w.caller).trans (hhttp q hq w hw)) (fun c hc => ?_)
    fun w hw => ?_
  · refine (AList.lookup_erase_ne hq).trans ?_
    rw [hclients', hclients]
  · exact congrFun (hconn'.trans hconn) q
  · cases hlookup.symm.trans hc
  · cases hleft.symm.trans ((hkept.awaiting p).symm.trans hw)

theorem Orderly.deletingPeer (h : Orderly W s) : Orderly W (s.deletingPeer p) := by
  refine Orderly.caught ?_
  unfold Server.event
  split
  · exact h
  · rename_i cs hcs
    refine Orderly.deleteClient ?_
    have hquiet : QuietEvent .disconnect := ⟨by decide, by decide, by decide⟩
    refine h.moves (D := Nothing) (fun _ => False.elim) (.event .refl hquiet hcs) fun c hc => ?_
    intro c' hc'
    rcases Clients.event_eq_some hcs with ⟨hnone, -⟩ | ⟨d, d', hd, hd', rfl⟩
    · cases hnone.symm.trans hc
    · cases hc.symm.trans hd
      cases (AList.lookup_insert s.clients).symm.trans hc'
      refine ⟨(h.backed p c hc).notify (by decide) (by decide) hd', fun hstate => ?_⟩
      rcases RemoteClient.notifyEvent_eq_some.1 hd' with ⟨b, hb, rfl⟩
      exact absurd hstate (ClientState.ne_created_of_next hb)

/-! ## Runs -/

theorem Orderly.players (h : Orderly W s) (players : List RemotePlayer) :
    Orderly W { s with players := players } :=
  ⟨⟨h.callers.out, h.callers.distinct, h.callers.balanced⟩, h.backed, h.waiting⟩

theorem Orderly.packet (h : Orderly W s) (hD : ∀ d, D d → Callerless d)
    (hmoves : Moves p D E False s r.1)
    (hends : ∀ c, s.clients.lookup p = some c → Ends W p (s.connOf p) c r.1) :
    Orderly W (Server.caught r p) :=
  (h.moves hD hmoves hends).caught

theorem moves_handleCommandClientReady (s : Server A) (complete : Bool) :
    ∃ players, Moves p Callerless (fun _ => True) False { s with players := players }
      (s.handleCommandClientReady p complete x).1 := by
  unfold handleCommandClientReady
  split
  · exact ⟨s.players, .refl⟩
  split
  · exact ⟨s.players, .refl⟩
  split
  · exact ⟨s.players, Moves.refl.denyAccess trivial⟩
  · dsimp only
    rcases stageTwoClientInit_cases s p with hstage | ⟨players, hstage⟩
    · rw [hstage]
      exact ⟨s.players, Moves.refl.denyAccess trivial⟩
    · rw [hstage, if_pos rfl]
      refine ⟨players, Moves.refl.eventThen trivial fun u hu => ?_⟩
      exact .note hu fun _ => ⟨rfl, rfl⟩

theorem Orderly.clientReady (h : Orderly W s) (hadmits : s.clients.admits p .startup = true)
    (complete : Bool) : Orderly W (s.handleCommandClientReady p complete x).1 := by
  rcases @moves_handleCommandClientReady A p x s complete with ⟨players, hmoves⟩
  refine (h.players players).moves (fun _ hd => hd) hmoves fun c hc => ?_
  refine ends_handleCommandClientReady hc (h.backed p c hc) ?_
  unfold Clients.admits at hadmits
  dsimp only at hadmits
  cases hget : s.clients.getClientNoEx p .initDone with
  | none =>
    rw [hget] at hadmits
    cases hadmits
  | some c' =>
    rcases Clients.getClientNoEx_eq_some.1 hget with ⟨hc', hle⟩
    cases hc.symm.trans hc'
    exact hle

end

end Server
end Login
end AxisEngine
