import AxisEngine.DynamicMedia.PlainMedia
import AxisEngine.Skins.SkinCache

/-!
# Delivery — a skin is worn when its picture has arrived

A hash is ready only when the record of its push is over; a picture gets into the media under its
own hash alone, and the name in the table keeps it from getting there twice.

* `Ended`, `Delivered` — what the history says of a push;
* `OnItsWay`, `Kept` — what holds of the containers at any time;
* `kept_publish`, `kept_step` and others — the operations.
-/

namespace AxisEngine
namespace Skins

open Lib Login Util DynamicMedia

namespace SkinServer

variable {Time : Type} (P : Outside Time)

/-- The time left on a record, after what has happened since. -/
def timeLeft : List (SkinDeed Time) → Time
  | [] => P.patience
  | .passed dtime :: older => P.minus (timeLeft older) dtime
  | _ :: older => timeLeft older

/-- At some moment since, everyone who was asked had acknowledged, or the time was over. -/
def Ended (newer : List (SkinDeed Time)) (token : UInt32) (waiting : List SessionT) : Prop :=
  ∃ upto, upto <:+ newer ∧ ((∀ p ∈ waiting, .acknowledged token p ∈ upto) ∨
    P.notNegative (timeLeft P upto) = false)

/-- Media named after the hash was published from bytes with this hash, and the push has ended. -/
def Delivered (history : List (SkinDeed Time)) (hash : Bytes) : Prop :=
  ∃ newer data token waiting older,
    history = newer ++ .published hash data token waiting :: older ∧ hexDigest P data = hash ∧
      Ended P newer token waiting

/-- A record knows who has not acknowledged yet, and how much time is left. -/
def RecordKnows (r : PendingDynamicMediaCallback Time) (newer : List (SkinDeed Time))
    (token : UInt32) (waiting : List SessionT) : Prop :=
  r.expiryTimer = timeLeft P newer ∧
    ∀ p ∈ waiting, p ∈ r.waitingPlayers ∨ .acknowledged token p ∈ newer

/-- What waits for the end of its record has been published, and the record is there or over. -/
def OnItsWay (server : MediaServer Time) (history : List (SkinDeed Time)) (token : UInt32)
    (hash : Bytes) : Prop :=
  ∃ newer data waiting older,
    history = newer ++ .published hash data token waiting :: older ∧ hexDigest P data = hash ∧
      (Ended P newer token waiting ∨
        ∃ r, server.pendingDynMedia.lookup token = some r ∧ RecordKnows P r newer token waiting)

def isPublished (hash : Bytes) : SkinDeed Time → Bool
  | .published hash' _ _ _ => hash' = hash
  | _ => false

structure Kept (s : SkinServer Time) : Prop where
  deferred : ∀ hash data, s.skins.deferred.lookup hash = some data → hexDigest P data = hash
  localHashes : ∀ path hash, s.skins.localHashes.lookup path = some hash →
    ∃ data, P.picture path = some data ∧ hexDigest P data = hash
  entry : ∀ hash data token waiting, .published hash data token waiting ∈ s.history →
    ∃ info, s.server.media.lookup (mediaName hash) = some info ∧ info.ephemeral = false
  once : ∀ hash, s.history.countP (isPublished hash) ≤ 1
  awaiting : ∀ token hash, s.skins.awaiting.lookup token = some hash →
    OnItsWay P s.server s.history token hash
  ready : ∀ hash ∈ s.skins.ready, Delivered P s.history hash

section

variable {s t : SkinServer Time} {hash data path : Bytes} {token : UInt32} {b : Bool}
  {newer history : List (SkinDeed Time)} {waiting : List SessionT}

variable {server : MediaServer Time} (deeds : List (SkinDeed Time))

theorem Ended.mono (h : Ended P newer token waiting) : Ended P (deeds ++ newer) token waiting := by
  rcases h with ⟨upto, hupto, hover⟩
  exact ⟨upto, hupto.trans (List.suffix_append _ _), hover⟩

theorem Delivered.mono (h : Delivered P history hash) : Delivered P (deeds ++ history) hash := by
  rcases h with ⟨newer, data, token, waiting, older, rfl, hdigest, hended⟩
  refine ⟨deeds ++ newer, data, token, waiting, older, ?_, hdigest, hended.mono P deeds⟩
  rw [List.append_assoc]

/-- What waits, where its record is still there, or another has come. -/
theorem OnItsWay.mono {server server' : MediaServer Time} (h : OnItsWay P server history token hash)
    (hrecord : ∀ r newer waiting, server.pendingDynMedia.lookup token = some r →
      RecordKnows P r newer token waiting → Ended P (deeds ++ newer) token waiting ∨
        ∃ r', server'.pendingDynMedia.lookup token = some r' ∧
          RecordKnows P r' (deeds ++ newer) token waiting) :
    OnItsWay P server' (deeds ++ history) token hash := by
  rcases h with ⟨newer, data, waiting, older, rfl, hdigest, hstate⟩
  refine ⟨deeds ++ newer, data, waiting, older, ?_, hdigest, ?_⟩
  · rw [List.append_assoc]
  · rcases hstate with hended | ⟨r, hr, hknows⟩
    · exact .inl (hended.mono P deeds)
    · exact hrecord r newer waiting hr hknows

/-! ## Publishing -/

/-- The media and the records of the server have changed, and what waits is still on its way. -/
theorem Kept.setServer (h : Kept P s) (hplain : MediaServer.PlainKept s.server server)
    (hpending : ∀ token r, s.server.pendingDynMedia.lookup token = some r →
      server.pendingDynMedia.lookup token = some r) : Kept P { s with server := server } := by
  refine ⟨h.deferred, h.localHashes, ?_, h.once, ?_, h.ready⟩
  · intro hash data token waiting hmem
    rcases h.entry hash data token waiting hmem with ⟨info, hinfo, hephemeral⟩
    exact hplain _ info hinfo hephemeral
  · intro token hash hlookup
    refine (h.awaiting token hash hlookup).mono P [] fun r newer waiting hr hknows => ?_
    exact .inr ⟨r, hpending token r hr, hknows⟩

theorem Kept.congr (h : Kept P s) (hmedia : t.server.media = s.server.media)
    (hpending : t.server.pendingDynMedia = s.server.pendingDynMedia)
    (hhistory : t.history = s.history) (hdeferred : t.skins.deferred = s.skins.deferred)
    (hlocal : t.skins.localHashes = s.skins.localHashes)
    (hawaiting : t.skins.awaiting = s.skins.awaiting) (hready : t.skins.ready = s.skins.ready) :
    Kept P t := by
  refine ⟨?_, ?_, ?_, ?_, ?_, ?_⟩
  · rw [hdeferred]
    exact h.deferred
  · rw [hlocal]
    exact h.localHashes
  · rw [hmedia, hhistory]
    exact h.entry
  · rw [hhistory]
    exact h.once
  · rw [hhistory, hawaiting]
    intro token hash hlookup
    refine (h.awaiting token hash hlookup).mono P [] fun r newer waiting hr hknows => ?_
    rw [hpending]
    exact .inr ⟨r, hr, hknows⟩
  · rw [hhistory, hready]
    exact h.ready

theorem Kept.setDeferred (h : Kept P s) (hdigest : hexDigest P data = hash) :
    Kept P { s with skins := { s.skins with deferred := s.skins.deferred.insert hash data } } :=
  ⟨forall_insert h.deferred hdigest, h.localHashes, h.entry, h.once, h.awaiting, h.ready⟩

theorem Kept.dropDeferred (h : Kept P s) (hash : Bytes) :
    Kept P { s with skins := { s.skins with deferred := s.skins.deferred.erase hash } } := by
  refine ⟨?_, h.localHashes, h.entry, h.once, h.awaiting, h.ready⟩
  exact fun hash' data hlookup => h.deferred hash' data (lookup_of_lookup_erase hlookup).2

/-- A free token is no record's. -/
theorem nextFreeToken_not_mem {rounds : Nat} {start : UInt32}
    (h : nextFreeToken server rounds start = some token) : token ∉ server.pendingDynMedia := by
  induction rounds generalizing start with
  | zero => cases h
  | succ rounds ih =>
    rw [nextFreeToken] at h
    split at h
    · exact ih h
    case isFalse hfree =>
      cases h
      exact hfree

/-- What was published before is in the table, so that its name is taken. -/
theorem Kept.not_published (h : Kept P s) {args : DynamicMediaArgs} {n : Nat} {temp : Bytes}
    (hfile : P.tempFile n (s.server.media.entries.map fun entry => entry.2.path) = some temp)
    (hfree : s.server.nameTaken args (mediaName hash) temp = false) :
    s.history.countP (isPublished hash) = 0 := by
  rw [List.countP_eq_zero]
  intro deed hdeed hpublished
  cases deed with
  | acknowledged token p => cases hpublished
  | passed dtime => cases hpublished
  | published hash' data token waiting =>
    have heq : hash' = hash := of_decide_eq_true hpublished
    subst heq
    rcases h.entry hash' data token waiting hdeed with ⟨info, hinfo, -⟩
    rw [MediaServer.nameTaken, hinfo] at hfree
    simp only [Bool.or_eq_false_iff, decide_eq_false_iff_not, not_not] at hfree
    refine P.tempFile_new _ _ _ hfile (List.mem_map.2 ⟨⟨mediaName hash', info⟩, ?_, hfree.2⟩)
    exact AList.mem_lookup_iff.1 hinfo

theorem Kept.published {r : PendingDynamicMediaCallback Time} (h : Kept P s)
    (hdigest : hexDigest P data = hash) (hnew : s.history.countP (isPublished hash) = 0)
    (hentry : ∃ info, s.server.media.lookup (mediaName hash) = some info ∧ info.ephemeral = false)
    (hrecord : s.server.pendingDynMedia.lookup token = some r) (htime : r.expiryTimer = P.patience) :
    Kept P { s with
      skins := { s.skins with awaiting := s.skins.awaiting.insert token hash }
      history := .published hash data token r.waitingPlayers :: s.history } := by
  refine ⟨h.deferred, h.localHashes, ?_, ?_, ?_, ?_⟩
  · intro hash' data' token' waiting' hmem
    rcases List.mem_cons.1 hmem with heq | hmem
    · cases heq
      exact hentry
    · exact h.entry hash' data' token' waiting' hmem
  · intro hash'
    rw [List.countP_cons]
    by_cases heq : hash = hash'
    · subst heq
      rw [hnew]
      split
      · exact le_rfl
      · exact Nat.zero_le 1
    · have hnot : isPublished hash' (.published hash data token r.waitingPlayers :
          SkinDeed Time) = false := decide_eq_false heq
      rw [hnot, if_neg Bool.false_ne_true]
      exact h.once hash'
  · refine forall_insert ?_ ?_
    · intro token' hash' hlookup
      refine (h.awaiting token' hash' hlookup).mono P
        [.published hash data token r.waitingPlayers] fun r' newer waiting hr' hknows => ?_
      refine .inr ⟨r', hr', hknows.1, fun p hp => ?_⟩
      exact (hknows.2 p hp).imp_right (List.mem_cons_of_mem _)
    · exact ⟨[], data, r.waitingPlayers, s.history, rfl, hdigest,
        .inr ⟨r, hrecord, htime, fun p hp => .inl hp⟩⟩
  · exact fun hash' hready =>
      (h.ready hash' hready).mono P [.published hash data token r.waitingPlayers]

theorem push_record {args : DynamicMediaArgs} {temp : Option Bytes}
    (h : (server.dynamicAddMedia P.toPlatform args temp).2 = .added) :
    ∃ r, (server.dynamicAddMedia P.toPlatform args temp).1.pendingDynMedia.lookup args.token =
      some r ∧ r.expiryTimer = P.patience := by
  rcases MediaServer.dynamicAddMedia_calls P.toPlatform server args temp with
    ⟨hnot, -⟩ | ⟨-, u, filename, -, heq⟩
  · exact absurd h hnot
  · rw [heq]
    exact ⟨_, AList.lookup_insert _, rfl⟩

theorem kept_publish (h : Kept P s) (hdigest : hexDigest P data = hash)
    (hpublish : publish P s hash data = some (t, b)) :
    Kept P t ∧ t.server.clients = s.server.clients := by
  rw [publish] at hpublish
  split at hpublish
  · cases hpublish
    exact ⟨h.setDeferred P hdigest, rfl⟩
  · rcases Option.bind_eq_some_iff.1 hpublish with ⟨token, htoken, hadd⟩
    dsimp only at hadd
    set temp := P.tempFile s.temps (s.server.media.entries.map fun entry => entry.2.path) with htemp
    set start : MediaServer Time := { s.server with
      engineMediaToken := token
      engineMediaTokens := token :: s.server.engineMediaTokens } with hstart
    have hcalled : s.server.addMediaOfEngine P.toPlatform (publishArgs hash data token) temp =
        start.dynamicAddMedia P.toPlatform (publishArgs hash data token) temp := rfl
    have hfree := nextFreeToken_not_mem htoken
    rw [hcalled] at hadd
    set added := start.dynamicAddMedia P.toPlatform (publishArgs hash data token) temp with hdyn
    have hplain : MediaServer.PlainKept s.server added.1 :=
      (MediaServer.PlainKept.of_eq (t := start) rfl).trans
        (MediaServer.plainKept_dynamicAddMedia P.toPlatform _ _)
    have hclients : added.1.clients = s.server.clients :=
      MediaServer.dynamicAddMedia_clients P.toPlatform
    have hpending : ∀ token' r, s.server.pendingDynMedia.lookup token' = some r →
        added.1.pendingDynMedia.lookup token' = some r := by
      intro token' r hr
      have hne : token' ≠ token := by
        rintro rfl
        exact hfree (AList.lookup_isSome.1 (hr ▸ rfl))
      rw [hdyn, MediaServer.lookup_dynamicAddMedia_ne P.toPlatform hne]
      exact hr
    have hkept := (h.setServer P hplain hpending).dropDeferred P hash
    cases houtcome : added.2 with
    | threw =>
      rw [houtcome] at hadd
      cases hadd
    | refused =>
      rw [houtcome] at hadd
      cases hadd
      exact ⟨⟨hkept.deferred, hkept.localHashes, hkept.entry, hkept.once, hkept.awaiting,
        hkept.ready⟩, hclients⟩
    | added =>
      rw [houtcome] at hadd
      cases hadd
      rcases MediaServer.dynamicAddMedia_added P.toPlatform rfl houtcome with
        ⟨path, hpath, hname, hentry⟩
      rcases push_record P houtcome with ⟨r, hr, htime⟩
      have hnew := h.not_published P (htemp.symm.trans hpath) hname
      have hwaiting : waitingFor added.1 token = r.waitingPlayers := by
        rw [waitingFor, show added.1.pendingDynMedia.lookup token = some r from hr]
        rfl
      have hpublished := hkept.published P hdigest hnew hentry hr htime
      rw [hwaiting]
      exact ⟨⟨hpublished.deferred, hpublished.localHashes, hpublished.entry, hpublished.once,
        hpublished.awaiting, hpublished.ready⟩, hclients⟩

/-! ## The other operations -/

/-- The containers are kept, and the connections have not changed. -/
structure Quiet (clients : Clients) (s : SkinServer Time) : Prop where
  kept : Kept P s
  clients : s.server.clients = clients

variable {cs : Clients}

variable {written : Bytes → Bool} {answers : Bytes → Option HttpAnswer}

section

variable (h : Quiet P cs s)

include h

theorem Quiet.publish (hdigest : hexDigest P data = hash) (hpublish : publish P s hash data = some (t, b)) :
    Quiet P cs t := by
  rcases kept_publish P h.kept hdigest hpublish with ⟨hkept, hclients⟩
  exact ⟨hkept, hclients.trans h.clients⟩

/-- Containers that nothing is asked of may change. -/
theorem Quiet.congr (hserver : t.server = s.server) (hhistory : t.history = s.history)
    (hdeferred : t.skins.deferred = s.skins.deferred) (hlocal : t.skins.localHashes = s.skins.localHashes)
    (hawaiting : t.skins.awaiting = s.skins.awaiting) (hready : t.skins.ready = s.skins.ready) :
    Quiet P cs t := by
  refine ⟨h.kept.congr P ?_ ?_ hhistory hdeferred hlocal hawaiting hready, ?_⟩
  · rw [hserver]
  · rw [hserver]
  · rw [hserver]
    exact h.clients

theorem quiet_want {name : Bytes} (hwant : want P s hash = some (t, name)) : Quiet P cs t := by
  rw [want] at hwant
  split at hwant
  · cases hwant
    exact h
  split at hwant
  · cases hwant
    exact h
  split at hwant
  · cases hwant
    exact h
  split at hwant
  · cases hwant
    exact h
  split at hwant
  case h_1 kept hkept =>
    split at hwant
    · rcases Option.map_eq_some_iff.1 hwant with ⟨⟨u, b⟩, hpublish, heq⟩
      cases heq
      have hdigest := (Option.filter_eq_some_iff.1 hkept).2
      exact h.publish P (of_decide_eq_true hdigest) hpublish
    · cases hwant
      exact h
  case h_2 =>
    split at hwant
    · cases hwant
      exact h.congr P rfl rfl rfl rfl rfl rfl
    · cases hwant
      exact h.congr P rfl rfl rfl rfl rfl rfl

theorem quiet_wantLocalHash {name : Bytes}
    (hlocal : ∃ data, P.picture path = some data ∧ hexDigest P data = hash)
    (hwant : wantLocalHash P s path hash = some (t, name)) : Quiet P cs t := by
  rw [wantLocalHash] at hwant
  split at hwant
  · cases hwant
    exact h
  split at hwant
  · cases hwant
    exact h
  split at hwant
  · cases hwant
    exact h
  rcases hlocal with ⟨data, hpicture, hdigest⟩
  rw [hpicture] at hwant
  dsimp only at hwant
  split at hwant
  · rcases Option.map_eq_some_iff.1 hwant with ⟨⟨u, b⟩, hpublish, heq⟩
    cases heq
    exact h.publish P hdigest hpublish
  · cases hwant
    exact h

theorem quiet_wantLocal {name : Bytes} (hwant : wantLocal P s path = some (t, name)) : Quiet P cs t := by
  rw [wantLocal] at hwant
  split at hwant
  case h_1 hash hlookup =>
    exact quiet_wantLocalHash P h (h.kept.localHashes path hash hlookup) hwant
  case h_2 =>
    split at hwant
    · cases hwant
      exact h
    case h_2 data hpicture =>
      have hknown : Quiet P cs { s with skins := { s.skins with
          localHashes := s.skins.localHashes.insert path (hexDigest P data) } } := by
        refine ⟨⟨h.kept.deferred, ?_, h.kept.entry, h.kept.once, h.kept.awaiting, h.kept.ready⟩,
          h.clients⟩
        exact forall_insert h.kept.localHashes ⟨data, hpicture, rfl⟩
      exact quiet_wantLocalHash P hknown ⟨data, hpicture, rfl⟩ hwant

end

/-- A record that is no longer there is over. -/
theorem Kept.delivered (h : Kept P s) (hlookup : s.skins.awaiting.lookup token = some hash)
    (hover : mediaPending s.server token = false) : Delivered P s.history hash := by
  rcases h.awaiting token hash hlookup with ⟨newer, data, waiting, older, hhistory, hdigest, hstate⟩
  refine ⟨newer, data, token, waiting, older, hhistory, hdigest, ?_⟩
  rcases hstate with hended | ⟨r, hr, -⟩
  · exact hended
  · have hmem : token ∈ s.server.pendingDynMedia := AList.lookup_isSome.1 (hr ▸ rfl)
    exact absurd hmem (of_decide_eq_false hover)

section

variable (h : Quiet P cs s)

include h

theorem quiet_checkToken (token : UInt32) : Quiet P cs (s.checkToken token) := by
  rw [checkToken]
  split
  · exact h
  case h_2 hash hlookup =>
    split
    · exact h
    case isFalse hover =>
      refine ⟨⟨h.kept.deferred, h.kept.localHashes, h.kept.entry, h.kept.once, ?_, ?_⟩, h.clients⟩
      · exact fun token' hash' hlookup' =>
          h.kept.awaiting token' hash' (lookup_of_lookup_erase hlookup').2
      · intro hash' hready
        rcases List.mem_insert_iff.1 hready with rfl | hready
        · exact h.kept.delivered P hlookup (Bool.eq_false_iff.2 hover)
        · exact h.kept.ready hash' hready

theorem quiet_checkDelivered : Quiet P cs (s.checkDelivered P) := by
  rw [checkDelivered]
  generalize P.orderOf s.skins.awaiting.keys = tokens
  induction tokens generalizing s with
  | nil => exact h
  | cons token tokens ih => exact ih (quiet_checkToken P h token)

theorem quiet_pumpClient {p : SessionT} (hpump : pumpClient P s p = some t) : Quiet P cs t := by
  rw [pumpClient] at hpump
  split at hpump
  · rcases Option.map_eq_some_iff.1 hpump with ⟨⟨u, name⟩, hwant, rfl⟩
    exact quiet_wantLocal P h hwant
  · split at hpump
    · cases hpump
      exact h
    · split at hpump
      · cases hpump
        exact h
      · rcases Option.map_eq_some_iff.1 hpump with ⟨⟨u, name⟩, hwant, rfl⟩
        exact quiet_want P h hwant

theorem quiet_pump (hpump : pump P s = some t) : Quiet P cs t := by
  have hstart : Quiet P cs s.setOwner := h.congr P rfl rfl rfl rfl rfl rfl
  exact foldlM_invariant (P := Quiet P cs) (fun s p t hs hround => quiet_pumpClient P hs hround)
    hstart hpump

theorem quiet_publishDeferred (hpublish : publishDeferred P s = some t) : Quiet P cs t := by
  rw [publishDeferred] at hpublish
  split at hpublish
  · have hstart : Quiet P cs { s with skins := { s.skins with deferred := ∅ } } := by
      refine ⟨⟨?_, h.kept.localHashes, h.kept.entry, h.kept.once, h.kept.awaiting, h.kept.ready⟩,
        h.clients⟩
      intro hash data hlookup
      rw [AList.lookup_empty] at hlookup
      cases hlookup
    refine foldlM_invariant (P := Quiet P cs) (fun u hash v hu hround => ?_) hstart hpublish
    split at hround
    · cases hround
      exact hu
    case h_2 data hdata =>
      rcases Option.map_eq_some_iff.1 hround with ⟨⟨w, b⟩, hpublish, rfl⟩
      exact hu.publish P (h.kept.deferred hash data hdata) hpublish
  · cases hpublish
    exact h

theorem quiet_receive (hreceive : receive P answers written s hash = some t) : Quiet P cs t := by
  have hgone : ∀ u : SkinServer Time, Quiet P cs u → Quiet P cs ((u.addMissing hash).dropPending hash) :=
    fun u hu => hu.congr P rfl rfl rfl rfl rfl rfl
  rw [receive] at hreceive
  split at hreceive
  · cases hreceive
    exact h
  case h_2 res _ =>
    split at hreceive
    · cases hreceive
      exact hgone s h
    split at hreceive
    · cases hreceive
      exact hgone s h
    case isFalse hdigest =>
      rcases Option.map_eq_some_iff.1 hreceive with ⟨⟨u, b⟩, hpublish, heq⟩
      have hkeep : Quiet P cs (s.keep P hash res.data (written hash)) := by
        rw [keep]
        split
        · exact ⟨h.kept.setServer P (.of_eq rfl) fun token r hr => hr, h.clients⟩
        · exact h
      have hu := hkeep.publish P (not_not.1 hdigest) hpublish
      dsimp only at heq
      split at heq
      · cases heq
        exact hu.congr P rfl rfl rfl rfl rfl rfl
      · cases heq
        exact hgone u hu

theorem quiet_step (hstep : step P answers written s = some t) : Quiet P cs t := by
  have hstart : Quiet P cs s.setOwner := h.congr P rfl rfl rfl rfl rfl rfl
  rcases Option.bind_eq_some_iff.1 hstep with ⟨u, hpublished, hrest⟩
  rcases Option.bind_eq_some_iff.1 hrest with ⟨v, hpumped, hreceived⟩
  have hu := quiet_publishDeferred P hstart hpublished
  have hv := quiet_pump P (quiet_checkDelivered P hu) hpumped
  exact foldlM_invariant (P := Quiet P cs) (fun s hash t hs hround => quiet_receive P hs hround)
    hv hreceived

end

end

end SkinServer

end Skins
end AxisEngine
