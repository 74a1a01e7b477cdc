import AxisEngine.Lib.Transition
import AxisEngine.Skins.Delivery

/-!
# Worn — what is worn at any time

* `kept_media` — the media and the connections go on around the skins;
* `NamesSafe`, `AnswerFits`, `Refreshed` — the skins in the identities, and what the service says;
* `skins_sound` — along runs.
-/

namespace AxisEngine
namespace Skins

open Lib Login Util DynamicMedia

namespace SkinServer

variable {Time : Type} (P : Outside Time)

section

variable {s t : SkinServer Time} {newer : List (SkinDeed Time)} {token : UInt32}
  {waiting : List SessionT} {p : SessionT} {e : DynamicMedia.Event Time}

/-! ## What goes on in the media -/

theorem timeLeft_acknowledged (tokens : List UInt32) :
    timeLeft P (tokens.map (fun token => .acknowledged token p) ++ newer) = timeLeft P newer := by
  induction tokens with
  | nil => rfl
  | cons token tokens ih => exact ih

theorem not_published_deedsOf (hash : Bytes) {deed : SkinDeed Time} (h : deed ∈ deedsOf s e) :
    isPublished hash deed = false := by
  cases e with
  | haveMedia p data =>
    rw [deedsOf] at h
    split at h
    · split at h
      · cases h
      · rcases List.mem_map.1 h with ⟨token, -, rfl⟩
        rfl
    · cases h
  | stepPending dtime =>
    rw [List.mem_singleton.1 h]
    rfl
  | _ => cases h

variable {dtime : Time} (clients : Clients) {server : MediaServer Time} {answer : Option HttpAnswer}
  {worn : Bytes → Option Bytes}

/-- What a record has become after an event of the media. -/
theorem recordKnows_apply {r : PendingDynamicMediaCallback Time} (hpossible : Possible P s (.media e))
    (h : s.server.apply P.toPlatform e = some server) (hr : s.server.pendingDynMedia.lookup token = some r)
    (hknows : RecordKnows P r newer token waiting) :
    Ended P (deedsOf s e ++ newer) token waiting ∨
      ∃ r', server.pendingDynMedia.lookup token = some r' ∧
        RecordKnows P r' (deedsOf s e ++ newer) token waiting := by
  cases e with
  | addMediaFile filename filepath =>
    cases h
    refine .inr ⟨r, ?_, hknows⟩
    rw [MediaServer.addMediaFile]
    split
    · exact hr
    · exact hr
  | addMediaOfMod a temp =>
    cases h
    have hne : token ≠ a.token := by
      rintro rfl
      exact hpossible (AList.lookup_isSome.1 (hr ▸ rfl))
    refine .inr ⟨r, ?_, hknows⟩
    rw [(MediaServer.addMediaOfMod_frame P.toPlatform).2 token hne]
    exact hr
  | addMediaOfEngine a temp => exact hpossible.elim
  | haveMedia p data =>
    rw [MediaServer.apply] at h
    rw [deedsOf]
    split at h
    case isFalse hadmits =>
      cases h
      rw [if_neg hadmits]
      exact .inr ⟨r, hr, hknows⟩
    case isTrue hadmits =>
      cases h
      rw [if_pos hadmits, MediaServer.handleCommandHaveMedia]
      cases MediaServer.readHaveMedia { rest := data } with
      | error e => exact .inr ⟨r, hr, hknows⟩
      | ok read =>
        rcases MediaServer.record_acknowledgeAll p read.1 hr with
          ⟨r', hr', htimer, hwaiting⟩
        refine .inr ⟨r', hr', ?_, fun q hq => ?_⟩
        · rw [timeLeft_acknowledged, htimer]
          exact hknows.1
        · rcases hknows.2 q hq with hq | hq
          · rcases hwaiting q hq with hq | ⟨rfl, htoken⟩
            · exact .inl hq
            · exact .inr (List.mem_append_left _ (List.mem_map_of_mem htoken))
          · exact .inr (List.mem_append_right _ hq)
  | stepPending dtime =>
    rcases MediaServer.record_stepPending P.toPlatform hr h with hstill | ⟨-, hempty | htime⟩
    · refine .inr ⟨_, hstill, ?_, fun q hq => ?_⟩
      · exact congrArg (P.minus · dtime) hknows.1
      · exact (hknows.2 q hq).imp_right (List.mem_cons_of_mem _)
    · -- nobody was waited for any more
      refine .inl ⟨newer, List.suffix_append _ _, .inl fun q hq => ?_⟩
      rcases hknows.2 q hq with hq | hq
      · rw [hempty] at hq
        cases hq
      · exact hq
    · refine .inl ⟨_, List.suffix_refl _, .inr ?_⟩
      rw [hknows.1] at htime
      exact htime
  | fileChanged path content =>
    cases h
    exact .inr ⟨r, hr, hknows⟩
  | clientsChanged clients players =>
    cases h
    exact .inr ⟨r, hr, hknows⟩
  | envCreated =>
    cases h
    exact .inr ⟨r, hr, hknows⟩
  | httpStarted =>
    cases h
    exact .inr ⟨r, hr, hknows⟩

theorem kept_media (h : Kept P s) (hpossible : Possible P s (.media e))
    (happly : s.server.apply P.toPlatform e = some server) :
    Kept P { s with server := server, history := deedsOf s e ++ s.history } := by
  refine ⟨h.deferred, h.localHashes, ?_, ?_, ?_, ?_⟩
  · intro hash data token waiting hmem
    have hold : .published hash data token waiting ∈ s.history := by
      rcases List.mem_append.1 hmem with hmem | hmem
      · have hnot := not_published_deedsOf hash hmem
        exact absurd rfl (of_decide_eq_false hnot)
      · exact hmem
    rcases h.entry hash data token waiting hold with ⟨info, hinfo, hephemeral⟩
    exact MediaServer.plainKept_apply P.toPlatform happly _ info hinfo hephemeral
  · intro hash
    have hnone : (deedsOf s e).countP (isPublished hash) = 0 := by
      rw [List.countP_eq_zero]
      intro deed hdeed
      rw [not_published_deedsOf hash hdeed]
      exact Bool.false_ne_true
    rw [List.countP_append, hnone, Nat.zero_add]
    exact h.once hash
  · intro token hash hlookup
    refine (h.awaiting token hash hlookup).mono P _ fun r newer waiting hr hknows => ?_
    exact recordKnows_apply P hpossible happly hr hknows
  · exact fun hash hready => (h.ready hash hready).mono P _

/-! ## What the service says -/

/-- Every skin in an identity is one that names can be built out of: no delimiter and no dot is in
it. -/
def NamesSafe (clients : Clients) : Prop :=
  ∀ p c, clients.lookup p = some c →
    SkinOk c.identity.skin ∧ 47 ∉ c.identity.skin ∧ 92 ∉ c.identity.skin ∧ 46 ∉ c.identity.skin

/-- What the service says of those who play is empty or a hash. -/
def AnswerFits (s : SkinServer Time) : Event Time → Prop
  | .stepRefresh _ (some res) =>
    s.settings.avatarsEnabled = true → s.skins.asking = true → res.succeeded = true →
    res.responseCode = 200 → ∀ worn, P.readSkins res.data = some worn →
    ∀ p ∈ getClientIDs s.server.clients, ∀ id, getClientIdentity s.server.clients p = some id →
    id.uid ≠ [] → ∀ now, worn id.uid = some now → SkinOk now
  | _ => True

theorem getClientIdentity_eq (p : SessionT) :
    getClientIdentity clients p = (clients.lookup p).map fun c => c.identity := by
  have hall : clients.getClientNoEx p .invalid = clients.lookup p := by
    rw [Clients.getClientNoEx]
    cases clients.lookup p with
    | none => rfl
    | some c =>
      have hle : ClientState.invalid ≤ c.state := Nat.zero_le c.state.toNat
      rw [Option.filter_some, if_pos (decide_eq_true hle)]
  rw [getClientIdentity, hall]

theorem mem_getClientIDs {clients : Clients} : p ∈ getClientIDs clients ↔
    ∃ c, clients.lookup p = some c ∧ ClientState.active ≤ c.state := by
  rw [getClientIDs, List.mem_map]
  refine ⟨?_, ?_⟩
  · rintro ⟨⟨q, c⟩, hmem, rfl⟩
    rcases List.mem_filter.1 hmem with ⟨hmem, hactive⟩
    exact ⟨c, AList.mem_lookup_iff.2 hmem, of_decide_eq_true hactive⟩
  · rintro ⟨c, hc, hactive⟩
    exact ⟨⟨p, c⟩, List.mem_filter.2 ⟨AList.mem_lookup_iff.1 hc, decide_eq_true hactive⟩, rfl⟩

theorem nodup_getClientIDs : (getClientIDs clients).Nodup :=
  (List.Sublist.map Sigma.fst List.filter_sublist).nodup clients.nodupKeys

/-- What a round makes of a client. -/
def Refreshed (worn : Bytes → Option Bytes) (c c' : RemoteClient) : Prop :=
  c.identity.uid = [] ∧ c' = c ∨
    c.identity.uid ≠ [] ∧ ∃ now, worn c.identity.uid = some now ∧ c'.identity.skin = now

/-- Only the connections have changed. -/
structure ClientsOnly (s t : SkinServer Time) : Prop where
  media : t.server.media = s.server.media
  pending : t.server.pendingDynMedia = s.server.pendingDynMedia
  history : t.history = s.history
  skins : t.skins = s.skins

theorem Kept.clientsOnly (h : Kept P s) (hsame : ClientsOnly s t) : Kept P t := by
  refine h.congr P hsame.media hsame.pending hsame.history ?_ ?_ ?_ ?_
  · rw [hsame.skins]
  · rw [hsame.skins]
  · rw [hsame.skins]
  · rw [hsame.skins]

theorem refreshClient_spec {c : RemoteClient} (hc : s.server.clients.lookup p = some c)
    (hactive : ClientState.active ≤ c.state) (h : refreshClient worn s p = some t) : ClientsOnly s t ∧
      (∀ q, q ≠ p → t.server.clients.lookup q = s.server.clients.lookup q) ∧
      ∃ c', t.server.clients.lookup p = some c' ∧ Refreshed worn c c' := by
  rw [refreshClient, getClientIdentity_eq, hc] at h
  dsimp only [Option.map_some] at h
  split at h
  case isTrue huid =>
    cases h
    exact ⟨⟨rfl, rfl, rfl, rfl⟩, fun q _ => rfl, c, hc, .inl ⟨huid, rfl⟩⟩
  case isFalse huid =>
    rcases Option.map_eq_some_iff.1 h with ⟨now, hnow, heq⟩
    have hget : s.server.clients.getClientNoEx p .active = some c :=
      Clients.getClientNoEx_eq_some.2 ⟨hc, hactive⟩
    split at heq
    case isTrue hsame =>
      cases heq
      exact ⟨⟨rfl, rfl, rfl, rfl⟩, fun q _ => rfl, c, hc, .inr ⟨huid, now, hnow, hsame.symm⟩⟩
    case isFalse hsame =>
      rw [setClientSkin, hget] at heq
      dsimp only at heq
      rw [if_neg (Ne.symm hsame)] at heq
      cases heq
      exact ⟨⟨rfl, rfl, rfl, rfl⟩, fun q hq => AList.lookup_insert_ne hq, _,
        AList.lookup_insert _, .inr ⟨huid, now, hnow, rfl⟩⟩

theorem refreshClients_spec {ps : List SessionT} (hnodup : ps.Nodup)
    (hactive : ∀ p ∈ ps, ∃ c, s.server.clients.lookup p = some c ∧ ClientState.active ≤ c.state)
    (h : ps.foldlM (refreshClient worn) s = some t) : ClientsOnly s t ∧
      (∀ q, q ∉ ps → t.server.clients.lookup q = s.server.clients.lookup q) ∧
      ∀ p ∈ ps, ∀ c, s.server.clients.lookup p = some c →
        ∃ c', t.server.clients.lookup p = some c' ∧ Refreshed worn c c' := by
  induction ps generalizing s with
  | nil =>
    cases h
    exact ⟨⟨rfl, rfl, rfl, rfl⟩, fun q _ => rfl, fun p hp => absurd hp List.not_mem_nil⟩
  | cons p ps ih =>
    rw [List.foldlM_cons] at h
    rcases Option.bind_eq_some_iff.1 h with ⟨u, hround, hrest⟩
    rcases List.forall_mem_cons.1 hactive with ⟨⟨c, hc, hcactive⟩, hactive⟩
    rcases List.nodup_cons.1 hnodup with ⟨hp, hnodup⟩
    rcases refreshClient_spec hc hcactive hround with ⟨hsame, hothers, c', hc', hrefreshed⟩
    have hactive' : ∀ q ∈ ps, ∃ c, u.server.clients.lookup q = some c ∧
        ClientState.active ≤ c.state := by
      intro q hq
      rw [hothers q (ne_of_mem_of_not_mem hq hp)]
      exact hactive q hq
    rcases ih hnodup hactive' hrest with ⟨hsame', hothers', hdone⟩
    refine ⟨⟨hsame'.media.trans hsame.media, hsame'.pending.trans hsame.pending,
      hsame'.history.trans hsame.history, hsame'.skins.trans hsame.skins⟩, ?_, ?_⟩
    · intro q hq
      rw [List.mem_cons, not_or] at hq
      rw [hothers' q hq.2, hothers q hq.1]
    · refine List.forall_mem_cons.2 ⟨?_, ?_⟩
      · intro c₀ hc₀
        rw [hc] at hc₀
        cases hc₀
        exact ⟨c', (hothers' p hp).trans hc', hrefreshed⟩
      · intro q hq c₀ hc₀
        refine hdone q hq c₀ ?_
        rw [hothers q (ne_of_mem_of_not_mem hq hp)]
        exact hc₀

theorem namesSafe_of_skinOk {clients : Clients}
    (h : ∀ p c, clients.lookup p = some c → SkinOk c.identity.skin) : NamesSafe clients :=
  fun p c hc => ⟨h p c hc, (h p c hc).no_delimiter⟩

/-- An answer either says nothing, or goes round the players. -/
theorem stepRefresh_cases (h : stepRefresh P s dtime answer = some t) :
    t.server = s.server ∧ t.history = s.history ∧ (∃ askIn asking,
        t.skins = { s.skins with askIn := askIn, asking := asking }) ∧
        AnswerFits P s (.stepRefresh dtime answer) ∨
      ∃ res worn, answer = some res ∧ s.settings.avatarsEnabled = true ∧ s.skins.asking = true ∧
        res.succeeded = true ∧ res.responseCode = 200 ∧ P.readSkins res.data = some worn ∧
        (P.orderOf (getClientIDs s.server.clients)).foldlM (refreshClient worn)
          (s.setAsk s.skins.askIn false) = some t := by
  unfold stepRefresh at h
  split at h
  case isTrue hoff =>
    cases h
    refine .inl ⟨rfl, rfl, ⟨s.skins.askIn, s.skins.asking, rfl⟩, ?_⟩
    cases answer with
    | none => trivial
    | some res =>
      intro hon
      rw [hoff] at hon
      cases hon
  case isFalse hon =>
    split at h
    case isTrue hasking =>
      cases answer with
      | none =>
        cases h
        exact .inl ⟨rfl, rfl, ⟨s.skins.askIn, s.skins.asking, rfl⟩, trivial⟩
      | some res =>
        dsimp only at h
        rw [takeAnswer] at h
        split at h
        case isTrue hfailed =>
          cases h
          refine .inl ⟨rfl, rfl, ⟨s.skins.askIn, false, rfl⟩, ?_⟩
          intro _ _ hsucceeded hcode
          rcases hfailed with hfailed | hfailed
          · exact absurd hsucceeded hfailed
          · exact absurd hcode hfailed
        case isFalse hok =>
          rw [not_or, not_not, not_not] at hok
          split at h
          case h_1 hread =>
            cases h
            refine .inl ⟨rfl, rfl, ⟨s.skins.askIn, false, rfl⟩, ?_⟩
            intro _ _ _ _ worn hworn
            rw [hread] at hworn
            cases hworn
          case h_2 worn hread =>
            refine .inr ⟨res, worn, rfl, ?_, hasking, hok.1, hok.2, hread, h⟩
            exact (Bool.eq_false_or_eq_true _).resolve_right hon
    case isFalse hasking =>
      have hfits : AnswerFits P s (.stepRefresh dtime answer) := by
        cases answer with
        | none => trivial
        | some res => exact fun _ hasking' => absurd hasking' hasking
      dsimp only at h
      split at h
      · cases h
        exact .inl ⟨rfl, rfl, ⟨_, _, rfl⟩, hfits⟩
      split at h
      · cases h
        exact .inl ⟨rfl, rfl, ⟨_, _, rfl⟩, hfits⟩
      · cases h
        exact .inl ⟨rfl, rfl, ⟨_, _, rfl⟩, hfits⟩

/-- The players that an answer goes round. -/
theorem refreshed_clients
    (h : (P.orderOf (getClientIDs s.server.clients)).foldlM (refreshClient worn)
      (s.setAsk s.skins.askIn false) = some t) :
    ClientsOnly (s.setAsk s.skins.askIn false) t ∧
      (∀ q, q ∉ getClientIDs s.server.clients →
        t.server.clients.lookup q = s.server.clients.lookup q) ∧
      ∀ p ∈ getClientIDs s.server.clients, ∀ c, s.server.clients.lookup p = some c →
        ∃ c', t.server.clients.lookup p = some c' ∧ Refreshed worn c c' := by
  have hperm := P.orderOf_perm (getClientIDs s.server.clients)
  have hspec := refreshClients_spec (s := s.setAsk s.skins.askIn false) (hperm.nodup_iff.2 (nodup_getClientIDs _))
    (fun p hp => mem_getClientIDs.1 (hperm.mem_iff.1 hp)) h
  refine ⟨hspec.1, fun q hq => ?_, fun p hp => ?_⟩
  · exact hspec.2.1 q fun hmem => hq (hperm.mem_iff.1 hmem)
  · exact hspec.2.2 p (hperm.mem_iff.2 hp)

theorem kept_stepRefresh (h : Kept P s) (hrefresh : stepRefresh P s dtime answer = some t) : Kept P t := by
  rcases stepRefresh_cases P hrefresh with ⟨hserver, hhistory, ⟨askIn, asking, hskins⟩, -⟩ |
    ⟨res, worn, -, -, -, -, -, -, hround⟩
  · refine h.congr P ?_ ?_ hhistory ?_ ?_ ?_ ?_
    · rw [hserver]
    · rw [hserver]
    · rw [hskins]
    · rw [hskins]
    · rw [hskins]
    · rw [hskins]
  · refine Kept.clientsOnly P ?_ (refreshed_clients P hround).1
    exact h.congr P rfl rfl rfl rfl rfl rfl rfl

/-! ## One step -/

theorem skinOk_of_identityFrom {old : Option TicketIdentity} {id : TicketIdentity}
    (h : IdentityFrom P old id) (hold : ∀ id₀, old = some id₀ → SkinOk id₀.skin) :
    SkinOk id.skin := by
  induction h with
  | new => exact .inl rfl
  | same hsame => exact hold _ hsame
  | ticket hticket => exact checkTicket_skin hticket
  | display _ _ ih => exact ih

theorem kept_apply {e : Event Time} (h : Kept P s) (hpossible : Possible P s e)
    (happly : s.apply P e = some t) : Kept P t := by
  have hquiet : Quiet P s.server.clients s := ⟨h, rfl⟩
  cases e with
  | media e =>
    rcases Option.map_eq_some_iff.1 happly with ⟨server, hserver, rfl⟩
    exact kept_media P h hpossible hserver
  | want hash =>
    rcases Option.map_eq_some_iff.1 happly with ⟨⟨u, name⟩, hwant, rfl⟩
    exact (quiet_want P hquiet hwant).kept
  | wantLocal path =>
    rcases Option.map_eq_some_iff.1 happly with ⟨⟨u, name⟩, hwant, rfl⟩
    exact (quiet_wantLocal P hquiet hwant).kept
  | step answers written => exact (quiet_step P hquiet happly).kept
  | stepRefresh dtime answer => exact kept_stepRefresh P h happly
  | settingsChanged settings =>
    cases happly
    exact h.congr P rfl rfl rfl rfl rfl rfl rfl

theorem namesSafe_apply {e : Event Time} (h : Kept P s) (hnames : NamesSafe s.server.clients)
    (hpossible : Possible P s e) (hfits : AnswerFits P s e) (happly : s.apply P e = some t) :
    NamesSafe t.server.clients := by
  have hquiet : Quiet P s.server.clients s := ⟨h, rfl⟩
  cases e with
  | media e =>
    rcases Option.map_eq_some_iff.1 happly with ⟨server, hserver, rfl⟩
    by_cases hchanged : ∃ clients players, e = .clientsChanged clients players
    · rcases hchanged with ⟨clients, players, rfl⟩
      cases hserver
      refine namesSafe_of_skinOk fun p c hc => ?_
      refine skinOk_of_identityFrom P (hpossible p c hc) fun id₀ hid₀ => ?_
      rw [getClientIdentity_eq] at hid₀
      rcases Option.map_eq_some_iff.1 hid₀ with ⟨c₀, hc₀, rfl⟩
      exact (hnames p c₀ hc₀).1
    · have hsame := MediaServer.apply_clients P.toPlatform hserver
        fun clients players heq => hchanged ⟨clients, players, heq⟩
      rw [show ({ s with server := server, history := deedsOf s e ++ s.history } :
        SkinServer Time).server.clients = s.server.clients from hsame]
      exact hnames
  | want hash =>
    rcases Option.map_eq_some_iff.1 happly with ⟨⟨u, name⟩, hwant, rfl⟩
    rw [(quiet_want P hquiet hwant).clients]
    exact hnames
  | wantLocal path =>
    rcases Option.map_eq_some_iff.1 happly with ⟨⟨u, name⟩, hwant, rfl⟩
    rw [(quiet_wantLocal P hquiet hwant).clients]
    exact hnames
  | step answers written =>
    rw [(quiet_step P hquiet happly).clients]
    exact hnames
  | stepRefresh dtime answer =>
    rcases stepRefresh_cases P happly with ⟨hserver, -⟩ |
      ⟨res, worn, rfl, hon, hasking, hsucceeded, hcode, hread, hround⟩
    · rw [hserver]
      exact hnames
    · rcases refreshed_clients P hround with ⟨-, hothers, hdone⟩
      refine namesSafe_of_skinOk fun p c hc => ?_
      by_cases hp : p ∈ getClientIDs s.server.clients
      · rcases mem_getClientIDs.1 hp with ⟨c₀, hc₀, -⟩
        rcases hdone p hp c₀ hc₀ with ⟨c', hc', hrefreshed⟩
        rw [hc] at hc'
        cases hc'
        rcases hrefreshed with ⟨-, rfl⟩ | ⟨huid, now, hnow, hskin⟩
        · exact (hnames p c hc₀).1
        · rw [hskin]
          refine hfits hon hasking hsucceeded hcode worn hread p hp c₀.identity ?_ huid now hnow
          rw [getClientIdentity_eq, hc₀]
          rfl
      · rw [hothers p hp] at hc
        exact (hnames p c hc).1
  | settingsChanged settings =>
    cases happly
    exact hnames

theorem not_namesSafe_apply {e : Event Time} (hfits : ¬ AnswerFits P s e)
    (happly : s.apply P e = some t) : ¬ NamesSafe t.server.clients := by
  intro hsafe
  refine hfits ?_
  cases e with
  | stepRefresh dtime answer =>
    rcases stepRefresh_cases P happly with ⟨-, -, -, hfits'⟩ |
      ⟨res, worn, rfl, -, -, -, -, hread, hround⟩
    · exact hfits'
    · rcases refreshed_clients P hround with ⟨-, -, hdone⟩
      intro _ _ _ _ worn' hworn' p hp id hid huid now hnow
      rw [hread] at hworn'
      cases hworn'
      rw [getClientIdentity_eq] at hid
      rcases Option.map_eq_some_iff.1 hid with ⟨c, hc, rfl⟩
      rcases hdone p hp c hc with ⟨c', hc', ⟨hempty, -⟩ | ⟨-, now', hnow', hskin⟩⟩
      · exact absurd hempty huid
      · rw [hnow] at hnow'
        cases hnow'
        rw [← hskin]
        exact (hsafe p c' hc').1
  | _ => trivial

end

theorem kept_initial : Kept P (initial P) := by
  refine ⟨?_, ?_, ?_, fun _ => Nat.zero_le 1, ?_, ?_⟩
  · exact fun hash data hlookup => by cases hlookup
  · exact fun path hash hlookup => by cases hlookup
  · exact fun hash data token waiting hmem => absurd hmem List.not_mem_nil
  · exact fun token hash hlookup => by cases hlookup
  · exact fun hash hready => absurd hready List.not_mem_nil

end SkinServer

open SkinServer

/-! ## Whole runs -/

/-- A skin is worn only when media published from its bytes has been delivered, and nothing is
published twice; the skins of the identities are fit for names all along exactly if the answers of
the service are. -/
theorem skins_sound {Time : Type} (P : Outside Time) {es : List (Event Time)} {s : SkinServer Time}
    (h : Run (Step P) (initial P) es s) :
    (∀ hash, s.worn hash ≠ [] → Delivered P s.history hash) ∧
      (∀ hash, s.history.countP (isPublished hash) ≤ 1) ∧
      (Run.Guarded (AnswerFits P) (Step P) (initial P) es s ↔
        Run (fun s e t => Step P s e t ∧ NamesSafe t.server.clients) (initial P) es s) := by
  have hstep : ∀ s e t, Kept P s → Step P s e t → Kept P t := by
    intro s e t hs hst
    cases hst with
    | apply hpossible happly => exact kept_apply P hs hpossible happly
  have hkept := Run.invariant hstep h (kept_initial P)
  refine ⟨fun hash hworn => hkept.ready hash ?_, hkept.once, ?_⟩
  · by_contra hnot
    exact hworn (if_neg hnot)
  · refine Run.guarded_iff_along (fun s a t hq _ => hstep s a t hq) ?_ ?_ (kept_initial P) ?_
    · intro s e t hs hnames hfits hst
      cases hst with
      | apply hpossible happly => exact namesSafe_apply P hs hnames hpossible hfits happly
    · intro s e t _ _ hfits hst
      cases hst with
      | apply _ happly => exact not_namesSafe_apply P hfits happly
    · intro p c hc
      cases hc

/-- A path that is longer than the others together. -/
def longerPath (paths : List Bytes) : Bytes :=
  ascii "/tmp/" ++ List.replicate paths.flatten.length 116

theorem longerPath_new (paths : List Bytes) : longerPath paths ∉ paths := by
  intro hmem
  have hle := (List.sublist_flatten_of_mem hmem).length_le
  rw [longerPath, List.length_append, List.length_replicate] at hle
  exact absurd hle (by simp [ascii])

/-- The payload of a ticket for one user, and what follows from it. -/
def oneTicket : TicketReader where
  base64urlDecode := fun encoded =>
    if encoded = ascii "c2ln" then ascii "sig"
    else ascii "\x7b\"uid\":\"u\",\"login\":\"bob\",\"srv\":\"s\",\"exp\":9\x7d"
  verify := fun _ _ => true
  readPayload := fun _ =>
    some { uid := ascii "u", login := ascii "bob", srv := ascii "s", exp := 9 }

/-- SHA-256 of the one byte in question; the service has a path for a skin. -/
def oneMachine : Outside Int where
  toPlatform := oneFile
  sha256 := fun _ => [0x2d, 0x71, 0x16, 0x42, 0xb7, 0x26, 0xb0, 0x44, 0x01, 0x62, 0x7c, 0xa9, 0xfb,
    0xac, 0x32, 0xf5, 0xc8, 0x53, 0x0f, 0xb1, 0x90, 0x3c, 0xc4, 0xdb, 0x02, 0x25, 0x87, 0x17, 0x92,
    0x1a, 0x48, 0x81]
  length_sha256 := fun _ => rfl
  tickets := oneTicket
  picture := fun _ => none
  pathCache := ascii "/c"
  tempFile := fun _ paths => some (longerPath paths)
  tempFile_new := by
    rintro _ paths path heq
    cases heq
    exact longerPath_new paths
  readSkins := fun _ => some fun uid => some (if uid = ascii "u" then ascii "../x" else [])
  zero := 0
  positive := fun time => decide (0 < time)
  askEvery := 30
  orderOf := id
  orderOf_perm := fun keys => List.Perm.refl keys

def xHash : Bytes :=
  ascii "2d711642b726b04401627ca9fbac32f5c8530fb1903cc4db02258717921a4881"

/-- A picture of the cache goes all the way. -/
def fromTheCache : List (Event Int) :=
  [.media (.fileChanged (ascii "/c/skins/" ++ xHash ++ ascii ".png") (some (ascii "x"))),
    .step (fun _ => none) (fun _ => true), .want xHash, .media (.stepPending 5),
    .step (fun _ => none) (fun _ => true)]

theorem fromTheCache_worn : ∃ s, Run (Step oneMachine) (initial oneMachine) fromTheCache s ∧
    s.worn xHash = mediaName xHash ∧ Delivered oneMachine s.history xHash := by
  have hrun : ∃ s, Run (Step oneMachine) (initial oneMachine) fromTheCache s ∧
      s.worn xHash = mediaName xHash := by
    refine ⟨_, .cons (.apply trivial rfl) <| .cons (.apply trivial rfl) <|
      .cons (.apply trivial rfl) <| .cons (.apply trivial rfl) <| .cons (.apply trivial rfl) <|
      .nil _, ?_⟩
    rfl
  rcases hrun with ⟨s, hrun, hworn⟩
  refine ⟨s, hrun, hworn, (skins_sound oneMachine hrun).1 xHash ?_⟩
  rw [hworn]
  exact List.ne_nil_of_length_pos (by decide)

/-- The one player, who came with the ticket. -/
def bob : RemoteClient where
  state := .active
  name := ascii "bob"
  identity := { uid := ascii "u", login := ascii "bob", display := ascii "bob", expires := 9 }

theorem bob_identity : IdentityFrom oneMachine none bob.identity := by
  have hticket : checkTicket oneTicket 0
      (ascii "a1.eyJ1aWQiOiJ1IiwibG9naW4iOiJib2IiLCJzcnYiOiJzIiwiZXhwIjo5fQ.c2ln") (ascii "bob")
      (ascii "s") = .ok bob.identity := rfl
  exact .ticket hticket

/-- The service is asked what is worn, and answers. -/
def wornByService : List (Event Int) :=
  [.media (.clientsChanged ((∅ : Clients).insert 2 bob) fun _ => none),
    .settingsChanged { authUrl := ascii "http://a", authToken := ascii "t" },
    .stepRefresh 1 none, .stepRefresh 1 (some ⟨true, 200, ascii "..."⟩)]

/-- The skin of the player is a path. -/
theorem wornByService_path : ∃ s, Run (Step oneMachine) (initial oneMachine) wornByService s ∧
    (getClientIdentity s.server.clients 2).map (fun id => id.skin) = some (ascii "../x") ∧
    ¬ NamesSafe s.server.clients := by
  have hrun : ∃ s, Run (Step oneMachine) (initial oneMachine) wornByService s ∧
      (getClientIdentity s.server.clients 2).map (fun id => id.skin) = some (ascii "../x") := by
    refine ⟨_, .cons (.apply ?_ rfl) <| .cons (.apply trivial rfl) <|
      .cons (.apply trivial rfl) <| .cons (.apply trivial rfl) <| .nil _, ?_⟩
    · intro p c hc
      by_cases hp : p = 2
      · subst hp
        rw [AList.lookup_insert] at hc
        cases hc
        exact bob_identity
      · rw [AList.lookup_insert_ne hp] at hc
        cases hc
    · rfl
  rcases hrun with ⟨s, hrun, hskin⟩
  refine ⟨s, hrun, hskin, fun hsafe => ?_⟩
  rw [getClientIdentity_eq] at hskin
  cases hc : s.server.clients.lookup 2 with
  | none =>
    rw [hc] at hskin
    cases hskin
  | some c =>
    rw [hc] at hskin
    have hpath : c.identity.skin = ascii "../x" := Option.some.inj hskin
    have hdelimiter := (hsafe 2 c hc).2.1
    rw [hpath] at hdelimiter
    exact hdelimiter (by decide)

end Skins
end AxisEngine
