import AxisEngine.DynamicMedia.HttpMirror
import AxisEngine.DynamicMedia.Ownership

/-!
# Callbacks — who is called back, and when the callback is freed

The callback of a call is put down before it and freed with the record, or at once if the call is
refused.  It is called for a peer when the peer acknowledges what was pushed to it.

* `CallsWell` — the calls, against what was pushed and freed before;
* `Answered` — the callbacks are accounted for, but for one whose call is under way;
* `Sound` — what should hold of the media at any time;
* `media_settled` — along runs.
-/

namespace AxisEngine
namespace DynamicMedia

open Lib Login Media Util

/-- Each call is to one whom the file was pushed to, for the first time, and before the callback is
freed. -/
def CallsWell : List Deed → Prop
  | [] => True
  | .called token p :: older =>
    (.pushed token p ∈ older ∧ .freed token ∉ older ∧ .called token p ∉ older) ∧ CallsWell older
  | _ :: older => CallsWell older

def Deed.token : Deed → UInt32
  | .registered token | .pushed token _ | .called token _ | .freed token => token

section

variable {log : List Deed} {token : UInt32} {l : List SessionT}

theorem callsWell_pushed : CallsWell (l.map (.pushed token) ++ log) ↔ CallsWell log := by
  induction l with
  | nil => exact Iff.rfl
  | cons p l ih => exact ih

theorem callsWell_called (hnodup : l.Nodup) (hpushed : ∀ p ∈ l, .pushed token p ∈ log)
    (hfreed : .freed token ∉ log) (hcalled : ∀ p ∈ l, .called token p ∉ log) (h : CallsWell log) :
    CallsWell (l.map (.called token) ++ log) := by
  induction l with
  | nil => exact h
  | cons p l ih =>
    rw [List.nodup_cons] at hnodup
    rw [List.forall_mem_cons] at hpushed hcalled
    refine ⟨⟨List.mem_append_right _ hpushed.1, ?_, ?_⟩, ih hnodup.2 hpushed.2 hcalled.2⟩
    · intro hmem
      rcases List.mem_append.1 hmem with hmem | hmem
      · rcases List.mem_map.1 hmem with ⟨q, -, hq⟩
        cases hq
      · exact hfreed hmem
    · intro hmem
      rcases List.mem_append.1 hmem with hmem | hmem
      · rcases List.mem_map.1 hmem with ⟨q, hql, hq⟩
        cases hq
        exact hnodup.1 hql
      · exact hcalled.1 hmem

/-- Deeds of another kind do not count. -/
theorem count_map_append {f : SessionT → Deed} {deed : Deed} (hf : ∀ p, f p ≠ deed) :
    (l.map f ++ log).count deed = log.count deed := by
  have hnot : deed ∉ l.map f := by
    intro hmem
    rcases List.mem_map.1 hmem with ⟨p, -, hp⟩
    exact hf p hp
  rw [List.count_append, List.count_eq_zero_of_not_mem hnot, Nat.zero_add]

end

namespace MediaServer

variable {Time : Type} (P : Platform Time)

/-- A callback belongs to the record of its token. -/
def held (s : MediaServer Time) (token : UInt32) : Nat :=
  if token ∈ s.pendingDynMedia ∧ s.isEngineMediaToken token = false then 1 else 0

/-- The callbacks are accounted for; `out` is the one of a call that is under way. -/
structure Answered (s : MediaServer Time) (out : Option UInt32) : Prop where
  pendingUsed : ∀ token, token ∈ s.pendingDynMedia → token ∈ s.usedTokens
  engineUsed : ∀ token ∈ s.engineMediaTokens, token ∈ s.usedTokens
  logUsed : ∀ deed ∈ s.log, deed.token ∈ s.usedTokens
  callback : ∀ token, s.log.count (.registered token) =
    s.log.count (.freed token) + s.held token + if out = some token then 1 else 0
  once : ∀ token, s.log.count (.registered token) ≤ 1
  waiting : ∀ token r, s.pendingDynMedia.lookup token = some r → ∀ p ∈ r.waitingPlayers,
    .pushed token p ∈ s.log ∧ .called token p ∉ s.log
  calls : CallsWell s.log

section

variable {s : MediaServer Time} {out : Option UInt32} {token : UInt32} {a : DynamicMediaArgs}
  {filename filepath filedata : Bytes} {temp : Option Bytes}

theorem held_of_engine (h : s.isEngineMediaToken token = true) : s.held token = 0 := by
  refine if_neg fun hheld => ?_
  rw [h] at hheld
  cases hheld.2

theorem held_of_not_mem (h : token ∉ s.pendingDynMedia) : s.held token = 0 :=
  if_neg fun hheld => h hheld.1

theorem held_of_mem (h : token ∈ s.pendingDynMedia) (hengine : s.isEngineMediaToken token = false) :
    s.held token = 1 :=
  if_pos ⟨h, hengine⟩

variable {how : Delivery} {p : SessionT} {t : MediaServer Time}

theorem held_congr (hmem : token ∈ t.pendingDynMedia ↔ token ∈ s.pendingDynMedia)
    (hengine : t.isEngineMediaToken token = s.isEngineMediaToken token) : t.held token = s.held token := by
  rw [held, held, hengine]
  exact if_congr (and_congr_left' hmem) rfl rfl

/-- What concerns the callbacks, and the connections, has not changed. -/
structure SameCalls (s t : MediaServer Time) : Prop where
  pending : t.pendingDynMedia = s.pendingDynMedia
  engine : t.engineMediaTokens = s.engineMediaTokens
  used : t.usedTokens = s.usedTokens
  log : t.log = s.log
  clients : t.clients = s.clients

theorem Answered.congr (h : s.Answered out) (hsame : SameCalls s t) : t.Answered out := by
  rcases hsame with ⟨hpending, hengine, hused, hlog, -⟩
  refine ⟨?_, ?_, ?_, ?_, ?_, ?_, ?_⟩
  · rw [hpending, hused]
    exact h.pendingUsed
  · rw [hengine, hused]
    exact h.engineUsed
  · rw [hlog, hused]
    exact h.logUsed
  · intro token
    rw [hlog, held, isEngineMediaToken, hpending, hengine]
    exact h.callback token
  · rw [hlog]
    exact h.once
  · rw [hpending, hlog]
    exact h.waiting
  · rw [hlog]
    exact h.calls

theorem Answered.use (h : s.Answered out) (token : UInt32) :
    Answered { s with usedTokens := token :: s.usedTokens } out where
  pendingUsed := fun t ht => List.mem_cons_of_mem _ (h.pendingUsed t ht)
  engineUsed := fun t ht => List.mem_cons_of_mem _ (h.engineUsed t ht)
  logUsed := fun deed hdeed => List.mem_cons_of_mem _ (h.logUsed deed hdeed)
  callback := h.callback
  once := h.once
  waiting := h.waiting
  calls := h.calls

theorem Answered.count_eq_zero (h : s.Answered out) {deed : Deed}
    (hnew : deed.token ∉ s.usedTokens) : s.log.count deed = 0 :=
  List.count_eq_zero_of_not_mem fun hmem => hnew (h.logUsed deed hmem)

/-- Nobody has freed the callback of a record. -/
theorem Answered.not_freed (h : s.Answered out) (hpending : token ∈ s.pendingDynMedia)
    (hengine : s.isEngineMediaToken token = false) : .freed token ∉ s.log := by
  have hcallback := h.callback token
  have honce := h.once token
  rw [held, if_pos ⟨hpending, hengine⟩] at hcallback
  have hzero : s.log.count (.freed token) = 0 := by
    omega
  exact List.count_eq_zero.1 hzero

/-! ## The push -/

theorem mem_recipients (h : p ∈ s.recipients a how) :
    ∃ c, s.clients.lookup p = some c ∧ s.delivery a p c = how := by
  rw [recipients] at h
  split at h
  · rcases List.mem_map.1 h with ⟨client, hclient, rfl⟩
    rcases List.mem_filter.1 hclient with ⟨hmem, hhow⟩
    exact ⟨client.2, AList.mem_lookup_iff.2 hmem, of_decide_eq_true hhow⟩
  · exact absurd h List.not_mem_nil

theorem nodup_recipients : (s.recipients a how).Nodup := by
  rw [recipients]
  split
  · have hsub : ((s.clients.entries.filter fun client =>
        s.delivery a client.1 client.2 = how).map Sigma.fst).Sublist
        (s.clients.entries.map Sigma.fst) := List.filter_sublist.map _
    exact hsub.nodup s.clients.nodupKeys
  · exact List.nodup_nil

theorem not_mem_recipients {how how' : Delivery} (hne : how ≠ how') (h : p ∈ s.recipients a how) :
    p ∉ s.recipients a how' := by
  intro h'
  rcases mem_recipients h with ⟨c, hc, hhow⟩
  rcases mem_recipients h' with ⟨c', hc', hhow'⟩
  rw [hc] at hc'
  cases hc'
  exact hne (hhow.symm.trans hhow')

/-- The log of a push: the file goes out, and those who have it at once are reported. -/
theorem push_log : (s.push P a filename).log =
    if s.isEngineMediaToken a.token then
      (s.recipients a .legacy ++ s.recipients a .asked).map (.pushed a.token) ++ s.log
    else ((s.recipients a .legacy).filter fun p => (s.players p).isSome).map (.called a.token) ++
      ((s.recipients a .legacy ++ s.recipients a .asked).map (.pushed a.token) ++ s.log) := by
  rw [push]

theorem mem_push_log {deed : Deed} : deed ∈ (s.push P a filename).log →
    deed ∈ s.log ∨ (∃ p, deed = .pushed a.token p) ∨
      ∃ p ∈ s.recipients a .legacy, deed = .called a.token p := by
  rw [push_log]
  intro h
  split at h
  case isTrue =>
    rcases List.mem_append.1 h with h | h
    · rcases List.mem_map.1 h with ⟨p, -, rfl⟩
      exact .inr (.inl ⟨p, rfl⟩)
    · exact .inl h
  case isFalse =>
    rcases List.mem_append.1 h with h | h
    · rcases List.mem_map.1 h with ⟨p, hp, rfl⟩
      exact .inr (.inr ⟨p, (List.mem_filter.1 hp).1, rfl⟩)
    · rcases List.mem_append.1 h with h | h
      · rcases List.mem_map.1 h with ⟨p, -, rfl⟩
        exact .inr (.inl ⟨p, rfl⟩)
      · exact .inl h

theorem pushed_mem_push_log (hp : p ∈ s.recipients a .legacy ++ s.recipients a .asked) :
    .pushed a.token p ∈ (s.push P a filename).log := by
  have hmem : .pushed a.token p ∈
      (s.recipients a .legacy ++ s.recipients a .asked).map (.pushed a.token) ++ s.log :=
    List.mem_append_left _ (List.mem_map.2 ⟨p, hp, rfl⟩)
  rw [push_log]
  split
  · exact hmem
  · exact List.mem_append_right _ hmem

theorem count_push_log {deed : Deed} (hpushed : ∀ p, .pushed a.token p ≠ deed)
    (hcalled : ∀ p, .called a.token p ≠ deed) :
    (s.push P a filename).log.count deed = s.log.count deed := by
  rw [push_log]
  split
  · rw [count_map_append hpushed]
  · rw [count_map_append hcalled, count_map_append hpushed]

/-- The record of a call that was under way takes its callback over. -/
theorem Answered.push (h : s.Answered out) (hused : a.token ∈ s.usedTokens)
    (hnew : s.pendingDynMedia.lookup a.token = none)
    (hlog : ∀ deed ∈ s.log, deed.token = a.token → deed = .registered a.token)
    (hout : out = if s.isEngineMediaToken a.token then none else some a.token) :
    (s.push P a filename).Answered none := by
  have hpending := push_pending P filename hnew
  have hnotmem : a.token ∉ s.pendingDynMedia := AList.lookup_eq_none.1 hnew
  have hnotcalled : ∀ p, .called a.token p ∉ s.log := by
    intro p hmem
    have heq := hlog _ hmem rfl
    cases heq
  refine ⟨?_, h.engineUsed, ?_, ?_, ?_, ?_, ?_⟩
  · intro token htoken
    rw [hpending, AList.mem_insert] at htoken
    rcases htoken with rfl | htoken
    · exact hused
    · exact h.pendingUsed token htoken
  · intro deed hdeed
    rcases mem_push_log P hdeed with hdeed | ⟨p, rfl⟩ | ⟨p, -, rfl⟩
    · exact h.logUsed deed hdeed
    · exact hused
    · exact hused
  · intro token
    rw [count_push_log P (fun p => Deed.noConfusion) (fun p => Deed.noConfusion),
      count_push_log P (fun p => Deed.noConfusion) (fun p => Deed.noConfusion), h.callback token,
      hout]
    have hengine : ∀ token, (s.push P a filename).isEngineMediaToken token =
        s.isEngineMediaToken token := fun _ => rfl
    have hmem : ∀ token, token ∈ (s.push P a filename).pendingDynMedia ↔
        token = a.token ∨ token ∈ s.pendingDynMedia := by
      intro token
      rw [hpending]
      exact AList.mem_insert _
    by_cases htoken : token = a.token
    · subst htoken
      rw [held_of_not_mem hnotmem]
      cases hcase : s.isEngineMediaToken a.token with
      | true =>
        rw [held_of_engine ((hengine _).trans hcase)]
        rfl
      | false =>
        rw [held_of_mem ((hmem _).2 (.inl rfl)) ((hengine _).trans hcase)]
        simp
    · have hsame : (s.push P a filename).held token = s.held token := by
        refine held_congr ?_ (hengine token)
        rw [hmem, or_iff_right htoken]
      rw [hsame]
      cases s.isEngineMediaToken a.token with
      | true => rfl
      | false => simp [Ne.symm htoken]
  · intro token
    rw [count_push_log P (fun p => Deed.noConfusion) (fun p => Deed.noConfusion)]
    exact h.once token
  · intro token r hr p hp
    rw [hpending] at hr
    by_cases htoken : token = a.token
    · subst htoken
      rw [AList.lookup_insert] at hr
      cases hr
      refine ⟨pushed_mem_push_log P (List.mem_append_right _ hp), fun hcalled => ?_⟩
      rcases mem_push_log P hcalled with hold | ⟨q, hq⟩ | ⟨q, hq, heq⟩
      · exact hnotcalled p hold
      · cases hq
      · cases heq
        have hne : Delivery.legacy ≠ Delivery.asked := by decide
        exact not_mem_recipients hne hq hp
    · rw [AList.lookup_insert_ne htoken] at hr
      rcases h.waiting token r hr p hp with ⟨hpushed, hcalled⟩
      refine ⟨?_, fun hmem => ?_⟩
      · rw [push_log]
        split
        · exact List.mem_append_right _ hpushed
        · exact List.mem_append_right _ (List.mem_append_right _ hpushed)
      · rcases mem_push_log P hmem with hold | ⟨q, hq⟩ | ⟨q, -, heq⟩
        · exact hcalled hold
        · cases hq
        · cases heq
          exact htoken rfl
  · rw [push_log]
    split
    · exact callsWell_pushed.2 h.calls
    · refine callsWell_called (nodup_recipients.filter _) ?_ ?_ ?_ (callsWell_pushed.2 h.calls)
      · intro p hp
        refine List.mem_append_left _ (List.mem_map.2 ⟨p, ?_, rfl⟩)
        exact List.mem_append_left _ (List.mem_filter.1 hp).1
      · intro hmem
        rcases List.mem_append.1 hmem with hmem | hmem
        · rcases List.mem_map.1 hmem with ⟨q, -, hq⟩
          cases hq
        · have heq := hlog _ hmem rfl
          cases heq
      · intro p hp hmem
        rcases List.mem_append.1 hmem with hmem | hmem
        · rcases List.mem_map.1 hmem with ⟨q, -, hq⟩
          cases hq
        · exact hnotcalled p hmem

/-! ## The calls -/

section

variable (s : MediaServer Time) (a : DynamicMediaArgs)

theorem finishEntry_sameCalls (filename filedata : Bytes) (info : MediaInfo) (temp : Option Bytes) :
    SameCalls s (s.finishEntry a filename filedata info temp).1 := by
  cases hfinished : (s.finishEntry a filename filedata info temp).2 with
  | false =>
    rw [(finishEntry_false hfinished).2]
    exact ⟨rfl, rfl, rfl, rfl, rfl⟩
  | true =>
    unfold finishEntry
    split
    · split
      · exact ⟨rfl, rfl, rfl, rfl, rfl⟩
      · exact ⟨rfl, rfl, rfl, rfl, rfl⟩
    · exact ⟨rfl, rfl, rfl, rfl, rfl⟩
    · exact ⟨rfl, rfl, rfl, rfl, rfl⟩
    · exact ⟨rfl, rfl, rfl, rfl, rfl⟩

/-- A call is without effect on the callbacks, or ends in a push. -/
theorem addFrom_calls (filename filepath : Bytes)
    (temp : Option Bytes) : ((s.addFrom P a filename filepath temp).2 ≠ .added ∧
      SameCalls s (s.addFrom P a filename filepath temp).1) ∨
    ((s.addFrom P a filename filepath temp).2 = .added ∧
      ∃ u, SameCalls s u ∧ (s.addFrom P a filename filepath temp).1 = u.push P a filename) := by
  rw [addFrom]
  split
  · exact .inl ⟨Outcome.noConfusion, ⟨rfl, rfl, rfl, rfl, rfl⟩⟩
  · rw [addMediaFile]
    cases s.acceptableFile filename filepath with
    | none =>
      cases a.source with
      | data content => exact .inl ⟨Outcome.noConfusion, ⟨rfl, rfl, rfl, rfl, rfl⟩⟩
      | file path => exact .inl ⟨Outcome.noConfusion, ⟨rfl, rfl, rfl, rfl, rfl⟩⟩
    | some filedata =>
      have hsame := finishEntry_sameCalls (updateMediaHttp P { s with
        media := s.media.insert filename { path := filepath, sha1Digest := P.sha1 filedata } })
        a filename filedata { path := filepath, sha1Digest := P.sha1 filedata } temp
      have hsame' : SameCalls s _ := ⟨hsame.pending, hsame.engine, hsame.used, hsame.log,
        hsame.clients⟩
      dsimp only
      split
      · split
        · exact .inl ⟨Outcome.noConfusion, hsame'⟩
        · exact .inr ⟨rfl, _, hsame', rfl⟩
      · exact .inl ⟨Outcome.noConfusion, hsame'⟩

theorem dynamicAddMedia_calls (temp : Option Bytes) : ((s.dynamicAddMedia P a temp).2 ≠ .added ∧
        SameCalls { s with usedTokens := a.token :: s.usedTokens } (s.dynamicAddMedia P a temp).1) ∨
      ((s.dynamicAddMedia P a temp).2 = .added ∧ ∃ u filename,
        SameCalls { s with usedTokens := a.token :: s.usedTokens } u ∧
          (s.dynamicAddMedia P a temp).1 = u.push P a filename) := by
  rw [dynamicAddMedia]
  dsimp only
  split
  · exact .inl ⟨Outcome.noConfusion, ⟨rfl, rfl, rfl, rfl, rfl⟩⟩
  · have hfrom : ∀ t filename filepath,
        SameCalls { s with usedTokens := a.token :: s.usedTokens } t →
        (t.addFrom P a filename filepath temp).2 ≠ .added ∧
            SameCalls { s with usedTokens := a.token :: s.usedTokens }
              (t.addFrom P a filename filepath temp).1 ∨
          (t.addFrom P a filename filepath temp).2 = .added ∧ ∃ u filename',
            SameCalls { s with usedTokens := a.token :: s.usedTokens } u ∧
              (t.addFrom P a filename filepath temp).1 = u.push P a filename' := by
      intro t filename filepath ht
      have htrans : ∀ u, SameCalls t u →
          SameCalls { s with usedTokens := a.token :: s.usedTokens } u := fun u hu =>
        ⟨hu.pending.trans ht.pending, hu.engine.trans ht.engine, hu.used.trans ht.used,
          hu.log.trans ht.log, hu.clients.trans ht.clients⟩
      rcases addFrom_calls P t a filename filepath temp with ⟨hnot, hsame⟩ | ⟨hadded, u, hsame, heq⟩
      · exact .inl ⟨hnot, htrans _ hsame⟩
      · exact .inr ⟨hadded, u, filename, htrans u hsame, heq⟩
    rw [fileOnDisk]
    cases a.source with
    | file filepath => exact hfrom _ _ _ ⟨rfl, rfl, rfl, rfl, rfl⟩
    | data content =>
      cases temp with
      | none => exact .inl ⟨Outcome.noConfusion, ⟨rfl, rfl, rfl, rfl, rfl⟩⟩
      | some filepath => exact hfrom _ _ _ ⟨rfl, rfl, rfl, rfl, rfl⟩

end

theorem not_engine_of_unused (h : s.Answered out) (hnew : a.token ∉ s.usedTokens)
    (hzero : a.token ≠ 0) : s.isEngineMediaToken a.token = false := by
  rw [isEngineMediaToken, Bool.or_eq_false_iff]
  exact ⟨decide_eq_false hzero, decide_eq_false fun hmem => hnew (h.engineUsed _ hmem)⟩

theorem not_pending_of_unused (h : s.Answered out) (hnew : token ∉ s.usedTokens) :
    token ∉ s.pendingDynMedia := fun hmem => hnew (h.pendingUsed _ hmem)

/-- The callback of a new call is put down. -/
theorem Answered.register (h : s.Answered none) (hnew : token ∉ s.usedTokens) :
    Answered { s with usedTokens := token :: s.usedTokens, log := .registered token :: s.log }
      (some token) := by
  have hzero : s.log.count (.registered token) = 0 := h.count_eq_zero hnew
  have hfreed : s.log.count (.freed token) = 0 := h.count_eq_zero hnew
  have hheld : ∀ t, held { s with
      usedTokens := token :: s.usedTokens, log := .registered token :: s.log } t = s.held t :=
    fun t => held_congr Iff.rfl rfl
  refine ⟨?_, ?_, ?_, ?_, ?_, ?_, h.calls⟩
  · exact fun t ht => List.mem_cons_of_mem _ (h.pendingUsed t ht)
  · exact fun t ht => List.mem_cons_of_mem _ (h.engineUsed t ht)
  · refine List.forall_mem_cons.2 ⟨List.mem_cons_self, fun deed hdeed => ?_⟩
    exact List.mem_cons_of_mem _ (h.logUsed deed hdeed)
  · intro t
    rw [hheld]
    by_cases ht : t = token
    · subst ht
      simp [hzero, hfreed, held_of_not_mem (not_pending_of_unused h hnew)]
    · have hcallback := h.callback t
      simp [Ne.symm ht] at hcallback ⊢
      exact hcallback
  · intro t
    by_cases ht : t = token
    · subst ht
      simp [hzero]
    · have honce := h.once t
      simp [Ne.symm ht] at honce ⊢
      exact honce
  · intro t r hr p hp
    rcases h.waiting t r hr p hp with ⟨hpushed, hcalled⟩
    refine ⟨List.mem_cons_of_mem _ hpushed, fun hmem => ?_⟩
    exact hcalled ((List.mem_cons.1 hmem).resolve_left Deed.noConfusion)

theorem Answered.logFreed (h : s.Answered (some token)) (hused : token ∈ s.usedTokens) :
    Answered { s with log := .freed token :: s.log } none := by
  have hheld : ∀ t, held { s with log := .freed token :: s.log } t = s.held t :=
    fun t => held_congr Iff.rfl rfl
  refine ⟨h.pendingUsed, h.engineUsed, ?_, ?_, ?_, ?_, h.calls⟩
  · exact List.forall_mem_cons.2 ⟨hused, h.logUsed⟩
  · intro t
    rw [hheld]
    have hcallback := h.callback t
    by_cases ht : token = t
    · subst ht
      simp at hcallback ⊢
      omega
    · simp [ht] at hcallback ⊢
      exact hcallback
  · intro t
    have honce := h.once t
    rw [List.count_cons_of_ne Deed.noConfusion]
    exact honce
  · intro t r hr p hp
    rcases h.waiting t r hr p hp with ⟨hpushed, hcalled⟩
    refine ⟨List.mem_cons_of_mem _ hpushed, fun hmem => ?_⟩
    exact hcalled ((List.mem_cons.1 hmem).resolve_left Deed.noConfusion)

theorem Answered.only_registered (h : s.Answered none) (hnew : token ∉ s.usedTokens) :
    ∀ deed ∈ .registered token :: s.log, deed.token = token → deed = .registered token := by
  refine List.forall_mem_cons.2 ⟨fun _ => rfl, fun deed hdeed htoken => ?_⟩
  exact absurd (htoken ▸ h.logUsed deed hdeed) hnew

theorem answered_addMediaOfMod (h : s.Answered none) (hnew : a.token ∉ s.usedTokens)
    (hfits : s.NameFits a temp) : (s.addMediaOfMod P a temp).Answered none := by
  have hlookup : s.pendingDynMedia.lookup a.token = none :=
    AList.lookup_eq_none.2 (not_pending_of_unused h hnew)
  rw [addMediaOfMod]
  by_cases hzero : a.token = 0
  · -- no callback
    rw [if_pos hzero]
    have huse := h.use a.token
    rcases dynamicAddMedia_calls P s a temp with ⟨-, hsame⟩ | ⟨hadded, u, filename, hsame, heq⟩
    · have hcall := huse.congr hsame
      split
      case h_1 t hdyn =>
        rw [hdyn] at hcall
        rw [freeDynamicMediaCallback, if_pos hzero]
        exact hcall
      case h_2 t outcome _ hdyn =>
        rw [hdyn] at hcall
        exact hcall
    · have hpush : (u.push P a filename).Answered none := by
        refine (huse.congr hsame).push P ?_ ?_ ?_ ?_
        · rw [hsame.used]
          exact List.mem_cons_self
        · rw [hsame.pending]
          exact hlookup
        · rw [hsame.log]
          exact fun deed hdeed htoken => absurd (htoken ▸ h.logUsed deed hdeed) hnew
        · rw [isEngineMediaToken, hzero]
          rfl
      split
      case h_1 t hdyn =>
        rw [hdyn] at hadded
        cases hadded
      case h_2 t outcome _ hdyn =>
        rw [hdyn] at heq
        dsimp only at heq
        rw [heq]
        exact hpush
  · rw [if_neg hzero]
    have hplain := not_engine_of_unused h hnew hzero
    have hreg := h.register hnew
    have hthrew := dynamicAddMedia_ne_threw P (s := { s with
      log := .registered a.token :: s.log }) (hfits.congr rfl rfl rfl)
    rcases dynamicAddMedia_calls P { s with log := .registered a.token :: s.log } a temp with
      ⟨hnot, hsame⟩ | ⟨hadded, u, filename, hsame, heq⟩
    · have hcall := hreg.congr hsame
      split
      case h_1 t hdyn =>
        rw [hdyn] at hcall hsame
        rw [freeDynamicMediaCallback, if_neg hzero]
        refine hcall.logFreed ?_
        rw [hsame.used]
        exact List.mem_cons_self
      case h_2 t outcome hrefused hdyn =>
        rw [hdyn] at hnot hthrew
        cases outcome with
        | refused => exact absurd rfl hrefused
        | added => exact absurd rfl hnot
        | threw => exact absurd rfl hthrew
    · have hpush : (u.push P a filename).Answered none := by
        refine (hreg.congr hsame).push P ?_ ?_ ?_ ?_
        · rw [hsame.used]
          exact List.mem_cons_self
        · rw [hsame.pending]
          exact hlookup
        · rw [hsame.log]
          exact h.only_registered hnew
        · have hengine : u.isEngineMediaToken a.token = false := by
            rw [isEngineMediaToken, hsame.engine]
            exact hplain
          rw [hengine]
          rfl
      split
      case h_1 t hdyn =>
        rw [hdyn] at hadded
        cases hadded
      case h_2 t outcome _ hdyn =>
        rw [hdyn] at heq
        dsimp only at heq
        rw [heq]
        exact hpush

theorem answered_addMediaOfEngine (h : s.Answered none) (hnew : a.token ∉ s.usedTokens) :
    (s.addMediaOfEngine P a temp).1.Answered none := by
  rw [addMediaOfEngine]
  have hnotpending := not_pending_of_unused h hnew
  have hheld : ∀ t, held { s with
      engineMediaToken := a.token
      engineMediaTokens := a.token :: s.engineMediaTokens
      usedTokens := a.token :: s.usedTokens } t = s.held t := by
    intro t
    by_cases ht : t = a.token
    · subst ht
      rw [held_of_not_mem hnotpending]
      exact if_neg fun hheld => hnotpending hheld.1
    · refine held_congr Iff.rfl ?_
      simp [isEngineMediaToken, ht]
  have huse : Answered { s with
      engineMediaToken := a.token
      engineMediaTokens := a.token :: s.engineMediaTokens
      usedTokens := a.token :: s.usedTokens } none := by
    refine ⟨?_, ?_, ?_, ?_, h.once, h.waiting, h.calls⟩
    · exact fun t ht => List.mem_cons_of_mem _ (h.pendingUsed t ht)
    · refine List.forall_mem_cons.2 ⟨List.mem_cons_self, fun t ht => ?_⟩
      exact List.mem_cons_of_mem _ (h.engineUsed t ht)
    · exact fun deed hdeed => List.mem_cons_of_mem _ (h.logUsed deed hdeed)
    · intro t
      rw [hheld]
      exact h.callback t
  rcases dynamicAddMedia_calls P { s with
      engineMediaToken := a.token
      engineMediaTokens := a.token :: s.engineMediaTokens } a temp with
    ⟨-, hsame⟩ | ⟨-, u, filename, hsame, heq⟩
  · exact huse.congr hsame
  · rw [heq]
    refine (huse.congr hsame).push P ?_ ?_ ?_ ?_
    · rw [hsame.used]
      exact List.mem_cons_self
    · rw [hsame.pending]
      exact AList.lookup_eq_none.2 hnotpending
    · rw [hsame.log]
      exact fun deed hdeed htoken => absurd (htoken ▸ h.logUsed deed hdeed) hnew
    · have hengine : u.isEngineMediaToken a.token = true := by
        rw [isEngineMediaToken, hsame.engine]
        simp
      rw [hengine]
      rfl

/-! ## Acknowledgements and the end of a record -/

/-- A record is replaced by one that waits for fewer. -/
theorem Answered.setRecord {r : PendingDynamicMediaCallback Time}
    (r' : PendingDynamicMediaCallback Time) (h : s.Answered out)
    (hold : s.pendingDynMedia.lookup token = some r)
    (hwaiting : ∀ p ∈ r'.waitingPlayers, p ∈ r.waitingPlayers) :
    Answered { s with pendingDynMedia := s.pendingDynMedia.insert token r' } out := by
  have hmem : token ∈ s.pendingDynMedia := AList.lookup_isSome.1 (hold ▸ rfl)
  have hsame : ∀ t, t ∈ s.pendingDynMedia.insert token r' ↔ t ∈ s.pendingDynMedia := by
    intro t
    rw [AList.mem_insert]
    refine ⟨?_, Or.inr⟩
    rintro (rfl | ht)
    · exact hmem
    · exact ht
  refine ⟨fun t ht => h.pendingUsed t ((hsame t).1 ht), h.engineUsed, h.logUsed, ?_, h.once, ?_,
    h.calls⟩
  · intro t
    have hheld : held { s with pendingDynMedia := s.pendingDynMedia.insert token r' } t = s.held t :=
      held_congr (hsame t) rfl
    rw [hheld]
    exact h.callback t
  · refine forall_insert h.waiting ?_
    exact fun p hp => h.waiting token r hold p (hwaiting p hp)

theorem Answered.acknowledge (h : s.Answered none) : (s.acknowledge p token).Answered none := by
  rw [MediaServer.acknowledge]
  split
  · exact h
  case h_2 r hr =>
    split
    case isFalse => exact h
    case isTrue hp =>
      have hset := h.setRecord { r with waitingPlayers := r.waitingPlayers.filter (· ≠ p) } hr
        fun q hq => (List.mem_filter.1 hq).1
      dsimp only
      split
      case isFalse => exact hset
      case isTrue hcall =>
        rcases h.waiting token r hr p hp with ⟨hpushed, hcalled⟩
        have hmem : token ∈ s.pendingDynMedia := AList.lookup_isSome.1 (hr ▸ rfl)
        have hengine : s.isEngineMediaToken token = false := Bool.eq_false_iff.2 hcall.2
        have hfreed := h.not_freed hmem hengine
        refine ⟨hset.pendingUsed, hset.engineUsed, ?_, ?_, ?_, ?_, ?_⟩
        · exact List.forall_mem_cons.2 ⟨h.pendingUsed token hmem, hset.logUsed⟩
        · intro t
          have hcallback := hset.callback t
          rw [List.count_cons_of_ne Deed.noConfusion, List.count_cons_of_ne Deed.noConfusion]
          exact hcallback
        · intro t
          rw [List.count_cons_of_ne Deed.noConfusion]
          exact hset.once t
        · intro t r'' hr'' q hq
          -- who is still waited for is not the one who is called
          rcases hset.waiting t r'' hr'' q hq with ⟨hqpushed, hqcalled⟩
          refine ⟨List.mem_cons_of_mem _ hqpushed, fun hmem' => ?_⟩
          rcases List.mem_cons.1 hmem' with heq | hmem'
          · cases heq
            rw [AList.lookup_insert] at hr''
            cases hr''
            exact absurd rfl (of_decide_eq_true (List.mem_filter.1 hq).2)
          · exact hqcalled hmem'
        · exact ⟨⟨hpushed, hfreed, hcalled⟩, h.calls⟩

theorem Answered.haveMedia {data : Bytes} (h : s.Answered none) :
    (s.handleCommandHaveMedia p data).Answered none := by
  rw [handleCommandHaveMedia]
  split
  · exact h
  case h_2 tokens rest _ =>
    have hfold : ∀ (tokens : List UInt32) (s : MediaServer Time), s.Answered none →
        (tokens.foldl (MediaServer.acknowledge p) s).Answered none := by
      intro tokens
      induction tokens with
      | nil => exact fun s hs => hs
      | cons token tokens ih => exact fun s hs => ih _ hs.acknowledge
    exact hfold tokens s h

theorem Answered.endRecord (h : s.Answered none) (hmem : token ∈ s.pendingDynMedia) :
    (s.endRecord token).Answered none := by
  have hused := h.pendingUsed token hmem
  have hother : ∀ t, t ≠ token → (t ∈ s.pendingDynMedia.erase token ↔ t ∈ s.pendingDynMedia) := by
    intro t ht
    rw [AList.mem_erase]
    exact and_iff_right ht
  have hgone : token ∉ s.pendingDynMedia.erase token := by
    rw [AList.mem_erase]
    exact fun hmem => hmem.1 rfl
  rw [MediaServer.endRecord]
  dsimp only
  split
  case isTrue hengine =>
    have hengine' : s.isEngineMediaToken token = true := hengine
    refine ⟨fun t ht => h.pendingUsed t (AList.mem_erase.1 ht).2, ?_, h.logUsed, ?_, h.once, ?_,
      h.calls⟩
    · exact fun t ht => h.engineUsed t (List.mem_filter.1 ht).1
    · intro t
      rw [h.callback t]
      by_cases ht : t = token
      · subst ht
        rw [held_of_engine hengine']
        congr 2
        exact (if_neg fun hheld => hgone hheld.1).symm
      · congr 2
        symm
        refine held_congr (hother t ht) ?_
        simp [isEngineMediaToken, ht]
    · exact fun t r hr => h.waiting t r (lookup_of_lookup_erase hr).2
  case isFalse hengine =>
    have hengine' : s.isEngineMediaToken token = false := Bool.eq_false_iff.2 hengine
    have hzero : token ≠ 0 := by
      rintro rfl
      exact hengine rfl
    have hout : Answered { s with pendingDynMedia := s.pendingDynMedia.erase token } (some token) := by
      refine ⟨fun t ht => h.pendingUsed t (AList.mem_erase.1 ht).2, h.engineUsed, h.logUsed, ?_,
        h.once, fun t r hr => h.waiting t r (lookup_of_lookup_erase hr).2, h.calls⟩
      intro t
      rw [h.callback t]
      by_cases ht : t = token
      · subst ht
        have hheld : held { s with pendingDynMedia := s.pendingDynMedia.erase t } t = 0 :=
          if_neg fun hheld => hgone hheld.1
        rw [held_of_mem hmem hengine', hheld]
        simp
      · have hheld : held { s with pendingDynMedia := s.pendingDynMedia.erase token } t = s.held t :=
          held_congr (hother t ht) rfl
        rw [hheld]
        simp [Ne.symm ht]
    rw [freeDynamicMediaCallback, if_neg hzero]
    exact hout.logFreed hused

theorem dropFile_sameCalls {name : Bytes} (h : s.dropFile P name = some t) : SameCalls s t := by
  rw [dropFile] at h
  split at h
  · cases h
    exact ⟨rfl, rfl, rfl, rfl, rfl⟩
  split at h
  · cases h
  split at h
  · cases h
    exact ⟨rfl, rfl, rfl, rfl, rfl⟩
  · cases h

theorem Answered.stepRecord {dtime : Time} (h : s.Answered none)
    (hstep : s.stepRecord P dtime token = some t) : t.Answered none := by
  rw [MediaServer.stepRecord] at hstep
  split at hstep
  · cases hstep
    exact h
  case h_2 r hr =>
    dsimp only at hstep
    split at hstep
    · cases hstep
      exact h.setRecord _ hr fun _ hp => hp
    · rcases Option.map_eq_some_iff.1 hstep with ⟨u, hdrop, rfl⟩
      have hsame := dropFile_sameCalls P hdrop
      refine (h.congr hsame).endRecord ?_
      rw [hsame.pending]
      exact AList.lookup_isSome.1 (hr ▸ rfl)

end

/-! ## One step -/

/-- What should hold of the media at any time. -/
structure Sound (s : MediaServer Time) : Prop where
  owner : ∀ name info, s.media.lookup name = some info → info.ephemeral = true →
    ∃! token, ∃ r, s.pendingDynMedia.lookup token = some r ∧ r.filename = name
  entry : ∀ token r, s.pendingDynMedia.lookup token = some r → r.filename ≠ [] →
    ∃ info, s.media.lookup r.filename = some info ∧ info.ephemeral = true
  /-- The assertions hold. -/
  asserts : ∀ dtime, (s.stepPendingDynMediaCallbacks P dtime).isSome = true
  /-- A file that came to belong to an entry is deleted once, unless the entry is still there. -/
  files : ∀ path,
    s.fileLog.count (.owned path) = s.fileLog.count (.deleted path) + s.ephemeralWith path
  /-- A callback is freed once, unless its record is still there. -/
  callback : ∀ token, s.log.count (.registered token) ≤ 1 ∧
    s.log.count (.registered token) = s.log.count (.freed token) + s.held token
  calls : CallsWell s.log

variable {s : MediaServer Time}

theorem sound_of_owned (h : s.Owned) (hanswered : s.Answered none) :
    s.Sound P where
  owner := by
    intro name info hlookup hephemeral
    rcases h.owner name info hlookup hephemeral with ⟨token, r, hr, hname⟩
    refine ⟨token, ⟨r, hr, hname⟩, ?_⟩
    rintro token' ⟨r', hr', hname'⟩
    refine h.unique token' token r' r hr' hr ?_ (hname'.trans hname.symm)
    rw [hname']
    exact h.named name info hlookup
  entry := h.entry
  asserts := by
    intro dtime
    rcases h.stepPending P dtime with ⟨t, ht, -⟩
    rw [ht]
    rfl
  files := h.files
  callback := fun token => ⟨hanswered.once token, hanswered.callback token⟩
  calls := hanswered.calls

/-- What is asked of a step: a name that gets into a packet is short enough for one, and the files
of the start do not replace others. -/
def Fits (s : MediaServer Time) : Event Time → Prop
  | .addMediaFile filename _ => filename ∉ s.media
  | .addMediaOfMod a temp => s.NameFits a temp
  | .addMediaOfEngine a temp => s.NameFits a temp
  | _ => True

theorem owned_addMediaFile {filename filepath : Bytes} (h : s.Owned) (hnew : filename ∉ s.media) :
    (s.addMediaFile P filename filepath).1.Owned := by
  rw [addMediaFile]
  split
  · exact h
  case h_2 filedata hfile =>
    refine (h.insertPlain (name_ne_nil_of_acceptableFile hfile) ?_ rfl).congr rfl rfl rfl
    intro info₀ hinfo₀
    rw [AList.lookup_eq_none.2 hnew] at hinfo₀
    cases hinfo₀

theorem owned_addMediaOfMod {a : DynamicMediaArgs} {temp : Option Bytes} (h : s.Owned)
    (hnew : s.pendingDynMedia.lookup a.token = none) (hfits : s.NameFits a temp) :
    (s.addMediaOfMod P a temp).Owned := by
  rw [addMediaOfMod]
  generalize hs₁ : (if a.token = 0 then s else { s with log := .registered a.token :: s.log }) = s₁
  have hready : s₁.Owned ∧ s₁.pendingDynMedia.lookup a.token = none ∧ s₁.NameFits a temp := by
    rw [← hs₁]
    split
    · exact ⟨h, hnew, hfits⟩
    · exact ⟨h.congr rfl rfl rfl, hnew, hfits.congr rfl rfl rfl⟩
  have hdyn := owned_dynamicAddMedia P hready.1 hready.2.1 hready.2.2
  split
  case h_1 t heq =>
    rw [heq] at hdyn
    rw [freeDynamicMediaCallback]
    split
    · exact hdyn
    · exact hdyn.congr rfl rfl rfl
  case h_2 t outcome _ heq =>
    rw [heq] at hdyn
    exact hdyn

theorem settled_step {s t : MediaServer Time} {e : Event Time}
    (h : s.Owned ∧ s.Answered none) (hfits : s.Fits e) (hstep : Step P s e t) :
    t.Owned ∧ t.Answered none := by
  rcases h with ⟨howned, hanswered⟩
  cases hstep with
  | apply hpossible happly =>
    cases e with
    | addMediaFile filename filepath =>
      cases happly
      refine ⟨owned_addMediaFile P howned hfits, hanswered.congr ?_⟩
      rw [addMediaFile]
      split
      · exact ⟨rfl, rfl, rfl, rfl, rfl⟩
      · exact ⟨rfl, rfl, rfl, rfl, rfl⟩
    | addMediaOfMod a temp =>
      cases happly
      have hlookup := AList.lookup_eq_none.2 (not_pending_of_unused hanswered hpossible.1)
      exact ⟨owned_addMediaOfMod P howned hlookup hfits,
        answered_addMediaOfMod P hanswered hpossible.1 hfits⟩
    | addMediaOfEngine a temp =>
      cases happly
      have hlookup := AList.lookup_eq_none.2 (not_pending_of_unused hanswered hpossible.1)
      refine ⟨?_, answered_addMediaOfEngine P hanswered hpossible.1⟩
      exact owned_dynamicAddMedia P (howned.congr rfl rfl rfl) hlookup (hfits.congr rfl rfl rfl)
    | haveMedia p data =>
      rw [MediaServer.apply] at happly
      split at happly
      · cases happly
        exact ⟨howned.haveMedia, hanswered.haveMedia⟩
      · cases happly
        exact ⟨howned, hanswered⟩
    | stepPending dtime =>
      have hround : ∀ (s : MediaServer Time) (token : UInt32) (t : MediaServer Time),
          s.Owned ∧ s.Answered none → s.stepRecord P dtime token = some t →
          t.Owned ∧ t.Answered none := by
        rintro s token t ⟨howned, hanswered⟩ hround
        rcases howned.stepRecord P dtime token with ⟨u, hu, hownedu⟩
        rw [hround] at hu
        cases hu
        exact ⟨hownedu, hanswered.stepRecord P hround⟩
      exact foldlM_invariant (P := fun s => s.Owned ∧ s.Answered none) hround ⟨howned, hanswered⟩ happly
    | fileChanged path content =>
      cases happly
      exact ⟨howned.congr rfl rfl rfl, hanswered.congr ⟨rfl, rfl, rfl, rfl, rfl⟩⟩
    | clientsChanged clients players =>
      cases happly
      exact ⟨howned.congr rfl rfl rfl, hanswered.pendingUsed, hanswered.engineUsed,
        hanswered.logUsed, hanswered.callback, hanswered.once, hanswered.waiting,
        hanswered.calls⟩
    | envCreated =>
      cases happly
      exact ⟨howned.congr rfl rfl rfl, hanswered.congr ⟨rfl, rfl, rfl, rfl, rfl⟩⟩
    | httpStarted =>
      cases happly
      exact ⟨howned.congr rfl rfl rfl, hanswered.congr ⟨rfl, rfl, rfl, rfl, rfl⟩⟩

theorem settled_initial : Owned ({} : MediaServer Time) ∧ Answered ({} : MediaServer Time) none := by
  refine ⟨⟨?_, ?_, ?_, ?_, fun _ => rfl⟩, ⟨?_, ?_, ?_, fun _ => rfl, fun _ => Nat.zero_le 1, ?_,
    trivial⟩⟩
  · exact fun name info hlookup => by cases hlookup
  · exact fun token r hr => by cases hr
  · exact fun token token' r r' hr => by cases hr
  · exact fun name info hlookup => by cases hlookup
  · exact fun token htoken => absurd htoken (AList.notMem_empty token)
  · exact fun token htoken => absurd htoken List.not_mem_nil
  · exact fun deed hdeed => absurd hdeed List.not_mem_nil
  · exact fun token r hr => by cases hr

end MediaServer

/-! ## Whole runs -/

/-- In a run whose names fit, every ephemeral entry has its one record, no assertion fails, the
files and the callbacks are accounted for, and nobody is called twice or late. -/
theorem media_settled {Time : Type} (P : Platform Time) {es : List (Event Time)}
    {s : MediaServer Time}
    (h : Run.Guarded MediaServer.Fits (MediaServer.Step P) {} es s) : s.Sound P := by
  have hsettled := Run.guarded_invariant (P := fun s => s.Owned ∧ s.Answered none)
    (fun s e t hs => MediaServer.settled_step P hs) h MediaServer.settled_initial
  exact MediaServer.sound_of_owned P hsettled.1 hsettled.2

/-- A mod adds the one byte for nobody, and the record ends at once. -/
def addedAndGone : List (Event Int) :=
  [.envCreated,
    .addMediaOfMod ⟨ascii "a.png", .data [120], 7, [], true⟩ (some (ascii "/tmp/t")),
    .stepPending 1]

theorem addedAndGone_sound : ∃ s, Run.Guarded MediaServer.Fits (MediaServer.Step oneFile) {}
    addedAndGone s ∧ s.Sound oneFile ∧ s.media.keys = [] ∧
    s.fileLog = [.deleted (ascii "/tmp/t"), .owned (ascii "/tmp/t")] ∧
    s.log = [.freed 7, .registered 7] := by
  have hrun : ∃ s, Run.Guarded MediaServer.Fits (MediaServer.Step oneFile) {} addedAndGone s ∧
      s.media.keys = [] ∧ s.fileLog = [.deleted (ascii "/tmp/t"), .owned (ascii "/tmp/t")] ∧
      s.log = [.freed 7, .registered 7] := by
    refine ⟨_, .cons ⟨trivial, .apply trivial rfl⟩ <|
      .cons ⟨?_, .apply ⟨List.not_mem_nil, ?_⟩ rfl⟩ <| .cons ⟨trivial, .apply trivial rfl⟩ <|
      .nil _, ?_, ?_, ?_⟩
    · rintro - filename ⟨t, filepath, hdisk, -⟩
      cases hdisk
      decide
    · rintro path -
      rfl
    · rfl
    · rfl
    · rfl
  rcases hrun with ⟨s, hguarded, hgone, hfiles, hlog⟩
  exact ⟨s, hguarded, media_settled oneFile hguarded, hgone, hfiles, hlog⟩

/-- Too long for a packet by five bytes. -/
def longName : Bytes :=
  List.replicate 65536 97 ++ ascii ".png"

/-- A mod adds the one byte under a long name. -/
def longNameCall : DynamicMediaArgs :=
  { filename := longName, source := .data [120], token := 7, ephemeral := true }

def addedUnderLongName : List (Event Int) :=
  [.envCreated, .addMediaOfMod longNameCall (some (ascii "/tmp/t"))]

theorem length_longName : longName.length = 65540 := by
  rw [longName, List.length_append, List.length_replicate]
  rfl

variable {s : MediaServer Int}

theorem acceptableFile_longName (hdisk : s.disk (ascii "/tmp/t") = some [120]) :
    s.acceptableFile longName (ascii "/tmp/t") = some [120] := by
  have hallowed : stringAllowed longName textureNameAllowedChars = true := by
    rw [stringAllowed, longName, List.all_append, List.all_replicate]
    decide
  have hpng : (ascii ".png").isSuffixOf longName = true :=
    List.isSuffixOf_iff_suffix.2 (List.suffix_append _ _)
  have hend : removeStringEnd longName mediaSupportedExt ≠ [] := by
    rw [removeStringEnd, mediaSupportedExt,
      List.find?_cons_of_pos (p := fun suffix : Bytes => suffix.isSuffixOf longName) hpng]
    refine List.ne_nil_of_length_pos ?_
    rw [List.length_take, length_longName]
    decide
  rw [MediaServer.acceptableFile, hallowed, hdisk]
  simp [hend, mediaFileMaxSize]

theorem addFrom_longName (henv : s.env = true) (hnew : s.media.lookup longName = none)
    (hdisk : s.disk (ascii "/tmp/t") = some [120]) :
    ∃ t info, s.addFrom oneFile longNameCall longName (ascii "/tmp/t") (some (ascii "/tmp/t")) =
      (t, .threw) ∧ t.media.lookup longName = some info ∧ info.ephemeral = true ∧
      t.pendingDynMedia = s.pendingDynMedia := by
  have hfree : s.nameTaken longNameCall longName (ascii "/tmp/t") = false := by
    rw [MediaServer.nameTaken, hnew]
  have hlong : MediaServer.stringMaxLen < longName.length := by
    rw [length_longName]
    decide
  have hfinished : ∀ (u : MediaServer Int) (info : MediaInfo),
      (u.finishEntry longNameCall longName [120] info (some (ascii "/tmp/t"))).2 = true :=
    fun _ _ => rfl
  rw [MediaServer.addFrom, hfree, MediaServer.addMediaFile, acceptableFile_longName hdisk]
  rw [if_neg Bool.false_ne_true]
  dsimp only
  rw [if_pos (hfinished _ _), if_pos ⟨henv, hlong⟩]
  exact ⟨_, _, rfl, AList.lookup_insert _, rfl, rfl⟩

theorem dynamicAddMedia_longName (henv : s.env = true) (hnew : s.media.lookup longName = none) :
    ∃ t info, s.dynamicAddMedia oneFile longNameCall (some (ascii "/tmp/t")) = (t, .threw) ∧
      t.media.lookup longName = some info ∧ info.ephemeral = true ∧
      t.pendingDynMedia = s.pendingDynMedia := by
  have hondisk : ∀ u : MediaServer Int, u.fileOnDisk longNameCall (some (ascii "/tmp/t")) =
      some (u.writeFile (ascii "/tmp/t") (some [120]), longName, ascii "/tmp/t") := fun _ => rfl
  rw [MediaServer.dynamicAddMedia]
  dsimp only
  rw [if_neg fun hnot => hnot.1 henv, hondisk]
  dsimp only
  refine addFrom_longName ?_ ?_ ?_
  · exact henv
  · exact hnew
  · exact Function.update_self (ascii "/tmp/t") (some [120]) s.disk

theorem addMediaOfMod_of_threw {P : Platform Int} {s t : MediaServer Int} {a : DynamicMediaArgs}
    {temp : Option Bytes} (htoken : a.token ≠ 0)
    (h : ({ s with log := .registered a.token :: s.log } : MediaServer Int).dynamicAddMedia P a temp =
      (t, .threw)) : s.addMediaOfMod P a temp = t := by
  rw [MediaServer.addMediaOfMod, if_neg htoken, h]

/-- The entry is there, and no record names it. -/
theorem addedUnderLongName_kept : ∃ s, Run (MediaServer.Step oneFile) {} addedUnderLongName s ∧
    (∃ info, s.media.lookup longName = some info ∧ info.ephemeral = true) ∧
    s.pendingDynMedia = ∅ ∧ ¬ s.Sound oneFile := by
  rcases dynamicAddMedia_longName
      (s := { env := true, log := [.registered longNameCall.token] }) rfl rfl with
    ⟨t, info, hadd, hlookup, hephemeral, hpending⟩
  have hcall : ({ env := true } : MediaServer Int).addMediaOfMod oneFile longNameCall
      (some (ascii "/tmp/t")) = t := addMediaOfMod_of_threw (by decide) hadd
  refine ⟨t, .cons (.apply trivial rfl) <| .cons (.apply ⟨List.not_mem_nil, ?_⟩ ?_) <| .nil _,
    ⟨info, hlookup, hephemeral⟩, hpending, fun hsound => ?_⟩
  · rintro path -
    rfl
  · exact congrArg some hcall
  · rcases hsound.owner longName info hlookup hephemeral with ⟨token, ⟨r, hr, -⟩, -⟩
    rw [hpending] at hr
    cases hr

end DynamicMedia
end AxisEngine
