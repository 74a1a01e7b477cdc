import AxisEngine.DynamicMedia.Callbacks

/-!
# PlainMedia — entries that stay, and what becomes of one record

An entry that is not ephemeral is never taken off the table.  A record changes when one of those it
waits for answers, and when time passes.

* `PlainKept`, `plainKept_apply` — no event takes a plain entry away;
* `dynamicAddMedia_added` — what a new file of some data finds and leaves;
* `record_haveMedia`, `record_stepPending`, `record_apply` — one record.
-/

namespace AxisEngine
namespace DynamicMedia

open Lib Login Media Util

namespace MediaServer

variable {Time : Type} (P : Platform Time)

/-- The plain entries are still there, and plain. -/
def PlainKept (s t : MediaServer Time) : Prop :=
  ∀ name info, s.media.lookup name = some info → info.ephemeral = false →
    ∃ info', t.media.lookup name = some info' ∧ info'.ephemeral = false

section

variable {s t u : MediaServer Time} {a : DynamicMediaArgs} {filename filepath filedata : Bytes}
  {temp : Option Bytes} {token : UInt32}

theorem PlainKept.of_eq (h : t.media = s.media) : PlainKept s t := by
  intro name info hlookup hplain
  rw [h]
  exact ⟨info, hlookup, hplain⟩

theorem PlainKept.trans (h : PlainKept s t) (h' : PlainKept t u) : PlainKept s u := by
  intro name info hlookup hplain
  rcases h name info hlookup hplain with ⟨info', hlookup', hplain'⟩
  exact h' name info' hlookup' hplain'

theorem PlainKept.of_insert {info : MediaInfo} (h : t.media = s.media.insert filename info)
    (hplain : (∃ info₀, s.media.lookup filename = some info₀ ∧ info₀.ephemeral = false) →
      info.ephemeral = false) : PlainKept s t := by
  intro name info₀ hlookup hplain₀
  rw [h]
  by_cases hname : name = filename
  · subst hname
    exact ⟨info, AList.lookup_insert _, hplain ⟨info₀, hlookup, hplain₀⟩⟩
  · exact ⟨info₀, (AList.lookup_insert_ne hname).trans hlookup, hplain₀⟩

/-- What is taken off is no plain entry. -/
theorem PlainKept.of_erase (h : t.media = s.media.erase filename)
    (hgone : ∀ info, s.media.lookup filename = some info → info.ephemeral = true) :
    PlainKept s t := by
  intro name info hlookup hplain
  have hname : name ≠ filename := by
    rintro rfl
    rw [hgone info hlookup] at hplain
    cases hplain
  rw [h]
  exact ⟨info, (AList.lookup_erase_ne hname).trans hlookup, hplain⟩

theorem plainKept_addMediaFile : PlainKept s (s.addMediaFile P filename filepath).1 := by
  rw [addMediaFile]
  split
  · exact .of_eq rfl
  · exact .of_insert rfl fun _ => rfl

/-- The table after a call that has found its file: the name was free to take. -/
structure Placed (s t : MediaServer Time) (a : DynamicMediaArgs) (filename filepath : Bytes) :
    Prop where
  free : s.nameTaken a filename filepath = false
  entry : ∃ info, t.media.lookup filename = some info ∧ info.ephemeral = a.ephemeral

theorem addFrom_plain : PlainKept s (s.addFrom P a filename filepath temp).1 ∧
    ((s.addFrom P a filename filepath temp).2 = .added →
      Placed s (s.addFrom P a filename filepath temp).1 a filename filepath) := by
  rw [addFrom]
  cases htaken : s.nameTaken a filename filepath with
  | true =>
    rw [if_pos rfl]
    exact ⟨.of_eq rfl, fun h => by cases h⟩
  | false =>
    rw [if_neg Bool.false_ne_true, addMediaFile]
    rcases not_nameTaken htaken with ⟨hfree, hold⟩
    cases hfile : s.acceptableFile filename filepath with
    | none =>
      cases a.source with
      | data content => exact ⟨.of_eq rfl, fun h => by cases h⟩
      | file path => exact ⟨.of_eq rfl, fun h => by cases h⟩
    | some filedata =>
      dsimp only
      set added := updateMediaHttp P { s with
        media := s.media.insert filename
          { path := filepath, sha1Digest := P.sha1 filedata } }
      cases hfinished : (added.finishEntry a filename filedata
          { path := filepath, sha1Digest := P.sha1 filedata } temp).2 with
      | false =>
        rcases finishEntry_false hfinished with ⟨hephemeral, heq⟩
        rw [if_neg Bool.false_ne_true, heq]
        refine ⟨.of_eq (erase_insert_of_new (hfree hephemeral)), fun h => ?_⟩
        cases h
      | true =>
        rcases finishEntry_true rfl hfinished with ⟨info', disk, hephemeral, heq⟩
        rw [if_pos rfl, heq]
        have hmedia : PlainKept s { added with
            disk := disk
            media := added.media.insert filename info'
            fileLog := if a.ephemeral then .owned info'.path :: s.fileLog else s.fileLog } := by
          refine .of_insert (AList.insert_insert _) ?_
          rintro ⟨info₀, hlookup, -⟩
          rw [hephemeral]
          refine Bool.eq_false_iff.2 fun haephemeral => ?_
          rw [hfree haephemeral] at hlookup
          cases hlookup
        split
        · exact ⟨hmedia, fun h => by cases h⟩
        · refine ⟨hmedia.trans (.of_eq rfl), fun _ => ⟨htaken, info', ?_, hephemeral⟩⟩
          exact AList.lookup_insert _

theorem plainKept_dynamicAddMedia (a : DynamicMediaArgs) (temp : Option Bytes) :
    PlainKept s (s.dynamicAddMedia P a temp).1 := by
  rw [dynamicAddMedia]
  dsimp only
  split
  · exact .of_eq rfl
  · cases hondisk : MediaServer.fileOnDisk { s with usedTokens := a.token :: s.usedTokens } a temp with
    | none => exact .of_eq rfl
    | some found =>
      rcases found with ⟨t, filename, filepath⟩
      have hsame : t.media = s.media := by
        rw [fileOnDisk] at hondisk
        split at hondisk
        · cases hondisk
          rfl
        · rcases Option.map_eq_some_iff.1 hondisk with ⟨path, -, heq⟩
          cases heq
          rfl
      exact (PlainKept.of_eq hsame).trans (addFrom_plain P).1

theorem plainKept_addMediaOfEngine : PlainKept s (s.addMediaOfEngine P a temp).1 := by
  have hstart : PlainKept s { s with
      engineMediaToken := a.token
      engineMediaTokens := a.token :: s.engineMediaTokens } := .of_eq rfl
  exact hstart.trans (plainKept_dynamicAddMedia P a temp)

theorem dynamicAddMedia_added {content : Bytes} (hsource : a.source = .data content)
    (h : (s.dynamicAddMedia P a temp).2 = .added) : ∃ path, temp = some path ∧
      s.nameTaken a a.filename path = false ∧
      ∃ info, (s.dynamicAddMedia P a temp).1.media.lookup a.filename = some info ∧
        info.ephemeral = a.ephemeral := by
  rw [dynamicAddMedia] at h ⊢
  dsimp only at h ⊢
  split at h
  · cases h
  case isFalse hstarted =>
    rw [if_neg hstarted]
    cases temp with
    | none =>
      have hondisk : MediaServer.fileOnDisk { s with usedTokens := a.token :: s.usedTokens } a
          none = none := by
        rw [fileOnDisk, hsource]
        rfl
      rw [hondisk] at h
      cases h
    | some path =>
      have hondisk : MediaServer.fileOnDisk { s with usedTokens := a.token :: s.usedTokens } a
          (some path) = some (writeFile { s with usedTokens := a.token :: s.usedTokens } path
            (some content), a.filename, path) := by
        rw [fileOnDisk, hsource]
        rfl
      rw [hondisk] at h ⊢
      have hplaced := (addFrom_plain P).2 h
      exact ⟨path, rfl, hplaced.free, hplaced.entry⟩

/-! ## One record -/

variable {name : Bytes} (p : SessionT) {e : Event Time} {r : PendingDynamicMediaCallback Time}
  {dtime : Time}

theorem record_acknowledge (token' : UInt32) {r : PendingDynamicMediaCallback Time}
    (h : s.pendingDynMedia.lookup token = some r) :
    ∃ r', (s.acknowledge p token').pendingDynMedia.lookup token = some r' ∧
      r'.expiryTimer = r.expiryTimer ∧
      ∀ q ∈ r.waitingPlayers, q ∈ r'.waitingPlayers ∨ (q = p ∧ token' = token) := by
  rw [acknowledge]
  split
  · exact ⟨r, h, rfl, fun q hq => .inl hq⟩
  case h_2 r₀ hr₀ =>
    split
    case isFalse => exact ⟨r, h, rfl, fun q hq => .inl hq⟩
    case isTrue hp =>
      have hset : ∃ r', (s.pendingDynMedia.insert token'
          { r₀ with waitingPlayers := r₀.waitingPlayers.filter (· ≠ p) }).lookup token = some r' ∧
          r'.expiryTimer = r.expiryTimer ∧
          ∀ q ∈ r.waitingPlayers, q ∈ r'.waitingPlayers ∨ (q = p ∧ token' = token) := by
        by_cases htoken : token = token'
        · subst htoken
          rw [h] at hr₀
          cases hr₀
          refine ⟨_, AList.lookup_insert _, rfl, fun q hq => ?_⟩
          by_cases hqp : q = p
          · exact .inr ⟨hqp, rfl⟩
          · exact .inl (List.mem_filter.2 ⟨hq, decide_eq_true hqp⟩)
        · exact ⟨r, (AList.lookup_insert_ne htoken).trans h, rfl, fun q hq => .inl hq⟩
      dsimp only
      split
      · exact hset
      · exact hset

theorem record_acknowledgeAll {r : PendingDynamicMediaCallback Time} (tokens : List UInt32)
    (h : s.pendingDynMedia.lookup token = some r) :
    ∃ r', (tokens.foldl (acknowledge p) s).pendingDynMedia.lookup token = some r' ∧
      r'.expiryTimer = r.expiryTimer ∧
      ∀ q ∈ r.waitingPlayers, q ∈ r'.waitingPlayers ∨ (q = p ∧ token ∈ tokens) := by
  induction tokens generalizing s r with
  | nil => exact ⟨r, h, rfl, fun q hq => .inl hq⟩
  | cons token' tokens ih =>
    rcases record_acknowledge p token' h with ⟨r₁, h₁, htimer₁, hwaiting₁⟩
    rcases ih h₁ with ⟨r₂, h₂, htimer₂, hwaiting₂⟩
    refine ⟨r₂, h₂, htimer₂.trans htimer₁, fun q hq => ?_⟩
    rcases hwaiting₁ q hq with hq₁ | ⟨hqp, htoken⟩
    · rcases hwaiting₂ q hq₁ with hq₂ | ⟨hqp, hmem⟩
      · exact .inl hq₂
      · exact .inr ⟨hqp, List.mem_cons_of_mem _ hmem⟩
    · exact .inr ⟨hqp, htoken ▸ List.mem_cons_self⟩

theorem dropFile_pending (h : s.dropFile P name = some t) :
    t.pendingDynMedia = s.pendingDynMedia :=
  (dropFile_sameCalls P h).pending

theorem lookup_stepRecord_ne {token' : UInt32} (hne : token ≠ token')
    (h : s.stepRecord P dtime token' = some t) :
    t.pendingDynMedia.lookup token = s.pendingDynMedia.lookup token := by
  rw [stepRecord] at h
  split at h
  · cases h
    rfl
  · dsimp only at h
    split at h
    · cases h
      exact AList.lookup_insert_ne hne
    · rcases Option.map_eq_some_iff.1 h with ⟨u, hdrop, rfl⟩
      rw [(endRecord_frame _ _).2.1, AList.lookup_erase_ne hne, dropFile_pending P hdrop]

/-- The round for a record: it is still there, or it was over. -/
theorem lookup_stepRecord_self (hr : s.pendingDynMedia.lookup token = some r)
    (h : s.stepRecord P dtime token = some t) :
    t.pendingDynMedia.lookup token = some { r with expiryTimer := P.minus r.expiryTimer dtime } ∨
      t.pendingDynMedia.lookup token = none ∧
        (r.waitingPlayers = [] ∨ P.notNegative (P.minus r.expiryTimer dtime) = false) := by
  rw [stepRecord, hr] at h
  dsimp only at h
  split at h
  · cases h
    exact .inl (AList.lookup_insert _)
  case isFalse hover =>
    rcases Option.map_eq_some_iff.1 h with ⟨u, hdrop, rfl⟩
    refine .inr ⟨?_, ?_⟩
    · rw [(endRecord_frame _ _).2.1]
      exact AList.lookup_erase _ _
    · by_cases hwaiting : r.waitingPlayers = []
      · exact .inl hwaiting
      · exact .inr (Bool.eq_false_iff.2 fun htime => hover ⟨hwaiting, htime⟩)

theorem lookup_stepRecords {tokens : List UInt32} (hnot : token ∉ tokens)
    (h : tokens.foldlM (stepRecord P dtime) s = some t) :
    t.pendingDynMedia.lookup token = s.pendingDynMedia.lookup token := by
  induction tokens generalizing s with
  | nil =>
    cases h
    rfl
  | cons token' tokens ih =>
    rw [List.foldlM_cons] at h
    rcases Option.bind_eq_some_iff.1 h with ⟨u, hstep, hrest⟩
    rw [List.mem_cons, not_or] at hnot
    rw [ih hnot.2 hrest, lookup_stepRecord_ne P hnot.1 hstep]

theorem record_stepPending (hr : s.pendingDynMedia.lookup token = some r)
    (h : s.stepPendingDynMediaCallbacks P dtime = some t) :
    t.pendingDynMedia.lookup token = some { r with expiryTimer := P.minus r.expiryTimer dtime } ∨
      t.pendingDynMedia.lookup token = none ∧
        (r.waitingPlayers = [] ∨ P.notNegative (P.minus r.expiryTimer dtime) = false) := by
  have hmem : token ∈ s.pendingDynMedia.keys :=
    AList.mem_keys.1 (AList.lookup_isSome.1 (hr ▸ rfl))
  rcases List.append_of_mem hmem with ⟨before, after, hkeys⟩
  have hnodup : (before ++ token :: after).Nodup := hkeys ▸ AList.keys_nodup _
  have hbefore : token ∉ before := fun hb =>
    List.disjoint_of_nodup_append hnodup hb List.mem_cons_self
  have hafter : token ∉ after := (List.nodup_cons.1 (List.nodup_append.1 hnodup).2.1).1
  rw [stepPendingDynMediaCallbacks, hkeys, List.foldlM_append] at h
  rcases Option.bind_eq_some_iff.1 h with ⟨u, hfirst, hrest⟩
  rw [List.foldlM_cons] at hrest
  rcases Option.bind_eq_some_iff.1 hrest with ⟨v, hround, hlast⟩
  rw [lookup_stepRecords P hafter hlast]
  exact lookup_stepRecord_self P ((lookup_stepRecords P hbefore hfirst).trans hr) hround

/-! ## Any event -/

theorem dynamicAddMedia_clients : (s.dynamicAddMedia P a temp).1.clients = s.clients := by
  rcases dynamicAddMedia_calls P s a temp with ⟨-, hsame⟩ | ⟨-, u, filename, hsame, heq⟩
  · exact hsame.clients
  · rw [heq]
    exact hsame.clients

/-- Another record than that of the call. -/
theorem lookup_dynamicAddMedia_ne (hne : token ≠ a.token) :
    (s.dynamicAddMedia P a temp).1.pendingDynMedia.lookup token =
      s.pendingDynMedia.lookup token := by
  rcases dynamicAddMedia_calls P s a temp with ⟨-, hsame⟩ | ⟨-, u, filename, hsame, heq⟩
  · rw [hsame.pending]
  · rw [heq, push, ← show u.pendingDynMedia = s.pendingDynMedia from hsame.pending]
    exact AList.lookup_insert_ne hne

theorem addMediaOfMod_frame : (s.addMediaOfMod P a temp).clients = s.clients ∧
    ∀ token, token ≠ a.token →
      (s.addMediaOfMod P a temp).pendingDynMedia.lookup token = s.pendingDynMedia.lookup token := by
  have hregister : ∀ u : MediaServer Time, u.clients = s.clients →
      u.pendingDynMedia = s.pendingDynMedia →
      (u.dynamicAddMedia P a temp).1.clients = s.clients ∧ ∀ token, token ≠ a.token →
        (u.dynamicAddMedia P a temp).1.pendingDynMedia.lookup token =
          s.pendingDynMedia.lookup token := by
    intro u hclients hpending
    refine ⟨(dynamicAddMedia_clients P).trans hclients, fun token hne => ?_⟩
    rw [lookup_dynamicAddMedia_ne P hne, hpending]
  have hcall : ∀ u : MediaServer Time,
      (u.freeDynamicMediaCallback a.token).clients = u.clients ∧
        (u.freeDynamicMediaCallback a.token).pendingDynMedia = u.pendingDynMedia := by
    intro u
    rw [freeDynamicMediaCallback]
    split
    · exact ⟨rfl, rfl⟩
    · exact ⟨rfl, rfl⟩
  rw [addMediaOfMod]
  set u := if a.token = 0 then s else { s with log := .registered a.token :: s.log } with hu
  have hcalled := hregister u (by rw [hu]; split <;> rfl) (by rw [hu]; split <;> rfl)
  split
  case h_1 v heq =>
    rw [heq] at hcalled
    rw [(hcall v).1, (hcall v).2]
    exact hcalled
  case h_2 v outcome _ heq =>
    rw [heq] at hcalled
    exact hcalled

theorem stepRecord_clients (h : s.stepRecord P dtime token = some t) : t.clients = s.clients := by
  have hend : ∀ u : MediaServer Time, (u.endRecord token).clients = u.clients := by
    intro u
    rw [endRecord]
    dsimp only
    split
    · rfl
    · rw [freeDynamicMediaCallback]
      split
      · rfl
      · rfl
  rw [stepRecord] at h
  split at h
  · cases h
    rfl
  · dsimp only at h
    split at h
    · cases h
      rfl
    · rcases Option.map_eq_some_iff.1 h with ⟨u, hdrop, rfl⟩
      rw [hend]
      exact (dropFile_sameCalls P hdrop).clients

theorem acknowledge_clients {p : SessionT} : (s.acknowledge p token).clients = s.clients := by
  rw [acknowledge]
  split
  · rfl
  · split
    · dsimp only
      split
      · rfl
      · rfl
    · rfl

/-- The connections change by themselves only. -/
theorem apply_clients (h : s.apply P e = some t)
    (hother : ∀ clients players, e ≠ .clientsChanged clients players) : t.clients = s.clients := by
  cases e with
  | addMediaFile filename filepath =>
    cases h
    rw [addMediaFile]
    split
    · rfl
    · rfl
  | addMediaOfMod a temp =>
    cases h
    exact (addMediaOfMod_frame P).1
  | addMediaOfEngine a temp =>
    cases h
    exact dynamicAddMedia_clients P
  | haveMedia p data =>
    have hall : ∀ (tokens : List UInt32) (s : MediaServer Time),
        (tokens.foldl (acknowledge p) s).clients = s.clients := by
      intro tokens
      induction tokens with
      | nil => exact fun s => rfl
      | cons token tokens ih => exact fun s => (ih _).trans acknowledge_clients
    rw [MediaServer.apply] at h
    split at h
    · cases h
      rw [handleCommandHaveMedia]
      split
      · rfl
      · exact hall _ s
    · cases h
      rfl
  | stepPending dtime =>
    exact foldlM_invariant (P := fun u => u.clients = s.clients)
      (fun u token v hu hround => (stepRecord_clients P hround).trans hu) rfl h
  | clientsChanged clients players => exact absurd rfl (hother clients players)
  | fileChanged path content =>
    cases h
    rfl
  | envCreated =>
    cases h
    rfl
  | httpStarted =>
    cases h
    rfl

theorem plainKept_dropFile (h : s.dropFile P name = some t) : PlainKept s t := by
  rw [dropFile] at h
  split at h
  · cases h
    exact .of_eq rfl
  split at h
  · cases h
  case h_2 info hinfo =>
    split at h
    case isFalse => cases h
    case isTrue hephemeral =>
      cases h
      refine .of_erase rfl fun info' hinfo' => ?_
      rw [hinfo] at hinfo'
      cases hinfo'
      exact hephemeral

theorem plainKept_stepRecord (h : s.stepRecord P dtime token = some t) : PlainKept s t := by
  rw [stepRecord] at h
  split at h
  · cases h
    exact .of_eq rfl
  · dsimp only at h
    split at h
    · cases h
      exact .of_eq rfl
    · rcases Option.map_eq_some_iff.1 h with ⟨u, hdrop, rfl⟩
      exact (plainKept_dropFile P hdrop).trans (.of_eq (endRecord_frame _ _).1)

theorem plainKept_apply (h : s.apply P e = some t) : PlainKept s t := by
  cases e with
  | addMediaFile filename filepath =>
    cases h
    exact plainKept_addMediaFile P
  | addMediaOfMod a temp =>
    cases h
    have hregister : PlainKept s (if a.token = 0 then s else
        { s with log := .registered a.token :: s.log }) := by
      split
      · exact .of_eq rfl
      · exact .of_eq rfl
    rw [addMediaOfMod]
    have hcall := hregister.trans (plainKept_dynamicAddMedia P a temp)
    split
    case h_1 u heq =>
      rw [heq] at hcall
      refine hcall.trans ?_
      rw [freeDynamicMediaCallback]
      split
      · exact .of_eq rfl
      · exact .of_eq rfl
    case h_2 u outcome _ heq =>
      rw [heq] at hcall
      exact hcall
  | addMediaOfEngine a temp =>
    cases h
    exact plainKept_addMediaOfEngine P
  | haveMedia p data =>
    have hround : ∀ s : MediaServer Time, ∀ token, PlainKept s (s.acknowledge p token) := by
      intro s token
      rw [acknowledge]
      split
      · exact .of_eq rfl
      · split
        · dsimp only
          split
          · exact .of_eq rfl
          · exact .of_eq rfl
        · exact .of_eq rfl
    have hall : ∀ (tokens : List UInt32) (s : MediaServer Time),
        PlainKept s (tokens.foldl (acknowledge p) s) := by
      intro tokens
      induction tokens with
      | nil => exact fun s => .of_eq rfl
      | cons token tokens ih => exact fun s => (hround s token).trans (ih _)
    rw [MediaServer.apply] at h
    split at h
    · cases h
      rw [handleCommandHaveMedia]
      split
      · exact .of_eq rfl
      · exact hall _ s
    · cases h
      exact .of_eq rfl
  | stepPending dtime =>
    exact foldlM_invariant (P := PlainKept s)
      (fun u token v hu hround => hu.trans (plainKept_stepRecord P hround)) (.of_eq rfl) h
  | fileChanged path content =>
    cases h
    exact .of_eq rfl
  | clientsChanged clients players =>
    cases h
    exact .of_eq rfl
  | envCreated =>
    cases h
    exact .of_eq rfl
  | httpStarted =>
    cases h
    exact .of_eq rfl

end

end MediaServer

end DynamicMedia
end AxisEngine
