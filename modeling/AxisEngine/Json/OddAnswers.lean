import AxisEngine.Lib.Decimal
import AxisEngine.Lib.Returns
import AxisEngine.Login.Handshake
import AxisEngine.Menu.Matchmaking
import AxisEngine.Skins.Worn

/-!
# OddAnswers — answers whose fields have unexpected types

The account service and the dispatcher answer in JSON.  Their readers take a field for a text, a number or a
truth value; JsonCpp throws for a value that it cannot convert, and nothing above the readers catches that.

* `Value` — `Json::Value`, with the conversions of JsonCpp;
* `field`, `objects` — `get` with a conversion, and the objects in an array;
* `readAccountServiceAnswer`, `stepRefresh` — the readers of the server;
* `netAnswer`, `modesAnswered`, `readQueue`, `enterMatch`, `refusal` — those of the menu;
* `Fields`, `ModesFit`, `QueueFits`, ... — the types that they need.

The reader of JsonCpp is a parameter: it finds a value or not, and throws for what is nested too deeply.
-/

namespace AxisEngine
namespace Json

open Lib Login Menu Skins

/-! ## Values -/

/-- `Json::Value`; of a number with a fraction, what its conversions give. -/
inductive Value
  | null
  | bool (b : Bool)
  | int (n : ℤ)
  | real (text : Bytes) (whole : Option ℤ) (truth : Bool)
  | string (s : Bytes)
  | array (elements : List Value)
  | object (members : List (Bytes × Value))

abbrev Object := List (Bytes × Value)

/-- What JsonCpp throws. -/
inductive Error
  | noString
  | noInt
  | noBool
  | stackLimit

abbrev Reader := Bytes → Except Error (Option Value)

namespace Value

def asString : Value → Except Error Bytes
  | .null => .ok []
  | .bool b => .ok (if b then ascii "true" else ascii "false")
  | .int n => .ok (if n < 0 then ascii "-" ++ decimal n.natAbs else decimal n.natAbs)
  | .real text _ _ => .ok text
  | .string s => .ok s
  | .array _ => .error .noString
  | .object _ => .error .noString

def asInt : Value → Except Error ℤ
  | .null => .ok 0
  | .bool b => .ok (if b then 1 else 0)
  | .int n => if -2 ^ 31 ≤ n ∧ n < 2 ^ 31 then .ok n else .error .noInt
  | .real _ (some n) _ => .ok n
  | _ => .error .noInt

def asBool : Value → Except Error Bool
  | .null => .ok false
  | .bool b => .ok b
  | .int n => .ok (n ≠ 0)
  | .real _ _ truth => .ok truth
  | _ => .error .noBool

def object? : Value → Option Object
  | .object members => some members
  | _ => none

/-- What a loop over the value goes through. -/
def elements : Value → List Value
  | .array vs => vs
  | .object members => members.map Prod.snd
  | _ => []

/-- The types that a conversion takes. -/
inductive Wanted
  | text
  | number
  | truth

def Fits : Wanted → Value → Prop
  | _, .array _ => False
  | _, .object _ => False
  | .text, _ => True
  | _, .string _ => False
  | .number, .int n => -2 ^ 31 ≤ n ∧ n < 2 ^ 31
  | .number, .real _ whole _ => whole.isSome
  | _, _ => True

end Value

open Value

/-! ## Fields -/

section

variable {α : Type}

/-- `get` and a conversion; `none`: no such field, and the default is taken. -/
def field (convert : Value → Except Error α) (o : Object) (key : Bytes) : Except Error (Option α) :=
  match o.lookup key with
  | none => .ok none
  | some v => some <$> convert v

/-- The objects that a loop over the field finds. -/
def objects (read : Object → Except Error α) (o : Object) (key : Bytes) :
    Except Error (List (Option α)) :=
  ((o.lookup key).elim [] elements).mapM fun v =>
    match v.object? with
    | none => .ok none
    | some e => some <$> read e

/-- What is no object is as good as nothing. -/
def readObject (read : Reader) (data : Bytes) : Except Error (Option Object) :=
  (fun v => v.bind object?) <$> read data

end

/-! ## The server -/

/-- Whether the answer is good, and `*id` and `*reason` afterwards. -/
def readAccountServiceAnswer (read : Reader) (res : HTTPFetchResult) (id : TicketIdentity)
    (reason : Bytes) : Except Error (Bool × TicketIdentity × Bytes) :=
  if !res.succeeded then .ok (false, id, ascii "service_unreachable")
  else do
    match ← readObject read res.data with
    | none => return (false, id, ascii "service_unreadable")
    | some answer =>
      if res.responseCode ≠ 200 then
        let error ← field asString answer (ascii "error")
        return (false, id, error.getD (ascii "refused"))
      else
        let login := (← field asString answer (ascii "login")).getD []
        let display := (← field asString answer (ascii "display")).getD []
        if login ≠ [] ∧ login ≠ id.login then
          return (false, id, ascii "ticket_mismatch")
        else
          return (true, { id with display := if display = [] then id.display else display }, reason)

/-- The answer of the skins that is read: not one that says nothing. -/
def taken {Time : Type} (s : SkinServer Time) (answer : Option HttpAnswer) : Option HttpAnswer :=
  if s.settings.avatarsEnabled ∧ s.skins.asking then
    answer.filter fun res => res.succeeded ∧ res.responseCode = 200
  else none

/-- What the service says of a user -/
def wornText (worn : Object) (uid : Bytes) : Option Bytes :=
  match field asString worn uid with
  | .ok now => some (now.getD [])
  | .error _ => none

/-- The object `answer["skins"]` -/
def readSkins (read : Reader) (data : Bytes) : Except Error (Option (Bytes → Option Bytes)) := do
  let answer ← readObject read data
  return (answer.bind fun o => (o.lookup (ascii "skins")).bind object?).map wornText

/-- The step, when the skins of the answer have been read -/
def refreshWith {Time : Type} (P : Outside Time) (s : SkinServer Time) (dtime : Time)
    (answer : Option HttpAnswer) (skins : Option (Bytes → Option Bytes)) : Except Error (SkinServer Time) :=
  match SkinServer.stepRefresh { P with readSkins := fun _ => skins } s dtime answer with
  | some t => .ok t
  | none => .error .noString

def stepRefresh {Time : Type} (P : Outside Time) (read : Reader) (s : SkinServer Time) (dtime : Time)
    (answer : Option HttpAnswer) : Except Error (SkinServer Time) :=
  match taken s answer with
  | none => refreshWith P s dtime answer none
  | some res => do
      let skins ← readSkins read res.data
      refreshWith P s dtime answer skins

/-! ## The menu -/

/-- `Net::Answer` -/
structure NetAnswer where
  reached : Bool := false
  code : ℤ := 0
  body : Value := .null

/-- What `Net::poll` makes of a result. -/
def netAnswer (read : Reader) (res : HTTPFetchResult) : Except Error NetAnswer := do
  let body ← if res.data = [] then .ok none else read res.data
  return ⟨res.succeeded, res.responseCode, body.getD .null⟩

namespace NetAnswer

def decode (res : NetAnswer) : Option Object :=
  if res.reached ∧ res.code = 200 then res.body.object? else none

/-- The answer with the fields that were read. -/
def withBody (res : NetAnswer) (body : Option Body) : Menu.Answer where
  reached := res.reached
  code := res.code
  body := body

end NetAnswer

def readMode (mode : Object) : Except Error ModeBody := do
  let id ← field asString mode (ascii "id")
  let title ← field asString mode (ascii "title")
  let waiting ← field asInt mode (ascii "waiting")
  let players ← field asInt mode (ascii "players")
  let party ← field asBool mode (ascii "party")
  let crate ← field asString mode (ascii "crate")
  return { id, title, waiting, players, party, crate }

def readCrate (crate : Object) : Except Error CrateBody := do
  let id ← field asString crate (ascii "id")
  let title ← field asString crate (ascii "title")
  let author ← field asString crate (ascii "author")
  let description ← field asString crate (ascii "description")
  let cover ← field asString crate (ascii "cover")
  return { id, title, author, description, cover }

def readMember (member : Object) : Except Error MemberBody := do
  let login ← field asString member (ascii "login")
  let name ← field asString member (ascii "name")
  let skin ← field asString member (ascii "skin")
  let face ← field asString member (ascii "face")
  let host ← field asBool member (ascii "host")
  return { login, name, skin, face, host }

/-- The callback of `refreshModes` -/
def modesAnswered (s : State) (asked : Bytes) (epoch : ℕ) (res : NetAnswer) : Except Error State :=
  if epoch ≠ s.epoch then .ok s
  else match res.decode with
    | none => .ok (s.modesAnswered asked (res.withBody none))
    | some body => do
        let modes ← objects readMode body (ascii "modes")
        let crates ← objects readCrate body (ascii "crates")
        return s.modesAnswered asked (res.withBody (some { modes, crates }))

def readQueue (s : State) (body : Object) (granter : Bytes) : Except Error State := do
  let mode ← field asString body (ascii "mode")
  let title ← field asString body (ascii "title")
  let room ← field asString body (ascii "room")
  let roomState ← field asString body (ascii "room_state")
  let waiting ← field asInt body (ascii "waiting")
  let needed ← field asInt body (ascii "needed")
  let startsIn ← field asInt body (ascii "starts_in")
  let min ← field asInt body (ascii "min")
  let code ← field asString body (ascii "code")
  let host ← field asBool body (ascii "host")
  let started ← field asBool body (ascii "started")
  let members ← objects readMember body (ascii "members")
  return s.readQueue
    { mode, title, room, roomState, waiting, needed, startsIn, min, code, host, started, members } granter

/-- The title is for the game that is entered, and asked for only then. -/
def enterMatch (s : State) (body : Object) : Except Error (Option State) := do
  let address ← field asString body (ascii "address")
  let port ← field asInt body (ascii "port")
  if address.getD [] = [] ∨ port.getD 0 ≤ 0 ∨ ¬ s.shown then
    return s.enterMatch { address, port }
  else
    let mode ← field asString body (ascii "mode")
    let title ← field asString body (ascii "title")
    return s.enterMatch { address, port, mode, title }

def refusal (res : NetAnswer) : Except Error Bytes :=
  match res.body.object? with
  | none => .ok (Menu.refusal (res.withBody none))
  | some body => do
      let error ← field asString body (ascii "error")
      return Menu.refusal (res.withBody (some { error }))

/-! ## The types that are needed -/

/-- The field, if it is there, has a type that the conversion takes. -/
def FieldFits (kind : Wanted) (o : Object) (key : Bytes) : Prop :=
  ∀ v, o.lookup key = some v → v.Fits kind

def Fields (o : Object) (fields : List (Wanted × Bytes)) : Prop :=
  ∀ f ∈ fields, FieldFits f.1 o f.2

/-- So it is with all objects in the field. -/
def Each (fits : Object → Prop) (o : Object) (key : Bytes) : Prop :=
  ∀ e, .object e ∈ (o.lookup key).elim [] elements → fits e

def ModeFits (mode : Object) : Prop :=
  Fields mode [(.text, ascii "id"), (.text, ascii "title"), (.number, ascii "waiting"),
    (.number, ascii "players"), (.truth, ascii "party"), (.text, ascii "crate")]

def CrateFits (crate : Object) : Prop :=
  Fields crate [(.text, ascii "id"), (.text, ascii "title"), (.text, ascii "author"),
    (.text, ascii "description"), (.text, ascii "cover")]

def MemberFits (member : Object) : Prop :=
  Fields member [(.text, ascii "login"), (.text, ascii "name"), (.text, ascii "skin"),
    (.text, ascii "face"), (.truth, ascii "host")]

def QueueFits (body : Object) : Prop :=
  Fields body [(.text, ascii "mode"), (.text, ascii "title"), (.text, ascii "room"),
    (.text, ascii "room_state"), (.number, ascii "waiting"), (.number, ascii "needed"),
    (.number, ascii "starts_in"), (.number, ascii "min"), (.text, ascii "code"),
    (.truth, ascii "host"), (.truth, ascii "started")] ∧
  Each MemberFits body (ascii "members")

/-- The title matters where a match is named and the screen is there. -/
def MatchFits (shown : Bool) (body : Object) : Prop :=
  Fields body [(.text, ascii "address"), (.number, ascii "port")] ∧
  ∀ address port, field asString body (ascii "address") = .ok address →
    field asInt body (ascii "port") = .ok port →
    address.getD [] ≠ [] → 0 < port.getD 0 → shown = true →
    Fields body [(.text, ascii "mode"), (.text, ascii "title")]

def AccountFits (code : ℤ) (answer : Object) : Prop :=
  Fields answer (if code = 200 then [(.text, ascii "login"), (.text, ascii "display")]
    else [(.text, ascii "error")])

/-- What is worn by those that are asked about -/
def SkinsFit {Time : Type} (s : SkinServer Time) (answer : Object) : Prop :=
  ∀ worn, answer.lookup (ascii "skins") = some (.object worn) →
    ∀ p ∈ getClientIDs s.server.clients, ∀ id, getClientIdentity s.server.clients p = some id →
      id.uid ≠ [] → FieldFits .text worn id.uid

/-! ## What returns -/

section

variable {α : Type} {o : Object} {key : Bytes} {v : Value}

theorem returns_asString : Returns v.asString ↔ v.Fits .text := by
  cases v <;> simp [Returns, asString, Value.Fits]

theorem returns_asInt : Returns v.asInt ↔ v.Fits .number := by
  cases v with
  | int n =>
    rw [asInt]
    split <;> simp_all [Returns, Value.Fits]
  | real text whole truth => cases whole <;> simp [Returns, asInt, Value.Fits]
  | _ => simp [Returns, asInt, Value.Fits]

theorem returns_asBool : Returns v.asBool ↔ v.Fits .truth := by
  cases v <;> simp [Returns, asBool, Value.Fits, em]

theorem returns_field {convert : Value → Except Error α} {kind : Wanted}
    (h : ∀ v, Returns (convert v) ↔ v.Fits kind) :
    Returns (field convert o key) ↔ FieldFits kind o key := by
  rw [field, FieldFits]
  cases o.lookup key with
  | none => simp [Returns]
  | some v => simp [returns_map, h]

theorem returns_text : (∃ a, field asString o key = .ok a) ↔ FieldFits .text o key :=
  returns_field fun _ => returns_asString

theorem returns_number : (∃ a, field asInt o key = .ok a) ↔ FieldFits .number o key :=
  returns_field fun _ => returns_asInt

theorem returns_truth : (∃ a, field asBool o key = .ok a) ↔ FieldFits .truth o key :=
  returns_field fun _ => returns_asBool

theorem returns_objects {read : Object → Except Error α} {fits : Object → Prop}
    (h : ∀ e, Returns (read e) ↔ fits e) :
    (∃ a, objects read o key = .ok a) ↔ Each fits o key := by
  refine returns_mapM.trans ⟨fun hall e he => ?_, fun hall v hv => ?_⟩
  · exact (h e).1 ((returns_map _).1 (hall _ he))
  · cases v with
    | object e => exact (returns_map _).2 ((h e).2 (hall e hv))
    | _ => exact ⟨none, rfl⟩

theorem returns_readMode : Returns (readMode o) ↔ ModeFits o := by
  simp [-bind_pure_comp, readMode, ModeFits, Fields, returns_bind, returns_pure, returns_text,
    returns_number, returns_truth]

theorem returns_readCrate : Returns (readCrate o) ↔ CrateFits o := by
  simp [-bind_pure_comp, readCrate, CrateFits, Fields, returns_bind, returns_pure, returns_text]

theorem returns_readMember : Returns (readMember o) ↔ MemberFits o := by
  simp [-bind_pure_comp, readMember, MemberFits, Fields, returns_bind, returns_pure, returns_text,
    returns_truth]

theorem returns_readQueue (s : State) (granter : Bytes) :
    Returns (readQueue s o granter) ↔ QueueFits o := by
  simp [-bind_pure_comp, readQueue, QueueFits, Fields, returns_bind, returns_pure, returns_text, returns_number,
    returns_truth, returns_objects fun e => returns_readMember (o := e), and_assoc]

theorem returns_modesAnswered (s : State) (asked : Bytes) (epoch : ℕ) (res : NetAnswer) :
    Returns (modesAnswered s asked epoch res) ↔ (epoch = s.epoch → ∀ body ∈ res.decode,
      Each ModeFits body (ascii "modes") ∧ Each CrateFits body (ascii "crates")) := by
  rw [modesAnswered]
  split
  case isTrue hepoch => exact ⟨fun _ heq => absurd heq hepoch, fun _ => ⟨s, rfl⟩⟩
  case isFalse hepoch =>
    rw [not_not] at hepoch
    cases res.decode with
    | none => simp [Returns]
    | some body =>
      simp [-bind_pure_comp, hepoch, returns_bind, returns_pure,
        returns_objects fun e => returns_readMode (o := e),
        returns_objects fun e => returns_readCrate (o := e)]

theorem returns_enterMatch (s : State) : Returns (enterMatch s o) ↔ MatchFits s.shown o := by
  rw [enterMatch, MatchFits]
  cases haddress : field asString o (ascii "address") with
  | error e => simp [Returns, Fields, ← returns_text, haddress]
  | ok address =>
    cases hport : field asInt o (ascii "port") with
    | error e => simp [Returns, Fields, ← returns_number, hport]
    | ok port =>
      simp [-bind_pure_comp, Fields, ← returns_text, ← returns_number, haddress, hport,
        returns_ite, returns_bind, returns_pure]

theorem returns_refusal (res : NetAnswer) :
    Returns (refusal res) ↔ ∀ body ∈ res.body.object?, FieldFits .text body (ascii "error") := by
  rw [refusal]
  cases res.body.object? with
  | none => simp [Returns]
  | some body => simp [-bind_pure_comp, returns_bind, returns_pure, returns_text]

theorem returns_netAnswer (read : Reader) (res : HTTPFetchResult) :
    Returns (netAnswer read res) ↔ res.data = [] ∨ Returns (read res.data) := by
  by_cases hdata : res.data = []
  · simp [netAnswer, hdata, Returns]
  · simp [netAnswer, hdata, returns_map]

theorem returns_readAccountServiceAnswer (read : Reader) (res : HTTPFetchResult) (id : TicketIdentity)
    (reason : Bytes) : Returns (readAccountServiceAnswer read res id reason) ↔
      (res.succeeded = true → ∃ answer, readObject read res.data = .ok answer ∧
        ∀ o ∈ answer, AccountFits res.responseCode o) := by
  rw [readAccountServiceAnswer]
  cases res.succeeded with
  | false => simp [Returns]
  | true =>
    simp only [Bool.not_true, Bool.false_eq_true, if_false, forall_const, returns_bind]
    refine exists_congr fun answer => and_congr_right fun _ => ?_
    cases answer with
    | none => simp [returns_pure]
    | some o =>
      by_cases hcode : res.responseCode = 200
      · simp [-bind_pure_comp, hcode, AccountFits, Fields, returns_bind, returns_ite, returns_pure,
          returns_text]
      · simp [-bind_pure_comp, hcode, AccountFits, Fields, returns_bind, returns_pure, returns_text]

/-- A refusal leaves the identity alone. -/
theorem id_of_refused {read : Reader} {res : HTTPFetchResult} {id id' : TicketIdentity}
    {reason reason' : Bytes}
    (h : readAccountServiceAnswer read res id reason = .ok (false, id', reason')) : id' = id := by
  rw [readAccountServiceAnswer] at h
  split at h
  · cases h
    rfl
  · rcases bind_eq_ok.1 h with ⟨answer, -, h⟩
    cases answer with
    | none =>
      cases h
      rfl
    | some o =>
      dsimp only at h
      split at h
      · rcases bind_eq_ok.1 h with ⟨error, -, h⟩
        cases h
        rfl
      · rcases bind_eq_ok.1 h with ⟨login, -, h⟩
        rcases bind_eq_ok.1 h with ⟨display, -, h⟩
        split at h
        · cases h
          rfl
        · cases h

end

section

variable {Time : Type} {s t : SkinServer Time} {worn : Bytes → Option Bytes} {ps : List SessionT}

theorem object?_eq_some {v : Value} {o : Object} : v.object? = some o ↔ v = .object o := by
  cases v <;> simp [object?]

theorem exists_wornText {o : Object} {uid : Bytes} :
    (∃ now, wornText o uid = some now) ↔ FieldFits .text o uid := by
  rw [← returns_text, wornText]
  cases field asString o uid with
  | error e => simp
  | ok now => simp

theorem exists_refreshClient {p : SessionT} : (∃ t, SkinServer.refreshClient worn s p = some t) ↔
    ∀ id, getClientIdentity s.server.clients p = some id → id.uid ≠ [] →
      ∃ now, worn id.uid = some now := by
  rw [SkinServer.refreshClient]
  cases getClientIdentity s.server.clients p with
  | none => simp
  | some id => by_cases huid : id.uid = [] <;> simp [huid]

/-- The loop ends if the service has a text for everyone who is asked about. -/
theorem exists_refreshClients (hnodup : ps.Nodup)
    (hactive : ∀ p ∈ ps, ∃ c, s.server.clients.lookup p = some c ∧ ClientState.active ≤ c.state) :
    (∃ t, ps.foldlM (SkinServer.refreshClient worn) s = some t) ↔
      ∀ p ∈ ps, ∃ t, SkinServer.refreshClient worn s p = some t := by
  induction ps generalizing s with
  | nil => exact ⟨fun _ p hp => absurd hp List.not_mem_nil, fun _ => ⟨s, rfl⟩⟩
  | cons p ps ih =>
    rcases List.nodup_cons.1 hnodup with ⟨hp, hnodup⟩
    rcases List.forall_mem_cons.1 hactive with ⟨⟨c, hc, hcactive⟩, hactive⟩
    rw [List.foldlM_cons, List.forall_mem_cons]
    cases hu : SkinServer.refreshClient worn s p with
    | none => simp
    | some u =>
      -- the round leaves the other players as they are
      have hothers : ∀ q ∈ ps, u.server.clients.lookup q = s.server.clients.lookup q :=
        fun q hq => (SkinServer.refreshClient_spec hc hcactive hu).2.1 q (ne_of_mem_of_not_mem hq hp)
      have hrest := ih hnodup fun q hq => by
        rw [hothers q hq]
        exact hactive q hq
      simp only [Option.bind_eq_bind, Option.bind_some, hrest, Option.some.injEq, exists_eq',
        true_and]
      refine forall₂_congr fun q hq => ?_
      rw [exists_refreshClient, exists_refreshClient, SkinServer.getClientIdentity_eq,
        SkinServer.getClientIdentity_eq, hothers q hq]

theorem exists_stepRefresh (P : Outside Time) (dtime : Time) (answer : Option HttpAnswer) :
    (∃ t, SkinServer.stepRefresh P s dtime answer = some t) ↔
      ∀ res ∈ taken s answer, ∀ worn, P.readSkins res.data = some worn →
        ∀ p ∈ getClientIDs s.server.clients, ∃ t, SkinServer.refreshClient worn s p = some t := by
  have hclients : ∀ worn, (∃ t, (P.orderOf (getClientIDs s.server.clients)).foldlM
      (SkinServer.refreshClient worn) (s.setAsk s.skins.askIn false) = some t) ↔
      ∀ p ∈ getClientIDs s.server.clients, ∃ t, SkinServer.refreshClient worn s p = some t := by
    intro worn
    have hall := @exists_refreshClients _ (s.setAsk s.skins.askIn false) worn _
      ((P.orderOf_perm _).nodup_iff.2 (SkinServer.nodup_getClientIDs s.server.clients))
      fun p hp => SkinServer.mem_getClientIDs.1 ((P.orderOf_perm _).mem_iff.1 hp)
    simp only [(P.orderOf_perm _).mem_iff, exists_refreshClient] at hall ⊢
    exact hall
  unfold SkinServer.stepRefresh taken
  cases hon : s.settings.avatarsEnabled with
  | false => simp
  | true =>
    cases hasking : s.skins.asking with
    | false =>
      simp only [Bool.false_eq_true, if_false, and_false, reduceCtorEq, Option.mem_def]
      split
      · simp
      · split <;> simp
    | true =>
      cases answer with
      | none => simp
      | some res =>
        unfold SkinServer.takeAnswer
        by_cases hok : res.succeeded = true ∧ res.responseCode = 200
        · cases hread : P.readSkins res.data with
          | none => simp [hok, Option.filter, hread]
          | some worn => simpa [hok, Option.filter, hread, SkinServer.setAsk] using hclients worn
        · have hfailed : res.succeeded = false ∨ res.responseCode ≠ 200 := by
            rw [← Bool.not_eq_true]
            exact not_and_or.1 hok
          simp [hok, hfailed, Option.filter]

theorem returns_refreshWith (P : Outside Time) (dtime : Time) (answer : Option HttpAnswer)
    (skins : Option (Bytes → Option Bytes)) : Returns (refreshWith P s dtime answer skins) ↔
      ∀ res ∈ taken s answer, ∀ worn ∈ skins,
        ∀ p ∈ getClientIDs s.server.clients, ∃ t, SkinServer.refreshClient worn s p = some t := by
  refine Iff.trans ?_ (exists_stepRefresh { P with readSkins := fun _ => skins } dtime answer)
  rw [refreshWith]
  cases SkinServer.stepRefresh { P with readSkins := fun _ => skins } s dtime answer with
  | none => simp [Returns]
  | some t => simp [Returns]

theorem skinsFit_iff {body : Option Object} :
    (∀ worn ∈ (body.bind fun o => (o.lookup (ascii "skins")).bind object?).map wornText,
      ∀ p ∈ getClientIDs s.server.clients, ∃ t, SkinServer.refreshClient worn s p = some t) ↔
      ∀ o ∈ body, SkinsFit s o := by
  cases body with
  | none => simp
  | some o =>
    simp [SkinsFit, exists_refreshClient, exists_wornText, Option.bind_eq_some_iff, object?_eq_some]

theorem returns_stepRefresh (P : Outside Time) (read : Reader) (s : SkinServer Time) (dtime : Time)
    (answer : Option HttpAnswer) : Returns (stepRefresh P read s dtime answer) ↔
      ∀ res ∈ taken s answer, ∃ body, readObject read res.data = .ok body ∧ ∀ o ∈ body, SkinsFit s o := by
  rw [stepRefresh]
  cases htaken : taken s answer with
  | none => simp [returns_refreshWith]
  | some res =>
    simp only [returns_bind, returns_refreshWith, htaken, readSkins, bind_eq_ok, Option.mem_some,
      forall_eq']
    constructor
    · rintro ⟨_, ⟨body, hbody, hskins⟩, hall⟩
      cases hskins
      exact ⟨body, hbody, skinsFit_iff.1 hall⟩
    · rintro ⟨body, hbody, hall⟩
      exact ⟨_, ⟨body, hbody, rfl⟩, skinsFit_iff.2 hall⟩

end

/-- A reader returns exactly for fields of the types that it converts. -/
theorem answers_return (read : Reader) :
    (∀ res id reason, Returns (readAccountServiceAnswer read res id reason) ↔
      (res.succeeded = true → ∃ answer, readObject read res.data = .ok answer ∧
        ∀ o ∈ answer, AccountFits res.responseCode o)) ∧
    (∀ res id reason id' reason', readAccountServiceAnswer read res id reason = .ok (false, id', reason') →
      id' = id) ∧
    (∀ (Time : Type) (P : Outside Time) s dtime answer, Returns (stepRefresh P read s dtime answer) ↔
      ∀ res ∈ taken s answer, ∃ body, readObject read res.data = .ok body ∧ ∀ o ∈ body, SkinsFit s o) ∧
    (∀ res, Returns (netAnswer read res) ↔ res.data = [] ∨ Returns (read res.data)) ∧
    (∀ s asked epoch res, Returns (modesAnswered s asked epoch res) ↔
      (epoch = s.epoch → ∀ body ∈ res.decode,
        Each ModeFits body (ascii "modes") ∧ Each CrateFits body (ascii "crates"))) ∧
    (∀ s body granter, Returns (readQueue s body granter) ↔ QueueFits body) ∧
    (∀ s body, Returns (enterMatch s body) ↔ MatchFits s.shown body) ∧
    ∀ res, Returns (refusal res) ↔ ∀ body ∈ res.body.object?, FieldFits .text body (ascii "error") :=
  ⟨returns_readAccountServiceAnswer read, fun _ _ _ _ _ => id_of_refused,
    fun _ P => returns_stepRefresh P read, returns_netAnswer read, returns_modesAnswered,
    fun s _ => returns_readQueue s, fun s _ => returns_enterMatch s, returns_refusal⟩

/-- A refusal with a list for its error throws. -/
theorem account_service_throws :
    ¬ Returns (readAccountServiceAnswer
      (fun _ => .ok (some (.object [(ascii "error", .array [])])))
      { succeeded := true, responseCode := 403, data := ascii "\x7b\"error\":[]\x7d" } {} []) :=
  fun ⟨_, h⟩ => nomatch h

end Json
end AxisEngine
