import AxisEngine.Login.ClientInterface

/-!
# Ticket — who a connection is, really

A ticket is `a1.<payload>.<signature>`.  The signature is checked first; the payload then says who
its owner is, what they wear, and which server it was issued for.

* `TicketReader` — what is taken from outside: decoding, the signature and the JSON;
* `checkTicket` — whether a ticket is good here and now;
* `isHash`, `checkTicket_skin` — what a skin may be.
-/

namespace AxisEngine
namespace Login

open Lib

inductive TicketError
  | malformed | badSignature | expired | wrongServer | nameMismatch
deriving DecidableEq

/-- The fields of a payload; what is missing is empty or zero. -/
structure TicketPayload where
  uid : Bytes := []
  login : Bytes := []
  name : Bytes := []
  exp : Int := 0
  skn : Bytes := []
  srv : Bytes := []

structure TicketReader where
  base64urlDecode : Bytes → Bytes
  /-- `ed25519::verify` with the built-in key: what is signed, and the signature. -/
  verify : Bytes → Bytes → Bool
  /-- `none`: no JSON, or no object. -/
  readPayload : Bytes → Option TicketPayload

def ticketPrefix : Bytes := ascii "a1"

/-- `find` and `rfind` of a dot. -/
def findDot (s : Bytes) : Option Nat :=
  s.idxOf? 46

def rfindDot (s : Bytes) : Option Nat :=
  s.reverse.idxOf? 46 |>.map fun n => s.length - 1 - n

/-- A skin is named by the digits of a hash. -/
def isHash (skin : Bytes) : Bool :=
  skin.length = 64 && skin.all fun c => (ascii "0123456789abcdef").contains c

def identityOf (payload : TicketPayload) : TicketIdentity :=
  { uid := payload.uid
    login := payload.login
    display := if payload.name = [] then payload.login else payload.name
    expires := payload.exp
    -- anything but a hash is nothing
    skin := if isHash payload.skn then payload.skn else [] }

def checkPayload (now : Int) (payload : TicketPayload) (expectLogin serverId : Bytes) :
    Except TicketError TicketIdentity :=
  if payload.uid = [] ∨ payload.login = [] then .error .malformed
  else if payload.exp ≤ now then .error .expired
  else if payload.srv = [] ∨ serverId = [] ∨ payload.srv ≠ serverId then .error .wrongServer
  else if payload.login ≠ expectLogin then .error .nameMismatch
  else .ok (identityOf payload)

def checkTicket (T : TicketReader) (now : Int) (ticket expectLogin serverId : Bytes) :
    Except TicketError TicketIdentity :=
  match findDot ticket, rfindDot ticket with
  | some firstDot, some lastDot =>
    if firstDot = lastDot then .error .malformed
    else if ticket.take firstDot ≠ ticketPrefix then .error .malformed
    else
      let signedPart := ticket.take lastDot
      let payloadRaw := T.base64urlDecode ((ticket.take lastDot).drop (firstDot + 1))
      let signature := T.base64urlDecode (ticket.drop (lastDot + 1))
      if payloadRaw = [] ∨ signature = [] then .error .malformed
      -- until it checks out the payload is just bytes
      else if !T.verify signedPart signature then .error .badSignature
      else
        match T.readPayload payloadRaw with
        | none => .error .malformed
        | some payload => checkPayload now payload expectLogin serverId
  | _, _ => .error .malformed

/-- A skin that a name can be built out of. -/
def SkinOk (skin : Bytes) : Prop :=
  skin = [] ∨ isHash skin = true

section

variable {T : TicketReader} {now : Int} {ticket expectLogin serverId skin : Bytes}
  {id : TicketIdentity}

theorem skinOk_identityOf (payload : TicketPayload) : SkinOk (identityOf payload).skin := by
  rw [identityOf]
  dsimp only
  split
  case isTrue h => exact .inr h
  case isFalse => exact .inl rfl

theorem checkPayload_eq_ok {payload : TicketPayload}
    (h : checkPayload now payload expectLogin serverId = .ok id) :
    payload.login = expectLogin ∧ id = identityOf payload := by
  rw [checkPayload] at h
  split at h
  · cases h
  split at h
  · cases h
  split at h
  · cases h
  split at h
  · cases h
  case isFalse hlogin =>
    cases h
    exact ⟨not_not.1 hlogin, rfl⟩

/-- A ticket that is good comes down to its payload. -/
theorem checkTicket_eq_ok (h : checkTicket T now ticket expectLogin serverId = .ok id) :
    ∃ payload, payload.login = expectLogin ∧ id = identityOf payload := by
  rw [checkTicket] at h
  split at h
  case h_2 => cases h
  case h_1 firstDot lastDot _ _ =>
    dsimp only at h
    split at h
    · cases h
    split at h
    · cases h
    split at h
    · cases h
    split at h
    · cases h
    split at h
    · cases h
    case h_2 payload _ => exact ⟨payload, checkPayload_eq_ok h⟩

theorem checkTicket_skin (h : checkTicket T now ticket expectLogin serverId = .ok id) :
    SkinOk id.skin := by
  rcases checkTicket_eq_ok h with ⟨payload, -, rfl⟩
  exact skinOk_identityOf payload

/-- The digits of a hash are no part of a path. -/
theorem SkinOk.no_delimiter (h : SkinOk skin) : 47 ∉ skin ∧ 92 ∉ skin ∧ 46 ∉ skin := by
  rcases h with rfl | h
  · exact ⟨List.not_mem_nil, List.not_mem_nil, List.not_mem_nil⟩
  · rw [isHash, Bool.and_eq_true, List.all_eq_true] at h
    have hnot : ∀ c : UInt8, (ascii "0123456789abcdef").contains c = false → c ∉ skin := by
      intro c hc hmem
      have hdigit := h.2 c hmem
      rw [hc] at hdigit
      cases hdigit
    exact ⟨hnot 47 (by decide), hnot 92 (by decide), hnot 46 (by decide)⟩

end

end Login
end AxisEngine
