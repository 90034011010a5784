import Kerberos.Exchange.Service
import Kerberos.Wire.KrbError
import Kerberos.Wire.Request

/-! # The front doors

    Requests arrive as octets, either by themselves or inside the message of a proxy.  Every
    request is answered with octets: a reply, or an error message. -/

namespace Kerberos

/-- A message that a proxy passes on. -/
structure ProxyMessage where
  /-- A message behind its length in four octets. -/
  kerbMessage : Octets
  targetDomain : Option String
  dclocatorHint : Option Octets
  deriving DecidableEq, Repr

/-- The clock is read twice for a message: at the door, and again for the exchange that it asks for. -/
structure Readings where
  /-- The time that an error message tells. -/
  received : Instant
  /-- The time that the exchange reckons with. -/
  handled : Instant
  deriving DecidableEq, Repr

/-- A clock that stands still in between. -/
instance : Coe Instant Readings := ⟨fun clock => ⟨clock, clock⟩⟩

namespace Service

/-- The octets of the error message for a refusal. -/
def writeRefusal (s : Service) (now : Instant) (request : Option AsRequest) (refusal : Refusal) : Written := do
  let error ← refusal.krbError request s.config.realm now
  error.write

/-- Answers octets that should be a request. -/
def answer (s : Service) (clock : Readings) (message : Octets) : StateM Ledger Written := do
  let now := clock.received.wholeSecond
  match AsRequest.read message with
  | .error cause =>
    match cause with
    | .wrongMessageType _ _ => return s.writeRefusal now none (.badMessageType cause)
    | _ => return (KrbError.unreadable s.config.realm now).write
  | .ok request =>
    match ← (s.handle clock.handled request).run with
    | .ok reply => return reply.write.mapError .refused
    | .error (.refused refusal) => return s.writeRefusal now (some request) refusal
    | .error .abandoned => return .error .abandoned

/-- Answers a message that came through a proxy, in kind. -/
def answerProxy (s : Service) (clock : Readings) (m : ProxyMessage) :
    StateM Ledger (Except (Failure WireError) ProxyMessage) := do
  if m.kerbMessage.length < 4 then return .error (.refused .malformed)
  match ← s.answer clock (m.kerbMessage.drop 4) with
  | .error failure => return .error failure
  | .ok reply =>
    if 4294967296 ≤ reply.length then return .error (.refused (.tooLarge reply.length))
    return .ok { m with kerbMessage := octetsOfWord (UInt32.ofNat reply.length) ++ reply }

end Service

end Kerberos
