/-! # Failures

    An operation that has to write times can stop in two ways.  It can refuse its input with
    an error that the caller handles and may report to a client.  Or it can meet a time
    before year 0, which no KerberosTime denotes; nothing sensible can be written then, no
    caller handles it, and the whole operation is abandoned. -/

namespace Kerberos

inductive Failure (ε : Type) where
  /-- The input was refused, for the reason given. -/
  | refused (reason : ε)
  /-- A time before year 0 was about to be written. -/
  | abandoned
  deriving DecidableEq, Repr

namespace Failure

/-- Restates the reason of a refusal; an abandoned operation stays abandoned. -/
def map {ε δ : Type} (f : ε → δ) : Failure ε → Failure δ
  | refused reason => refused (f reason)
  | abandoned => abandoned

end Failure

/-- A result that may be refused can stand where one that may also be abandoned is wanted. -/
instance {ε : Type} : MonadLift (Except ε) (Except (Failure ε)) where
  monadLift
    | .ok a => .ok a
    | .error reason => .error (.refused reason)

end Kerberos
