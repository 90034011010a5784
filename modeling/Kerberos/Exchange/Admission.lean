import Kerberos.Refusal
import Kerberos.Realm

/-! # Admission

    The decisions that need nothing but the request, the account and the configuration:
    which encryption type to use, whether the account may be used, and whether the realm
    allows what the options ask for. -/

namespace Kerberos

/-- The first encryption type of the client's list that the realm supports. -/
def negotiateEtype (c : RealmConfig) (requested : List UInt64) : Except Refusal EncryptionType :=
  match (requested.filterMap EncryptionType.ofNumber?).find? c.supports with
  | some etype => .ok etype
  | none => .error (.unsupportedEtypes requested)

/-- Turns away accounts that are disabled, locked out or expired. -/
def admitClient (e : DirectoryEntry) (now : Instant) : Except Refusal Unit := do
  if e.disabled then throw (.clientRevoked .disabled)
  if e.lockedOut then throw (.clientRevoked .lockedOut)
  if e.expiration.any (· < now) then throw (.clientRevoked .expired)

/-- Turns away requests for what the realm does not allow. -/
def admitOptions (c : RealmConfig) (options : KdcOptions) : Except Refusal Unit := do
  if options.contains .forwardable && !c.forwardableAllowed then throw (.policyViolation .forwardable)
  if options.contains .proxiable && !c.proxiableAllowed then throw (.policyViolation .proxiable)
  if options.intersects (.allowPostdate ||| .postdated) && !c.postdatedAllowed then
    throw (.policyViolation .postdated)
  if options.contains .renewable && !c.renewableAllowed then throw (.policyViolation .renewable)

end Kerberos
