import Kerberos.Exchange.Ledger
import Kerberos.Exchange.Validity
import Kerberos.Wire.Ticket

/-! # Issuing tickets

    Once the client is known and the service is found, a ticket is put together and sealed
    under the key of the service. -/

namespace Kerberos

/-- A ticket and the plaintext of its sealed part. -/
structure IssuedTicket where
  ticket : Ticket
  part : EncTicketPart
  deriving DecidableEq, Repr

/-- The addresses that go into the ticket. -/
def clientAddresses (c : RealmConfig) (request : RequestBody) : Except Refusal (Option (List HostAddress)) :=
  match request.addresses with
  | some (first :: others) => .ok (some (first :: others))
  | _ => if c.addresslessAllowed then .ok none else .error (.policyViolation .addressless)

/-- The flags of a ticket that is granted all that the options ask for. -/
def grantedFlags (options : KdcOptions) (validity : Validity) (preAuthenticated : Bool) : TicketFlags :=
  Grants.flags {
    preAuthenticated
    forwardable := options.contains .forwardable
    proxiable := options.contains .proxiable
    mayPostdate := options.contains .allowPostdate
    postdated := validity.postdated
    renewable := validity.renewable }

namespace Service

/-- Issues a ticket for the client `cname` and the service `sname`, whose directory entry is `server`. -/
def issueTicket (s : Service) (request : RequestBody) (now : Instant) (etype : EncryptionType)
    (cname sname : PrincipalName) (server : DirectoryEntry) (preAuthenticated : Bool) :
    Exchange IssuedTicket := do
  if request.options.intersects .tgsOnly then Exchange.refuse (.badOption (request.options &&& .tgsOnly))
  let validity ← Validity.choose s.config request now
  let caddr ← clientAddresses s.config request
  let some serverKey := server.keys.get? etype
    | Exchange.refuse (.nullKey (.noKeyFor .server server.principal etype))
  let sessionKey ← Exchange.drawKey s.cipher etype
  let part : EncTicketPart := {
    flags := grantedFlags request.options validity preAuthenticated
    key := sessionKey, crealm := s.config.realm, cname, transited := .empty, authTime := now
    startTime := some validity.startTime, endTime := validity.endTime, renewTill := validity.renewTill, caddr }
  let encPart ← Exchange.encrypt s.cipher serverKey KeyUsage.ticket part.write .ticketSealing
  return { ticket := { realm := s.config.realm, sname, encPart }, part }

end Service

end Kerberos
