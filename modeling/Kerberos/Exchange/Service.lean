import Kerberos.Exchange.Admission
import Kerberos.Exchange.PreAuth
import Kerberos.Exchange.Reply

/-! # The initial exchange

    A request passes through a fixed series of checks, and the first that fails ends it.
    Everything that concerns the client comes before everything that concerns the service:
    a client that has not proved who it is learns nothing about services. -/

namespace Kerberos.Service

/-- Looks a principal of the realm up; `absent` says how its absence is reported. -/
def find (s : Service) (role : Role) (name : PrincipalName) (absent : Absence → Refusal) :
    Exchange DirectoryEntry := do
  Exchange.enter (.lookup role name)
  match s.directory name s.config.realm with
  | .error cause => Exchange.refuse (absent (.lookupFailed name cause))
  | .ok none => Exchange.refuse (absent (.notFound name))
  | .ok (some entry) =>
    if entry.keys.isEmpty then Exchange.refuse (.nullKey (.noKeys role name))
    return entry

/-- What is known about a request when its proof is due. -/
structure Candidate where
  etype : EncryptionType
  cname : PrincipalName
  client : DirectoryEntry
  deriving DecidableEq, Repr

/-- What is known about a request once the client has been dealt with. -/
structure Admitted extends Candidate where
  outcome : PreAuthOutcome
  deriving DecidableEq, Repr

/-- The checks that concern the client, ahead of its proof. -/
def identify (s : Service) (request : AsRequest) (now : Instant) : Exchange Candidate := do
  if request.pvno.toNat ≠ protocolVersion.toNat then Exchange.refuse (.badProtocolVersion request.pvno)
  let etype ← negotiateEtype s.config request.etypes
  if !sameIgnoringCase request.realm s.config.realm then Exchange.refuse (.wrongRealm request.realm)
  let some cname := request.cname | Exchange.refuse (.unknownClient .unnamed)
  let client ← s.find .client cname .unknownClient
  admitClient client now
  admitOptions s.config request.options
  return { etype, cname, client }

/-- The checks that concern the client, up to its proof. -/
def admitRequest (s : Service) (request : AsRequest) (now : Instant) : Exchange Admitted := do
  let candidate ← s.identify request now
  let outcome ← s.verifyPreAuth request candidate.client candidate.etype now
  return { candidate with outcome }

/-- The checks that concern the service, and the reply. -/
def grant (s : Service) (request : AsRequest) (now : Instant) (a : Admitted) : Exchange AsReply := do
  let some sname := request.sname | Exchange.refuse (.unknownServer .unnamed)
  let server ← s.find .server sname .unknownServer
  let body := request.toRequestBody
  let issued ← s.issueTicket body now a.etype a.cname sname server a.outcome.preAuthenticated
  buildReply s.cipher body issued s.config.realm a.cname a.client a.outcome.clientKey a.etype

/-- Answers a request when the clock stands at `clock`.  Exchanges reckon in whole seconds. -/
def handle (s : Service) (clock : Instant) (request : AsRequest) : Exchange AsReply := do
  let admitted ← s.admitRequest request clock.wholeSecond
  s.grant request clock.wholeSecond admitted

end Kerberos.Service
