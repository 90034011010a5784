import Kerberos.Exchange.Issue
import Kerberos.Wire.Reply

/-! # Replies

    The reply repeats for the client what its ticket says, sealed under the client's key. -/

namespace Kerberos

/-- The kind of a last request of which only the time is told. -/
def LastRequest.initialKind : Int32 := 0

/-- What the client gets to know about its ticket.  The end of renewals is told only of tickets that are
    flagged as renewable. -/
def EncAsRepPart.ofTicket (request : RequestBody) (issued : IssuedTicket) (client : DirectoryEntry) : EncAsRepPart :=
  let part := issued.part
  { key := part.key
    lastReq := client.lastSuccessfulAuth.toList.map fun time => ⟨LastRequest.initialKind, time⟩
    nonce := request.nonce
    keyExpiration := client.expiration
    flags := part.flags
    authTime := part.authTime
    startTime := part.startTime
    endTime := part.endTime
    renewTill := if part.flags.contains .renewable then part.renewTill else none
    srealm := issued.ticket.realm
    sname := issued.ticket.sname
    caddr := part.caddr }

/-- Puts the reply together.  Its pre-authentication data names the one encryption type in use. -/
def buildReply (cipher : Cipher) (request : RequestBody) (issued : IssuedTicket) (crealm : String)
    (cname : PrincipalName) (client : DirectoryEntry) (clientKey : EncryptionKey) (etype : EncryptionType) :
    Exchange AsReply := do
  let part := EncAsRepPart.ofTicket request issued client
  let encPart ← Exchange.encrypt cipher clientKey KeyUsage.asReply part.write .replySealing
  match ({ etypes := [etype], salt := client.salt } : PreAuthHint).etypeInfo2 with
  | .ok info =>
    return { padata := [⟨PaData.etypeInfo2, info⟩], crealm, cname, ticket := issued.ticket, encPart, part }
  | .error cause => Exchange.refuse (.internal (.etypeInfo cause))

end Kerberos
