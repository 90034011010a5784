import Kerberos.Wire.Field

/-! # Tickets

    A ticket names its service in the clear and carries the rest sealed.  The part to be
    sealed is a message of its own. -/

namespace Kerberos

open Asn1

namespace Wire

/-- Reads a whole message and then checks its values. -/
def read {α : Type} (reader : Reader (Checked α)) (message : Octets) : Checked α :=
  match reader.run message with
  | some checks => checks
  | none => .error .malformed

/-- The octets that every message carries as its protocol version. -/
def version : Octets := integer [protocolVersion]

def ticketReader : Reader (Checked Ticket) := Reader.application 1 <| Reader.sequence do
  let _ ← Fields.field 0 buffer
  let realm ← Fields.field 1 stringReader
  let sname ← Fields.field 2 nameReader
  let encPart ← Fields.field 3 encryptedDataReader
  return do
    let sname ← sname
    let encPart ← encPart
    return { realm, sname, encPart }

def transited (t : TransitedEncoding) : Octets :=
  sequenceOf [explicit 0 (integer (Integer.ofInt32 t.kind)), explicit 1 (octetString t.contents)]

def transitedReader : Reader (Checked TransitedEncoding) := Reader.sequence do
  let kind ← Fields.field 0 buffer
  let contents ← Fields.field 1 buffer
  return do
    let kind ← int32 "tr-type" kind
    return { kind, contents }

/-- A list of typed octets that is read over. -/
def skippedPairs : Reader Unit := do
  let _ ← Reader.sequenceOf <| Reader.sequence do
    let _ ← Fields.field 0 buffer
    let _ ← Fields.field 1 buffer
    return ()
  return ()

def encTicketPartReader : Reader (Checked EncTicketPart) := Reader.application 3 <| Reader.sequence do
  let flags ← Fields.field 0 buffer
  let key ← Fields.field 1 keyReader
  let crealm ← Fields.field 2 stringReader
  let cname ← Fields.field 3 nameReader
  let transited ← Fields.field 4 transitedReader
  let authTime ← Fields.field 5 timeReader
  let startTime ← Fields.optional 6 timeReader
  let endTime ← Fields.field 7 timeReader
  let renewTill ← Fields.trailing 8 timeReader
  let caddr ← Fields.trailing 9 addressesReader
  let _ ← Fields.trailing 10 skippedPairs
  return do
    let key ← key
    let cname ← cname
    let transited ← transited
    let authTime ← instant "authtime" authTime
    let startTime ← startTime.mapM (instant "starttime")
    let endTime ← instant "endtime" endTime
    let renewTill ← renewTill.mapM (instant "renew-till")
    let caddr ← caddr.mapM id
    return {
      flags := ⟨word flags⟩, key, crealm, cname, transited
      authTime, startTime, endTime, renewTill, caddr }

end Wire

namespace EncryptedData

def write (d : EncryptedData) : Octets := Wire.encryptedData d

def read (message : Octets) : Checked EncryptedData := Wire.read Wire.encryptedDataReader message

end EncryptedData

namespace Ticket

def write (t : Ticket) : Checked Octets := do
  let realm ← Wire.realm t.realm
  let sname ← Wire.name t.sname
  return application 1 <| sequenceOf [
    explicit 0 Wire.version, explicit 1 realm, explicit 2 sname, explicit 3 (Wire.encryptedData t.encPart)]

def read (message : Octets) : Checked Ticket := Wire.read Wire.ticketReader message

end Ticket

namespace EncTicketPart

def write (p : EncTicketPart) : Written := do
  let crealm ← Wire.realm p.crealm
  let cname ← Wire.name p.cname
  let authTime ← Wire.time p.authTime
  let startTime ← p.startTime.mapM Wire.time
  let endTime ← Wire.time p.endTime
  let renewTill ← p.renewTill.mapM Wire.time
  return application 3 <| sequenceOf [
    explicit 0 (bitString p.flags.bits), explicit 1 (Wire.key p.key), explicit 2 crealm, explicit 3 cname,
    explicit 4 (Wire.transited p.transited), explicit 5 authTime, explicit? 6 startTime, explicit 7 endTime,
    explicit? 8 renewTill, explicit? 9 (p.caddr.map Wire.addresses)]

def read (message : Octets) : Checked EncTicketPart := Wire.read Wire.encTicketPartReader message

end EncTicketPart

end Kerberos
