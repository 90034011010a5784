import Kerberos.Wire.Ticket

/-! # Replies

    The reply repeats the client's name, carries the ticket, and seals for the client what
    the client has to know about it.  The sealed part is a message of its own. -/

namespace Kerberos

open Asn1

namespace Wire

def lastRequest (r : LastRequest) : Written := do
  let time ← time r.time
  return sequenceOf [explicit 0 (integer (Integer.ofInt32 r.kind)), explicit 1 time]

def lastRequestReader : Reader (Checked LastRequest) := Reader.sequence do
  let kind ← Fields.field 0 buffer
  let time ← Fields.field 1 timeReader
  return do
    let kind ← int32 "lr-type" kind
    let time ← instant "lr-value" time
    return { kind, time }

def encAsRepPartReader : Reader (Checked EncAsRepPart) := Reader.application 25 <| Reader.sequence do
  let key ← Fields.field 0 keyReader
  let lastReq ← Fields.field 1 (Reader.sequenceOf lastRequestReader)
  let nonce ← Fields.field 2 buffer
  let keyExpiration ← Fields.optional 3 timeReader
  let flags ← Fields.field 4 buffer
  let authTime ← Fields.field 5 timeReader
  let startTime ← Fields.optional 6 timeReader
  let endTime ← Fields.field 7 timeReader
  let renewTill ← Fields.optional 8 timeReader
  let srealm ← Fields.field 9 stringReader
  let sname ← Fields.field 10 nameReader
  let caddr ← Fields.trailing 11 addressesReader
  let _ ← Fields.trailing 12 (Reader.sequenceOf paDataReader)
  return do
    let lastReq ← lastReq.mapM id
    let key ← key
    let nonce ← Wire.nonce nonce
    let keyExpiration ← keyExpiration.mapM (instant "key-expiration")
    let authTime ← instant "authtime" authTime
    let startTime ← startTime.mapM (instant "starttime")
    let endTime ← instant "endtime" endTime
    let renewTill ← renewTill.mapM (instant "renew-till")
    let sname ← sname
    let caddr ← caddr.mapM id
    return {
      key, lastReq, nonce, keyExpiration, flags := ⟨word flags⟩
      authTime, startTime, endTime, renewTill, srealm, sname, caddr }

end Wire

namespace EncAsRepPart

def write (p : EncAsRepPart) : Written := do
  let lastReq ← p.lastReq.mapM Wire.lastRequest
  let keyExpiration ← p.keyExpiration.mapM Wire.time
  let authTime ← Wire.time p.authTime
  let startTime ← p.startTime.mapM Wire.time
  let endTime ← Wire.time p.endTime
  let renewTill ← p.renewTill.mapM Wire.time
  let srealm ← Wire.realm p.srealm
  let sname ← Wire.name p.sname
  return application 25 <| sequenceOf [
    explicit 0 (Wire.key p.key), explicit 1 (sequenceOf lastReq), explicit 2 (integer (Integer.ofWord p.nonce)),
    explicit? 3 keyExpiration, explicit 4 (bitString p.flags.bits), explicit 5 authTime, explicit? 6 startTime,
    explicit 7 endTime, explicit? 8 renewTill, explicit 9 srealm, explicit 10 sname,
    explicit? 11 (p.caddr.map Wire.addresses)]

def read (message : Octets) : Checked EncAsRepPart := Wire.read Wire.encAsRepPartReader message

end EncAsRepPart

namespace AsReply

/-- The message type. -/
def messageType : UInt8 := 11

/-- Only the sealed form of `part` is written. -/
def write (r : AsReply) : Checked Octets := do
  let padata := if r.padata.isEmpty then none else some (sequenceOf (r.padata.map Wire.paData))
  let crealm ← Wire.realm r.crealm
  let cname ← Wire.name r.cname
  let ticket ← r.ticket.write
  return application 11 <| sequenceOf [
    explicit 0 Wire.version, explicit 1 (integer [messageType]), explicit? 2 padata, explicit 3 crealm,
    explicit 4 cname, explicit 5 ticket, explicit 6 (Wire.encryptedData r.encPart)]

end AsReply

end Kerberos
