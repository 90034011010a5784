import Kerberos.Wire.Ticket

/-! # Requests

    Requests come from anywhere, so this is the reader that is most exposed.  The message
    type is checked before all other values, and encryption types that are negative or too
    large are dropped without an error.  Clients may write one request in several ways, and
    `RequestForm` lists them; all of them are read as the same request. -/

namespace Kerberos

open Asn1

namespace Wire

/-- The numbers from 0 to 2^63 - 1 among the contents of INTEGERs. -/
def etypes (contents : List Octets) : List UInt64 :=
  contents.filterMap fun number =>
    match Integer.toInt64? number with
    | some n => if 0 ≤ n.toInt then some n.toUInt64 else none
    | none => none

/-- The body of a request as it was found, before its values are checked. -/
structure ReceivedBody where
  options : Octets
  cname : Option (Checked PrincipalName)
  realm : String
  sname : Option (Checked PrincipalName)
  start : Option CivilTime
  till : CivilTime
  rtime : Option CivilTime
  /-- The contents of the INTEGER that the client wrote. -/
  nonce : Octets
  etypes : List Octets
  addresses : Option (Checked (List HostAddress))

def ReceivedBody.check (b : ReceivedBody) : Checked RequestBody := do
  let cname ← b.cname.mapM id
  let sname ← b.sname.mapM id
  let start ← b.start.mapM (instant "from")
  let till ← specifiedInstant "till" b.till
  let rtime ← b.rtime.mapM (specifiedInstant "rtime")
  let nonce ← Wire.nonce b.nonce
  let addresses ← b.addresses.mapM id
  return {
    options := ⟨word b.options⟩, cname, realm := b.realm, sname, start, till, rtime := rtime.join, nonce
    etypes := Wire.etypes b.etypes, addresses }

def requestBodyReader : Reader ReceivedBody := Reader.sequence do
  let options ← Fields.field 0 buffer
  let cname ← Fields.optional 1 nameReader
  let realm ← Fields.field 2 stringReader
  let sname ← Fields.optional 3 nameReader
  let start ← Fields.optional 4 timeReader
  let till ← Fields.field 5 timeReader
  let rtime ← Fields.optional 6 timeReader
  let nonce ← Fields.field 7 buffer
  let etypes ← Fields.field 8 (Reader.sequenceOf buffer)
  let addresses ← Fields.trailing 9 addressesReader
  let _ ← Fields.trailing 10 encryptedDataReader
  let _ ← Fields.trailing 11 (Reader.sequenceOf ticketReader)
  return { options, cname, realm, sname, start, till, rtime, nonce, etypes, addresses }

/-- A request as it was found, before its values are checked. -/
structure ReceivedRequest where
  pvno : Octets
  messageType : Octets
  padata : List (Checked PaData)
  body : ReceivedBody

/-- The octet that the message type of a request consists of. -/
def requestType : UInt8 := 10

def ReceivedRequest.check (r : ReceivedRequest) : Checked AsRequest := do
  if r.messageType ≠ [requestType] then throw (.wrongMessageType r.messageType requestType)
  let padata ← r.padata.mapM id
  let pvno ← uint32 "pvno" r.pvno
  let body ← r.body.check
  return { body with pvno, padata }

def requestReader : Reader ReceivedRequest := Reader.application 10 <| Reader.sequence do
  let pvno ← Fields.field 1 buffer
  let messageType ← Fields.field 2 buffer
  let padata ← Fields.optional 3 (Reader.sequenceOf paDataReader)
  let body ← Fields.field 4 requestBodyReader
  return { pvno, messageType, padata := padata.getD [], body }

end Wire

/-- What a client may write in more than one way. -/
structure RequestForm where
  /-- The numbers of the encryption types.  Those below zero are of no effect. -/
  etypes : List Int64
  /-- The nonce is written as its four octets, whatever their sign. -/
  nonceInFull : Bool := false
  /-- A wanted end of renewals that is not given is written as the start of 1970. -/
  rtimeAlways : Bool := false
  /-- Pre-authentication data is written even if there is none. -/
  padataAlways : Bool := false
  deriving DecidableEq, Repr

namespace Wire

/-- A list that may be left out if it has no members. -/
def membersUnlessNone (always : Bool) (members : List Octets) : Option Octets :=
  if members.isEmpty && !always then none else some (sequenceOf members)

/-- A name whose type is written as the number that it is. -/
def numberedName (n : PrincipalName) : Checked Octets := do
  let components ← n.components.mapM (string "principal name")
  return sequenceOf [explicit 0 (integer (Integer.ofWord n.kind.toUInt32)), explicit 1 (sequenceOf components)]

def requestBody (form : RequestForm) (b : RequestBody) : Written := do
  let cname ← b.cname.mapM (m := Checked) numberedName
  let realm ← realm b.realm
  let sname ← b.sname.mapM (m := Checked) numberedName
  let start ← b.start.mapM time
  let till ← time (b.till.getD Instant.epoch)
  let rtime ← (if form.rtimeAlways then some (b.rtime.getD Instant.epoch) else b.rtime).mapM time
  let nonce := if form.nonceInFull then octetsOfWord b.nonce else Integer.ofWord b.nonce
  return sequenceOf [
    explicit 0 (bitString b.options.bits), explicit? 1 cname, explicit 2 realm, explicit? 3 sname, explicit? 4 start,
    explicit 5 till, explicit? 6 rtime, explicit 7 (integer nonce),
    explicit 8 (sequenceOf (form.etypes.map fun n => integer (Integer.ofInt64 n))),
    explicit? 9 (b.addresses.map addresses)]

end Wire

namespace AsRequest

/-- Writes a request as a client does. -/
def write (form : RequestForm) (r : AsRequest) : Written := do
  let body ← Wire.requestBody form r.toRequestBody
  return application 10 <| sequenceOf [
    explicit 1 (integer (Integer.ofWord r.pvno)), explicit 2 (integer [Wire.requestType]),
    explicit? 3 (Wire.membersUnlessNone form.padataAlways (r.padata.map Wire.paData)), explicit 4 body]

/-- Finds the parts of a request and then checks its values. -/
def read (message : Octets) : Checked AsRequest :=
  match Wire.requestReader.run message with
  | some received => received.check
  | none => .error .malformed

end AsRequest

end Kerberos
