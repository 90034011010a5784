import Kerberos.Key
import Kerberos.KdcOptions
import Kerberos.Name
import Kerberos.TicketFlags
import Kerberos.Time.Instant

/-! # Messages of the initial exchange

    The structures of RFC 4120 that the initial exchange reads, writes or seals, with their
    fields decoded.  How they are written as octets is the subject of `Kerberos.Wire`. -/

namespace Kerberos

/-! ## Parts -/

/-- Pre-authentication data. -/
structure PaData where
  kind : UInt32
  value : Octets
  deriving DecidableEq, Repr

/-- The kind that carries an encrypted timestamp. -/
def PaData.encTimestamp : UInt32 := 2

/-- The kind that lists encryption types together with the salt. -/
def PaData.etypeInfo2 : UInt32 := 19

structure HostAddress where
  kind : Int32
  address : Octets
  deriving DecidableEq, Repr

structure EncryptedData where
  /-- The number of the encryption type, implemented or not. -/
  etype : UInt64
  /-- The version of the key. -/
  kvno : Option UInt32
  cipher : Octets
  deriving DecidableEq, Repr

/-- The plaintext of an encrypted timestamp. -/
structure PaEncTimestamp where
  timestamp : Instant
  /-- Microseconds. -/
  usec : Option UInt32
  deriving DecidableEq, Repr

/-- The greatest number of microseconds that is written or accepted. -/
def PaEncTimestamp.maxUsec : UInt32 := 999999

/-! ## The request -/

structure RequestBody where
  options : KdcOptions
  /-- The client. -/
  cname : Option PrincipalName
  realm : String
  /-- The service. -/
  sname : Option PrincipalName
  /-- The wanted start. -/
  start : Option Instant
  /-- The wanted end.  Without one, the ticket lasts as long as the realm allows. -/
  till : Option Instant
  /-- The wanted end of renewals. -/
  rtime : Option Instant
  nonce : UInt32
  /-- The numbers of the encryption types, the preferred one first. -/
  etypes : List UInt64
  addresses : Option (List HostAddress)
  deriving DecidableEq, Repr

structure AsRequest extends RequestBody where
  /-- The protocol version. -/
  pvno : UInt32
  padata : List PaData
  deriving DecidableEq, Repr

/-! ## Tickets -/

structure TransitedEncoding where
  kind : Int32
  contents : Octets
  deriving DecidableEq, Repr

/-- The compressed list of realms with no realm in it. -/
def TransitedEncoding.empty : TransitedEncoding := ⟨1, []⟩

/-- The part of a ticket that only the service can read. -/
structure EncTicketPart where
  flags : TicketFlags
  /-- The session key. -/
  key : EncryptionKey
  crealm : String
  cname : PrincipalName
  transited : TransitedEncoding
  authTime : Instant
  startTime : Option Instant
  endTime : Instant
  renewTill : Option Instant
  caddr : Option (List HostAddress)
  deriving DecidableEq, Repr

structure Ticket where
  realm : String
  sname : PrincipalName
  encPart : EncryptedData
  deriving DecidableEq, Repr

/-! ## The reply -/

/-- When the client last asked for something. -/
structure LastRequest where
  kind : Int32
  time : Instant
  deriving DecidableEq, Repr

/-- The part of a reply that only the client can read. -/
structure EncAsRepPart where
  /-- The session key. -/
  key : EncryptionKey
  lastReq : List LastRequest
  nonce : UInt32
  keyExpiration : Option Instant
  flags : TicketFlags
  authTime : Instant
  startTime : Option Instant
  endTime : Instant
  renewTill : Option Instant
  srealm : String
  sname : PrincipalName
  caddr : Option (List HostAddress)
  deriving DecidableEq, Repr

structure AsReply where
  padata : List PaData
  crealm : String
  cname : PrincipalName
  ticket : Ticket
  /-- The sealed `part`. -/
  encPart : EncryptedData
  /-- The plaintext of `encPart`.  It is never written. -/
  part : EncAsRepPart
  deriving DecidableEq, Repr

/-! ## Errors on the wire -/

/-- The message that answers a request with an error. -/
structure KrbError where
  code : UInt32
  /-- The time of the server. -/
  time : Instant
  crealm : Option String
  cname : Option PrincipalName
  realm : String
  sname : PrincipalName
  text : Option String
  data : Option Octets
  deriving DecidableEq, Repr

/-- The protocol version that every message carries. -/
def protocolVersion : UInt8 := 5

end Kerberos
