import Kerberos.Directory
import Kerberos.Wire.PreAuth

/-! # Refusals

    Why the service did not grant a ticket.  Each refusal has a cause and an error code.  Its
    `message` says everything and is for the service's own eyes.  Its `eText` is what the
    client gets to read: causes that tell of the directory, of keys or of ciphertexts are
    reduced to the description of their code. -/

namespace Kerberos

/-! ## Causes -/

/-- The two principals of an exchange. -/
inductive Role where
  | client
  | server
  deriving DecidableEq, Repr

inductive Absence where
  /-- The request names no such principal. -/
  | unnamed
  | lookupFailed (name : PrincipalName) (cause : DirectoryError)
  | notFound (name : PrincipalName)
  /-- For a reason stated elsewhere. -/
  | stated (detail : String)
  deriving DecidableEq, Repr

inductive KeyLack where
  | noKeys (role : Role) (name : PrincipalName)
  | noKeyFor (role : Role) (name : PrincipalName) (etype : EncryptionType)
  | stated (detail : String)
  deriving DecidableEq, Repr

inductive Revocation where
  | disabled
  | lockedOut
  | expired
  deriving DecidableEq, Repr

/-- Why a proof of identity was not accepted. -/
inductive ProofFault where
  | otpMissing
  /-- The service has no verifier. -/
  | otpUnavailable
  | otpRejected
  | outsideSkew
  | replayed
  deriving DecidableEq, Repr

/-- Why an encrypted timestamp could not be opened. -/
inductive IntegrityFault where
  | malformed (cause : WireError)
  | undecryptable (cause : CipherError)
  | stated (detail : String)
  deriving DecidableEq, Repr

/-- What the realm does not allow. -/
inductive Forbidden where
  | forwardable
  | proxiable
  | postdated
  | renewable
  | addressless
  deriving DecidableEq, Repr

/-- Why no validity period comes out. -/
inductive EmptyValidity where
  | endsBeforeStart (endTime startTime : Instant)
  | shorterThanSkew (lifetime : Duration)
  | stated (detail : String)
  deriving DecidableEq, Repr

/-- What went wrong inside the service. -/
inductive InternalFault where
  | sessionKey (cause : CipherError)
  | ticketSealing (cause : CipherError)
  | replySealing (cause : CipherError)
  | etypeInfo (cause : WireError)
  | stated (detail : String)
  deriving DecidableEq, Repr

inductive Refusal where
  | badProtocolVersion (version : UInt32)
  | badMessageType (cause : WireError)
  | wrongRealm (realm : String)
  | unsupportedEtypes (requested : List UInt64)
  | unknownClient (why : Absence)
  | unknownServer (why : Absence)
  | nullKey (why : KeyLack)
  | clientRevoked (why : Revocation)
  | preAuthRequired (hint : PreAuthHint)
  | preAuthFailed (why : ProofFault)
  | badIntegrity (why : IntegrityFault)
  | policyViolation (what : Forbidden)
  | badOption (options : KdcOptions)
  | cannotPostdate
  | neverValid (why : EmptyValidity)
  | internal (why : InternalFault)
  deriving DecidableEq, Repr

/-! ## Messages -/

def Role.name : Role → String
  | client => "client"
  | server => "server"

/-- The role in the words of a request. -/
def Role.inRequest : Role → String
  | client => "client"
  | server => "service"

def Absence.message (role : Role) : Absence → String
  | unnamed => "the incoming KDC request does not contain " ++ role.inRequest ++ " principal name"
  | lookupFailed name cause => role.name ++ " " ++ name.text ++ " lookup failed: " ++ cause.message
  | notFound name =>
    "the requested " ++ role.inRequest ++ " principal name (" ++ name.text ++ ") is not found in KDC database"
  | stated detail => detail

def KeyLack.message : KeyLack → String
  | noKeys role name => role.name ++ " " ++ name.text ++ " has no keys"
  | noKeyFor role name etype => role.name ++ " " ++ name.text ++ " has no " ++ etype.name ++ " key"
  | stated detail => detail

def Revocation.message : Revocation → String
  | disabled => "client account is disabled"
  | lockedOut => "client account is locked out"
  | expired => "client account has expired"

def ProofFault.message : ProofFault → String
  | otpMissing => "OTP proof is missing"
  | otpUnavailable => "OTP pre-authentication is not available"
  | otpRejected => "OTP verification failed"
  | outsideSkew => "PA-ENC-TIMESTAMP is outside of the allowable clock skew"
  | replayed => "PA-ENC-TIMESTAMP replay"

def IntegrityFault.message : IntegrityFault → String
  | malformed cause => "invalid PA-ENC-TIMESTAMP: " ++ cause.message
  | undecryptable cause => "PA-ENC-TIMESTAMP decryption failed: " ++ cause.message
  | stated detail => detail

def Forbidden.message : Forbidden → String
  | forwardable => "forwardable tickets are not allowed"
  | proxiable => "proxiable tickets are not allowed"
  | postdated => "postdated tickets are not allowed"
  | renewable => "renewable tickets are not allowed"
  | addressless => "tickets without client addresses are not allowed"

def EmptyValidity.message : EmptyValidity → String
  | endsBeforeStart endTime startTime =>
    "end time (" ++ endTime.text ++ ") is earlier than start time (" ++ startTime.text ++ ")"
  | shorterThanSkew lifetime =>
    "ticket lifetime (" ++ lifetime.text ++ ") is shorter than the allowable clock skew"
  | stated detail => detail

def InternalFault.message : InternalFault → String
  | sessionKey cause => "session key generation failed: " ++ cause.message
  | ticketSealing cause => "ticket encryption failed: " ++ cause.message
  | replySealing cause => "AS_REP encryption failed: " ++ cause.message
  | etypeInfo cause => "PA-ETYPE-INFO2 encoding failed: " ++ cause.message
  | stated detail => detail

namespace Refusal

def message : Refusal → String
  | badProtocolVersion version =>
    "KDC_ERR_BAD_PVNO: got invalid Kerberos version (" ++ toString version.toNat ++ "): expected ["
      ++ toString protocolVersion.toNat ++ "]"
  | badMessageType cause => "KRB_AP_ERR_MSG_TYPE: " ++ cause.message
  | wrongRealm realm => "KDC_ERR_WRONG_REALM: wrong realm: " ++ realm
  | unsupportedEtypes requested =>
    "KDC_ERR_ETYPE_NOSUPP: none of the requested etypes (" ++ Numeral.list (requested.map UInt64.toNat)
      ++ ") is supported by the realm"
  | unknownClient why => "KDC_ERR_C_PRINCIPAL_UNKNOWN: " ++ why.message .client
  | unknownServer why => "KDC_ERR_S_PRINCIPAL_UNKNOWN: " ++ why.message .server
  | nullKey why => "KDC_ERR_NULL_KEY: " ++ why.message
  | clientRevoked why => "KDC_ERR_CLIENT_REVOKED: " ++ why.message
  | preAuthRequired _ => "KDC_ERR_PREAUTH_REQUIRED: additional pre-authentication required"
  | preAuthFailed why => "KDC_ERR_PREAUTH_FAILED: " ++ why.message
  | badIntegrity why => "KRB_AP_ERR_BAD_INTEGRITY: " ++ why.message
  | policyViolation what => "KDC_ERR_POLICY: " ++ what.message
  | badOption options => "KDC_ERR_BADOPTION: " ++ options.text ++ " options are not allowed in AS_REQ"
  | cannotPostdate => "KDC_ERR_CANNOT_POSTDATE: KdcReq::from time is too far in the future"
  | neverValid why => "KDC_ERR_NEVER_VALID: " ++ why.message
  | internal why => "KRB_ERR_GENERIC: internal error: " ++ why.message

/-- The code of an error that has no code of its own. -/
def genericCode : UInt32 := 60

/-- The error code of RFC 4120. -/
def code : Refusal → UInt32
  | badProtocolVersion _ => 3
  | badMessageType _ => 40
  | wrongRealm _ => 68
  | unsupportedEtypes _ => 14
  | unknownClient _ => 6
  | unknownServer _ => 7
  | nullKey _ => 9
  | clientRevoked _ => 18
  | preAuthRequired _ => 25
  | preAuthFailed _ => 24
  | badIntegrity _ => 31
  | policyViolation _ => 12
  | badOption _ => 13
  | cannotPostdate => 10
  | neverValid _ => 11
  | internal _ => genericCode

/-- The text that is sent to the client. -/
def eText : Refusal → String
  | badMessageType _ => "KRB_AP_ERR_MSG_TYPE: invalid message type"
  | unknownClient _ => "KDC_ERR_C_PRINCIPAL_UNKNOWN: client not found in Kerberos database"
  | unknownServer _ => "KDC_ERR_S_PRINCIPAL_UNKNOWN: server not found in Kerberos database"
  | nullKey _ => "KDC_ERR_NULL_KEY: the client or server has a null key"
  | badIntegrity _ => "KRB_AP_ERR_BAD_INTEGRITY: integrity check on decrypted field failed"
  | internal _ => "KRB_ERR_GENERIC: generic error"
  | refusal => refusal.message

/-! ## Error replies -/

/-- The message for the client.  `request` is the request that was refused, if it could be read. -/
def krbError (r : Refusal) (request : Option AsRequest) (realm : String) (now : Instant) : Checked KrbError := do
  let data ← match r with
    | preAuthRequired hint => some <$> hint.methodData
    | _ => pure none
  let cname := request.bind (·.cname)
  let sname := request.bind (·.sname)
  return {
    code := r.code, time := now, crealm := cname.map fun _ => realm, cname
    realm, sname := sname.getD (.krbtgt realm), text := some r.eText, data }

end Refusal

/-- The message that answers octets which are no request. -/
def KrbError.unreadable (realm : String) (now : Instant) : KrbError := {
  code := Refusal.genericCode, time := now, crealm := none, cname := none
  realm, sname := .krbtgt realm, text := some "input message is not a valid AS_REQ", data := none }

end Kerberos
