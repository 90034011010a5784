import Kerberos.Exchange.Ledger

/-! # Pre-authentication

    A client proves who it is in one of two ways: a timestamp encrypted under its long-term
    key, or a one-time password if the directory says so.  A proof is tried once; whatever is
    wrong with it ends the exchange.  An encrypted timestamp that is in order is entered in
    the replay cache, so the same one is refused from then on. -/

namespace Kerberos

inductive PreAuthMethod where
  | otp (method : OtpMethod)
  | encryptedTimestamp
  deriving DecidableEq, Repr

namespace PreAuthMethod

/-- The method that a client has to use. -/
def ofEntry (e : DirectoryEntry) : PreAuthMethod :=
  match e.otpMethod with
  | some method => otp method
  | none => encryptedTimestamp

def name : PreAuthMethod → String
  | otp method => "Otp(" ++ method.name ++ ")"
  | encryptedTimestamp => "EncryptedTimestamp"

end PreAuthMethod

structure PreAuthOutcome where
  /-- The key that the reply is encrypted under. -/
  clientKey : EncryptionKey
  /-- Whether the client has proved who it is. -/
  preAuthenticated : Bool
  deriving DecidableEq, Repr

/-- The first piece of pre-authentication data that holds a proof. -/
def AsRequest.proof? (r : AsRequest) : Option Octets :=
  (r.padata.find? fun p => p.kind == PaData.encTimestamp).map (·.value)

namespace Service

/-- The refusal that tells a client how to prove who it is. -/
def proofWanted (s : Service) (client : DirectoryEntry) : Refusal :=
  .preAuthRequired { etypes := s.config.etypes, salt := client.salt }

def verifyOtp (s : Service) (request : AsRequest) (client : DirectoryEntry) (method : OtpMethod) :
    Exchange PreAuthOutcome := do
  if request.padata.isEmpty then Exchange.refuse (s.proofWanted client)
  let some proof := request.proof? | Exchange.refuse (.preAuthFailed .otpMissing)
  let some verifier := s.otp | Exchange.refuse (.preAuthFailed .otpUnavailable)
  Exchange.enter (.verifyOtp method proof)
  match verifier client method proof with
  | some clientKey => return { clientKey, preAuthenticated := true }
  | none => Exchange.refuse (.preAuthFailed .otpRejected)

/-- The timestamp in a proof, decrypted and read. -/
def openTimestamp (s : Service) (key : EncryptionKey) (proof : Octets) : Except Refusal PaEncTimestamp := do
  let data ← (EncryptedData.read proof).mapError fun cause => .badIntegrity (.malformed cause)
  (s.cipher.openMessage key KeyUsage.encTimestamp data PaEncTimestamp.read).mapError fun cause =>
    .badIntegrity (.undecryptable cause)

def verifyTimestamp (s : Service) (request : AsRequest) (client : DirectoryEntry) (etype : EncryptionType)
    (now : Instant) : Exchange PreAuthOutcome := do
  let some clientKey := client.keys.get? etype
    | Exchange.refuse (.nullKey (.noKeyFor .client client.principal etype))
  match request.proof? with
  | none =>
    if s.config.timestampRequired then Exchange.refuse (s.proofWanted client)
    return { clientKey, preAuthenticated := false }
  | some proof =>
    let stamp ← s.openTimestamp clientKey proof
    if s.config.skew < (now - stamp.timestamp).abs then Exchange.refuse (.preAuthFailed .outsideSkew)
    let record := ReplayRecord.of client.principal client.realm stamp.timestamp (stamp.usec.getD 0)
    match ← Exchange.checkReplay record now with
    | .fresh => return { clientKey, preAuthenticated := true }
    | .replay => Exchange.refuse (.preAuthFailed .replayed)

/-- Verifies the proof that the client has to give. -/
def verifyPreAuth (s : Service) (request : AsRequest) (client : DirectoryEntry) (etype : EncryptionType)
    (now : Instant) : Exchange PreAuthOutcome :=
  match PreAuthMethod.ofEntry client with
  | .otp method => s.verifyOtp request client method
  | .encryptedTimestamp => s.verifyTimestamp request client etype now

end Service

end Kerberos
