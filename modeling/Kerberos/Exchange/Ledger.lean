import Kerberos.Realm
import Kerberos.Refusal
import Kerberos.ReplayCache

/-! # What exchanges share

    A service is a set of collaborators that never change: the configuration, the directory,
    the cipher, the verifier of one-time passwords.  What changes from one exchange to the
    next is the ledger: the replay cache, and the list of calls that were made to the
    collaborators.  An exchange that ends in a refusal keeps what it has entered. -/

namespace Kerberos

/-- A call to a collaborator. -/
inductive Call where
  /-- The directory was asked for a client or a service. -/
  | lookup (role : Role) (name : PrincipalName)
  /-- A one-time password was handed to the verifier. -/
  | verifyOtp (method : OtpMethod) (proof : Octets)
  /-- A session key was drawn. -/
  | randomKey (etype : EncryptionType)
  /-- A plaintext was encrypted. -/
  | encrypt (key : EncryptionKey) (usage : Int32) (plaintext : Octets)
  deriving DecidableEq, Repr

namespace Call

def isOtp : Call → Bool
  | verifyOtp _ _ => true
  | _ => false

def isRandomKey : Call → Bool
  | randomKey _ => true
  | _ => false

def isEncrypt : Call → Bool
  | encrypt _ _ _ => true
  | _ => false

end Call

structure Ledger where
  cache : ReplayCache
  /-- All calls, in the order in which they were made. -/
  calls : List Call
  deriving DecidableEq, Repr

/-- Before the first exchange of a realm. -/
def Ledger.start (c : RealmConfig) : Ledger := ⟨ReplayCache.empty c.retention, []⟩

/-- A part of an exchange. -/
abbrev Exchange := ExceptT (Failure Refusal) (StateM Ledger)

namespace Exchange

def refuse {α : Type} (r : Refusal) : Exchange α := throw (.refused r)

/-- A decision that touches nothing can stand in an exchange. -/
instance : MonadLift (Except Refusal) Exchange where
  monadLift
    | .ok a => pure a
    | .error r => refuse r

def enter (call : Call) : Exchange Unit := modify fun l => { l with calls := l.calls ++ [call] }

/-- Runs a record through the replay cache. -/
def checkReplay (record : ReplayRecord) (now : Instant) : Exchange Verdict :=
  modifyGet fun l =>
    let (verdict, cache) := l.cache.check record now
    (verdict, { l with cache })

def drawKey (c : Cipher) (etype : EncryptionType) : Exchange EncryptionKey := do
  let drawn := (← get).calls.countP Call.isRandomKey
  enter (.randomKey etype)
  match c.randomKey drawn etype with
  | .ok key => return key
  | .error cause => refuse (.internal (.sessionKey cause))

/-- Encrypts a message, if it can be written.  `fault` names what an error is reported as. -/
def encrypt (c : Cipher) (key : EncryptionKey) (usage : Int32) (message : Written)
    (fault : CipherError → InternalFault) : Exchange EncryptedData := do
  let earlier := (← get).calls.countP Call.isEncrypt
  if let .ok plaintext := message then enter (.encrypt key usage plaintext)
  match c.sealMessage earlier key usage message with
  | .ok data => return data
  | .error failure => throw (failure.map fun cause => .internal (fault cause))

end Exchange

/-- Verifies a one-time password and derives the key of the exchange from it. -/
abbrev OtpVerifier := DirectoryEntry → OtpMethod → (proof : Octets) → Option EncryptionKey

structure Service where
  config : RealmConfig
  directory : Directory
  cipher : Cipher
  otp : Option OtpVerifier

end Kerberos
