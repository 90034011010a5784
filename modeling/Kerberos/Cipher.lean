import Kerberos.Message
import Kerberos.Wire.Error

/-! # Ciphers

    The service does not know any cipher.  It draws keys, seals and opens through a `Cipher`,
    which may be the real one (`Kerberos.Crypto`) or any other.  Drawing keys and sealing
    need fresh randomness, so both are told how many calls of the same kind came before; a
    cipher is then a plain function, and two calls never have to give the same answer. -/

namespace Kerberos

/-! ## Errors -/

/-- Why a primitive gave up. -/
inductive CryptoError where
  /-- The checksum does not fit the message. -/
  | integrityCheck
  /-- The ciphertext is too short to hold a message. -/
  | cipherLength (found least : Nat)
  /-- The key has the wrong length for sealing. -/
  | keyLength (found wanted : Nat)
  /-- The key has the wrong length for opening. -/
  | unusableKey
  deriving DecidableEq, Repr

def CryptoError.message : CryptoError → String
  | integrityCheck => "IntegrityCheck"
  | cipherLength found least => "CipherLength(" ++ toString found ++ ", " ++ toString least ++ ")"
  | keyLength found wanted => "KeyLength(" ++ toString found ++ ", " ++ toString wanted ++ ")"
  | unusableKey => "ArrayTryFromSliceError(TryFromSliceError(()))"

inductive CipherError where
  | unsupportedEncryptionType (etype : UInt64)
  /-- The data is for another encryption type than the key. -/
  | etypeMismatch (key : EncryptionType) (data : UInt64)
  | integrity (cause : CryptoError)
  | encryption (cause : CryptoError)
  | keyDerivation (cause : CryptoError)
  /-- The plaintext could not be written or read. -/
  | wire (cause : WireError)
  deriving DecidableEq, Repr

def CipherError.message : CipherError → String
  | unsupportedEncryptionType etype => toString etype.toNat ++ " is not supported by the cipher service"
  | etypeMismatch key data =>
    "encrypted data etype (" ++ toString data.toNat ++ ") does not match the key etype (" ++ key.name ++ ")"
  | integrity cause => "decryption or integrity check failed: " ++ cause.message
  | encryption cause => "encryption failed: " ++ cause.message
  | keyDerivation cause => "key derivation failed: " ++ cause.message
  | wire cause => cause.message

/-! ## The interface -/

structure Cipher where
  /-- A new key, after `drawn` earlier ones. -/
  randomKey : (drawn : Nat) → EncryptionType → Except CipherError EncryptionKey
  /-- The key that a password and a salt stand for. -/
  stringToKey : EncryptionType → (password salt : Octets) → Except CipherError EncryptionKey
  /-- Encrypts and protects a plaintext for one key usage, after `sealed` earlier ones. -/
  encrypt : (sealed : Nat) → EncryptionKey → (usage : Int32) → (plaintext : Octets) →
    Except CipherError EncryptedData
  /-- Recovers the plaintext, if it was encrypted under this key for this usage. -/
  decrypt : EncryptionKey → (usage : Int32) → EncryptedData → Except CipherError Octets

/-- The key usages of the exchange. -/
def KeyUsage.encTimestamp : Int32 := 1

def KeyUsage.ticket : Int32 := 2

def KeyUsage.asReply : Int32 := 3

namespace Cipher

/-- Encrypts a message that has been written; a message that could not be written is an error of its own. -/
def sealMessage (c : Cipher) (sealed : Nat) (key : EncryptionKey) (usage : Int32) (plaintext : Written) :
    Except (Failure CipherError) EncryptedData :=
  match plaintext with
  | .ok octets => (c.encrypt sealed key usage octets).mapError .refused
  | .error failure => .error (failure.map .wire)

/-- Decrypts a message and reads it. -/
def openMessage {α : Type} (c : Cipher) (key : EncryptionKey) (usage : Int32) (data : EncryptedData)
    (read : Octets → Checked α) : Except CipherError α := do
  let plaintext ← c.decrypt key usage data
  (read plaintext).mapError .wire

end Cipher

end Kerberos
