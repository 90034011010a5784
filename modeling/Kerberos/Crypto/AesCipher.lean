import Kerberos.Cipher
import Kerberos.Crypto.Hmac
import Kerberos.Crypto.NFold
import Kerberos.Crypto.Stealing

/-! # The AES encryption types

    `aes256-cts-hmac-sha1-96` and `aes128-cts-hmac-sha1-96`.  For each usage, two keys are
    derived from the key of a principal: one encrypts a random block and the plaintext, the
    other protects both with a checksum of 96 bits. -/

namespace Kerberos.Crypto

/-! ## Derived keys -/

/-- Encrypts a constant over and over, until `count` blocks have come out. -/
def blockStream (encryptBlock : Octets → Octets) : (count : Nat) → Octets → Octets
  | 0, _ => []
  | count + 1, block =>
    let next := encryptBlock block
    next ++ blockStream encryptBlock count next

/-- The key of the same length that is derived from a key and a constant. -/
def deriveKey (key constant : Octets) : Octets :=
  let keys := Aes.roundKeys key
  (blockStream (Aes.encryptBlock keys) ((key.length + 15) / 16) (nFold 16 constant)).take key.length

/-- The constant for a key usage and one of its two purposes. -/
def usageConstant (usage : Int32) (purpose : UInt8) : Octets := octetsOfWord usage.toUInt32 ++ [purpose]

def encryptionKey (key : Octets) (usage : Int32) : Octets := deriveKey key (usageConstant usage 0xaa)

def checksumKey (key : Octets) (usage : Int32) : Octets := deriveKey key (usageConstant usage 0x55)

def checksumSize : Nat := 12

def checksum (key : Octets) (usage : Int32) (plaintext : Octets) : Octets :=
  ((HmacKey.ofOctets (checksumKey key usage)).mac plaintext).take checksumSize

/-! ## Messages -/

/-- Encrypts `confounder ++ plaintext` and puts its checksum behind. -/
def sealOctets (etype : EncryptionType) (key : Octets) (usage : Int32) (confounder plaintext : Octets) :
    Except CryptoError Octets :=
  if key.length ≠ etype.keySize then .error (.keyLength key.length etype.keySize)
  else
    let message := confounder ++ plaintext
    let keys := Aes.roundKeys (encryptionKey key usage)
    .ok (Stealing.encrypt (Aes.encryptBlock keys) message ++ checksum key usage message)

/-- The fewest octets of a ciphertext: one block and a checksum. -/
def leastSize : Nat := 28

/-- Decrypts, compares checksums and drops the first block. -/
def openOctets (etype : EncryptionType) (key : Octets) (usage : Int32) (sealedOctets : Octets) :
    Except CryptoError Octets :=
  if sealedOctets.length < leastSize then .error (.cipherLength sealedOctets.length leastSize)
  else if key.length ≠ etype.keySize then .error .unusableKey
  else
    let size := sealedOctets.length - checksumSize
    let keys := Aes.roundKeys (encryptionKey key usage)
    let message := Stealing.decrypt (Aes.decryptBlock keys) (sealedOctets.take size)
    if checksum key usage message = sealedOctets.drop size then .ok (message.drop Stealing.blockSize)
    else .error .integrityCheck

/-- How often a password is hashed. -/
def iterations : Nat := 4096

def keyOfPassword (etype : EncryptionType) (password salt : Octets) : Octets :=
  deriveKey (Pbkdf2.derive password salt iterations etype.keySize) [0x6b, 0x65, 0x72, 0x62, 0x65, 0x72, 0x6f, 0x73]

/-! ## The cipher -/

/-- Where random octets come from. -/
structure Entropy where
  /-- The octets of a key, after some number of earlier ones. -/
  key : (drawn size : Nat) → Octets
  /-- The sixteen octets in front of a plaintext, after some number of earlier ones. -/
  confounder : (sealed : Nat) → Octets

/-- The cipher of the AES encryption types. -/
def aesCipher (e : Entropy) : Cipher where
  randomKey drawn etype := .ok { etype, value := ⟨e.key drawn etype.keySize⟩ }
  stringToKey etype password salt := .ok { etype, value := ⟨keyOfPassword etype password salt⟩ }
  encrypt earlier key usage plaintext := do
    let cipher ← (sealOctets key.etype key.value.octets usage (e.confounder earlier) plaintext).mapError .encryption
    return { etype := key.etype.number, kvno := none, cipher }
  decrypt key usage data := do
    let some etype := EncryptionType.ofNumber? data.etype | throw (.unsupportedEncryptionType data.etype)
    if etype ≠ key.etype then throw (.etypeMismatch key.etype data.etype)
    (openOctets key.etype key.value.octets usage data.cipher).mapError .integrity

end Kerberos.Crypto
