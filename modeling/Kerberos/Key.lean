import Kerberos.Octets

/-! # Encryption types and keys

    Two encryption types are implemented.  A message may name any other by its number; such
    numbers are kept as they are and have no `EncryptionType`.  The octets of a key are wrapped
    in `Secret`, whose texts give nothing away. -/

namespace Kerberos

/-! ## Encryption types -/

inductive EncryptionType where
  | aes256
  | aes128
  deriving DecidableEq, Repr

namespace EncryptionType

/-- The assigned number. -/
def number : EncryptionType → UInt64
  | aes256 => 18
  | aes128 => 17

/-- The encryption type with the assigned number, if it is implemented. -/
def ofNumber? (n : UInt64) : Option EncryptionType :=
  if n = 18 then some aes256
  else if n = 17 then some aes128
  else none

/-- The number of octets of a key. -/
def keySize : EncryptionType → Nat
  | aes256 => 32
  | aes128 => 16

/-- The registered name. -/
def name : EncryptionType → String
  | aes256 => "aes256-cts-hmac-sha1-96"
  | aes128 => "aes128-cts-hmac-sha1-96"

theorem ofNumber?_number (e : EncryptionType) : ofNumber? e.number = some e := by
  cases e <;> rfl

end EncryptionType

/-! ## Keys -/

/-- Octets that no text shows. -/
structure Secret where
  /-- The octets themselves. -/
  octets : Octets
  deriving DecidableEq

instance : ToString Secret := ⟨fun _ => "(secret)"⟩

instance : Repr Secret := ⟨fun _ _ => "Secret"⟩

/-- Key material with the encryption type it is for.  Its length is not checked before use. -/
structure EncryptionKey where
  etype : EncryptionType
  value : Secret
  deriving DecidableEq, Repr

end Kerberos
