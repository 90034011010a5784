import Kerberos.Crypto.Sha1

/-! # HMAC-SHA-1 and password-based keys -/

namespace Kerberos.Crypto

/-- A key of which the inner and the outer block have been hashed. -/
structure HmacKey where
  inner : Sha1.Chain
  outer : Sha1.Chain
  deriving DecidableEq, Repr

namespace HmacKey

/-- A key longer than a block is replaced by its digest. -/
def ofOctets (key : Octets) : HmacKey :=
  let short := if Sha1.blockSize < key.length then Sha1.hash key else key
  let block := short ++ List.replicate (Sha1.blockSize - short.length) 0
  let masked (mask : UInt8) := Sha1.compress Sha1.initial (Sha1.words (block.map (· ^^^ mask)))
  { inner := masked 0x36, outer := masked 0x5c }

def mac (key : HmacKey) (message : Octets) : Octets :=
  Sha1.finish key.outer Sha1.blockSize (Sha1.finish key.inner Sha1.blockSize message)

end HmacKey

namespace Pbkdf2

/-- Adds `count` more links of the chain of digests that starts at `link` to `sum`. -/
def addLinks (key : HmacKey) : (count : Nat) → (link sum : Octets) → Octets
  | 0, _, sum => sum
  | count + 1, link, sum =>
    let next := key.mac link
    addLinks key count next (xorOctets sum next)

/-- The block with the given index, counted from 1. -/
def block (key : HmacKey) (salt : Octets) (iterations index : Nat) : Octets :=
  let first := key.mac (salt ++ bigEndianOctets 4 index)
  addLinks key (iterations - 1) first first

/-- The first `size` octets derived from a password. -/
def derive (password salt : Octets) (iterations size : Nat) : Octets :=
  let key := HmacKey.ofOctets password
  ((List.range ((size + 19) / 20)).flatMap fun i => block key salt iterations (i + 1)).take size

end Pbkdf2

end Kerberos.Crypto
