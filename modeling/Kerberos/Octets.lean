/-! # Octet strings

    Messages, keys and ciphertexts are lists of octets.  This file holds the type, bitwise
    sums, and the base-256 numerals that lengths, integers, flags and key usages are written
    with. -/

namespace Kerberos

/-- An octet string: a message, a key, a ciphertext. -/
abbrev Octets := List UInt8

/-- The bitwise sum of two octet strings of the same length. -/
def xorOctets (a b : Octets) : Octets := List.zipWith (· ^^^ ·) a b

/-- The number whose base-256 digits are the octets, most significant first. -/
def bigEndian (octets : Octets) : Nat :=
  octets.foldl (fun n octet => 256 * n + octet.toNat) 0

/-- The `width` low base-256 digits of `n`, most significant first. -/
def bigEndianOctets : (width : Nat) → (n : Nat) → Octets
  | 0, _ => []
  | width + 1, n => bigEndianOctets width (n / 256) ++ [UInt8.ofNat n]

theorem length_bigEndianOctets (width n : Nat) : (bigEndianOctets width n).length = width := by
  induction width generalizing n with
  | zero => rfl
  | succ width ih => simp [bigEndianOctets, ih]

/-- The 32-bit word that the first four octets write; octets that are missing count as zero. -/
def wordOfOctets (octets : Octets) : UInt32 :=
  let padded := octets.take 4 ++ List.replicate (4 - octets.length) 0
  UInt32.ofNat (bigEndian padded)

/-- The four octets of a 32-bit word. -/
def octetsOfWord (word : UInt32) : Octets :=
  bigEndianOctets 4 word.toNat

theorem length_octetsOfWord (word : UInt32) : (octetsOfWord word).length = 4 :=
  length_bigEndianOctets 4 word.toNat

end Kerberos
