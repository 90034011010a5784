import Kerberos.Octets

/-! # Lengths

    A length below 128 is one octet.  A longer one is an octet with the top bit set that
    counts its base-256 digits, followed by the digits.  Writing uses as few digits as
    possible; reading takes up to eight, leading zeros included. -/

namespace Kerberos.Asn1

/-- The base-256 digits of `n`, most significant first, without leading zeros; none for zero. -/
def digits (n : Nat) : Octets :=
  if n = 0 then [] else digits (n / 256) ++ [UInt8.ofNat n]

/-- The shortest octets of a length. -/
def lengthOctets (n : Nat) : Octets :=
  if n < 128 then [UInt8.ofNat n]
  else UInt8.ofNat (128 + (digits n).length) :: digits n

/-- Splits a length off the front.  The count of digits without digits is zero.  What is left in case
    of failure is where reading stopped: behind a count that is too large, at the end if digits are missing. -/
def splitLength (octets : Octets) : Option Nat × Octets :=
  match octets with
  | [] => (none, [])
  | first :: rest =>
    if first < 0x80 then (some first.toNat, rest)
    else
      let count := (first &&& 0x7f).toNat
      if 8 < count then (none, rest)
      else if rest.length < count then (none, [])
      else (some (bigEndian (rest.take count)), rest.drop count)

end Kerberos.Asn1
