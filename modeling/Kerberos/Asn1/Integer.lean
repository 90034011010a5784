import Kerberos.Octets

/-! # The contents of an INTEGER

    An INTEGER is written in two's complement with as few octets as possible (`ofInt64`).
    Reading (`toInt64?`) takes any number of sign octets: they are dropped first, and what
    is left has to fit in 64 bits.  The octets that are left are then shifted into a 64-bit
    register that starts as all zeros or all ones, according to the sign. -/

namespace Kerberos.Asn1.Integer

/-! ## Two's complement -/

/-- The number that the octets write, of whatever size. -/
def value (octets : Octets) : Int :=
  (BitVec.ofNat (8 * octets.length) (bigEndian octets)).toInt

/-! ## Writing -/

/-- Drops leading octets as long as the octet behind repeats their sign. -/
def shortest : Octets → Octets
  | first :: second :: rest =>
    if (first = 0x00 ∧ second < 0x80) ∨ (first = 0xff ∧ 0x80 ≤ second) then
      shortest (second :: rest)
    else first :: second :: rest
  | octets => octets

/-- The shortest two's complement octets of a 64-bit number. -/
def ofInt64 (n : Int64) : Octets :=
  shortest (bigEndianOctets 8 n.toUInt64.toNat)

/-- The shortest octets of a 32-bit number without sign. -/
def ofWord (n : UInt32) : Octets :=
  ofInt64 (Int64.ofNat n.toNat)

/-- The shortest octets of a 32-bit number with sign. -/
def ofInt32 (n : Int32) : Octets :=
  ofInt64 n.toInt64

/-! ## Reading -/

/-- The octet that extends the number to the left: all ones behind a set sign bit. -/
def signOctet (octets : Octets) : UInt8 :=
  match octets with
  | first :: _ => if first < 0x80 then 0x00 else 0xff
  | [] => 0x00

/-- The octets behind the leading sign octets. -/
def significant (octets : Octets) : Octets :=
  octets.dropWhile (· == signOctet octets)

/-- Shifts octets into a 64-bit register from the right. -/
def shiftIn (register : UInt64) (octets : Octets) : UInt64 :=
  octets.foldl (fun word octet => (word <<< 8) ||| octet.toUInt64) register

/-- Reads a number, or `none` if more than eight octets are significant.  No octets at all are zero. -/
def toInt64? (octets : Octets) : Option Int64 :=
  if 8 < (significant octets).length then none
  else
    let start := if signOctet octets = 0xff then 0xffffffffffffffff else 0
    some (shiftIn start (significant octets)).toInt64

end Kerberos.Asn1.Integer
