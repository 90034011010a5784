import Kerberos.Octets

/-! # Folding octets to a fixed size

    Copies of the input, each rotated by thirteen bits more than the one before, are written
    one after the other until their length is a multiple of the wanted size.  The pieces of
    that size are then added with the carry brought round to the lowest bit. -/

namespace Kerberos.Crypto

/-- The octets, all their bits rotated to the right. -/
def rotateRight (octets : Octets) (count : Nat) : Octets :=
  let bits := BitVec.ofNat (8 * octets.length) (bigEndian octets)
  bigEndianOctets octets.length (bits.rotateRight count).toNat

/-- Consecutive pieces of `size` octets, `count` of them. -/
def pieces (size : Nat) : (count : Nat) → Octets → List Octets
  | 0, _ => []
  | count + 1, octets => octets.take size :: pieces size count (octets.drop size)

/-- The sum of two numbers of `width` bits in ones' complement. -/
def onesComplementAdd (width a b : Nat) : Nat := (a + b) % (1 <<< width) + (a + b) >>> width

/-- The input, which is not empty, folded to `size` octets. -/
def nFold (size : Nat) (input : Octets) : Octets :=
  let length := Nat.lcm size input.length
  let copies := (List.range (length / input.length)).flatMap fun i => rotateRight input (13 * i)
  let numbers := (pieces size (length / size) copies).map bigEndian
  bigEndianOctets size (numbers.foldl (onesComplementAdd (8 * size)) 0)

end Kerberos.Crypto
