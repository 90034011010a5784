import Kerberos.Asn1.Length

/-! # Writing DER

    Every value is a tag octet, the length of the contents in as few octets as possible, and
    the contents.  Tags of context class are always explicit: they wrap a complete value. -/

namespace Kerberos.Asn1

/-- A complete value. -/
def element (tag : UInt8) (contents : Octets) : Octets :=
  tag :: lengthOctets contents.length ++ contents

def integer (contents : Octets) : Octets := element 0x02 contents

def octetString (contents : Octets) : Octets := element 0x04 contents

def generalString (contents : Octets) : Octets := element 0x1b contents

def generalizedTime (contents : Octets) : Octets := element 0x18 contents

/-- A BIT STRING of 32 bits. -/
def bitString (word : UInt32) : Octets := element 0x03 (0x00 :: octetsOfWord word)

/-- A SEQUENCE or a SEQUENCE OF, from its complete members. -/
def sequenceOf (members : List Octets) : Octets := element 0x30 members.flatten

/-- The explicit context tag `[n]` around a complete value. -/
def explicit (n : UInt8) (value : Octets) : Octets := element (0xa0 + n) value

/-- An explicit field that is left out when there is no value. -/
def explicit? (n : UInt8) (value : Option Octets) : Octets :=
  match value with
  | some value => explicit n value
  | none => []

/-- The tag `[APPLICATION n]` around a complete value. -/
def application (n : UInt8) (value : Octets) : Octets := element (0x60 + n) value

end Kerberos.Asn1
