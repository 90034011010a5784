import Kerberos.Asn1.Integer
import Kerberos.Asn1.Reader
import Kerberos.Asn1.Writer
import Kerberos.Message
import Kerberos.Wire.Error

/-! # Fields

    The values that several messages share: numbers, strings, times, bit strings, names,
    keys, addresses, encrypted data.  Each kind of value comes with the function that writes
    it and the reader that finds it, and the two stand next to each other.

    Writing strings can be refused, and writing times can be abandoned.  Reading yields
    checks (`Checked`): the octets have been found, but a number may still be out of range
    or a date may not exist. -/

namespace Kerberos.Wire

open Asn1

/-! ## Numbers -/

/-- The 64-bit value of the contents of an INTEGER. -/
def int64 (field : String) (contents : Octets) : Checked Int64 :=
  match Integer.toInt64? contents with
  | some n => .ok n
  | none => .error (.invalidInteger field)

/-- A number from 0 to 2^8 - 1. -/
def uint8 (field : String) (contents : Octets) : Checked UInt8 := do
  let n ← int64 field contents
  if 0 ≤ n.toInt && n.toInt < 256 then pure (UInt8.ofNat n.toInt.toNat) else throw (.invalidInteger field)

/-- A number from 0 to 2^32 - 1. -/
def uint32 (field : String) (contents : Octets) : Checked UInt32 := do
  let n ← int64 field contents
  if 0 ≤ n.toInt && n.toInt < 4294967296 then pure (UInt32.ofNat n.toInt.toNat) else throw (.invalidInteger field)

/-- A number from 0 to 2^63 - 1. -/
def uint63 (field : String) (contents : Octets) : Checked UInt64 := do
  let n ← int64 field contents
  if 0 ≤ n.toInt then pure n.toUInt64 else throw (.invalidInteger field)

/-- A number from -2^31 to 2^31 - 1. -/
def int32 (field : String) (contents : Octets) : Checked Int32 := do
  let n ← int64 field contents
  if -2147483648 ≤ n.toInt && n.toInt < 2147483648 then pure n.toInt32 else throw (.invalidInteger field)

/-- A nonce: its low 32 bits.  Clients write four random octets, which are a negative number when the
    first bit is set, so numbers down to -2^31 are taken as well as those up to 2^32 - 1. -/
def nonce (contents : Octets) : Checked UInt32 := do
  let n ← int64 "nonce" contents
  if -2147483648 ≤ n.toInt && n.toInt < 4294967296 then pure n.toUInt64.toUInt32
  else throw (.invalidInteger "nonce")

/-! ## Strings -/

/-- The octets of a string of ASCII characters. -/
def asciiOctets? (s : String) : Option Octets :=
  if s.toList.all (fun c => c.toNat < 128) then some (s.toList.map fun c => UInt8.ofNat c.toNat)
  else none

def ofAscii (octets : Octets) : String := String.ofList (octets.map fun octet => Char.ofNat octet.toNat)

def string (field : String) (s : String) : Checked Octets :=
  match asciiOctets? s with
  | some octets => .ok (generalString octets)
  | none => .error (.invalidString field)

def stringReader : Reader String := do
  let contents ← buffer
  Reader.require (contents.all (· < 0x80))
  return ofAscii contents

def realm (s : String) : Checked Octets := string "realm" s

/-! ## Times -/

/-- The ASCII digits of the last `width` decimal places of `n`. -/
def decimal : (width : Nat) → (n : Nat) → Octets
  | 0, _ => []
  | width + 1, n => decimal width (n / 10) ++ [UInt8.ofNat (48 + n % 10)]

/-- The civil time to the second, as in `20261014090507Z`.  There is no sign, so years before 0 have no
    such form. -/
def time (t : Instant) : Written :=
  let c := t.civil
  if c.year < 0 then .error .abandoned
  else
    .ok (generalizedTime (decimal 4 c.year.toNat ++ decimal 2 c.month ++ decimal 2 c.day
      ++ decimal 2 c.hour ++ decimal 2 c.minute ++ decimal 2 c.second ++ [0x5a]))

/-- The number that two digits write.  Only the low half of an octet counts. -/
def twoDigits (tens ones : UInt8) : Nat := (tens &&& 0x0f).toNat * 10 + (ones &&& 0x0f).toNat

/-- Reads fourteen digits and any fifteenth octet.  Days up to 32 pass; whether the date exists is checked
    later. -/
def civilTime? (contents : Octets) : Option CivilTime :=
  match contents with
  | [y₁, y₂, y₃, y₄, mo₁, mo₂, d₁, d₂, h₁, h₂, mi₁, mi₂, s₁, s₂, _] =>
    let c : CivilTime := {
      year := (twoDigits y₁ y₂ * 100 + twoDigits y₃ y₄ : Nat), month := twoDigits mo₁ mo₂, day := twoDigits d₁ d₂
      hour := twoDigits h₁ h₂, minute := twoDigits mi₁ mi₂, second := twoDigits s₁ s₂ }
    if 1 ≤ c.month && c.month ≤ 12 && 1 ≤ c.day && c.day ≤ 32 && c.hour < 24 && c.minute < 60 && c.second < 60 then
      some c
    else none
  | _ => none

def timeReader : Reader CivilTime := do
  let contents ← stamp
  Reader.look fun _ => civilTime? contents

def instant (field : String) (c : CivilTime) : Checked Instant :=
  match Instant.ofCivil? c with
  | some t => .ok t
  | none => .error (.invalidTime field)

/-- A time of a request, for which the start of 1970 means that none is given. -/
def specifiedInstant (field : String) (c : CivilTime) : Checked (Option Instant) := do
  let t ← instant field c
  return if t = Instant.epoch then none else some t

/-! ## Words of bits -/

/-- The word in the contents of a BIT STRING.  The first octet counts unused bits and is not looked at;
    bits that are missing are clear. -/
def word (contents : Octets) : UInt32 := wordOfOctets contents.tail

/-! ## Names -/

/-- The name type is written as the octet it is. -/
def name (n : PrincipalName) : Checked Octets := do
  let components ← n.components.mapM (string "principal name")
  return sequenceOf [explicit 0 (integer [n.kind]), explicit 1 (sequenceOf components)]

def nameReader : Reader (Checked PrincipalName) := Reader.sequence do
  let kind ← Fields.field 0 buffer
  let components ← Fields.field 1 (Reader.sequenceOf stringReader)
  return do
    let kind ← uint8 "name-type" kind
    return { kind, components }

/-! ## Keys -/

def key (k : EncryptionKey) : Octets :=
  sequenceOf [explicit 0 (integer (Integer.ofInt64 k.etype.number.toInt64)), explicit 1 (octetString k.value.octets)]

def keyReader : Reader (Checked EncryptionKey) := Reader.sequence do
  let etype ← Fields.field 0 buffer
  let value ← Fields.field 1 buffer
  return do
    let number ← uint63 "keytype" etype
    match EncryptionType.ofNumber? number with
    | some etype => return { etype, value := ⟨value⟩ }
    | none => throw (.unsupportedKeyType number)

/-! ## Addresses -/

def address (a : HostAddress) : Octets :=
  sequenceOf [explicit 0 (integer (Integer.ofInt32 a.kind)), explicit 1 (octetString a.address)]

def addresses (as : List HostAddress) : Octets := sequenceOf (as.map address)

def addressReader : Reader (Checked HostAddress) := Reader.sequence do
  let kind ← Fields.field 0 buffer
  let address ← Fields.field 1 buffer
  return do
    let kind ← int32 "addr-type" kind
    return { kind, address }

def addressesReader : Reader (Checked (List HostAddress)) := do
  let as ← Reader.sequenceOf addressReader
  return as.mapM id

/-! ## Encrypted data -/

def encryptedData (d : EncryptedData) : Octets :=
  sequenceOf [
    explicit 0 (integer (Integer.ofInt64 d.etype.toInt64)),
    explicit? 1 (d.kvno.map fun kvno => integer (Integer.ofWord kvno)),
    explicit 2 (octetString d.cipher)]

def encryptedDataReader : Reader (Checked EncryptedData) := Reader.sequence do
  let etype ← Fields.field 0 buffer
  let kvno ← Fields.optional 1 buffer
  let cipher ← Fields.field 2 buffer
  return do
    let etype ← uint63 "etype" etype
    let kvno ← kvno.mapM (uint32 "kvno")
    return { etype, kvno, cipher }

/-! ## Pre-authentication data -/

def paData (p : PaData) : Octets :=
  sequenceOf [explicit 1 (integer (Integer.ofWord p.kind)), explicit 2 (octetString p.value)]

def paDataReader : Reader (Checked PaData) := Reader.sequence do
  let kind ← Fields.field 1 buffer
  let value ← Fields.field 2 buffer
  return do
    let kind ← uint32 "padata-type" kind
    return { kind, value }

end Kerberos.Wire
