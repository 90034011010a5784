import Kerberos.Wire.Ticket

/-! # Pre-authentication messages

    The encrypted timestamp that a client proves its key with, and the hint that tells a
    client how to do so. -/

namespace Kerberos

open Asn1

/-! ## Encrypted timestamps -/

def Wire.paEncTimestampReader : Reader (Checked PaEncTimestamp) := Reader.sequence do
  let timestamp ← Fields.field 0 timeReader
  let usec ← Fields.trailing 1 buffer
  return do
    let usec ← usec.mapM (uint32 "pausec")
    if usec.any (PaEncTimestamp.maxUsec < ·) then throw (.invalidInteger "pausec")
    let timestamp ← instant "patimestamp" timestamp
    return { timestamp, usec }

namespace PaEncTimestamp

/-- Microseconds above the greatest number are written as that number. -/
def write (p : PaEncTimestamp) : Written := do
  let timestamp ← Wire.time p.timestamp
  return sequenceOf [
    explicit 0 timestamp,
    explicit? 1 (p.usec.map fun usec => integer (Integer.ofWord (min usec maxUsec)))]

def read (message : Octets) : Checked PaEncTimestamp := Wire.read Wire.paEncTimestampReader message

end PaEncTimestamp

/-! ## Hints -/

/-- What a client needs to know to prove its key. -/
structure PreAuthHint where
  /-- The encryption types of the realm. -/
  etypes : List EncryptionType
  /-- The salt of the client's password. -/
  salt : Option String
  deriving DecidableEq, Repr

namespace PreAuthHint

/-- One entry for each encryption type, all with the same salt. -/
def etypeInfo2 (h : PreAuthHint) : Checked Octets := do
  let salt ← h.salt.mapM (Wire.string "salt")
  return sequenceOf (h.etypes.map fun etype =>
    sequenceOf [explicit 0 (integer (Integer.ofInt64 etype.number.toInt64)), explicit? 1 salt])

end PreAuthHint

/-- A list of pre-authentication data, each of a kind that the client may answer with. -/
def methodData (padata : List PaData) : Octets := sequenceOf (padata.map Wire.paData)

/-- The hint as a list of methods: the encryption types, and an encrypted timestamp to be filled in. -/
def PreAuthHint.methodData (h : PreAuthHint) : Checked Octets := do
  let info ← h.etypeInfo2
  return Kerberos.methodData [⟨PaData.etypeInfo2, info⟩, ⟨PaData.encTimestamp, []⟩]

end Kerberos
